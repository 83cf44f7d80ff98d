import Mathlib.Data.List.Nodup
import Parsar.Inbound.Calls

namespace Parsar.Inbound

open GoStd

def Message.run (m : Message) : Run :=
  ⟨m.id, m.conversationID, m.id, m.senderID, m.targetAgentID, "agents_api"⟩

def Message.Placed (db : Database) (m : Message) : Prop :=
  ∃ c ∈ db.conversations, c.id = m.conversationID ∧ m.gateway = some c.key.platform ∧
    ∃ agent, db.agents.find? (fun agent => agent.id == m.targetAgentID) = some agent ∧
      c.key.workspaceID = agent.workspaceID

structure Sound (db : Database) (n : Nat) : Prop where
  live : ∀ c ∈ db.conversations, c.deleted = false
  conversationsBelow : ∀ c ∈ db.conversations, c.id < n
  keyed : ∀ c ∈ db.conversations, ∀ d ∈ db.conversations, c.id = d.id ↔ c.key = d.key
  messagesBelow : ∀ m ∈ db.messages, m.id < n
  messageIDs : (db.messages.map Message.id).Nodup
  placed : ∀ m ∈ db.messages, m.Placed db
  source : ∀ m ∈ db.messages, m.source = some "gateway"
  named : ∀ m ∈ db.messages, ∀ m' ∈ db.messages, m.conversationID = m'.conversationID →
    m.gateway = m'.gateway → m.externalMessageID = m'.externalMessageID → m.id = m'.id
  runs : db.runs = db.messages.map Message.run

namespace Sound

variable {db : Database} {n : Nat}

theorem runIDs (h : Sound db n) {m : Message} (hm : m ∈ db.messages) :
    db.listAgentRunsByTriggerMessage m.id = [m.id] := by
  have hids : db.listAgentRunsByTriggerMessage m.id =
      (db.messages.map Message.id).filter (fun id => id == m.id) := by
    simp [Database.listAgentRunsByTriggerMessage, h.runs, List.filter_map, Function.comp_def,
      Message.run]
  rw [hids, List.filter_beq, List.count_eq_one_of_mem h.messageIDs (List.mem_map_of_mem hm)]
  rfl

end Sound

structure Unused (db : Database) (i : Nat) : Prop where
  conversation : ∀ c ∈ db.conversations, c.id ≠ i
  message : ∀ m ∈ db.messages, m.id ≠ i

def Held (s : Server) (i id : Nat) (fresh : Bool) (key : ConversationKey) : Prop :=
  if fresh then id = i ∧ s.keyLocks key = some i ∧ ∀ c ∈ s.db.conversations, c.key ≠ key
  else s.rowLocks id = some i ∧ ∃ c ∈ s.db.conversations, c.id = id ∧ c.key = key

/-- The message that the tables hold for the conversation and the external id of the call. -/
structure Message.Of (db : Database) (input : CreateInboundIMMessageInput) (m : Message) :
    Prop where
  mem : m ∈ db.messages
  named : ∃ agent, db.targetAgent input = .ok agent ∧ ∃ c ∈ db.conversations,
    c.key = input.conversationKey agent ∧ m.Named c.id input

def Phase.Ok (s : Server) (i : Nat) (input : CreateInboundIMMessageInput) : Phase → Prop
  | .begun => Unused s.db i
  | .selecting agent | .inserting agent => Unused s.db i ∧ s.db.targetAgent input = .ok agent
  | .updating agent id => Unused s.db i ∧ s.db.targetAgent input = .ok agent ∧
    ∃ c ∈ s.db.conversations, c.id = id ∧ c.key = input.conversationKey agent
  | .looking agent id fresh => Unused s.db i ∧ s.db.targetAgent input = .ok agent ∧
    Held s i id fresh (input.conversationKey agent)
  | .listing _ m => m.Of s.db input
  | .writing agent id fresh => Unused s.db i ∧ s.db.targetAgent input = .ok agent ∧
    Held s i id fresh (input.conversationKey agent) ∧ ∀ m ∈ s.db.messages, ¬m.Named id input
  | .returned result => ∃ m : Message, m.Of s.db input ∧ m.id = result.messageID ∧
    result.runIDs = [m.id]
  | .failed _ => True

structure CallOk (s : Server) (i : Nat) (c : Call) : Prop where
  addressed : Addressed c.input
  phase : c.phase.Ok s i c.input

/-- What a step of call `i` leaves to the other calls. -/
structure Spares (i : Nat) (s t : Server) : Prop where
  agents : t.db.agents = s.db.agents
  conversations : ∀ c ∈ s.db.conversations, ∃ d ∈ t.db.conversations, d.id = c.id ∧ d.key = c.key
  newConversations : ∀ d ∈ t.db.conversations,
    (∃ c ∈ s.db.conversations, d.id = c.id ∧ d.key = c.key) ∨ (d.id = i ∧ s.keyLocks d.key = some i)
  messages : ∀ m ∈ s.db.messages, m ∈ t.db.messages
  newMessages : ∀ m ∈ t.db.messages, m ∈ s.db.messages ∨ (m.id = i ∧
    ((s.rowLocks m.conversationID = some i ∧ ∃ c ∈ s.db.conversations, c.id = m.conversationID) ∨
      (m.conversationID = i ∧ ∀ c ∈ s.db.conversations, c.id ≠ i)))
  rowLocks : ∀ id j, j ≠ i → s.rowLocks id = some j → t.rowLocks id = some j
  keyLocks : ∀ key j, j ≠ i → s.keyLocks key = some j → t.keyLocks key = some j

namespace Spares

variable {i j : Nat} {s t : Server}

theorem of_db (hdb : t.db = s.db)
    (hrows : ∀ id j, j ≠ i → s.rowLocks id = some j → t.rowLocks id = some j)
    (hkeys : ∀ key j, j ≠ i → s.keyLocks key = some j → t.keyLocks key = some j) :
    Spares i s t := by
  refine ⟨by rw [hdb], ?_, ?_, by rw [hdb]; exact fun _ hm => hm, ?_, hrows, hkeys⟩
  · intro c hc
    exact ⟨c, hdb ▸ hc, rfl, rfl⟩
  · intro d hd
    exact .inl ⟨d, hdb ▸ hd, rfl, rfl⟩
  · intro m hm
    exact .inl (hdb ▸ hm)

theorem refl (i : Nat) (s : Server) : Spares i s s :=
  of_db rfl (fun _ _ _ h => h) (fun _ _ _ h => h)

theorem release (s : Server) (i : Nat) : Spares i s (s.release i) := by
  refine of_db rfl ?_ ?_
  · intro id j hj hlock
    simp [Server.release, hlock, hj]
  · intro key j hj hlock
    simp [Server.release, hlock, hj]

theorem unused (h : Spares i s t) (hj : j ≠ i) (hu : Unused s.db j) : Unused t.db j := by
  constructor
  · intro d hd
    obtain ⟨c, hc, hid, -⟩ | ⟨hid, -⟩ := h.newConversations d hd
    · rw [hid]
      exact hu.conversation c hc
    · rw [hid]
      exact hj.symm
  · intro m hm
    obtain hm | ⟨hid, -⟩ := h.newMessages m hm
    · exact hu.message m hm
    · rw [hid]
      exact hj.symm

theorem targetAgent (h : Spares i s t) (input : CreateInboundIMMessageInput) :
    t.db.targetAgent input = s.db.targetAgent input := by
  simp only [Database.targetAgent, h.agents]

theorem located (h : Spares i s t) {id : Nat} {key : ConversationKey}
    (hc : ∃ c ∈ s.db.conversations, c.id = id ∧ c.key = key) :
    ∃ c ∈ t.db.conversations, c.id = id ∧ c.key = key := by
  obtain ⟨c, hc, hid, hkey⟩ := hc
  obtain ⟨d, hd, hdid, hdkey⟩ := h.conversations c hc
  exact ⟨d, hd, hdid.trans hid, hdkey.trans hkey⟩

theorem held (h : Spares i s t) (hj : j ≠ i) {id : Nat} {fresh : Bool} {key : ConversationKey}
    (hheld : Held s j id fresh key) : Held t j id fresh key := by
  cases fresh with
  | false => exact ⟨h.rowLocks id j hj hheld.1, h.located hheld.2⟩
  | true =>
    obtain ⟨hid, hlock, hkeys⟩ := hheld
    refine ⟨hid, h.keyLocks key j hj hlock, ?_⟩
    intro d hd hkey
    obtain ⟨c, hc, -, hck⟩ | ⟨-, hlock'⟩ := h.newConversations d hd
    · exact hkeys c hc (hck.symm.trans hkey)
    · rw [hkey, hlock] at hlock'
      exact hj (Option.some.inj hlock')

end Spares

theorem selectConversation_some {db : Database} {key : ConversationKey} {c : Conversation}
    (h : db.selectConversation key = some c) : c ∈ db.conversations ∧ c.key = key := by
  have hmem := earliest_mem h
  simp only [List.mem_filter, Bool.and_eq_true, beq_iff_eq] at hmem
  exact ⟨hmem.1, hmem.2.1.1⟩

theorem not_keyTaken {db : Database} {n : Nat} (hs : Sound db n)
    {input : CreateInboundIMMessageInput} (ha : Addressed input) {agent : Agent}
    (ht : db.targetAgent input = .ok agent)
    (h : db.keyTaken (input.conversationKey agent) = false) :
    ∀ c ∈ db.conversations, c.key ≠ input.conversationKey agent := by
  intro c hc hkey
  have hplatform : input.platform ≠ "" := by
    rw [ha.platform]
    exact ha.gateway
  have hchat := (targetAgent_ok ht).2.2
  rw [Database.keyTaken, List.any_eq_false] at h
  exact h c hc (by simp [hkey, hs.live c hc, CreateInboundIMMessageInput.conversationKey, hplatform,
    hchat])

section Commit

variable {s : Server} {n i id : Nat} {input : CreateInboundIMMessageInput} {agent : Agent}
  {fresh : Bool} {now : Time}

theorem mem_commit_conversations {db : Database} {d : Conversation}
    (hd : d ∈ (db.commit input i agent id fresh now).conversations) :
    (∃ c ∈ db.conversations, d.id = c.id ∧ d.key = c.key ∧ d.deleted = c.deleted) ∨
      (fresh = true ∧ d = input.newConversation id agent now) := by
  cases fresh with
  | true =>
    exact (mem_concat hd).imp (fun hd => ⟨d, hd, rfl, rfl, rfl⟩) fun hd => ⟨rfl, hd⟩
  | false =>
    obtain ⟨c, hc, rfl⟩ := List.mem_map.1 hd
    refine .inl ⟨c, hc, ?_⟩
    split_ifs <;> simp

variable (i id input agent fresh now) in
theorem commit_conversations {db : Database} {c : Conversation} (hc : c ∈ db.conversations) :
    ∃ d ∈ (db.commit input i agent id fresh now).conversations, d.id = c.id ∧ d.key = c.key := by
  cases fresh with
  | true => exact ⟨c, List.mem_append_left _ hc, rfl, rfl⟩
  | false =>
    refine ⟨_, List.mem_map_of_mem hc, ?_⟩
    split_ifs <;> simp

variable (now) in
theorem commit_held (hheld : Held s i id fresh (input.conversationKey agent)) :
    ∃ d ∈ (s.db.commit input i agent id fresh now).conversations,
      d.id = id ∧ d.key = input.conversationKey agent := by
  cases fresh with
  | true => exact ⟨_, List.mem_concat_self, rfl, rfl⟩
  | false =>
    obtain ⟨c, hc, hid, hkey⟩ := hheld.2
    obtain ⟨d, hd, hdid, hdkey⟩ := commit_conversations i id input agent false now hc
    exact ⟨d, hd, hdid.trans hid, hdkey.trans hkey⟩

theorem Message.Placed.commit {db : Database} {m : Message} (h : m.Placed db) :
    m.Placed (db.commit input i agent id fresh now) := by
  obtain ⟨c, hc, hid, hgateway, hagent⟩ := h
  obtain ⟨d, hd, hdid, hdkey⟩ := commit_conversations i id input agent fresh now hc
  exact ⟨d, hd, hdid.trans hid, by rw [hdkey]; exact hgateway, by rw [hdkey]; exact hagent⟩

theorem Sound.commit (hs : Sound s.db n) (hi : i < n) (ha : Addressed input)
    (hu : Unused s.db i) (ht : s.db.targetAgent input = .ok agent)
    (hheld : Held s i id fresh (input.conversationKey agent))
    (hnone : ∀ m ∈ s.db.messages, ¬m.Named id input) :
    Sound (s.db.commit input i agent id fresh now) n := by
  obtain ⟨hfind, htype, -⟩ := targetAgent_ok ht
  have hnamed := ha.named i id (s.db.senderID input) now
  have hnew : ∀ c ∈ s.db.conversations, ∀ d, fresh = true → d = input.newConversation id agent now →
      (c.id = d.id ↔ c.key = d.key) := by
    rintro c hc d rfl rfl
    obtain ⟨rfl, -, hkeys⟩ := hheld
    exact ⟨fun hid => absurd hid (hu.conversation c hc), fun hkey => absurd hkey (hkeys c hc)⟩
  have hother : ∀ m ∈ s.db.messages, ∀ m', m' = input.newMessage i id (s.db.senderID input) now →
      ¬(m.conversationID = m'.conversationID ∧ m.gateway = m'.gateway ∧
        m.externalMessageID = m'.externalMessageID) := by
    rintro m hm m' rfl ⟨hconversation, hgateway, hname⟩
    exact hnone m hm ⟨hconversation, hs.source m hm, hgateway.trans hnamed.gateway,
      hname.trans hnamed.message⟩
  refine ⟨?_, ?_, ?_, ?_, ?_, ?_, ?_, ?_, ?_⟩
  · intro d hd
    obtain ⟨c, hc, -, -, hdeleted⟩ | ⟨-, rfl⟩ := mem_commit_conversations hd
    · rw [hdeleted]
      exact hs.live c hc
    · rfl
  · intro d hd
    obtain ⟨c, hc, hid, -, -⟩ | ⟨rfl, rfl⟩ := mem_commit_conversations hd
    · rw [hid]
      exact hs.conversationsBelow c hc
    · rw [show (input.newConversation id agent now).id = id from rfl, hheld.1]
      exact hi
  · intro d hd d' hd'
    obtain ⟨c, hc, hid, hkey, -⟩ | ⟨hfresh, hd⟩ := mem_commit_conversations hd
    · obtain ⟨c', hc', hid', hkey', -⟩ | ⟨hfresh, hd'⟩ := mem_commit_conversations hd'
      · rw [hid, hkey, hid', hkey']
        exact hs.keyed c hc c' hc'
      · rw [hid, hkey]
        exact hnew c hc d' hfresh hd'
    · obtain ⟨c', hc', hid', hkey', -⟩ | ⟨-, hd'⟩ := mem_commit_conversations hd'
      · rw [hid', hkey', eq_comm, eq_comm (a := d.key)]
        exact hnew c' hc' d hfresh hd
      · rw [hd, hd']
        exact ⟨fun _ => rfl, fun _ => rfl⟩
  · exact forall_mem_concat hs.messagesBelow hi
  · simp only [Database.commit, List.map_append, List.map_cons, List.map_nil]
    refine pairwise_concat hs.messageIDs fun k hk => ?_
    obtain ⟨m, hm, rfl⟩ := List.mem_map.1 hk
    exact hu.message m hm
  · intro m hm
    rcases mem_concat hm with hm | rfl
    · exact (hs.placed m hm).commit
    · obtain ⟨d, hd, hid, hkey⟩ := commit_held now hheld
      refine ⟨d, hd, hid, ?_, agent, hfind, by rw [hkey]; rfl⟩
      rw [hkey, hnamed.gateway, CreateInboundIMMessageInput.conversationKey, ha.platform]
  · exact forall_mem_concat hs.source hnamed.source
  · intro m hm m' hm' hconversation hgateway hname
    rcases mem_concat hm with hm | hm <;> rcases mem_concat hm' with hm' | hm'
    · exact hs.named m hm m' hm' hconversation hgateway hname
    · exact absurd ⟨hconversation, hgateway, hname⟩ (hother m hm m' hm')
    · exact absurd ⟨hconversation.symm, hgateway.symm, hname.symm⟩ (hother m' hm' m hm)
    · rw [hm, hm']
  · have hid : agent.id = trimSpace input.targetAgentID := by simpa using List.find?_some hfind
    simp [Database.commit, hs.runs, htype, hid, Message.run, CreateInboundIMMessageInput.newMessage]

theorem Spares.commit (hu : Unused s.db i)
    (hheld : Held s i id fresh (input.conversationKey agent)) :
    Spares i s { s.release i with db := s.db.commit input i agent id fresh now } := by
  have hrelease := Spares.release s i
  refine ⟨rfl, fun c hc => commit_conversations i id input agent fresh now hc, ?_,
    fun m hm => List.mem_append_left _ hm, ?_,
    hrelease.rowLocks, hrelease.keyLocks⟩
  · intro d hd
    obtain ⟨c, hc, hid, hkey, -⟩ | ⟨rfl, rfl⟩ := mem_commit_conversations hd
    · exact .inl ⟨c, hc, hid, hkey⟩
    · exact .inr ⟨hheld.1, hheld.2.1⟩
  · intro m hm
    rcases mem_concat hm with hm | rfl
    · exact .inl hm
    · refine .inr ⟨rfl, ?_⟩
      cases fresh with
      | true => exact .inr ⟨hheld.1, hu.conversation⟩
      | false =>
        obtain ⟨c, hc, hid, -⟩ := hheld.2
        exact .inl ⟨hheld.1, c, hc, hid⟩

end Commit

section Steps

variable {s t : Server} {n i : Nat} {c d : Call}

theorem lock_kept {κ : Type*} [DecidableEq κ] {locks : κ → Option Nat} {k : κ}
    (hfree : ¬Server.heldByOther (locks k) i = true) (k' : κ) (j : Nat) (hj : j ≠ i)
    (hlock : locks k' = some j) : Function.update locks k (some i) k' = some j := by
  by_cases hk : k' = k
  · subst hk
    exact absurd (by simp [Server.heldByOther, hlock, hj]) hfree
  · rw [Function.update_of_ne hk, hlock]

theorem step_of_db (hs : Sound s.db n) (hspares : Spares i s t) (hdb : t.db = s.db)
    (ha : Addressed c.input) (hphase : c.phase.Ok t i c.input) :
    Spares i s t ∧ Sound t.db n ∧ CallOk t i c :=
  ⟨hspares, hdb ▸ hs, ⟨ha, hphase⟩⟩

theorem next_ok (hs : Sound s.db n) (hc : CallOk s i c) (h : c.next i s = some (t, d)) :
    Spares i s t ∧ Sound t.db n ∧ CallOk t i d := by
  have ha := hc.addressed
  have hphase := hc.phase
  unfold Call.next at h
  cases hp : c.phase with
  | begun =>
    rw [hp] at h hphase
    simp only at h
    split at h
    · cases h
      exact step_of_db hs (.release s i) rfl ha trivial
    next agent hagent =>
      cases h
      exact step_of_db hs (.refl i s) rfl ha ⟨hphase, hagent⟩
  | selecting agent =>
    rw [hp] at h hphase
    simp only at h
    split at h
    · cases h
      exact step_of_db hs (.refl i s) rfl ha hphase
    next found hfound =>
      cases h
      obtain ⟨hmem, hkey⟩ := selectConversation_some hfound
      exact step_of_db hs (.refl i s) rfl ha ⟨hphase.1, hphase.2, found, hmem, rfl, hkey⟩
  | inserting agent =>
    rw [hp] at h hphase
    simp only at h
    split_ifs at h with hheld htaken
    · cases h
      exact step_of_db hs (.release s i) rfl ha trivial
    · cases h
      have hkeys := not_keyTaken hs ha hphase.2 (by simpa using htaken)
      exact step_of_db hs (.of_db rfl (fun _ _ _ hlock => hlock) (lock_kept hheld)) rfl ha
        ⟨hphase.1, hphase.2, rfl, Function.update_self .., hkeys⟩
  | updating agent id =>
    rw [hp] at h hphase
    simp only at h
    split_ifs at h with hheld
    cases h
    exact step_of_db hs (.of_db rfl (lock_kept hheld) (fun _ _ _ hlock => hlock)) rfl ha
      ⟨hphase.1, hphase.2.1, Function.update_self .., hphase.2.2⟩
  | looking agent id fresh =>
    rw [hp] at h hphase
    simp only [ha.deduplicates, if_true] at h
    split at h
    next m hm =>
      cases h
      obtain ⟨hmem, hnamed⟩ := named_of_getGatewayInboundMessage hm
      obtain ⟨hu, htarget, hheld⟩ := hphase
      refine step_of_db hs (.refl i s) rfl ha ⟨hmem, agent, htarget, ?_⟩
      cases fresh with
      | false =>
        obtain ⟨d, hd, rfl, hkey⟩ := hheld.2
        exact ⟨d, hd, hkey, hnamed⟩
      | true =>
        obtain ⟨d, hd, hid, -⟩ := hs.placed m hmem
        exact absurd (hid.trans (hnamed.conversation.trans hheld.1)) (hu.conversation d hd)
    next hnone =>
      cases h
      exact step_of_db hs (.refl i s) rfl ha ⟨hphase.1, hphase.2.1, hphase.2.2,
        fun m hm => not_named_of_getGatewayInboundMessage hnone hm⟩
  | listing agent m =>
    rw [hp] at h hphase
    cases h
    exact step_of_db hs (.release s i) rfl ha ⟨m, hphase, rfl, hs.runIDs hphase.mem⟩
  | writing _ _ _ | returned _ | failed _ =>
    rw [hp] at h
    cases h

theorem step_ok (hs : Sound s.db n) (hi : i < n) (hc : CallOk s i c) {a : CallAction}
    (h : c.step i s a = some (t, d)) : Spares i s t ∧ Sound t.db n ∧ CallOk t i d := by
  have ha := hc.addressed
  cases a with
  | next => exact next_ok hs hc h
  | fail =>
    simp only [Call.step] at h
    split_ifs at h
    cases h
    exact step_of_db hs (.release s i) rfl ha trivial
  | commit reported =>
    simp only [Call.step] at h
    split at h
    next agent id fresh hp =>
      cases h
      have hphase := hc.phase
      rw [hp] at hphase
      obtain ⟨hu, ht, hheld, hnone⟩ := hphase
      refine ⟨.commit hu hheld, hs.commit hi ha hu ht hheld hnone, ha, ?_⟩
      cases reported with
      | false => trivial
      | true =>
        obtain ⟨d, hd, hid, hkey⟩ := commit_held c.now hheld
        exact ⟨_, ⟨List.mem_concat_self, agent, ht, d, hd, hkey, hid ▸ ha.named ..⟩, rfl, rfl⟩
    · cases h

end Steps

def CallsAction.Addressed : CallsAction → Prop
  | .spawn request => Inbound.Addressed request.1
  | _ => True

def opening (i : Nat) : List CallsAction :=
  [.run i .next, .run i .next, .run i .next, .run i .next, .run i (.commit true)]

instance (input : CreateInboundIMMessageInput) : Decidable (Addressed input) :=
  decidable_of_iff (trimSpace input.source = "gateway" ∧ trimSpace input.gateway ≠ "" ∧
    trimSpace input.externalMessageID ≠ "" ∧
    ∀ key ∈ ["source", "gateway", "external_message_id"], (input.metadata.lookup key).join = none)
    ⟨fun h => ⟨h.1, h.2.1, h.2.2.1, h.2.2.2⟩, fun h => ⟨h.1, h.2, h.3, h.4⟩⟩

instance : ∀ a : CallsAction, Decidable a.Addressed
  | .spawn (input, _) => inferInstanceAs (Decidable (Inbound.Addressed input))
  | .run .. => .isTrue trivial
  | .env e => nomatch e

instance (m : Message) (id : Nat) (input : CreateInboundIMMessageInput) :
    Decidable (m.Named id input) :=
  decidable_of_iff (m.conversationID = id ∧ m.source = some "gateway" ∧
    m.gateway = some input.gatewayName ∧ m.externalMessageID = some input.messageName)
    ⟨fun h => ⟨h.1, h.2.1, h.2.2.1, h.2.2.2⟩, fun h => ⟨h.1, h.2, h.3, h.4⟩⟩

end Parsar.Inbound
