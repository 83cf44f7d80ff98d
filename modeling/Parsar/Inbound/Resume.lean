import Parsar.Inbound.Requester

namespace Parsar.Inbound

open GoStd

structure Faults where
  claim : Fault := .none
  encrypt : Bool := false
  store : Fault := .none
  enqueue : Fault := .none

structure Submitted where
  forms : Forms
  ack : ActionAck
  admission : Option CreateInboundIMMessageResult := none

def Forms.resume (s : Forms) (now : Time) (qkey : String) (claimed : ClaimedPendingCredentialForm)
    (replaced : Nat) (fault : Fault) : Submitted :=
  if trimSpace claimed.slot.agentID = "" then ⟨s, routingLost, none⟩
  else match s.enqueue now (Forms.resumeInput qkey claimed) fault with
    | (s, .error ack) => ⟨s, ack, none⟩
    | (s, .ok result) => ⟨s, submittedAck replaced, some result⟩

def Forms.save (s : Forms) (now : Time) (qkey : String) (claimed : ClaimedPendingCredentialForm)
    (bindings : List Binding) (faults : Faults) : Submitted :=
  match Forms.encrypt claimed.slot.initiatorUserID bindings faults.encrypt with
  | .error ack => ⟨s, ack, none⟩
  | .ok inputs =>
    match s.store claimed.slot.initiatorUserID inputs faults.store with
    | (s, .error ack) => ⟨s, ack, none⟩
    | (s, .ok replaced) => s.resume now qkey claimed replaced faults.enqueue

def Forms.routeCredentialFormSubmit (s : Forms) (now : Time) (action : CardAction)
    (faults : Faults) : Submitted :=
  match action.bindings with
  | .error ack => ⟨s, ack, none⟩
  | .ok bindings =>
    match s.claim (trimSpace action.qkey) now faults.claim with
    | (s, .error ack) => ⟨s, ack, none⟩
    | (s, .ok claimed) =>
      match action.authorize claimed with
      | .error ack => ⟨s, ack, none⟩
      | .ok () => s.save now (trimSpace action.qkey) claimed bindings faults

structure Matching (s : Forms) (c : Conversation) (slot : PendingCredentialFormSlot) (now : Time)
    (action : CardAction) (bindings : List Binding) : Prop where
  row : c ∈ s.db.conversations
  live : c.deleted = false
  pending : c.pendingCredentialForm = some slot
  unexpired : now.nanos < slot.expiresAt.nanos
  qkey : slot.qkey = trimSpace action.qkey
  filled : action.bindings = .ok bindings
  authorized : action.authorize (c.claimed slot) = .ok ()
  /-- The query has not been resumed before. -/
  unused : ∀ m ∈ s.db.messages,
    m.externalMessageID ≠ some (Forms.resumeInput slot.qkey (c.claimed slot)).messageName

structure Database.Indexed (db : Database) : Prop where
  ids : (db.conversations.map Conversation.id).Nodup
  keys : ∀ c ∈ db.conversations, ∀ d ∈ db.conversations, c.deleted = false → d.deleted = false →
    c.key = d.key → c.key.platform ≠ "" → c.key.externalID ≠ "" → c.id = d.id
  forms : ∀ c ∈ db.conversations, ∀ d ∈ db.conversations, ∀ k, c.pendingKey = some k →
    d.pendingKey = some k → c.id = d.id

def ActionAck.success (ack : ActionAck) : Prop := ack.toastKind = "success"

def ActionAck.retryLater (ack : ActionAck) : Prop :=
  ack = ⟨"error", "Query failed, please retry later"⟩ ∨
    ack = ⟨"error", "Saving credentials failed, please retry later"⟩

/-- The stashed query is a message of the conversation, and has its run. -/
def Admitted (db : Database) (c : Conversation) (slot : PendingCredentialFormSlot)
    (result : CreateInboundIMMessageResult) : Prop :=
  result.conversationID = c.id ∧ ∃ m ∈ db.messages, m.id = result.messageID ∧
    m.conversationID = c.id ∧ m.content = slot.rawQuery ∧ ∃ r ∈ db.runs,
      result.runIDs = [r.id] ∧ r.triggerMessageID = m.id ∧ r.conversationID = c.id

/-- A success has resumed the query in the conversation of its form; a retry has stored nothing and
succeeds if it is made again in time. -/
structure ResumesOrRetries (s : Forms) (c : Conversation) (slot : PendingCredentialFormSlot)
    (now : Time) (action : CardAction) (faults : Faults) : Prop where
  resumes : (s.routeCredentialFormSubmit now action faults).ack.success →
    ∃ result, (s.routeCredentialFormSubmit now action faults).admission = some result ∧
      Admitted (s.routeCredentialFormSubmit now action faults).forms.db c slot result
  retries : (s.routeCredentialFormSubmit now action faults).ack.retryLater →
    (s.routeCredentialFormSubmit now action faults).forms.credentials = s.credentials ∧
    ∀ later : Time, now.nanos ≤ later.nanos → later.nanos < slot.expiresAt.nanos →
      ((s.routeCredentialFormSubmit now action faults).forms.routeCredentialFormSubmit later action
        {}).ack.success

structure Storable (s : Forms) (slot : PendingCredentialFormSlot) (bindings : List Binding)
    (fault : Fault) : Prop where
  fault : fault = .none
  user : trimSpace slot.initiatorUserID ≠ ""
  kinds : ∀ b ∈ bindings, normalizeCredentialKindCode b.kind ∈ s.kinds

/-- The query's key leads back to the conversation or to an archived one, or the query is not
resumed. -/
def Reaches (db : Database) (c : Conversation) (slot : PendingCredentialFormSlot) (fault : Fault) :
    Prop :=
  trimSpace slot.agentID = "" ∨ fault ≠ .none ∨ ∀ agent,
    db.targetAgent (Forms.resumeInput slot.qkey (c.claimed slot)) = .ok agent →
    (c.active = true ∧ c.key =
        (Forms.resumeInput slot.qkey (c.claimed slot)).conversationKey agent) ∨
      ∃ d ∈ db.conversations, d.deleted = false ∧ d.active = false ∧
        d.key = (Forms.resumeInput slot.qkey (c.claimed slot)).conversationKey agent

structure SameRow (c d : Conversation) : Prop where
  id : c.id = d.id
  key : c.key = d.key
  active : c.active = d.active
  deleted : c.deleted = d.deleted

theorem sameRow_claim (qkey : String) (now : Time) (c : Conversation) :
    SameRow (if claimable qkey now c then c.clear else c) c := by
  split_ifs <;> exact ⟨rfl, rfl, rfl, rfl⟩

section Submit

variable {s : Forms} {c : Conversation} {slot : PendingCredentialFormSlot} {now : Time}
  {action : CardAction} {bindings : List Binding} {faults : Faults}

theorem Matching.claimable (h : Matching s c slot now action bindings) :
    claimable (trimSpace (trimSpace action.qkey)) now c = true := by
  simp [Inbound.claimable, h.live, h.pending, h.qkey, trimSpace_trimSpace, h.unexpired]

variable (hix : s.db.Indexed) (h : Matching s c slot now action bindings)

include hix h

theorem claimable_eq {d : Conversation} (hd : d ∈ s.db.conversations) {t : Time}
    (hclaim : Inbound.claimable (trimSpace (trimSpace action.qkey)) t d = true) : d = c := by
  obtain ⟨-, slot', hslot', hkey, -⟩ := claimable_key hclaim
  have hdkey : d.pendingKey = some (trimSpace action.qkey) := by
    rw [Conversation.pendingKey, hslot', Option.map_some, hkey, trimSpace_trimSpace]
  have hckey : c.pendingKey = some (trimSpace action.qkey) := by
    rw [Conversation.pendingKey, h.pending, Option.map_some, h.qkey]
  exact List.inj_on_of_nodup_map hix.ids hd h.row (hix.forms d hd c h.row _ hdkey hckey)

theorem Matching.claim :
    s.claim (trimSpace action.qkey) now .none =
      ({ s with db := (s.db.claimPendingCredentialFormSlot (trimSpace action.qkey) now).2 },
        .ok (c.claimed slot)) := by
  have hfind : s.db.conversations.find?
      (Inbound.claimable (trimSpace (trimSpace action.qkey)) now) = some c := by
    cases hfound : s.db.conversations.find?
        (Inbound.claimable (trimSpace (trimSpace action.qkey)) now) with
    | none => exact absurd h.claimable (List.find?_eq_none.1 hfound c h.row)
    | some d =>
      rw [claimable_eq hix h (List.mem_of_find?_eq_some hfound) (List.find?_some hfound)]
  simp only [Forms.claim, Database.claimPendingCredentialFormSlot, hfind, Option.bind_some,
    h.pending, Option.map_some]

theorem Matching.claimed_once {t : Forms}
    (hdb : t.db = (s.db.claimPendingCredentialFormSlot (trimSpace action.qkey) now).2)
    (later : Time) (faults : Faults) (hfault : faults.claim = .none) :
    (t.routeCredentialFormSubmit later action faults).ack =
      ⟨"info", "This request has expired; please resend the message"⟩ := by
  have hnone : t.db.conversations.find?
      (Inbound.claimable (trimSpace (trimSpace action.qkey)) later) = none := by
    refine List.find?_eq_none.2 (fun d hd hclaim => ?_)
    rw [hdb] at hd
    obtain ⟨e, he, rfl⟩ := List.mem_map.1 hd
    split_ifs at hclaim with hbefore
    · simp [Inbound.claimable, Conversation.clear] at hclaim
    · rw [claimable_eq hix h he hclaim] at hbefore
      exact hbefore h.claimable
  simp only [Forms.routeCredentialFormSubmit, h.filled, Forms.claim, hfault,
    Database.claimPendingCredentialFormSlot, hnone, Option.bind_none]

theorem Matching.routed (hfault : faults.claim = .none) :
    s.routeCredentialFormSubmit now action faults = Forms.save
      { s with db := (s.db.claimPendingCredentialFormSlot (trimSpace action.qkey) now).2 }
      now (trimSpace action.qkey) (c.claimed slot) bindings faults := by
  simp only [Forms.routeCredentialFormSubmit, h.filled, hfault, h.claim hix, h.authorized]

end Submit

theorem inboundConversation_cases (db : Database) (input : CreateInboundIMMessageInput)
    (agent : Agent) (hplatform : input.platform ≠ "")
    (hchat : trimSpace input.externalChatID ≠ "") :
    (∃ found ∈ db.conversations, found.key = input.conversationKey agent ∧ found.active = true ∧
      found.deleted = false ∧ db.inboundConversation input agent = .ok (found.id, false)) ∨
    ((∀ d ∈ db.conversations, d.key = input.conversationKey agent → d.deleted = false →
        d.active = false) ∧
      ((∃ d ∈ db.conversations, d.key = input.conversationKey agent ∧ d.deleted = false ∧
          db.inboundConversation input agent = .error .duplicateKey) ∨
        ((∀ d ∈ db.conversations, d.key = input.conversationKey agent → d.deleted = true) ∧
          db.inboundConversation input agent = .ok (db.newID, true)))) := by
  cases hselect : db.selectConversation (input.conversationKey agent) with
  | some found =>
    have hmem := earliest_mem hselect
    simp only [List.mem_filter, Bool.and_eq_true, beq_iff_eq, Bool.not_eq_true'] at hmem
    obtain ⟨hfound, ⟨hkey, hactive⟩, hdeleted⟩ := hmem
    refine .inl ⟨found, hfound, hkey, hactive, hdeleted, ?_⟩
    simp only [Database.inboundConversation, hselect]
  | none =>
    rw [Database.selectConversation, earliest_eq_none] at hselect
    have hinactive : ∀ d ∈ db.conversations, d.key = input.conversationKey agent →
        d.deleted = false → d.active = false := by
      intro d hd hkey hdeleted
      by_contra hactive
      have hmem : d ∈ db.conversations.filter
          (fun c => c.key == input.conversationKey agent && c.active && !c.deleted) :=
        List.mem_filter.2 ⟨hd, by simp [hkey, hdeleted, hactive]⟩
      rw [hselect] at hmem
      cases hmem
    refine .inr ⟨hinactive, ?_⟩
    have hnone : db.selectConversation (input.conversationKey agent) = none := by
      rw [Database.selectConversation, hselect]
      rfl
    cases htaken : db.keyTaken (input.conversationKey agent) with
    | true =>
      obtain ⟨d, hd, hrow⟩ := List.any_eq_true.1 htaken
      simp only [Bool.and_eq_true, beq_iff_eq, Bool.not_eq_true'] at hrow
      refine .inl ⟨d, hd, hrow.1.1.1, hrow.1.1.2, ?_⟩
      simp [Database.inboundConversation, hnone, htaken]
    | false =>
      refine .inr ⟨?_, by simp [Database.inboundConversation, hnone, htaken]⟩
      intro d hd hkey
      cases hdeleted : d.deleted with
      | true => rfl
      | false =>
        refine absurd ?_ (List.any_eq_false.1 htaken d hd)
        simp [hkey, hdeleted, CreateInboundIMMessageInput.conversationKey, hplatform, hchat]

theorem admitted_finishInbound {db : Database} (now : Time) {input : CreateInboundIMMessageInput}
    (agent : Agent) (conversation : Nat × Bool) (c : Conversation)
      {slot : PendingCredentialFormSlot}
    (hunused : ∀ m ∈ db.messages, m.externalMessageID ≠ some input.messageName)
    (htext : input.text = slot.rawQuery) :
    Admitted (db.finishInbound now input agent conversation).1 c slot
      (db.finishInbound now input agent conversation).2 ↔ conversation.1 = c.id := by
  unfold Database.finishInbound
  split
  next m hm =>
    split_ifs at hm
    have hmem := earliest_mem hm
    simp only [List.mem_filter, Bool.and_eq_true, beq_iff_eq] at hmem
    exact absurd hmem.2.2 (hunused m hmem.1)
  · refine ⟨(·.1), fun h =>
      ⟨h, _, List.mem_concat_self, rfl, h, htext, _, List.mem_concat_self, rfl,
      rfl, h⟩⟩

theorem resumeInput_platform (qkey : String) (claimed : ClaimedPendingCredentialForm) :
    (Forms.resumeInput qkey claimed).platform = "feishu" := by
  have htrim : trimSpace "feishu" = "feishu" := by decide +kernel
  simp [CreateInboundIMMessageInput.platform, CreateInboundIMMessageInput.gatewayName,
    Forms.resumeInput, htrim]

section Resumed

variable {s : Forms} {c : Conversation} {slot : PendingCredentialFormSlot} {now : Time}
  {action : CardAction} {bindings : List Binding} {faults : Faults}

theorem reached_iff {db : Database} (hix : db.Indexed) (hc : c ∈ db.conversations)
    (hlive : c.deleted = false) (agent : Agent) {input : CreateInboundIMMessageInput}
    (hplatform : input.platform ≠ "") (hchat : trimSpace input.externalChatID ≠ "") (qkey : String)
    (now : Time) :
    (∀ conversation,
        (db.claimPendingCredentialFormSlot qkey now).2.inboundConversation input agent =
          .ok conversation → conversation.1 = c.id) ↔
      (c.active = true ∧ c.key = input.conversationKey agent) ∨
        ∃ d ∈ db.conversations, d.deleted = false ∧ d.active = false ∧
          d.key = input.conversationKey agent := by
  -- The rows after the claim are the rows before it in every column that the lookup reads.
  have back : ∀ d ∈ (db.claimPendingCredentialFormSlot qkey now).2.conversations,
      ∃ e ∈ db.conversations, SameRow d e := by
    intro d hd
    obtain ⟨e, he, rfl⟩ := List.mem_map.1 hd
    exact ⟨e, he, sameRow_claim _ _ e⟩
  have forth : ∀ e ∈ db.conversations,
      ∃ d ∈ (db.claimPendingCredentialFormSlot qkey now).2.conversations, SameRow d e :=
    fun e he => ⟨_, List.mem_map_of_mem he, sameRow_claim _ _ e⟩
  -- Rows that are not deleted and have the key are one row.
  have alone : ∀ d ∈ db.conversations, ∀ e ∈ db.conversations, d.deleted = false →
      e.deleted = false → d.key = input.conversationKey agent →
      e.key = input.conversationKey agent → d = e := by
    intro d hd e he hdlive helive hdkey hekey
    refine List.inj_on_of_nodup_map hix.ids hd he
      (hix.keys d hd e he hdlive helive (hdkey.trans hekey.symm) ?_ ?_)
    · rw [hdkey, CreateInboundIMMessageInput.conversationKey]
      exact hplatform
    · rw [hdkey, CreateInboundIMMessageInput.conversationKey]
      exact hchat
  obtain ⟨found, hfound, hkey, hactive, hdeleted, hok⟩ |
      ⟨hinactive, ⟨d, hd, hkey, hdeleted, herror⟩ | ⟨hnone, hok⟩⟩ :=
    inboundConversation_cases (db.claimPendingCredentialFormSlot qkey now).2 input agent hplatform
      hchat
  · -- An active row with the key is found.
    obtain ⟨e, he, hrow⟩ := back found hfound
    rw [hrow.key] at hkey
    rw [hrow.active] at hactive
    rw [hrow.deleted] at hdeleted
    rw [hok]
    constructor
    · intro h
      have hid : e.id = c.id := hrow.id.symm.trans (h _ rfl)
      rw [List.inj_on_of_nodup_map hix.ids he hc hid] at hactive hkey
      exact .inl ⟨hactive, hkey⟩
    · rintro (⟨-, hckey⟩ | ⟨d, hd, hdlive, hdinactive, hdkey⟩) conversation hconversation
      · cases hconversation
        rw [hrow.id, alone e he c hc hdeleted hlive hkey hckey]
      · rw [alone e he d hd hdeleted hdlive hkey hdkey, hdinactive] at hactive
        cases hactive
  · -- The key is taken by an archived row.
    obtain ⟨e, he, hrow⟩ := back d hd
    rw [herror]
    refine ⟨fun _ => .inr ⟨e, he, ?_, ?_, ?_⟩, fun _ conversation h => nomatch h⟩
    · rw [← hrow.deleted]
      exact hdeleted
    · rw [← hrow.active]
      exact hinactive d hd hkey hdeleted
    · rw [← hrow.key]
      exact hkey
  · -- The query gets a conversation of its own.
    have hgone : ∀ e ∈ db.conversations, e.deleted = false →
        e.key ≠ input.conversationKey agent := by
      intro e he helive hekey
      obtain ⟨d, hd, hrow⟩ := forth e he
      have hdeleted := hnone d hd (hrow.key.trans hekey)
      rw [hrow.deleted, helive] at hdeleted
      cases hdeleted
    rw [hok]
    constructor
    · intro h
      obtain ⟨d, hd, hrow⟩ := forth c hc
      have hlt := id_lt_newID hd
      rw [hrow.id, ← h _ rfl] at hlt
      exact absurd hlt (Nat.lt_irrefl _)
    · rintro (⟨-, hckey⟩ | ⟨d, hd, hdlive, -, hdkey⟩)
      · exact absurd hckey (hgone c hc hlive)
      · exact absurd hdkey (hgone d hd hdlive)

theorem resumes_iff (hix : s.db.Indexed) (h : Matching s c slot now action bindings) {t : Forms}
    (hdb : t.db = (s.db.claimPendingCredentialFormSlot (trimSpace action.qkey) now).2)
    (replaced : Nat) (fault : Fault) :
    ((t.resume now (trimSpace action.qkey) (c.claimed slot) replaced fault).ack.success →
      ∃ result, (t.resume now (trimSpace action.qkey) (c.claimed slot) replaced fault).admission =
        some result ∧ Admitted
          (t.resume now (trimSpace action.qkey) (c.claimed slot) replaced fault).forms.db c slot
          result) ↔ Reaches s.db c slot fault := by
  have hunused := h.unused
  have htext : (Forms.resumeInput (trimSpace action.qkey) (c.claimed slot)).text =
      slot.rawQuery := rfl
  unfold Reaches
  rw [h.qkey] at hunused ⊢
  generalize hinput : Forms.resumeInput (trimSpace action.qkey) (c.claimed slot) = input at *
  have hplatform : input.platform ≠ "" := by
    rw [← hinput, resumeInput_platform]
    decide
  by_cases hblank : trimSpace slot.agentID = ""
  · have hresume : t.resume now (trimSpace action.qkey) (c.claimed slot) replaced fault =
        ⟨t, routingLost, none⟩ := if_pos hblank
    rw [hresume]
    exact ⟨fun _ => .inl hblank, fun _ h => absurd h (by simp [ActionAck.success, routingLost])⟩
  have hresume : t.resume now (trimSpace action.qkey) (c.claimed slot) replaced fault =
      match t.enqueue now input fault with
      | (s, .error ack) => ⟨s, ack, none⟩
      | (s, .ok result) => ⟨s, submittedAck replaced, some result⟩ := by
    rw [← hinput]
    exact if_neg hblank
  rw [hresume]
  cases fault with
  | before =>
    exact ⟨fun _ => .inr (.inl (by decide)), fun _ h => absurd h (by simp [Forms.enqueue,
      ActionAck.success])⟩
  | after =>
    refine ⟨fun _ => .inr (.inl (by decide)), fun _ h => absurd h ?_⟩
    unfold Forms.enqueue
    cases t.db.createInboundIMMessage now input <;> simp [ActionAck.success]
  | none =>
    have htarget : t.db.targetAgent input = s.db.targetAgent input := by rw [hdb]; rfl
    simp only [hblank, ne_eq, not_true_eq_false, false_or]
    cases hagent : s.db.targetAgent input with
    | error e =>
      simp [Forms.enqueue, Database.createInboundIMMessage, htarget, hagent, ActionAck.success]
    | ok agent =>
      have hreached := reached_iff hix h.row h.live agent hplatform (targetAgent_ok hagent).2.2
        (trimSpace action.qkey) now
      rw [← hdb] at hreached
      have hagents : (∀ agent', Except.ok agent = (Except.ok agent' : Except InboundError Agent) →
          (c.active = true ∧ c.key = input.conversationKey agent') ∨
            ∃ d ∈ s.db.conversations, d.deleted = false ∧ d.active = false ∧
              d.key = input.conversationKey agent') ↔
          (c.active = true ∧ c.key = input.conversationKey agent) ∨
            ∃ d ∈ s.db.conversations, d.deleted = false ∧ d.active = false ∧
              d.key = input.conversationKey agent := by
        simp
      rw [hagents, ← hreached]
      cases hconversation : t.db.inboundConversation input agent with
      | error e =>
        simp [Forms.enqueue, Database.createInboundIMMessage, htarget, hagent, hconversation,
          Except.map, ActionAck.success]
      | ok conversation =>
        have hadmitted := admitted_finishInbound now agent conversation c
          (show ∀ m ∈ t.db.messages, _ by rw [hdb]; exact hunused) htext
        simp [Forms.enqueue, Database.createInboundIMMessage, htarget, hagent, hconversation,
          Except.map, ActionAck.success, submittedAck, hadmitted]

theorem resume_not_retryLater (t : Forms) (now : Time) (qkey : String)
    (claimed : ClaimedPendingCredentialForm) (replaced : Nat) (fault : Fault) :
    ¬(t.resume now qkey claimed replaced fault).ack.retryLater := by
  unfold Forms.resume
  split_ifs
  · simp [ActionAck.retryLater, routingLost]
  · split
    next u ack henqueue =>
      unfold Forms.enqueue at henqueue
      split at henqueue <;> cases henqueue <;> simp [ActionAck.retryLater]
    · simp [ActionAck.retryLater, submittedAck]

theorem replaceUserCredentials_isSome (kinds : List String) (rows : List UserCredential)
    {userID : String} {inputs : List CreateUserCredentialInput}
    (h : Forms.encrypt userID bindings false = .ok inputs) :
    (replaceUserCredentials kinds rows userID inputs).isSome ↔
      trimSpace userID ≠ "" ∧ ∀ b ∈ bindings, normalizeCredentialKindCode b.kind ∈ kinds := by
  cases h
  unfold replaceUserCredentials
  split_ifs with huser hkinds
  · simp [huser]
  · simp only [List.all_map, List.all_eq_true, Function.comp_apply, decide_eq_true_eq] at hkinds
    exact ⟨fun _ => ⟨huser, hkinds⟩, fun _ => rfl⟩
  · simp only [List.all_map, List.all_eq_true, Function.comp_apply, decide_eq_true_eq] at hkinds
    simp [hkinds]

theorem store_cases (t : Forms) {inputs : List CreateUserCredentialInput} (fault : Fault)
    (hkinds : t.kinds = s.kinds)
    (h : Forms.encrypt slot.initiatorUserID bindings false = .ok inputs) :
    (Storable s slot bindings fault ∧ ∃ u n,
      t.store slot.initiatorUserID inputs fault = (u, .ok n) ∧ u.db = t.db) ∨
    (¬Storable s slot bindings fault ∧ ∃ u,
      t.store slot.initiatorUserID inputs fault = (u, .error Forms.saveFailed) ∧ u.db = t.db) := by
  have hsome := replaceUserCredentials_isSome t.kinds t.credentials h
  cases hreplace : replaceUserCredentials t.kinds t.credentials slot.initiatorUserID inputs with
  | none =>
    rw [hreplace] at hsome
    refine .inr ⟨fun hstorable => ?_, t, ?_, rfl⟩
    · cases hsome.2 ⟨hstorable.user, hkinds ▸ hstorable.kinds⟩
    · unfold Forms.store
      rw [hreplace]
      cases fault <;> rfl
  | some rows =>
    rw [hreplace] at hsome
    obtain ⟨huser, hregistered⟩ := hsome.1 rfl
    unfold Forms.store
    rw [hreplace]
    cases fault with
    | none => exact .inl ⟨⟨rfl, huser, hkinds ▸ hregistered⟩, _, _, rfl, rfl⟩
    | before | after => exact .inr ⟨(fun h => nomatch h.fault), _, rfl, rfl⟩

theorem not_retries (hix : s.db.Indexed) (h : Matching s c slot now action bindings) {t : Forms}
    (hdb : t.db = (s.db.claimPendingCredentialFormSlot (trimSpace action.qkey) now).2)
    (hroute : s.routeCredentialFormSubmit now action faults = ⟨t, Forms.saveFailed, none⟩) :
    ¬ResumesOrRetries s c slot now action faults := by
  intro hresumes
  have hretries := hresumes.retries
  rw [hroute] at hretries
  have hsuccess := (hretries (.inr rfl)).2 now le_rfl h.unexpired
  have hack := h.claimed_once hix hdb now {} rfl
  rw [hack, ActionAck.success] at hsuccess
  exact absurd hsuccess (by decide)

end Resumed

/-- A matching submit keeps its promises exactly when its credentials are stored and the query's key
leads back to the form's conversation, or the query is not resumed. -/
theorem credential_submit_resumes_iff (s : Forms) (hix : s.db.Indexed) (c : Conversation)
    (slot : PendingCredentialFormSlot) (now : Time) (action : CardAction) (bindings : List Binding)
    (h : Matching s c slot now action bindings) (faults : Faults) (hfault : faults.claim = .none) :
    ResumesOrRetries s c slot now action faults ↔
      faults.encrypt = false ∧ Storable s slot bindings faults.store ∧
        Reaches s.db c slot faults.enqueue := by
  have hroute := h.routed hix hfault
  cases hencrypt : faults.encrypt with
  | true =>
    have hfailed : s.routeCredentialFormSubmit now action faults =
        ⟨{ s with db := (s.db.claimPendingCredentialFormSlot (trimSpace action.qkey) now).2 },
          Forms.saveFailed, none⟩ := by
      rw [hroute]
      simp only [Forms.save, Forms.encrypt, hencrypt, if_true]
    exact ⟨fun hresumes => absurd hresumes (not_retries hix h rfl hfailed), fun hc => nomatch hc.1⟩
  | false =>
    obtain ⟨inputs, hinputs⟩ : ∃ inputs,
      Forms.encrypt slot.initiatorUserID bindings false = .ok inputs := ⟨_, rfl⟩
    have hinputs' : Forms.encrypt (c.claimed slot).slot.initiatorUserID bindings faults.encrypt =
        .ok inputs := by rw [hencrypt]; exact hinputs
    obtain ⟨hstorable, u, n, hstore, hdb⟩ | ⟨hstorable, u, hstore, hdb⟩ := store_cases
      { s with db := (s.db.claimPendingCredentialFormSlot (trimSpace action.qkey) now).2 }
      faults.store (s := s) rfl hinputs
    · have hresumed : s.routeCredentialFormSubmit now action faults =
          u.resume now (trimSpace action.qkey) (c.claimed slot) n faults.enqueue := by
        rw [hroute]
        simp only [Forms.save, hinputs']
        simp only [Conversation.claimed] at hstore ⊢
        rw [hstore]
      rw [← resumes_iff hix h hdb n faults.enqueue, ← hresumed]
      refine ⟨fun hresumes => ⟨rfl, hstorable, hresumes.resumes⟩, fun hc => ⟨hc.2.2, ?_⟩⟩
      rw [hresumed]
      exact fun hretry => absurd hretry (resume_not_retryLater u _ _ _ _ _)
    · have hfailed : s.routeCredentialFormSubmit now action faults =
          ⟨u, Forms.saveFailed, none⟩ := by
        rw [hroute]
        simp only [Forms.save, hinputs']
        simp only [Conversation.claimed] at hstore ⊢
        rw [hstore]
      exact ⟨fun hresumes => absurd hresumes (not_retries hix h hdb hfailed),
        fun hc => absurd hc.2.1 hstorable⟩

def askedOn (platform : String) : Conversation :=
  ⟨0, ⟨"w", platform, "oc_1", ""⟩, "app", "dm", "t", true, false, "a", some askedForm, ⟨1⟩⟩

def pendingOn (platform : String) : Forms :=
  { askedTables with db := { askedTables.db with conversations := [askedOn platform] } }

theorem pendingOn_indexed (platform : String) : (pendingOn platform).db.Indexed where
  ids := List.nodup_singleton _
  keys := by
    intro c hc d hd _ _ _ _ _
    rw [List.mem_singleton.1 hc, List.mem_singleton.1 hd]
  forms := by
    intro c hc d hd _ _ _
    rw [List.mem_singleton.1 hc, List.mem_singleton.1 hd]

theorem matching_on (platform : String) : Matching (pendingOn platform) (askedOn platform) askedForm
    ⟨20⟩ (clickBy "ou_1") [⟨"github_pat", "ghp_x"⟩] where
  row := List.mem_singleton_self _
  live := rfl
  pending := rfl
  unexpired := by decide
  qkey := by decide +kernel
  unused := by simp [pendingOn, askedTables]
  filled := by decide +kernel
  authorized := by
    have h : (clickBy "ou_1").authorize ((askedOn "").claimed askedForm) = .ok () := by
      decide +kernel
    exact h

theorem credential_submit_resumes_feishu :
    ((pendingOn "feishu").routeCredentialFormSubmit ⟨20⟩ (clickBy "ou_1") {}).ack.success ∧
      ResumesOrRetries (pendingOn "feishu") (askedOn "feishu") askedForm ⟨20⟩ (clickBy "ou_1")
        {} := by
  have hkey : (Forms.resumeInput askedForm.qkey ((askedOn "feishu").claimed askedForm)
      ).conversationKey ⟨"a", "w", "A", "agents_api"⟩ = (askedOn "feishu").key := by
    have hchat : trimSpace "oc_1" = "oc_1" := by decide +kernel
    rw [CreateInboundIMMessageInput.conversationKey, resumeInput_platform]
    simp only [Forms.resumeInput, Conversation.claimed, askedOn, hchat, trimSpace_empty]
  refine ⟨by
      rw [ActionAck.success, (matching_on "feishu").routed (pendingOn_indexed _) rfl]
      decide +kernel,
    (credential_submit_resumes_iff _ (pendingOn_indexed _) _ _ _ _ _ (matching_on _) {} rfl).2
      ⟨rfl, ⟨rfl, by decide +kernel, by decide +kernel⟩, .inr (.inr (fun agent hagent => ?_))⟩⟩
  have hfound : (pendingOn "feishu").db.targetAgent (Forms.resumeInput askedForm.qkey
      ((askedOn "feishu").claimed askedForm)) = .ok ⟨"a", "w", "A", "agents_api"⟩ := by
    rfl
  rw [hfound] at hagent
  cases hagent
  exact .inl ⟨rfl, hkey.symm⟩

def submitOn (platform : String) (faults : Faults) : Submitted :=
  (pendingOn platform).routeCredentialFormSubmit ⟨20⟩ (clickBy "ou_1") faults

/-- The answer is a success and the query is resumed in a new conversation; after a failed
encryption the second submit is too late. -/
theorem slack_query_resumed_elsewhere :
    (∃ result, (submitOn "slack" {}).ack.success ∧
      (submitOn "slack" {}).admission = some result ∧
      result.conversationID ≠ (askedOn "slack").id) ∧
    (submitOn "feishu" { encrypt := true }).ack.retryLater ∧
    ¬((submitOn "feishu" { encrypt := true }).forms.routeCredentialFormSubmit ⟨21⟩ (clickBy "ou_1")
      {}).ack.success := by
  have hfirst : submitOn "feishu" { encrypt := true } =
      ⟨{ pendingOn "feishu" with db := ((pendingOn "feishu").db.claimPendingCredentialFormSlot
        (trimSpace (clickBy "ou_1").qkey) ⟨20⟩).2 }, Forms.saveFailed, none⟩ :=
    (matching_on "feishu").routed (pendingOn_indexed _) rfl
  have hlate := (matching_on "feishu").claimed_once (pendingOn_indexed _) (by rw [hfirst]) ⟨21⟩ {}
    rfl (t := (submitOn "feishu" { encrypt := true }).forms)
  refine ⟨?_, .inr (by rw [hfirst]; rfl), by rw [hlate, ActionAck.success]; decide⟩
  have hcheck : ((submitOn "slack" {}).admission.any (fun result =>
      result.conversationID != (askedOn "slack").id) &&
      (submitOn "slack" {}).ack.toastKind == "success") = true := by
    rw [submitOn, (matching_on "slack").routed (pendingOn_indexed _) rfl]
    decide +kernel
  simp only [Bool.and_eq_true, Option.any_eq_true, bne_iff_ne, beq_iff_eq] at hcheck
  obtain ⟨⟨result, hresult, hne⟩, hsuccess⟩ := hcheck
  exact ⟨result, hsuccess, hresult, hne⟩

end Parsar.Inbound
