import Mathlib.Data.List.MinMax
import Mathlib.Data.List.Nodup
import Parsar.Framework.Pool
import Parsar.Inbound.CredentialForm

namespace Parsar.Inbound

open GoStd

structure ClaimEntry where
  call : Nat
  claimed : ClaimedPendingCredentialForm
  now : Time
  deriving DecidableEq

structure Effect where
  call : Nat
  action : CardAction
  claimed : ClaimedPendingCredentialForm
  did : (List CreateUserCredentialInput × String × Bool) ⊕ CreateInboundIMMessageInput

structure FormServer where
  forms : Forms
  written : List String := []
  claims : List ClaimEntry := []
  effects : List Effect := []

inductive SubmitPhase where
  | begun
  | accepted (claimed : ClaimedPendingCredentialForm) (bindings : List Binding)
  | encrypted (claimed : ClaimedPendingCredentialForm) (inputs : List CreateUserCredentialInput)
  | stored (claimed : ClaimedPendingCredentialForm) (replaced : Nat)
  | acked (ack : ActionAck)

structure Submit where
  action : CardAction
  phase : SubmitPhase := .begun

inductive SubmitAction where
  | claim (now : Time) (fault : Fault)
  | encrypt (fails : Bool)
  | store (fault : Fault)
  | enqueue (now : Time) (fault : Fault)

namespace Submit

def step (i : Nat) (s : FormServer) (c : Submit) : SubmitAction → Option (FormServer × Submit)
  | .claim now fault =>
    match c.phase with
    | .begun =>
      match c.action.bindings with
      | .error ack => some (s, { c with phase := .acked ack })
      | .ok bindings =>
        let (forms, result) := s.forms.claim (trimSpace c.action.qkey) now fault
        match result with
        | .error ack => some ({ s with forms }, { c with phase := .acked ack })
        | .ok claimed =>
          let phase := match c.action.authorize claimed with
            | .error ack => .acked ack
            | .ok () => .accepted claimed bindings
          some ({ s with forms, claims := s.claims ++ [⟨i, claimed, now⟩] }, { c with phase })
    | _ => none
  | .encrypt fails =>
    match c.phase with
    | .accepted claimed bindings =>
      let phase := match Forms.encrypt claimed.slot.initiatorUserID bindings fails with
        | .error ack => .acked ack
        | .ok inputs => .encrypted claimed inputs
      some (s, { c with phase })
    | _ => none
  | .store fault =>
    match c.phase with
    | .encrypted claimed inputs =>
      let userID := claimed.slot.initiatorUserID
      let (forms, result) := s.forms.store userID inputs fault
      let effect (ok : Bool) : Effect := ⟨i, c.action, claimed, .inl (inputs, userID, ok)⟩
      match result with
      | .error ack => some ({ s with forms, effects := s.effects ++ [effect false] },
          { c with phase := .acked ack })
      | .ok replaced => some ({ s with forms, effects := s.effects ++ [effect true] },
          { c with phase := .stored claimed replaced })
    | _ => none
  | .enqueue now fault =>
    match c.phase with
    | .stored claimed replaced =>
      if trimSpace claimed.slot.agentID = "" then some (s, { c with phase := .acked routingLost })
      else
        let input := Forms.resumeInput (trimSpace c.action.qkey) claimed
        let (forms, result) := s.forms.enqueue now input fault
        let phase := match result with
          | .error ack => .acked ack
          | .ok _ => .acked (submittedAck replaced)
        some ({ s with forms, effects := s.effects ++ [⟨i, c.action, claimed, .inr input⟩] },
          { c with phase })
    | _ => none

end Submit

inductive StashAction where
  | write (conversationID : Nat) (slot : PendingCredentialFormSlot) (now : Time)
  | stamp (conversationID : Nat) (qkey externalMsgID : String)
  | clear (conversationID : Nat)
  | sweep (cutoff : Time)

def stash (s : FormServer) : StashAction → Option FormServer
  | .write conversationID slot now =>
    match s.forms.db.writePendingCredentialFormSlot conversationID slot now with
    | .error _ => none
    | .ok db => some { s with forms := { s.forms with db }, written := s.written ++ [slot.qkey] }
  | .stamp conversationID qkey externalMsgID =>
    let db := s.forms.db.updatePendingCredentialFormSlotMessageID conversationID qkey externalMsgID
    some { s with forms := { s.forms with db } }
  | .clear conversationID =>
    some { s with forms := { s.forms with
      db := s.forms.db.clearPendingCredentialFormSlotByConversation conversationID } }
  | .sweep cutoff =>
    some { s with forms := { s.forms with
      db := s.forms.db.sweepExpiredPendingCredentialFormSlots cutoff } }

def newSubmit (action : CardAction) : Submit := ⟨action, .begun⟩

abbrev Submits := Pool FormServer Submit

abbrev SubmitsAction := Pool.Action CardAction SubmitAction StashAction

def Submits.step : Submits → SubmitsAction → Option Submits := Pool.step newSubmit Submit.step stash

def FreshKey (p : Submits) : SubmitsAction → Prop
  | .env (.write _ slot _) => slot.qkey ∉ p.shared.written
  | _ => True

def SameChat (action : CardAction) (claimed : ClaimedPendingCredentialForm) : Prop :=
  trimSpace claimed.externalChatID = "" ∨ trimSpace action.externalChatID = "" ∨
    trimSpace action.externalChatID = trimSpace claimed.externalChatID

def FromClick (action : CardAction) (userID : String) (inputs : List CreateUserCredentialInput) :
    Prop :=
  ∃ bindings, action.bindings = .ok bindings ∧
    inputs = bindings.map (fun b => ⟨userID, b.kind, b.kind, ⟨b.plaintext, b.plaintext⟩, "v1"⟩)

/-- Credentials are the click's, for the user of the form, and a query is the stashed one. -/
def Effect.Faithful (e : Effect) : Prop :=
  match e.did with
  | .inl (inputs, userID, _) =>
    userID = e.claimed.slot.initiatorUserID ∧ FromClick e.action userID inputs
  | .inr input => input = Forms.resumeInput e.claimed.slot.qkey e.claimed

/-- The requester's effect, on a form that its own claim has found pending. -/
structure Effect.Requested (start : Submits) (actions : List SubmitsAction) (e : Effect) :
    Prop where
  operator : trimSpace e.action.operatorID = trimSpace e.claimed.slot.initiatorOpenID
  named : trimSpace e.claimed.slot.initiatorOpenID ≠ ""
  chat : SameChat e.action e.claimed
  qkey : e.claimed.slot.qkey = trimSpace e.action.qkey
  pending : ∃ before now after u, actions = before ++ .run e.call (.claim now .none) :: after ∧
    runTrace Submits.step start before = some u ∧
    ∃ c ∈ u.shared.forms.db.conversations, c.deleted = false ∧
      c.pendingCredentialForm = some e.claimed.slot ∧ e.claimed = c.claimed e.claimed.slot ∧
      now.nanos < e.claimed.slot.expiresAt.nanos
  faithful : e.Faithful

/-- The row has a value of the click, under the user of the form. -/
structure Effect.Wrote (e : Effect) (row : UserCredential) : Prop where
  user : row.userID = e.claimed.slot.initiatorUserID
  value : ∃ bindings, e.action.bindings = .ok bindings ∧ ∃ b ∈ bindings,
    row.kind = normalizeCredentialKindCode b.kind ∧ row.displayName = trimSpace b.kind ∧
      row.ciphertext = ⟨b.plaintext, b.plaintext⟩

def Conversation.pendingKey (c : Conversation) : Option String :=
  c.pendingCredentialForm.map PendingCredentialFormSlot.qkey

def ClaimEntry.qkey (e : ClaimEntry) : String := e.claimed.slot.qkey

structure StashOk (s : FormServer) : Prop where
  ids : (s.forms.db.conversations.map Conversation.id).Nodup
  alone : ∀ c ∈ s.forms.db.conversations, ∀ d ∈ s.forms.db.conversations, ∀ k,
    c.pendingKey = some k → d.pendingKey = some k → c.id = d.id
  unclaimed : ∀ c ∈ s.forms.db.conversations, ∀ k, c.pendingKey = some k →
    ∀ e ∈ s.claims, e.qkey ≠ k
  once : (s.claims.map ClaimEntry.qkey).Nodup
  pendingWritten : ∀ c ∈ s.forms.db.conversations, ∀ k, c.pendingKey = some k → k ∈ s.written
  claimedWritten : ∀ e ∈ s.claims, e.qkey ∈ s.written

structure Loses (db db' : Database) : Prop where
  ids : (db.conversations.map Conversation.id).Nodup → (db'.conversations.map Conversation.id).Nodup
  keys : ∀ d ∈ db'.conversations, ∀ k, d.pendingKey = some k →
    ∃ c ∈ db.conversations, c.id = d.id ∧ c.pendingKey = some k

variable {db db' : Database} {s t : FormServer} {input : CreateInboundIMMessageInput} {i id n : Nat}
  {now : Time} {qkey : String} {claimed : ClaimedPendingCredentialForm} {fault : Fault}

theorem Loses.map {f : Conversation → Conversation}
    (hmap : db'.conversations = db.conversations.map f) (hid : ∀ c, (f c).id = c.id)
    (hkey : ∀ c k, (f c).pendingKey = some k → c.pendingKey = some k) : Loses db db' := by
  constructor
  · intro h
    simpa [hmap, List.map_map, Function.comp_def, hid] using h
  · intro d hd k hk
    rw [hmap] at hd
    obtain ⟨c, hc, rfl⟩ := List.mem_map.1 hd
    exact ⟨c, hc, (hid c).symm, hkey c k hk⟩

theorem StashOk.loses (h : StashOk s) (hl : Loses s.forms.db db) :
    StashOk { s with forms := { s.forms with db } } := by
  refine ⟨hl.ids h.ids, ?_, ?_, h.once, ?_, h.claimedWritten⟩
  · intro c hc d hd k hck hdk
    obtain ⟨c', hc', hcid, hck'⟩ := hl.keys c hc k hck
    obtain ⟨d', hd', hdid, hdk'⟩ := hl.keys d hd k hdk
    rw [← hcid, ← hdid]
    exact h.alone c' hc' d' hd' k hck' hdk'
  · intro c hc k hk
    obtain ⟨c', hc', -, hk'⟩ := hl.keys c hc k hk
    exact h.unclaimed c' hc' k hk'
  · intro c hc k hk
    obtain ⟨c', hc', -, hk'⟩ := hl.keys c hc k hk
    exact h.pendingWritten c' hc' k hk'

theorem loses_clear (p : Conversation → Prop) [DecidablePred p] :
    Loses db { db with
      conversations := db.conversations.map (fun c => if p c then c.clear else c) } := by
  refine .map rfl (fun c => ?_) (fun c k hk => ?_)
  · split_ifs <;> rfl
  · split_ifs at hk
    · cases hk
    · exact hk

theorem loses_stamp (db : Database) (id : Nat) (qkey msg : String) :
    Loses db (db.updatePendingCredentialFormSlotMessageID id qkey msg) := by
  refine .map rfl (fun c => ?_) (fun c k hk => ?_)
  · split_ifs <;> rfl
  · split_ifs at hk
    · rw [Conversation.pendingKey, Option.map_map] at hk
      rw [← hk, Conversation.pendingKey]
      refine congrArg (fun f => c.pendingCredentialForm.map f) (funext fun slot => ?_)
      simp only [Function.comp_apply]
      split_ifs <;> simp
    · exact hk

theorem id_lt_newID {c : Conversation} (hc : c ∈ db.conversations) :
    c.id < db.newID := by
  have hmem : c.id ∈ db.conversations.map Conversation.id ++ db.messages.map Message.id ++
      db.runs.map Run.id :=
    List.mem_append_left _ (List.mem_append_left _ (List.mem_map_of_mem hc))
  exact Nat.lt_succ_of_le (List.le_max_of_le' 0 hmem (Nat.le_refl _))

theorem loses_commit {agent : Agent} {fresh : Bool} (hfresh : fresh = true → id = db.newID) :
    Loses db (db.commit input i agent id fresh now) := by
  cases fresh with
  | false =>
    refine .map rfl (fun c => ?_) (fun c k hk => ?_)
    · split_ifs <;> simp
    · rw [← hk, Conversation.pendingKey, Conversation.pendingKey]
      split_ifs <;> simp
  | true =>
    constructor
    · intro h
      simp only [Database.commit, if_true, List.map_append, List.map_cons, List.map_nil]
      refine pairwise_concat h fun k hk => ?_
      obtain ⟨c, hc, rfl⟩ := List.mem_map.1 hk
      rw [hfresh rfl]
      exact Nat.ne_of_lt (id_lt_newID hc)
    · intro d hd k hk
      rcases mem_concat hd with hd | rfl
      · exact ⟨d, hd, rfl, hk⟩
      · cases hk

theorem loses_refl (db : Database) : Loses db db := ⟨id, fun d hd _ hk => ⟨d, hd, rfl, hk⟩⟩

theorem createInboundIMMessage_ok {result : CreateInboundIMMessageResult}
    (h : db.createInboundIMMessage now input = .ok (db', result)) : ∃ agent conversation,
      db.targetAgent input = .ok agent ∧ db.inboundConversation input agent = .ok conversation ∧
      db.finishInbound now input agent conversation = (db', result) := by
  unfold Database.createInboundIMMessage at h
  split at h
  · cases h
  next agent hagent =>
    cases hconversation : db.inboundConversation input agent with
    | error e =>
      rw [hconversation] at h
      cases h
    | ok conversation =>
      rw [hconversation] at h
      exact ⟨agent, conversation, hagent, hconversation, Except.ok.inj h⟩

theorem inboundConversation_fresh
    {agent : Agent} (h : db.inboundConversation input agent = .ok (id, true)) :
    id = db.newID := by
  unfold Database.inboundConversation at h
  split at h
  · cases h
  · split_ifs at h
    cases h
    rfl

theorem loses_createInboundIMMessage {result : CreateInboundIMMessageResult}
    (h : db.createInboundIMMessage now input = .ok (db', result)) : Loses db db' := by
  obtain ⟨agent, ⟨id, fresh⟩, -, hconversation, hfinish⟩ := createInboundIMMessage_ok h
  unfold Database.finishInbound at hfinish
  split at hfinish
  · cases hfinish
    exact loses_refl db
  · cases hfinish
    refine loses_commit (fun hfresh => ?_)
    subst hfresh
    exact inboundConversation_fresh hconversation

theorem claimable_key {c : Conversation}
    (h : claimable qkey now c = true) : c.deleted = false ∧ ∃ slot,
      c.pendingCredentialForm = some slot ∧ slot.qkey = qkey ∧
      now.nanos < slot.expiresAt.nanos := by
  simp only [claimable, Bool.and_eq_true, Bool.not_eq_true', Option.any_eq_true, beq_iff_eq,
    decide_eq_true_eq] at h
  exact h

theorem claim_some (h : (db.claimPendingCredentialFormSlot qkey now).1 = some claimed) :
    ∃ c ∈ db.conversations, c.deleted = false ∧ c.pendingCredentialForm = some claimed.slot ∧
      claimed = c.claimed claimed.slot ∧ claimed.slot.qkey = trimSpace qkey ∧
      now.nanos < claimed.slot.expiresAt.nanos ∧ claimable (trimSpace qkey) now c = true := by
  obtain ⟨c, hc, h⟩ := Option.bind_eq_some_iff.1 h
  obtain ⟨slot, hslot, rfl⟩ := Option.map_eq_some_iff.1 h
  have hclaimable := List.find?_some hc
  obtain ⟨hdeleted, slot', hslot', hkey, hexpires⟩ := claimable_key hclaimable
  rw [hslot] at hslot'
  cases hslot'
  exact ⟨c, List.mem_of_find?_eq_some hc, hdeleted, hslot, rfl, hkey, hexpires, hclaimable⟩

theorem StashOk.claim (h : StashOk s)
    (hclaim : (s.forms.db.claimPendingCredentialFormSlot qkey now).1 = some claimed) :
    StashOk { s with
      forms := { s.forms with db := (s.forms.db.claimPendingCredentialFormSlot qkey now).2 }
      claims := s.claims ++ [⟨i, claimed, now⟩] } := by
  obtain ⟨c, hc, -, hslot, -, hkey, -, hclaimable⟩ := claim_some hclaim
  have hpending : c.pendingKey = some claimed.slot.qkey := by
    rw [Conversation.pendingKey, hslot]
    rfl
  have hl : Loses s.forms.db (s.forms.db.claimPendingCredentialFormSlot qkey now).2 :=
    loses_clear (fun c => claimable (trimSpace qkey) now c = true)
  have hs := h.loses hl
  refine ⟨hs.ids, hs.alone, ?_, ?_, hs.pendingWritten, ?_⟩
  · intro d hd k hk e he
    rcases mem_concat he with he | rfl
    · exact hs.unclaimed d hd k hk e he
    · intro heq
      -- the row with the key is the one that the claim has cleared
      obtain ⟨d', hd', rfl⟩ := List.mem_map.1 hd
      split_ifs at hk with hcleared
      · cases hk
      · have hid := h.alone d' hd' c hc k hk (heq ▸ hpending)
        rw [List.inj_on_of_nodup_map h.ids hd' hc hid] at hcleared
        exact hcleared hclaimable
  · rw [List.map_append]
    refine pairwise_concat h.once fun k hk => ?_
    obtain ⟨e, he, rfl⟩ := List.mem_map.1 hk
    exact h.unclaimed c hc _ hpending e he
  · exact forall_mem_concat h.claimedWritten (h.pendingWritten c hc _ hpending)

theorem write_keys {slot : PendingCredentialFormSlot}
    (h : db.writePendingCredentialFormSlot id slot now = .ok db') :
    db'.conversations.map Conversation.id = db.conversations.map Conversation.id ∧
    ∀ d ∈ db'.conversations, ∀ k, d.pendingKey = some k →
      (∃ c ∈ db.conversations, c.id = d.id ∧ c.pendingKey = some k) ∨
        (d.id = id ∧ k = slot.qkey) := by
  unfold Database.writePendingCredentialFormSlot at h
  split_ifs at h
  cases h
  constructor
  · rw [List.map_map]
    refine List.map_congr_left (fun c _ => ?_)
    simp only [Function.comp_apply]
    split_ifs <;> rfl
  · intro d hd k hk
    obtain ⟨c, hc, rfl⟩ := List.mem_map.1 hd
    split_ifs at hk ⊢ with hid
    · cases hpending : c.pendingCredentialForm with
      | none =>
        simp only [Conversation.pendingKey, hpending, Option.none_or, Option.map_some,
          Option.some.injEq] at hk
        exact .inr ⟨hid.1, hk.symm⟩
      | some old =>
        simp only [Conversation.pendingKey, hpending, Option.some_or] at hk
        exact .inl ⟨c, hc, rfl, by rw [Conversation.pendingKey, hpending]; exact hk⟩
    · exact .inl ⟨c, hc, rfl, hk⟩

theorem StashOk.write (h : StashOk s) {slot : PendingCredentialFormSlot}
    (hfresh : slot.qkey ∉ s.written)
    (hwrite : s.forms.db.writePendingCredentialFormSlot id slot now = .ok db) :
    StashOk { s with forms := { s.forms with db }, written := s.written ++ [slot.qkey] } := by
  obtain ⟨hids, hkeys⟩ := write_keys hwrite
  refine ⟨hids ▸ h.ids, ?_, ?_, h.once, ?_, ?_⟩
  · intro c hc d hd k hck hdk
    obtain ⟨c', hc', hcid, hck'⟩ | ⟨hcid, hck'⟩ := hkeys c hc k hck <;>
      obtain ⟨d', hd', hdid, hdk'⟩ | ⟨hdid, hdk'⟩ := hkeys d hd k hdk
    · rw [← hcid, ← hdid]
      exact h.alone c' hc' d' hd' k hck' hdk'
    · exact absurd (hdk' ▸ h.pendingWritten c' hc' k hck') hfresh
    · exact absurd (hck' ▸ h.pendingWritten d' hd' k hdk') hfresh
    · rw [hcid, hdid]
  · intro c hc k hk e he
    obtain ⟨c', hc', -, hk'⟩ | ⟨-, rfl⟩ := hkeys c hc k hk
    · exact h.unclaimed c' hc' k hk' e he
    · intro heq
      exact hfresh (heq ▸ h.claimedWritten e he)
  · intro c hc k hk
    obtain ⟨c', hc', -, hk'⟩ | ⟨-, rfl⟩ := hkeys c hc k hk
    · exact List.mem_append_left _ (h.pendingWritten c' hc' k hk')
    · exact List.mem_concat_self
  · intro e he
    exact List.mem_append_left _ (h.claimedWritten e he)

/-- The form was claimed by the call, which passed the checks. -/
structure Cleared (claims : List ClaimEntry) (i : Nat) (action : CardAction)
    (claimed : ClaimedPendingCredentialForm) : Prop where
  entry : ∃ now, ⟨i, claimed, now⟩ ∈ claims
  authorized : action.authorize claimed = .ok ()
  qkey : claimed.slot.qkey = trimSpace action.qkey

def Effect.Stored (i : Nat) (e : Effect) : Prop :=
  e.call = i ∧ ∃ inputs userID, e.did = .inl (inputs, userID, true)

structure EffectOk (claims : List ClaimEntry) (e : Effect) : Prop where
  cleared : Cleared claims e.call e.action e.claimed
  faithful : e.Faithful

structure ServerOk (s : FormServer) (n : Nat) : Prop where
  stash : StashOk s
  effects : ∀ e ∈ s.effects, EffectOk s.claims e ∧ e.call < n
  ordered : ∀ (k : Nat) (e : Effect) (input : CreateInboundIMMessageInput),
    s.effects[k]? = some e → e.did = .inr input →
    ∃ (j : Nat) (e' : Effect), j < k ∧ s.effects[j]? = some e' ∧ e'.Stored e.call

def SubmitPhase.Ok (s : FormServer) (i : Nat) (action : CardAction) : SubmitPhase → Prop
  | .begun | .acked _ => True
  | .accepted claimed bindings => Cleared s.claims i action claimed ∧ action.bindings = .ok bindings
  | .encrypted claimed inputs => Cleared s.claims i action claimed ∧
    FromClick action claimed.slot.initiatorUserID inputs
  | .stored claimed _ => Cleared s.claims i action claimed ∧ ∃ e ∈ s.effects, e.Stored i

structure SubmitOk (s : FormServer) (i : Nat) (c : Submit) : Prop where
  own : ∀ e ∈ s.effects, e.call = i → e.action = c.action
  phase : c.phase.Ok s i c.action

structure Extends (s t : FormServer) : Prop where
  claims : ∀ e ∈ s.claims, e ∈ t.claims
  effects : ∀ e ∈ s.effects, e ∈ t.effects

theorem Cleared.extends {claims claims' : List ClaimEntry} {action : CardAction}
    (h : Cleared claims i action claimed)
    (hext : ∀ e ∈ claims, e ∈ claims') : Cleared claims' i action claimed := by
  obtain ⟨⟨now, hentry⟩, hauth, hkey⟩ := h
  exact ⟨⟨now, hext _ hentry⟩, hauth, hkey⟩

theorem SubmitPhase.Ok.extends {action : CardAction}
    {phase : SubmitPhase} (h : phase.Ok s i action) (hext : Extends s t) : phase.Ok t i action := by
  cases phase with
  | begun | acked => trivial
  | accepted | encrypted => exact ⟨h.1.extends hext.claims, h.2⟩
  | stored claimed replaced =>
    obtain ⟨hcleared, e, he, hstored⟩ := h
    exact ⟨hcleared.extends hext.claims, e, hext.effects e he, hstored⟩

theorem Forms.claim_ok {s t : Forms} (h : s.claim qkey now fault = (t, .ok claimed)) :
    fault = .none ∧ (s.db.claimPendingCredentialFormSlot qkey now).1 = some claimed ∧
      t = { s with db := (s.db.claimPendingCredentialFormSlot qkey now).2 } := by
  unfold Forms.claim at h
  cases fault with
  | before | after => cases h
  | none =>
    simp only [Prod.mk.injEq] at h
    obtain ⟨rfl, h⟩ := h
    split at h
    · cases h
    next found hfound =>
      cases h
      exact ⟨rfl, hfound, rfl⟩

theorem Forms.claim_error {s t : Forms} {ack : ActionAck}
    (h : s.claim qkey now fault = (t, .error ack)) :
    ∃ db, t = { s with db } ∧ Loses s.db db := by
  have hl : Loses s.db (s.db.claimPendingCredentialFormSlot qkey now).2 :=
    loses_clear (fun c => claimable (trimSpace qkey) now c = true)
  unfold Forms.claim at h
  cases fault with
  | before =>
    cases h
    exact ⟨s.db, rfl, loses_refl s.db⟩
  | after =>
    cases h
    exact ⟨_, rfl, hl⟩
  | none =>
    simp only [Prod.mk.injEq] at h
    exact ⟨_, h.1.symm, hl⟩

theorem Forms.store_db {s t : Forms} {userID : String} {inputs : List CreateUserCredentialInput}
    {result : Except ActionAck Nat} (h : s.store userID inputs fault = (t, result)) :
    t.db = s.db := by
  unfold Forms.store at h
  split at h <;> cases h <;> rfl

theorem Forms.enqueue_db {s t : Forms} {result : Except ActionAck CreateInboundIMMessageResult}
    (h : s.enqueue now input fault = (t, result)) : ∃ db, t = { s with db } ∧ Loses s.db db := by
  unfold Forms.enqueue at h
  split at h
  · cases h
    exact ⟨s.db, rfl, loses_refl s.db⟩
  · cases h
    exact ⟨s.db, rfl, loses_refl s.db⟩
  next db result' hcreate =>
    cases h
    exact ⟨db, rfl, loses_createInboundIMMessage hcreate⟩
  next db result' hcreate =>
    cases h
    exact ⟨db, rfl, loses_createInboundIMMessage hcreate⟩

theorem ServerOk.forms (h : ServerOk s n) {forms : Forms}
    (hstash : StashOk { s with forms }) : ServerOk { s with forms } n :=
  ⟨hstash, h.effects, h.ordered⟩

theorem ServerOk.effect (h : ServerOk s n) {e : Effect}
    (he : EffectOk s.claims e) (hcall : e.call < n)
    (hstored : ∀ input, e.did = .inr input → ∃ e' ∈ s.effects, e'.Stored e.call) :
    ServerOk { s with effects := s.effects ++ [e] } n := by
  refine ⟨{ h.stash with }, ?_, ?_⟩
  · exact forall_mem_concat h.effects ⟨he, hcall⟩
  · intro k e' input hk hdid
    rcases Nat.lt_or_ge k s.effects.length with hlt | hge
    · rw [List.getElem?_append_left hlt] at hk
      obtain ⟨j, e'', hj, he'', hstored⟩ := h.ordered k e' input hk hdid
      exact ⟨j, e'', hj, by rw [List.getElem?_append_left (by omega)]; exact he'', hstored⟩
    · rw [List.getElem?_append_right hge] at hk
      cases List.mem_singleton.1 (List.mem_of_getElem? hk)
      obtain ⟨e'', he'', hstored⟩ := hstored input hdid
      obtain ⟨j, hj⟩ := List.getElem?_of_mem he''
      have hjlt := (List.getElem?_eq_some_iff.1 hj).1
      exact ⟨j, e'', by omega, by rw [List.getElem?_append_left hjlt]; exact hj, hstored⟩

theorem ServerOk.claim (h : ServerOk s n)
    (hclaim : (s.forms.db.claimPendingCredentialFormSlot qkey now).1 = some claimed) :
    ServerOk { s with
      forms := { s.forms with db := (s.forms.db.claimPendingCredentialFormSlot qkey now).2 }
      claims := s.claims ++ [⟨i, claimed, now⟩] } n := by
  refine ⟨h.stash.claim hclaim, ?_, h.ordered⟩
  intro e he
  obtain ⟨⟨hcleared, hfaithful⟩, hcall⟩ := h.effects e he
  exact ⟨⟨hcleared.extends (fun _ hmem => List.mem_append_left _ hmem), hfaithful⟩, hcall⟩

/-- What a step of call `i` leaves to the others. -/
structure SparesSubmits (i : Nat) (s t : FormServer) : Prop extends Extends s t where
  own : ∀ e ∈ t.effects, e ∈ s.effects ∨ e.call = i

theorem SparesSubmits.submitOk {j : Nat} {c : Submit}
    (h : SparesSubmits i s t) (hj : j ≠ i) (hc : SubmitOk s j c) : SubmitOk t j c := by
  refine ⟨?_, hc.phase.extends h.toExtends⟩
  intro e he hcall
  obtain he | hi := h.own e he
  · exact hc.own e he hcall
  · exact absurd (hcall.symm.trans hi) hj

theorem SparesSubmits.of_history
    (hclaims : ∀ e ∈ s.claims, e ∈ t.claims) (heffects : t.effects = s.effects) :
    SparesSubmits i s t :=
  ⟨⟨hclaims, fun _ he => heffects ▸ he⟩, fun _ he => .inl (heffects ▸ he)⟩

section Step

variable {s t : FormServer} {i n : Nat} {c d : Submit}

theorem claimStep_ok (hs : ServerOk s n) (hc : SubmitOk s i c) {now : Time} {fault : Fault}
    (h : c.step i s (.claim now fault) = some (t, d)) :
    ServerOk t n ∧ SubmitOk t i d ∧ SparesSubmits i s t := by
  simp only [Submit.step] at h
  split at h
  · split at h
    · cases h
      exact ⟨hs, ⟨hc.own, trivial⟩, .of_history (fun _ he => he) rfl⟩
    next bindings hbindings =>
      cases hclaim : s.forms.claim (trimSpace c.action.qkey) now fault with
      | mk forms result =>
        simp only [hclaim] at h
        cases result with
        | error ack =>
          cases h
          obtain ⟨db, rfl, hl⟩ := Forms.claim_error hclaim
          exact ⟨hs.forms (hs.stash.loses hl), ⟨hc.own, trivial⟩, .of_history (fun _ he => he) rfl⟩
        | ok claimed =>
          cases h
          obtain ⟨-, hfound, rfl⟩ := Forms.claim_ok hclaim
          have hkey : claimed.slot.qkey = trimSpace c.action.qkey := by
            obtain ⟨-, -, -, -, -, hkey, -⟩ := claim_some hfound
            rw [hkey, trimSpace_trimSpace]
          refine ⟨hs.claim hfound, ⟨hc.own, ?_⟩,
            .of_history (fun _ he => List.mem_append_left _ he) rfl⟩
          cases hauth : c.action.authorize claimed with
          | error ack => trivial
          | ok =>
            exact ⟨⟨⟨now, List.mem_concat_self⟩, hauth, hkey⟩, hbindings⟩
  · cases h

theorem encryptStep_ok (hs : ServerOk s n) (hc : SubmitOk s i c) {fails : Bool}
    (h : c.step i s (.encrypt fails) = some (t, d)) :
    ServerOk t n ∧ SubmitOk t i d ∧ SparesSubmits i s t := by
  simp only [Submit.step] at h
  split at h
  next claimed bindings hp =>
    cases h
    have hphase := hc.phase
    rw [hp] at hphase
    refine ⟨hs, ⟨hc.own, ?_⟩, .of_history (fun _ he => he) rfl⟩
    cases fails with
    | true => trivial
    | false => exact ⟨hphase.1, bindings, hphase.2, rfl⟩
  · cases h

theorem effectStep_ok (hs : ServerOk s n) (hi : i < n) (hc : SubmitOk s i c)
    {claimed : ClaimedPendingCredentialForm} (hcleared : Cleared s.claims i c.action claimed)
    {forms : Forms} (hl : Loses s.forms.db forms.db) {did} {phase : SubmitPhase}
    (hfaithful : Effect.Faithful ⟨i, c.action, claimed, did⟩)
    (hstored : ∀ input, did = .inr input → ∃ e ∈ s.effects, e.Stored i)
    (hphase : phase.Ok { s with forms, effects := s.effects ++ [⟨i, c.action, claimed, did⟩] } i
      c.action) :
    ServerOk { s with forms, effects := s.effects ++ [⟨i, c.action, claimed, did⟩] } n ∧
    SubmitOk { s with forms, effects := s.effects ++ [⟨i, c.action, claimed, did⟩] } i
      { c with phase } ∧
    SparesSubmits i s { s with forms, effects := s.effects ++ [⟨i, c.action, claimed, did⟩] } := by
  have hforms : StashOk { s with forms } := { hs.stash.loses hl with }
  refine ⟨(hs.forms hforms).effect ⟨hcleared, hfaithful⟩ hi hstored, ⟨?_, hphase⟩, ⟨?_, ?_⟩, ?_⟩
  · intro e he hcall
    rcases mem_concat he with he | rfl
    · exact hc.own e he hcall
    · rfl
  · exact fun _ he => he
  · exact fun _ he => List.mem_append_left _ he
  · exact forall_mem_concat (fun e he => .inl he) (.inr rfl)

theorem storeStep_ok (hs : ServerOk s n) (hi : i < n) (hc : SubmitOk s i c) {fault : Fault}
    (h : c.step i s (.store fault) = some (t, d)) :
    ServerOk t n ∧ SubmitOk t i d ∧ SparesSubmits i s t := by
  simp only [Submit.step] at h
  split at h
  next claimed inputs hp =>
    have hphase := hc.phase
    rw [hp] at hphase
    obtain ⟨hcleared, hclick⟩ := hphase
    cases hstore : s.forms.store claimed.slot.initiatorUserID inputs fault with
    | mk forms result =>
      have hl : Loses s.forms.db forms.db := by
        rw [Forms.store_db hstore]
        exact loses_refl s.forms.db
      simp only [hstore] at h
      cases result with
      | error ack =>
        cases h
        exact effectStep_ok hs hi hc hcleared hl ⟨rfl, hclick⟩ (fun _ hdid => by cases hdid) trivial
      | ok replaced =>
        cases h
        exact effectStep_ok hs hi hc hcleared hl ⟨rfl, hclick⟩ (fun _ hdid => by cases hdid)
          ⟨hcleared, _, List.mem_concat_self, rfl, _, _, rfl⟩
  · cases h

theorem enqueueStep_ok (hs : ServerOk s n) (hi : i < n) (hc : SubmitOk s i c) {now : Time}
    {fault : Fault} (h : c.step i s (.enqueue now fault) = some (t, d)) :
    ServerOk t n ∧ SubmitOk t i d ∧ SparesSubmits i s t := by
  simp only [Submit.step] at h
  split at h
  next claimed replaced hp =>
    have hphase := hc.phase
    rw [hp] at hphase
    obtain ⟨hcleared, hstored⟩ := hphase
    split_ifs at h
    · cases h
      exact ⟨hs, ⟨hc.own, trivial⟩, .of_history (fun _ he => he) rfl⟩
    · cases hqueue : s.forms.enqueue now
          (Forms.resumeInput (trimSpace c.action.qkey) claimed) fault with
      | mk forms result =>
        simp only [hqueue] at h
        cases h
        obtain ⟨db, rfl, hl⟩ := Forms.enqueue_db hqueue
        have hfaithful : Effect.Faithful
            ⟨i, c.action, claimed, .inr (Forms.resumeInput (trimSpace c.action.qkey) claimed)⟩ := by
          rw [Effect.Faithful, hcleared.qkey]
        refine effectStep_ok hs hi hc hcleared hl hfaithful (fun _ _ => hstored) ?_
        cases result <;> trivial
  · cases h

theorem submitStep_ok (hs : ServerOk s n) (hi : i < n) (hc : SubmitOk s i c) {a : SubmitAction}
    (h : c.step i s a = some (t, d)) : ServerOk t n ∧ SubmitOk t i d ∧ SparesSubmits i s t := by
  cases a with
  | claim now fault => exact claimStep_ok hs hc h
  | encrypt fails => exact encryptStep_ok hs hc h
  | store fault => exact storeStep_ok hs hi hc h
  | enqueue now fault => exact enqueueStep_ok hs hi hc h

end Step

theorem stash_ok {p : Submits} (hs : ServerOk p.shared n) {a : StashAction}
    (hfresh : FreshKey p (.env a)) (h : stash p.shared a = some t) :
    ServerOk t n ∧ t.claims = p.shared.claims ∧ t.effects = p.shared.effects := by
  cases a with
  | write id slot now =>
    simp only [stash] at h
    split at h
    · cases h
    next db hwrite =>
      cases h
      exact ⟨⟨hs.stash.write hfresh hwrite, hs.effects, hs.ordered⟩, rfl, rfl⟩
  | stamp id qkey msg =>
    cases h
    exact ⟨hs.forms (hs.stash.loses (loses_stamp _ id qkey msg)), rfl, rfl⟩
  | clear | sweep =>
    cases h
    exact ⟨hs.forms (hs.stash.loses (loses_clear _)), rfl, rfl⟩

theorem submits_keeps : Pool.Keeps newSubmit Submit.step stash FreshKey ServerOk SubmitOk := by
  refine ⟨?_, ?_, ?_⟩
  · intro p x _ hp
    have hs := hp.shared
    refine ⟨⟨hs.stash, fun e he => ⟨(hs.effects e he).1, by have := (hs.effects e he).2; omega⟩,
      hs.ordered⟩, ?_, trivial⟩
    intro e he hcall
    have := (hs.effects e he).2
    omega
  · intro p i c a t d _ hp hc hstep
    have hi := (List.getElem?_eq_some_iff.1 hc).1
    obtain ⟨hs, hd, hspares⟩ := submitStep_ok hp.shared hi (hp.threads i c hc) hstep
    exact ⟨hs, hd, fun j u hj hu => hspares.submitOk hj (hp.threads j u hu)⟩
  · intro p e t hok hp henv
    obtain ⟨hs, hclaims, heffects⟩ := stash_ok hp.shared hok henv
    refine ⟨hs, fun j u hu => ?_⟩
    have hu := hp.threads j u hu
    exact ⟨fun e he => hu.own e (heffects ▸ he),
      hu.phase.extends ⟨fun _ he => hclaims ▸ he, fun _ he => heffects ▸ he⟩⟩

theorem stash_claims {a : StashAction} (h : stash s a = some t) :
    t.claims = s.claims ∧ t.forms.credentials = s.forms.credentials ∧ t.effects = s.effects := by
  cases a with
  | write id slot now =>
    simp only [stash] at h
    split at h <;> cases h
    exact ⟨rfl, rfl, rfl⟩
  | stamp | clear | sweep =>
    cases h
    exact ⟨rfl, rfl, rfl⟩

theorem submitStep_claims {c d : Submit} {a : SubmitAction}
    (h : c.step i s a = some (t, d)) : t.claims = s.claims ∨ ∃ now claimed,
      a = .claim now .none ∧ t.claims = s.claims ++ [⟨i, claimed, now⟩] ∧
      (s.forms.db.claimPendingCredentialFormSlot (trimSpace c.action.qkey) now).1 =
        some claimed := by
  cases a with
  | claim now fault =>
    simp only [Submit.step] at h
    split at h
    · split at h
      · cases h
        exact .inl rfl
      · cases hclaim : s.forms.claim (trimSpace c.action.qkey) now fault with
        | mk forms result =>
          simp only [hclaim] at h
          cases result with
          | error ack =>
            cases h
            exact .inl rfl
          | ok claimed =>
            cases h
            obtain ⟨rfl, hfound, -⟩ := Forms.claim_ok hclaim
            exact .inr ⟨now, claimed, rfl, rfl, hfound⟩
    · cases h
  | encrypt fails =>
    simp only [Submit.step] at h
    split at h <;> cases h
    exact .inl rfl
  | store fault =>
    simp only [Submit.step] at h
    split at h
    · split at h <;> cases h <;> exact .inl rfl
    · cases h
  | enqueue now fault =>
    simp only [Submit.step] at h
    split at h
    · split_ifs at h <;> cases h <;> exact .inl rfl
    · cases h

theorem claim_found {start p : Submits} {actions : List SubmitsAction} {e : ClaimEntry}
    (hrun : runTrace Submits.step start actions = some p) (hstart : start.shared.claims = [])
    (he : e ∈ p.shared.claims) : ∃ before after u,
      actions = before ++ .run e.call (.claim e.now .none) :: after ∧
      runTrace Submits.step start before = some u ∧
      ∃ c ∈ u.shared.forms.db.conversations, c.deleted = false ∧
        c.pendingCredentialForm = some e.claimed.slot ∧ e.claimed = c.claimed e.claimed.slot ∧
        e.now.nanos < e.claimed.slot.expiresAt.nanos := by
  obtain ⟨before, a, after, u, v, rfl, hu, hstep, hnot, hyes, -⟩ :=
    runTrace_begins (P := fun p => e ∈ p.shared.claims) hrun (by simp [hstart]) he
  cases a with
  | spawn x =>
    cases hstep
    exact absurd hyes hnot
  | env a =>
    obtain ⟨t, ht, rfl⟩ := Option.map_eq_some_iff.1 hstep
    rw [(stash_claims ht).1] at hyes
    exact absurd hyes hnot
  | run i a =>
    obtain ⟨c, t, d, hc, hrun, rfl⟩ := Pool.step_run hstep
    obtain hsame | ⟨now, claimed, rfl, hadds, hfound⟩ := submitStep_claims hrun
    · rw [hsame] at hyes
      exact absurd hyes hnot
    · have hlast : e = ⟨i, claimed, now⟩ := by
        have hmem : e ∈ u.shared.claims ++ [⟨i, claimed, now⟩] := by
          rw [← hadds]
          exact hyes
        exact (mem_concat hmem).resolve_left hnot
      subst hlast
      obtain ⟨row, hrow, hdeleted, hslot, hclaimed, -, hexpires, -⟩ := claim_some hfound
      exact ⟨before, after, u, rfl, hu, row, hrow, hdeleted, hslot, hclaimed, hexpires⟩

/-- The row has the value of one of the inputs. -/
def UserCredential.From (row : UserCredential) (userID : String)
    (inputs : List CreateUserCredentialInput) : Prop :=
  row.userID = userID ∧ ∃ input ∈ inputs, row.kind = normalizeCredentialKindCode input.kind ∧
    row.displayName = trimSpace input.displayName ∧ row.ciphertext = input.encryptedValue

theorem mem_foldl_replace {userID : String} {inputs : List CreateUserCredentialInput}
    {rows : List UserCredential × Nat} {row : UserCredential}
    (h : row ∈ (inputs.foldl (replaceUserCredential userID) rows).1) :
    (∃ old ∈ rows.1, row = { old with deleted := row.deleted }) ∨ row.From userID inputs := by
  induction inputs generalizing rows with
  | nil => exact .inl ⟨row, h, rfl⟩
  | cons input inputs ih =>
    obtain ⟨old, hold, hrow⟩ | ⟨huser, later, hlater, hvalue⟩ := ih h
    · rcases mem_concat hold with hold | rfl
      · obtain ⟨older, holder, rfl⟩ := List.mem_map.1 hold
        refine .inl ⟨older, holder, hrow.trans ?_⟩
        split_ifs <;> rfl
      · rw [hrow]
        exact .inr ⟨rfl, input, List.mem_cons_self, rfl, rfl, rfl⟩
    · exact .inr ⟨huser, later, List.mem_cons_of_mem _ hlater, hvalue⟩

theorem mem_replaceUserCredentials {kinds : List String} {rows : List UserCredential}
    {userID : String} {inputs : List CreateUserCredentialInput}
    {result : List UserCredential × Nat} {row : UserCredential}
    (h : replaceUserCredentials kinds rows userID inputs = some result) (hrow : row ∈ result.1) :
    (∃ old ∈ rows, row = { old with deleted := row.deleted }) ∨ row.From userID inputs := by
  unfold replaceUserCredentials at h
  split_ifs at h
  cases h
  exact mem_foldl_replace hrow

/-- The rows of `t` are those of `s`, maybe deleted since, or written by an effect of `t`. -/
structure Writes (s t : FormServer) : Prop where
  effects : ∀ e ∈ s.effects, e ∈ t.effects
  rows : ∀ row ∈ t.forms.credentials,
    (∃ old ∈ s.forms.credentials, row = { old with deleted := row.deleted }) ∨
    ∃ e ∈ t.effects, ∃ inputs userID ok, e.did = .inl (inputs, userID, ok) ∧ row.From userID inputs

theorem Writes.of_credentials (heffects : ∀ e ∈ s.effects, e ∈ t.effects)
    (h : t.forms.credentials = s.forms.credentials) : Writes s t :=
  ⟨heffects, fun row hrow => .inl ⟨row, h ▸ hrow, rfl⟩⟩

theorem Writes.trans {u : FormServer} (hst : Writes s t) (htu : Writes t u) : Writes s u := by
  refine ⟨fun e he => htu.effects e (hst.effects e he), fun row hrow => ?_⟩
  obtain ⟨old, hold, hrow⟩ | hnew := htu.rows row hrow
  · obtain ⟨older, holder, hold⟩ | ⟨e, he, inputs, userID, ok, hdid, hfrom⟩ := hst.rows old hold
    · exact .inl ⟨older, holder, by rw [hrow, hold]⟩
    · refine .inr ⟨e, htu.effects e he, inputs, userID, ok, hdid, ?_⟩
      rw [hrow]
      exact hfrom
  · exact .inr hnew

theorem store_writes {forms : Forms} {userID : String} {inputs : List CreateUserCredentialInput}
    {result : Except ActionAck Nat} {e : Effect} {ok : Bool}
    (h : s.forms.store userID inputs fault = (forms, result))
    (he : e.did = .inl (inputs, userID, ok)) :
    Writes s { s with forms, effects := s.effects ++ [e] } := by
  have heffects : ∀ x ∈ s.effects, x ∈ s.effects ++ [e] := fun x hx => List.mem_append_left _ hx
  have hnew {credentials : List UserCredential} {replaced : Nat}
      (hreplace : replaceUserCredentials s.forms.kinds s.forms.credentials userID inputs =
        some (credentials, replaced)) :
      Writes s { s with forms := { s.forms with credentials }, effects := s.effects ++ [e] } := by
    refine ⟨heffects, fun row hrow => ?_⟩
    exact (mem_replaceUserCredentials hreplace hrow).imp_right fun hfrom =>
      ⟨e, List.mem_concat_self, inputs, userID, ok, he, hfrom⟩
  unfold Forms.store at h
  split at h
  · cases h
    exact .of_credentials heffects rfl
  · cases h
    exact .of_credentials heffects rfl
  next hreplace =>
    cases h
    exact hnew hreplace
  next hreplace =>
    cases h
    exact hnew hreplace

theorem submitStep_writes {c d : Submit} {a : SubmitAction} (h : c.step i s a = some (t, d)) :
    Writes s t := by
  cases a with
  | claim now fault =>
    simp only [Submit.step] at h
    split at h
    · split at h
      · cases h
        exact .of_credentials (fun _ he => he) rfl
      · cases hclaim : s.forms.claim (trimSpace c.action.qkey) now fault with
        | mk forms result =>
          simp only [hclaim] at h
          cases result with
          | error ack =>
            cases h
            obtain ⟨db, rfl, -⟩ := Forms.claim_error hclaim
            exact .of_credentials (fun _ he => he) rfl
          | ok claimed =>
            cases h
            obtain ⟨-, -, rfl⟩ := Forms.claim_ok hclaim
            exact .of_credentials (fun _ he => he) rfl
    · cases h
  | encrypt fails =>
    simp only [Submit.step] at h
    split at h <;> cases h
    exact .of_credentials (fun _ he => he) rfl
  | store fault =>
    simp only [Submit.step] at h
    split at h
    next claimed inputs _ =>
      cases hstore : s.forms.store claimed.slot.initiatorUserID inputs fault with
      | mk forms result =>
        simp only [hstore] at h
        cases result <;> cases h <;> exact store_writes hstore rfl
    · cases h
  | enqueue now fault =>
    simp only [Submit.step] at h
    split at h
    next claimed replaced _ =>
      split_ifs at h
      · cases h
        exact .of_credentials (fun _ he => he) rfl
      · cases hqueue : s.forms.enqueue now
            (Forms.resumeInput (trimSpace c.action.qkey) claimed) fault with
        | mk forms result =>
          simp only [hqueue] at h
          cases h
          obtain ⟨db, rfl, -⟩ := Forms.enqueue_db hqueue
          exact .of_credentials (fun _ he => List.mem_append_left _ he) rfl
    · cases h

theorem step_writes {p q : Submits} {a : SubmitsAction} (h : p.step a = some q) :
    Writes p.shared q.shared := by
  cases a with
  | spawn x =>
    cases h
    exact .of_credentials (fun _ he => he) rfl
  | env a =>
    obtain ⟨t, ht, rfl⟩ := Option.map_eq_some_iff.1 h
    obtain ⟨hcredentials, heffects⟩ := (stash_claims ht).2
    exact .of_credentials (fun _ he => heffects ▸ he) hcredentials
  | run i a =>
    obtain ⟨c, t, d, -, hrun, rfl⟩ := Pool.step_run h
    exact submitStep_writes hrun

theorem authorize_ok {action : CardAction} (h : action.authorize claimed = .ok ()) :
    trimSpace action.operatorID = trimSpace claimed.slot.initiatorOpenID ∧
      trimSpace claimed.slot.initiatorOpenID ≠ "" ∧ SameChat action claimed := by
  simp only [CardAction.authorize] at h
  split_ifs at h with hopen hchat
  rw [not_or, not_not] at hopen
  refine ⟨hopen.2.symm, hopen.1, ?_⟩
  by_cases hstash : trimSpace claimed.externalChatID = ""
  · exact .inl hstash
  by_cases hclick : trimSpace action.externalChatID = ""
  · exact .inr (.inl hclick)
  by_cases hsame : trimSpace claimed.externalChatID = trimSpace action.externalChatID
  · exact .inr (.inr hsame.symm)
  exact absurd ⟨hstash, hclick, hsame⟩ hchat

/-- If keys are distinct, at most one submit stores credentials or resumes a query for a key: the
requester's, on a pending form, storing before it resumes; and all new credentials are from there.
-/
theorem credentials_by_requester (forms : Forms) (actions : List SubmitsAction) (p : Submits)
    (hids : (forms.db.conversations.map Conversation.id).Nodup)
    (hforms : ∀ c ∈ forms.db.conversations, c.pendingCredentialForm = none)
    (hok : StepsMeet Submits.step FreshKey ⟨{ forms }, []⟩ actions)
    (hrun : runTrace Submits.step ⟨{ forms }, []⟩ actions = some p) :
    (∀ e ∈ p.shared.effects, ∀ e' ∈ p.shared.effects,
      e.claimed.slot.qkey = e'.claimed.slot.qkey → e.call = e'.call) ∧
    (∀ e ∈ p.shared.effects, e.Requested ⟨{ forms }, []⟩ actions ∧
      ∃ c, p.threads[e.call]? = some c ∧ c.action = e.action) ∧
    (∀ row ∈ p.shared.forms.credentials,
      (∃ old ∈ forms.credentials, row = { old with deleted := row.deleted }) ∨
        ∃ e ∈ p.shared.effects, e.Wrote row) ∧
    ∀ (k : Nat) (e : Effect) (input : CreateInboundIMMessageInput),
      p.shared.effects[k]? = some e → e.did = .inr input →
      ∃ (j : Nat) (e' : Effect), j < k ∧ p.shared.effects[j]? = some e' ∧ e'.Stored e.call := by
  have hnone : ∀ c ∈ forms.db.conversations, ∀ k, c.pendingKey ≠ some k := by
    intro c hc k hk
    rw [Conversation.pendingKey, hforms c hc] at hk
    cases hk
  have hstart : Pool.Holds ServerOk SubmitOk (⟨{ forms }, []⟩ : Submits) := by
    refine ⟨⟨⟨hids, ?_, ?_, List.nodup_nil, ?_, ?_⟩, ?_, ?_⟩, ?_⟩
    · exact fun c hc _ _ k hk => absurd hk (hnone c hc k)
    · exact fun c hc k hk => absurd hk (hnone c hc k)
    · exact fun c hc k hk => absurd hk (hnone c hc k)
    all_goals simp
  have hp := submits_keeps.run_holds hok hrun hstart
  have hs := hp.shared
  refine ⟨?_, ?_, ?_, hs.ordered⟩
  · intro e he e' he' hkey
    obtain ⟨now, hentry⟩ := (hs.effects e he).1.cleared.entry
    obtain ⟨now', hentry'⟩ := (hs.effects e' he').1.cleared.entry
    have hsame := List.inj_on_of_nodup_map hs.stash.once hentry hentry' hkey
    exact congrArg ClaimEntry.call hsame
  · intro e he
    obtain ⟨⟨hcleared, hfaithful⟩, hcall⟩ := hs.effects e he
    obtain ⟨now, hentry⟩ := hcleared.entry
    obtain ⟨hoperator, hnamed, hchat⟩ := authorize_ok hcleared.authorized
    obtain ⟨before, after, u, hactions, hu, hfound⟩ := claim_found hrun rfl hentry
    have hthread := List.getElem?_eq_getElem hcall
    exact ⟨⟨hoperator, hnamed, hchat, hcleared.qkey, ⟨before, now, after, u, hactions, hu, hfound⟩,
      hfaithful⟩, _, hthread, ((hp.threads e.call _ hthread).own e he rfl).symm⟩
  · intro row hrow
    have hwrites : Writes { forms } p.shared :=
      runTrace_invariant (I := fun q => Writes { forms } q.shared)
        (fun _ _ _ _ hstep hq => hq.trans (step_writes hstep)) (stepsMeet_true _ actions) hrun
        (.of_credentials (fun _ he => he) rfl)
    refine (hwrites.rows row hrow).imp_right ?_
    rintro ⟨e, he, inputs, userID, ok, hdid, huser, input, hinput, hkind, hname, hvalue⟩
    have hfaithful := (hs.effects e he).1.faithful
    rw [Effect.Faithful, hdid] at hfaithful
    obtain ⟨rfl, bindings, hbindings, rfl⟩ := hfaithful
    obtain ⟨b, hb, rfl⟩ := List.mem_map.1 hinput
    exact ⟨e, he, huser, bindings, hbindings, b, hb, hkind, hname, hvalue⟩

def askedTables : Forms where
  db := {
    agents := [⟨"a", "w", "A", "agents_api"⟩]
    conversations := [⟨0, ⟨"w", "feishu", "oc_1", ""⟩, "app", "dm", "t", true, false, "a",
      none, ⟨1⟩⟩] }
  kinds := ["github_pat"]

def askedForm : PendingCredentialFormSlot where
  qkey := "qkey_1"
  initiatorOpenID := "ou_1"
  initiatorUserID := "u1"
  agentID := "a"
  rawQuery := "list my pull requests"
  expiresAt := ⟨100⟩

def clickBy (operatorID : String) : CardAction where
  platform := "feishu"
  externalChatID := "oc_1"
  operatorID := operatorID
  qkey := "qkey_1"
  formValues := [("credential_github_pat", some "ghp_x")]

instance : ∀ (p : Submits) (a : SubmitsAction), Decidable (FreshKey p a)
  | p, .env (.write _ slot _) => inferInstanceAs (Decidable (slot.qkey ∉ p.shared.written))
  | _, .spawn _ | _, .run .. | _, .env (.stamp ..) | _, .env (.clear _) | _, .env (.sweep _) =>
    .isTrue trivial

def submittedOnce : List SubmitsAction :=
  [.env (.write 0 askedForm ⟨10⟩), .spawn (clickBy "ou_1"), .spawn (clickBy "ou_1"),
    .run 0 (.claim ⟨20⟩ .none), .run 1 (.claim ⟨20⟩ .none), .run 0 (.encrypt false),
    .run 0 (.store .none), .run 0 (.enqueue ⟨21⟩ .none)]

theorem credentials_by_requester_once : ∃ p,
    runTrace Submits.step ⟨{ forms := askedTables }, []⟩ submittedOnce = some p ∧
    p.shared.effects.length = 2 ∧ p.shared.forms.credentials.length = 1 ∧
    ∀ e ∈ p.shared.effects, e.Requested ⟨{ forms := askedTables }, []⟩ submittedOnce := by
  have hrun : (runTrace Submits.step ⟨{ forms := askedTables }, []⟩ submittedOnce).map (fun p =>
      p.shared.effects.length == 2 && p.shared.forms.credentials.length == 1) = some true := by
    decide +kernel
  obtain ⟨p, hp, hcheck⟩ := exists_of_runTrace_map hrun
  simp only [Bool.and_eq_true, beq_iff_eq] at hcheck
  have hok : StepsMeet Submits.step FreshKey ⟨{ forms := askedTables }, []⟩ submittedOnce :=
    stepsMeet_of_check (by decide +kernel)
  obtain ⟨-, hrequested, -⟩ := credentials_by_requester askedTables submittedOnce p (by decide)
    (by simp [askedTables]) hok hp
  exact ⟨p, hp, hcheck.1, hcheck.2, fun e he => (hrequested e he).1⟩

def paddedOperator : List SubmitsAction :=
  [.env (.write 0 askedForm ⟨10⟩), .spawn (clickBy " ou_1"), .run 0 (.claim ⟨20⟩ .none),
    .run 0 (.encrypt false), .run 0 (.store .none)]

theorem padded_operator_accepted : ∃ p,
    runTrace Submits.step ⟨{ forms := askedTables }, []⟩ paddedOperator = some p ∧
    p.shared.forms.credentials.length = 1 ∧
    ∃ e ∈ p.shared.effects, e.action.operatorID ≠ e.claimed.slot.initiatorOpenID := by
  have hrun : (runTrace Submits.step ⟨{ forms := askedTables }, []⟩ paddedOperator).map (fun p =>
      p.shared.forms.credentials.length == 1 && p.shared.effects.any (fun e =>
        e.action.operatorID != e.claimed.slot.initiatorOpenID)) = some true := by
    decide +kernel
  obtain ⟨p, hp, hcheck⟩ := exists_of_runTrace_map hrun
  simp only [Bool.and_eq_true, beq_iff_eq, List.any_eq_true, bne_iff_ne] at hcheck
  exact ⟨p, hp, hcheck.1, hcheck.2⟩

end Parsar.Inbound
