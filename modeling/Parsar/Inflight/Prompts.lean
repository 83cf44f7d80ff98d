import Parsar.Inflight.Invariants

namespace Parsar.Inflight

open GoStd

theorem latestOf_mem {α : Type} {f : AgentRunEvent → Option α} {events : List AgentRunEvent} {x : α}
    (h : latestOf f events = some x) : ∃ ev ∈ events, f ev = some x := by
  induction events with
  | nil => cases h
  | cons ev events ih =>
    have hcons := latestOf_append f [ev] events
    rw [List.singleton_append, h] at hcons
    cases htail : latestOf f events with
    | some y =>
      rw [htail, Option.some_or] at hcons
      obtain ⟨e, he, hfe⟩ := ih (htail.trans hcons.symm)
      exact ⟨e, List.mem_cons_of_mem ev he, hfe⟩
    | none =>
      rw [htail, Option.none_or] at hcons
      have hev : latestOf f [ev] = f ev := Option.or_none
      exact ⟨ev, List.mem_cons_self .., (hcons.trans hev).symm⟩

theorem permission?_trimmed {ev : AgentRunEvent} {p : PendingPermission}
    (h : ev.permission? = some p) : trimSpace p.requestID = p.requestID := by
  simp only [AgentRunEvent.permission?, pendingPermissionFromPayload] at h
  split_ifs at h
  cases h
  exact trimSpace_trimSpace _

def AgentRunEvent.choiceRequest? (ev : AgentRunEvent) : Option String :=
  if ev.kind = .promptForUserChoiceAsked ∧ trimSpace (ev.payload.string "request_id") ≠ "" then
    some (trimSpace (ev.payload.string "request_id"))
  else none

/-- A choice prompt with a request id has a question or an option. -/
def AgentRunEvent.Readable (ev : AgentRunEvent) : Prop :=
  ev.choiceRequest?.isSome = true → ev.ask?.isSome = true

instance (ev : AgentRunEvent) : Decidable ev.Readable :=
  inferInstanceAs (Decidable (_ → _))

theorem ask?_spec {ev : AgentRunEvent} {q : PendingAsk} (h : ev.ask? = some q) :
    ev.choiceRequest? = some q.requestID ∧ q.questions ≠ [] ∧
      trimSpace q.requestID = q.requestID := by
  simp only [AgentRunEvent.ask?, pendingAskFromPayload] at h
  split_ifs at h with hkind hid
  cases hlist : decodePromptForUserChoiceQuestionList ev.payload with
  | nil =>
    simp only [hlist, Option.map_eq_some_iff] at h
    obtain ⟨question, -, rfl⟩ := h
    exact ⟨if_pos ⟨hkind, hid⟩, by simp, trimSpace_trimSpace _⟩
  | cons question rest =>
    simp only [hlist, Option.some.injEq] at h
    subst h
    exact ⟨if_pos ⟨hkind, hid⟩, by simp, trimSpace_trimSpace _⟩

theorem choiceRequest?_eq {ev : AgentRunEvent} (h : ev.Readable) :
    ev.choiceRequest? = ev.ask?.map PendingAsk.requestID := by
  cases hask : ev.ask? with
  | some q => exact (ask?_spec hask).1
  | none =>
    cases hreq : ev.choiceRequest? with
    | none => rfl
    | some q =>
      have hsome := h (by rw [hreq]; rfl)
      rw [hask] at hsome
      cases hsome

theorem latestOf_choiceRequest? {events : List AgentRunEvent} (h : ∀ ev ∈ events, ev.Readable) :
    latestOf AgentRunEvent.choiceRequest? events =
      (latestOf AgentRunEvent.ask? events).map PendingAsk.requestID := by
  induction events with
  | nil => rfl
  | cons ev events ih =>
    have htail := ih fun e he => h e (List.mem_cons_of_mem ev he)
    have hhead := choiceRequest?_eq (h ev (List.mem_cons_self ..))
    rw [← List.singleton_append, latestOf_append, latestOf_append, htail, Option.map_or]
    simp only [latestOf, List.foldl_cons, List.foldl_nil, Option.or_none, hhead]

/-- The slot shows the card that was sent for the request. -/
structure PermissionInflightSlot.Shows (slot : PermissionInflightSlot) (log : List Action)
    (run : RunID) (requestID : String) : Prop where
  agentRunID : slot.agentRunID = run.text
  request : slot.permissionRequestID = requestID
  sent : ∃ id : MsgID, slot.externalMsgID = id.text ∧ .sendPermission run requestID (some id) ∈ log

structure PromptForUserChoiceInflightSlot.Shows (slot : PromptForUserChoiceInflightSlot)
    (log : List Action) (run : RunID) (requestID : String) : Prop where
  agentRunID : slot.agentRunID = run.text
  request : slot.requestID = requestID
  sent : ∃ id : MsgID, slot.externalMsgID = id.text ∧ .sendChoice run requestID (some id) ∈ log

theorem PermissionInflightSlot.Shows.mono {slot : PermissionInflightSlot} {log log' : List Action}
    {run : RunID} {q : String} (hlog : log <:+ log') (h : slot.Shows log run q) :
    slot.Shows log' run q :=
  { h with sent := h.sent.imp fun _ hid => hid.imp_right fun hmem => hlog.subset hmem }

def PromptsSettled (run : RunID) (log : List Action) (_payload : Object)
    (events : List AgentRunEvent) : Prop :=
  (∀ p, latestOf AgentRunEvent.permission? events = some p →
      .pinPermission run p.requestID ∈ log) ∧
    ∀ q, latestOf AgentRunEvent.ask? events = some q → .pinChoice run q.requestID ∈ log

variable {log log' : List Action} {s t : System}

theorem promptsSettled_mono (run : RunID) (log log' : List Action) (payload : Object)
    (events : List AgentRunEvent) (hlog : log <:+ log')
    (h : PromptsSettled run log payload events) :
    PromptsSettled run log' payload events :=
  ⟨fun p hp => hlog.subset (h.1 p hp), fun q hq => hlog.subset (h.2 q hq)⟩

theorem promptsSettled_nil (run : RunID) (log : List Action) (payload : Object) :
    PromptsSettled run log payload [] := by
  constructor
  · intro p hp
    cases hp
  · intro q hq
    cases hq

/-- A slot with a message was pinned for its run and request. -/
def PermissionTrue (log : List Action) (slot : PermissionInflightSlot) : Prop :=
  trimSpace slot.externalMsgID ≠ "" → ∀ run : RunID, slot.agentRunID = run.text →
    .pinPermission run (trimSpace slot.permissionRequestID) ∈ log

def ChoiceTrue (log : List Action) (slot : PromptForUserChoiceInflightSlot) : Prop :=
  trimSpace slot.externalMsgID ≠ "" → ∀ run : RunID, slot.agentRunID = run.text →
    .pinChoice run (trimSpace slot.requestID) ∈ log

theorem PermissionTrue.mono {slot : PermissionInflightSlot}
    (hlog : log <:+ log') (h : PermissionTrue log slot) : PermissionTrue log' slot :=
  fun hmsg run hrun => hlog.subset (h hmsg run hrun)

theorem ChoiceTrue.mono {slot : PromptForUserChoiceInflightSlot}
    (hlog : log <:+ log') (h : ChoiceTrue log slot) : ChoiceTrue log' slot :=
  fun hmsg run hrun => hlog.subset (h hmsg run hrun)

theorem permissionTrue_empty (log : List Action) : PermissionTrue log
    {} := fun h => absurd trimSpace_empty h

theorem choiceTrue_empty (log : List Action) : ChoiceTrue log
    {} := fun h => absurd trimSpace_empty h

def PromptCall.landed : PromptCall → Bool
  | .sent _ => true
  | _ => false

/-- The claimed slot shows the request as one of the run, or its card is sent and its slot is
stored. -/
def PermissionLands (env : TickEnv) (c : FeishuInflightConversation)
    (before : PermissionInflightSlot) (pending : PendingPermission) : Prop :=
  if trimSpace c.permission.permissionRequestID = pending.requestID ∧
      trimSpace c.permission.externalMsgID ≠ "" then c.permission.agentRunID = c.agentRunID.text
  else env.faults.upsertPermission = false ∧ env.permissionCall.landed = true ∧
    before.permissionRequestID = trimSpace c.permission.permissionRequestID

instance (env : TickEnv) (c : FeishuInflightConversation) (before : PermissionInflightSlot)
    (pending : PendingPermission) : Decidable (PermissionLands env c before pending) :=
  inferInstanceAs (Decidable (ite ..))

def ChoiceLands (env : TickEnv) (c : FeishuInflightConversation)
    (before : PromptForUserChoiceInflightSlot) (pending : PendingAsk) : Prop :=
  if trimSpace c.choice.requestID = pending.requestID ∧ trimSpace c.choice.externalMsgID ≠ "" then
    c.choice.agentRunID = c.agentRunID.text
  else env.faults.upsertChoice = false ∧ env.choiceCall.landed = true ∧
    before.requestID = trimSpace c.choice.requestID

instance (env : TickEnv) (c : FeishuInflightConversation)
    (before : PromptForUserChoiceInflightSlot) (pending : PendingAsk) :
    Decidable (ChoiceLands env c before pending) :=
  inferInstanceAs (Decidable (ite ..))

def Action.isPin : Action → Bool
  | pinPermission _ _ | pinChoice _ _ => true
  | _ => false

theorem mem_cons_isPin {a : Action} (ha : a.isPin = false) :
    ∀ x ∈ a :: log, x ∈ log ∨ x.isPin = false := by
  intro x hx
  rcases List.mem_cons.mp hx with rfl | hx
  · exact .inr ha
  · exact .inl hx

/-- What the permission card of a tick does: a new pin shows in the stored slot. -/
structure PermissionStage (w v : World) : Prop where
  slot : PermissionTrue v.log v.store.permission
  choice : v.store.choice = w.store.choice
  choicePins : ∀ run q, .pinChoice run q ∈ v.log → .pinChoice run q ∈ w.log
  pins : ∀ run q, .pinPermission run q ∈ v.log →
    .pinPermission run q ∈ w.log ∨ v.store.permission.Shows v.log run q

structure ChoiceStage (w v : World) : Prop where
  slot : ChoiceTrue v.log v.store.choice
  permission : v.store.permission = w.store.permission
  permissionPins : ∀ run q, .pinPermission run q ∈ v.log → .pinPermission run q ∈ w.log
  pins : ∀ run q, .pinChoice run q ∈ v.log →
    .pinChoice run q ∈ w.log ∨ v.store.choice.Shows v.log run q

theorem PermissionStage.of_slot {w v : World} (hslot : PermissionTrue v.log v.store.permission)
    (hchoice : v.store.choice = w.store.choice)
    (hlog : ∀ a ∈ v.log, a ∈ w.log ∨ a.isPin = false) : PermissionStage w v := by
  refine ⟨hslot, hchoice, fun run q hmem => ?_, fun run q hmem => .inl ?_⟩
  all_goals exact (hlog _ hmem).resolve_right (by simp [Action.isPin])

theorem PermissionStage.after {w u v : World} (h : PermissionStage u v)
    (hchoice : u.store.choice = w.store.choice)
    (hlog : ∀ a ∈ u.log, a ∈ w.log ∨ a.isPin = false) : PermissionStage w v := by
  refine ⟨h.slot, h.choice.trans hchoice, fun run q hmem => ?_, fun run q hmem => ?_⟩
  · exact (hlog _ (h.choicePins run q hmem)).resolve_right (by simp [Action.isPin])
  · exact (h.pins run q hmem).imp_left fun hmem =>
      (hlog _ hmem).resolve_right (by simp [Action.isPin])

theorem ChoiceStage.of_slot {w v : World} (hslot : ChoiceTrue v.log v.store.choice)
    (hpermission : v.store.permission = w.store.permission)
    (hlog : ∀ a ∈ v.log, a ∈ w.log ∨ a.isPin = false) : ChoiceStage w v := by
  refine ⟨hslot, hpermission, fun run q hmem => ?_, fun run q hmem => .inl ?_⟩
  all_goals exact (hlog _ hmem).resolve_right (by simp [Action.isPin])

/-- What a tick does to the prompts. -/
structure Prompted (w v : World) : Prop where
  permission : PermissionTrue v.log v.store.permission
  choice : ChoiceTrue v.log v.store.choice
  permissionPins : ∀ run q, .pinPermission run q ∈ v.log →
    .pinPermission run q ∈ w.log ∨ v.store.permission.Shows v.log run q
  choicePins : ∀ run q, .pinChoice run q ∈ v.log →
    .pinChoice run q ∈ w.log ∨ v.store.choice.Shows v.log run q

section Tick

variable (env : TickEnv) (c : FeishuInflightConversation) (w : World)

theorem deadLetterPermission_stage (requestID : String) (slot : PermissionInflightSlot)
    (hcur : PermissionTrue w.log w.store.permission) :
    PermissionStage w (deadLetterPermission env c.agentRunID requestID slot w) := by
  unfold deadLetterPermission
  dsimp only
  split
  · exact .of_slot (hcur.mono (List.suffix_cons _ _)) rfl (mem_cons_isPin rfl)
  · rcases w.store.clearPermissionSlot_eq c.agentRunID with heq | heq
    · simp only [World.act_store, heq]
      exact .of_slot (hcur.mono (List.suffix_cons _ _)) rfl (mem_cons_isPin rfl)
    · simp only [World.act_store, heq]
      exact .of_slot (permissionTrue_empty _) rfl (mem_cons_isPin rfl)

theorem permissionFailure_stage (requestID err : String)
    (hsnap : PermissionTrue w.log c.permission)
    (hcur : PermissionTrue w.log w.store.permission) :
    PermissionStage w (permissionFailure env c requestID err w) := by
  unfold permissionFailure
  split
  · unfold handleUpstreamPermissionFailure
    dsimp only
    generalize sendStage "send permission card" c ++ ": " ++ err = msg
    rcases upstreamFailurePermission_cases env c.permission msg w with ⟨-, heq⟩ | ⟨-, heq⟩
    · rw [heq]
      exact .of_slot hcur rfl fun a => .inl
    · rw [heq]
      cases decide (maxDriverAttempts ≤ c.permission.attempts + 1) with
      | true => exact (deadLetterPermission_stage env c
          (w.setStore { w.store with permission := c.permission.bumped env.now msg }) requestID
          (c.permission.bumped env.now msg) hsnap).after rfl fun a => .inl
      | false => exact .of_slot hsnap rfl fun a => .inl
  · exact .of_slot hcur rfl fun a => .inl

theorem maybeSendPermissionCard_spec (appID : String) (pending : PendingPermission)
    (htrim : trimSpace pending.requestID = pending.requestID)
    (hsnap : PermissionTrue w.log c.permission)
    (hcur : PermissionTrue w.log w.store.permission) {v : World}
    (hv : v = maybeSendPermissionCard env appID (permissionFailure env c pending.requestID) c
      pending w) :
    PermissionStage w v ∧ (PermissionLands env c w.store.permission pending →
      .pinPermission c.agentRunID pending.requestID ∈ v.log) := by
  unfold maybeSendPermissionCard at hv
  unfold PermissionLands
  dsimp only at hv
  split at hv
  · -- the claimed slot already shows this request
    rename_i hthere
    subst hv
    rw [if_pos hthere]
    refine ⟨.of_slot hcur rfl fun a => .inl, fun hrun => ?_⟩
    have hpinned := hsnap hthere.2 c.agentRunID hrun
    rwa [hthere.1] at hpinned
  · rename_i hnew
    rw [if_neg hnew]
    split at hv
    · rename_i hcall
      subst hv
      exact ⟨.of_slot hcur rfl fun a => .inl, by simp [hcall, PromptCall.landed]⟩
    · rename_i err hcall
      subst hv
      refine ⟨?_, by simp [hcall, PromptCall.landed]⟩
      exact (permissionFailure_stage env c
        (w.act (.sendPermission c.agentRunID pending.requestID none)) pending.requestID err
        (hsnap.mono (List.suffix_cons _ _)) (hcur.mono (List.suffix_cons _ _))).after rfl
        (mem_cons_isPin rfl)
    · rename_i id hcall
      have hsent : PermissionStage w
          (w.act (.sendPermission c.agentRunID pending.requestID (some id))) :=
        .of_slot (hcur.mono (List.suffix_cons _ _)) rfl (mem_cons_isPin rfl)
      split at hv
      · rename_i hfault
        subst hv
        exact ⟨hsent, by simp [hfault]⟩
      · split at hv
        · rename_i hup
          subst hv
          refine ⟨hsent, fun hlands => ?_⟩
          simp [Store.upsertPermissionCard, hlands.2.2] at hup
        · rename_i st hup
          obtain ⟨-, rfl⟩ := Store.upsertPermissionCard_eq_some.mp hup
          subst hv
          refine ⟨⟨fun _ run hrun => ?_, rfl, by simp, fun run q hmem => ?_⟩, by simp⟩
          · obtain rfl := Ident.ext_text hrun
            show Action.pinPermission _ (trimSpace pending.requestID) ∈ _
            rw [htrim]
            exact List.mem_cons_self ..
          · simp only [World.act_log, World.setStore_log, List.mem_cons, reduceCtorEq,
              false_or, Action.pinPermission.injEq] at hmem
            rcases hmem with ⟨rfl, rfl⟩ | hmem
            · exact .inr ⟨rfl, rfl, id, rfl, by simp⟩
            · exact .inl hmem

theorem maybeSendPromptForUserChoiceCard_spec (appID : String) (pending : PendingAsk)
    (htrim : trimSpace pending.requestID = pending.requestID) (hasks : pending.questions ≠ [])
    (hsnap : ChoiceTrue w.log c.choice) (hcur : ChoiceTrue w.log w.store.choice) {v : World}
    (hv : v = maybeSendPromptForUserChoiceCard env appID c pending w) :
    ChoiceStage w v ∧ (ChoiceLands env c w.store.choice pending →
      .pinChoice c.agentRunID pending.requestID ∈ v.log) := by
  unfold maybeSendPromptForUserChoiceCard at hv
  unfold ChoiceLands
  dsimp only at hv
  rw [if_neg hasks] at hv
  split at hv
  · rename_i hthere
    subst hv
    rw [if_pos hthere]
    refine ⟨.of_slot hcur rfl fun a => .inl, fun hrun => ?_⟩
    have hpinned := hsnap hthere.2 c.agentRunID hrun
    rwa [hthere.1] at hpinned
  · rename_i hnew
    rw [if_neg hnew]
    split at hv
    · rename_i hcall
      subst hv
      exact ⟨.of_slot hcur rfl fun a => .inl, by simp [hcall, PromptCall.landed]⟩
    · rename_i err hcall
      subst hv
      exact ⟨.of_slot (hcur.mono (List.suffix_cons _ _)) rfl (mem_cons_isPin rfl),
        by simp [hcall, PromptCall.landed]⟩
    · rename_i id hcall
      have hsent : ChoiceStage w
          (w.act (.sendChoice c.agentRunID pending.requestID (some id))) :=
        .of_slot (hcur.mono (List.suffix_cons _ _)) rfl (mem_cons_isPin rfl)
      split at hv
      · rename_i hfault
        subst hv
        exact ⟨hsent, by simp [hfault]⟩
      · split at hv
        · rename_i hup
          subst hv
          refine ⟨hsent, fun hlands => ?_⟩
          simp [Store.upsertPromptForUserChoiceCard, hlands.2.2] at hup
        · rename_i st hup
          obtain ⟨-, rfl⟩ := Store.upsertPromptForUserChoiceCard_eq_some.mp hup
          subst hv
          refine ⟨⟨fun _ run hrun => ?_, rfl, by simp, fun run q hmem => ?_⟩, by simp⟩
          · obtain rfl := Ident.ext_text hrun
            show Action.pinChoice _ (trimSpace pending.requestID) ∈ _
            rw [htrim]
            exact List.mem_cons_self ..
          · simp only [World.act_log, World.setStore_log, List.mem_cons, reduceCtorEq,
              false_or, Action.pinChoice.injEq] at hmem
            rcases hmem with ⟨rfl, rfl⟩ | hmem
            · exact .inr ⟨rfl, rfl, id, rfl, by simp⟩
            · exact .inl hmem

theorem deliverPermission_spec (appID : String) (page : List AgentRunEvent)
    (hsnap : PermissionTrue w.log c.permission)
    (hcur : PermissionTrue w.log w.store.permission) {v : World}
    (hv : v = deliverPermission env appID (permissionFailure env c) c
      (latestOf AgentRunEvent.permission? page) w) :
    w.log <:+ v.log ∧ PermissionStage w v ∧ ∀ p, latestOf AgentRunEvent.permission? page = some p →
      PermissionLands env c w.store.permission p →
        .pinPermission c.agentRunID p.requestID ∈ v.log := by
  cases hpending : latestOf AgentRunEvent.permission? page with
  | none =>
    rw [hpending] at hv
    subst hv
    exact ⟨List.suffix_refl _, .of_slot hcur rfl fun a => .inl, fun p hp => by cases hp⟩
  | some pending =>
    rw [hpending] at hv
    obtain ⟨ev, -, hev⟩ := latestOf_mem hpending
    obtain ⟨hstage, hpinned⟩ := maybeSendPermissionCard_spec env c w appID pending
      (permission?_trimmed hev) hsnap hcur hv
    have hgrows := (prompts_maybeSendPermissionCard env c w appID
      (prompts_permissionFailure env c pending.requestID) pending).log.suffix
    rw [show maybeSendPermissionCard env appID _ c pending w = v from hv.symm] at hgrows
    refine ⟨hgrows, hstage, ?_⟩
    rintro p ⟨⟩
    exact hpinned

theorem deliverPrompts_spec (appID : String) (page : List AgentRunEvent)
    (hsnap : PermissionTrue w.log c.permission) (hsnap' : ChoiceTrue w.log c.choice)
    (hcur : PermissionTrue w.log w.store.permission) (hcur' : ChoiceTrue w.log w.store.choice)
    {v : World} (hv : v = deliverPrompts env appID (permissionFailure env c) c page
      (latestOf AgentRunEvent.permission? page) w) :
    Prompted w v ∧
      (∀ p, latestOf AgentRunEvent.permission? page = some p →
        PermissionLands env c w.store.permission p →
        .pinPermission c.agentRunID p.requestID ∈ v.log) ∧
      ∀ q, latestOf AgentRunEvent.ask? page = some q → ChoiceLands env c w.store.choice q →
        .pinChoice c.agentRunID q.requestID ∈ v.log := by
  obtain ⟨u, hu⟩ : ∃ u, deliverPermission env appID (permissionFailure env c) c
      (latestOf AgentRunEvent.permission? page) w = u := ⟨_, rfl⟩
  obtain ⟨hgrows, hstage, hsettled⟩ := deliverPermission_spec env c w appID page hsnap hcur hu.symm
  have hnext : v = deliverChoice env appID c page u := by rw [hv, deliverPrompts, hu]
  have hchoice : ChoiceTrue u.log u.store.choice := hstage.choice ▸ hcur'.mono hgrows
  cases hask : latestOf AgentRunEvent.ask? page with
  | none =>
    have hsame : v = u := by
      rw [hnext, deliverChoice, extractPendingAskFromEvents, hask]
    rw [hsame]
    exact ⟨⟨hstage.slot, hchoice, hstage.pins, fun run q hmem =>
      .inl (hstage.choicePins run q hmem)⟩,
      hsettled, fun q hq => by cases hq⟩
  | some pending =>
    have hsend : v = maybeSendPromptForUserChoiceCard env appID c pending u := by
      rw [hnext, deliverChoice, extractPendingAskFromEvents, hask]
    obtain ⟨ev, -, hev⟩ := latestOf_mem hask
    obtain ⟨-, hasks, htrim⟩ := ask?_spec hev
    obtain ⟨hstage', hpinned⟩ := maybeSendPromptForUserChoiceCard_spec env c u appID
      pending htrim hasks (hsnap'.mono hgrows) hchoice hsend
    have hgrows' := (prompts_maybeSendPromptForUserChoiceCard env c u appID
      pending).log.suffix
    rw [← hsend] at hgrows'
    refine ⟨⟨?_, hstage'.slot, fun run q hmem => ?_, fun run q hmem => ?_⟩,
      fun p hp hlands => hgrows'.subset (hsettled p hp hlands), ?_⟩
    · rw [hstage'.permission]
      exact hstage.slot.mono hgrows'
    · rw [hstage'.permission]
      exact (hstage.pins run q (hstage'.permissionPins run q hmem)).imp_right (.mono hgrows')
    · exact (hstage'.pins run q hmem).imp_left (hstage.choicePins run q)
    · rintro q ⟨⟩ hlands
      exact hpinned (hstage.choice ▸ hlands)

theorem handle_prompted (page : List AgentRunEvent)
    (hsnap : PermissionTrue w.log c.permission ∧ ChoiceTrue w.log c.choice)
    (hcur : PermissionTrue w.log w.store.permission ∧ ChoiceTrue w.log w.store.choice) :
    Prompted w (handleInflightConversation env c page w) := by
  have hout := handle_outcome env c page w
  obtain ⟨v, hv⟩ : ∃ v, handleInflightConversation env c page w = v := ⟨_, rfl⟩
  rw [hv] at hout ⊢
  cases hout with
  | settled htouch =>
    have hnew : ∀ a ∈ v.log, a ∈ w.log ∨ a.isPin = false := fun a ha =>
      (htouch.log.mem ha).imp_right fun hnew => by
        cases hnew with
        | rendered => rfl
        | other _ h => cases a <;> first | rfl | cases h
    have hgrows := htouch.log.suffix
    refine ⟨?_, ?_, fun run q hmem => .inl ?_, fun run q hmem => .inl ?_⟩
    · exact htouch.permission ▸ hcur.1.mono hgrows
    · exact htouch.choice ▸ hcur.2.mono hgrows
    all_goals exact (hnew _ hmem).resolve_right (by simp [Action.isPin])
  | @prompted u appID midRun id called hlog hstore =>
    have hsuffix : w.log <:+ u.log := by
      rw [hlog]
      exact List.suffix_cons _ _
    have hslots : u.store.permission = w.store.permission ∧ u.store.choice = w.store.choice := by
      rcases hstore with heq | ⟨slotApp, -, -, heq⟩ <;> rw [heq] <;> exact ⟨rfl, rfl⟩
    have hpin : (progressAction c (c.working.forRun c.agentRunID) (some id)).isPin = false := by
      unfold progressAction
      split <;> rfl
    have hnew : ∀ a ∈ u.log, a ∈ w.log ∨ a.isPin = false := by
      rw [hlog]
      exact mem_cons_isPin hpin
    obtain ⟨hprompted, -⟩ := deliverPrompts_spec env c u appID page
      (hsnap.1.mono hsuffix) (hsnap.2.mono hsuffix) (hslots.1 ▸ hcur.1.mono hsuffix)
      (hslots.2 ▸ hcur.2.mono hsuffix) rfl
    refine ⟨hprompted.permission, hprompted.choice, fun run q hmem => ?_, fun run q hmem => ?_⟩
    · exact (hprompted.permissionPins run q hmem).imp_left fun hmem =>
        (hnew _ hmem).resolve_right (by simp [Action.isPin])
    · exact (hprompted.choicePins run q hmem).imp_left fun hmem =>
        (hnew _ hmem).resolve_right (by simp [Action.isPin])

end Tick

def SlotsTrue (s : System) : Prop :=
  (PermissionTrue s.world.log s.world.store.permission ∧
      ChoiceTrue s.world.log s.world.store.choice) ∧
    ∀ tick ∈ s.ticks, PermissionTrue s.world.log tick.row.permission ∧
      ChoiceTrue s.world.log tick.row.choice

theorem prompted_deliver {i : Nat} {env : TickEnv} (hstep : s.step (.deliver i env) = some t)
    (h : SlotsTrue s) : Prompted s.world t.world := by
  obtain ⟨row, page, hget, heq⟩ := System.step_deliver hstep
  have hmem : (⟨row, some page⟩ : Tick) ∈ s.ticks := List.mem_of_getElem? hget
  have hsnap := h.2 _ hmem
  have hworld : t.world = handleInflightConversation env row page s.world := by rw [heq]
  rw [hworld]
  exact handle_prompted env row s.world page hsnap h.1

theorem slotsTrue_deliver {i : Nat} {env : TickEnv}
    (hstep : s.step (.deliver i env) = some t) (h : SlotsTrue s) : SlotsTrue t := by
  have hprompted := prompted_deliver hstep h
  obtain ⟨row, page, -, rfl⟩ := System.step_deliver hstep
  have hgrows := (handle_effect env row page s.world).log.suffix
  refine ⟨⟨hprompted.permission, hprompted.choice⟩, fun tick htick => ?_⟩
  have hrow := h.2 tick (List.mem_of_mem_eraseIdx htick)
  exact ⟨hrow.1.mono hgrows, hrow.2.mono hgrows⟩

theorem slotsTrue_step {a : Label} (hstep : s.step a = some t) (h : SlotsTrue s) : SlotsTrue t := by
  cases a with
  | deliver i env => exact slotsTrue_deliver hstep h
  | record run ev =>
    obtain ⟨-, rfl⟩ := System.step_record hstep
    exact h
  | claim now runs =>
    obtain ⟨-, rfl⟩ := System.step_claim hstep
    refine ⟨h.1, fun tick htick => ?_⟩
    rcases List.mem_append.mp htick with htick | htick
    · exact h.2 tick htick
    · obtain ⟨run, -, rfl⟩ := List.mem_map.mp htick
      exact h.1
  | list i =>
    obtain ⟨row, hget, rfl⟩ := System.step_list hstep
    refine ⟨h.1, fun tick htick => ?_⟩
    rcases List.mem_or_eq_of_mem_set htick with htick | rfl
    · exact h.2 tick htick
    · exact h.2 ⟨row, none⟩ (List.mem_of_getElem? hget)
  | drop i =>
    obtain rfl := System.step_drop hstep
    exact ⟨h.1, fun tick htick => h.2 tick (List.mem_of_mem_eraseIdx htick)⟩
  | finish run status output =>
    obtain ⟨-, -, -, rfl⟩ := System.step_finish hstep
    exact h
  | start run agentName =>
    obtain ⟨-, rfl⟩ := System.step_start hstep
    exact h
  | cancel run =>
    obtain ⟨-, rfl⟩ := System.step_cancel hstep
    exact h
  | clearPermission =>
    cases hstep
    exact ⟨⟨permissionTrue_empty _, h.1.2⟩, h.2⟩
  | clearChoice =>
    cases hstep
    exact ⟨⟨h.1.1, choiceTrue_empty _⟩, h.2⟩

theorem slotsTrue_init (conv : ConversationInfo) : SlotsTrue { conv := conv } :=
  ⟨⟨permissionTrue_empty _, choiceTrue_empty _⟩, by simp⟩

theorem step_prompted {a : Label} (hstep : s.step a = some t) (h : SlotsTrue s) :
    Prompted s.world t.world ∨ t.world.log = s.world.log := by
  cases a with
  | deliver i env => exact .inl (prompted_deliver hstep h)
  | record run ev =>
    obtain ⟨-, rfl⟩ := System.step_record hstep
    exact .inr rfl
  | claim now runs =>
    obtain ⟨-, rfl⟩ := System.step_claim hstep
    exact .inr rfl
  | list i =>
    obtain ⟨row, -, rfl⟩ := System.step_list hstep
    exact .inr rfl
  | drop i =>
    obtain rfl := System.step_drop hstep
    exact .inr rfl
  | finish _ _ _ | start _ _ | cancel _ | clearPermission | clearChoice =>
    exact .inr (System.step_rows hstep trivial).2.2.2

/-- In some state of the run the stored slot shows the card of the request. -/
def PermissionShown (conv : ConversationInfo) (trace : List Label) (run : RunID)
    (requestID : String) : Prop :=
  ∃ before s, before <+: trace ∧ System.Reaches conv before s ∧
    s.world.store.permission.Shows s.world.log run requestID

def ChoiceShown (conv : ConversationInfo) (trace : List Label) (run : RunID)
    (requestID : String) : Prop :=
  ∃ before s, before <+: trace ∧ System.Reaches conv before s ∧
    s.world.store.choice.Shows s.world.log run requestID

section Shown

variable {conv : ConversationInfo} {trace : List Label} (hreach : System.Reaches conv trace s)
include hreach

/-- The pin was made by a step, and that step is a tick. -/
theorem prompted_of_mem {a : Action} (ha : a ∈ s.world.log) :
    ∃ (before : List Label) (u v : System), before <+: trace ∧ System.Reaches conv before v ∧
      a ∉ u.world.log ∧ a ∈ v.world.log ∧ Prompted u.world v.world := by
  obtain ⟨before, l, after, u, v, rfl, hu, hstep, hold, hnew, -⟩ :=
    runTrace_begins (P := fun s => a ∈ s.world.log) hreach List.not_mem_nil ha
  have htrue : SlotsTrue u := runTrace_invariant (fun _ _ _ _ hstep h => slotsTrue_step hstep h)
    (stepsMeet_true _ before) hu (slotsTrue_init conv)
  refine ⟨before ++ [l], u, v, ⟨after, by simp⟩, runTrace_concat hu hstep, hold, hnew, ?_⟩
  refine (step_prompted hstep htrue).resolve_right fun hlog => hold ?_
  rwa [hlog] at hnew

theorem permissionShown_of_pin {run : RunID} {q : String}
    (hpin : .pinPermission run q ∈ s.world.log) : PermissionShown conv trace run q := by
  obtain ⟨before, u, v, hbefore, hv, hold, hnew, hprompted⟩ := prompted_of_mem hreach hpin
  exact ⟨before, v, hbefore, hv, (hprompted.permissionPins run q hnew).resolve_left hold⟩

theorem choiceShown_of_pin {run : RunID} {q : String}
    (hpin : .pinChoice run q ∈ s.world.log) : ChoiceShown conv trace run q := by
  obtain ⟨before, u, v, hbefore, hv, hold, hnew, hprompted⟩ := prompted_of_mem hreach hpin
  exact ⟨before, v, hbefore, hv, (hprompted.choicePins run q hnew).resolve_left hold⟩

end Shown

def LogReadable (s : System) : Prop := ∀ run, ∀ ev ∈ s.world.store.events run, ev.Readable

/-- Choice prompts are readable, and in every tick that stores its cursor the latest prompts of
the page land. -/
def PromptsLand (s : System) : Label → Prop
  | .record _ ev => ev.Readable
  | .deliver i env =>
    match s.ticks[i]? with
    | some ⟨row, some page⟩ => row.runStatus.terminal = false → env.call.isOk = true →
        env.faults.upsertWorking = false →
        s.world.store.working.agentRunID = row.working.agentRunID →
        (∀ p ∈ latestOf AgentRunEvent.permission? page,
          PermissionLands env row s.world.store.permission p) ∧
        ∀ q ∈ latestOf AgentRunEvent.ask? page, ChoiceLands env row s.world.store.choice q
    | _ => True
  | _ => True

instance (s : System) : ∀ a, Decidable (PromptsLand s a)
  | .record _ ev => inferInstanceAs (Decidable ev.Readable)
  | .deliver i _ => by
    dsimp only [PromptsLand]
    exact match s.ticks[i]? with
    | some ⟨_, some _⟩ => inferInstanceAs (Decidable (_ → _ → _ → _ → _ ∧ _))
    | some ⟨_, none⟩ | none => instDecidableTrue
  | .start .. | .finish .. | .cancel _ | .claim .. | .list _ | .drop _ | .clearPermission
  | .clearChoice => instDecidableTrue

theorem logReadable_step {a : Label} (hok : PromptsLand s a)
    (hstep : s.step a = some t) (h : LogReadable s) : LogReadable t := by
  intro run ev hev
  rcases System.step_events hstep with heq | ⟨r, e, rfl, heq⟩
  · rw [heq] at hev
    exact h run ev hev
  · rw [heq] at hev
    rcases EventLog.mem_record.mp hev with hev | ⟨rfl, rfl⟩
    · exact h run ev hev
    · exact hok

theorem promptsSettled_step {a : Label} (hok : PromptsLand s a)
    (hstep : s.step a = some t) (hbase : Base s) (htrue : SlotsTrue s)
    (h : SlotsSatisfy (Consumed PromptsSettled) s) :
    SlotsSatisfy (Consumed PromptsSettled) t := by
  refine consumed_step promptsSettled_mono hstep hbase ?_ h
  rintro i env row page slot evs rfl hget hcom - hprior
  have hmem : (⟨row, some page⟩ : Tick) ∈ s.ticks := List.mem_of_getElem? hget
  obtain ⟨id, hcall⟩ := hcom.called
  simp only [PromptsLand, hget] at hok
  obtain ⟨hpermLands, haskLands⟩ := hok hcom.midRun (by rw [hcall]; rfl) hcom.stored hcom.cas
  obtain ⟨appID, u, hstore, hsuffix, hworld⟩ := hcom.handed
  have hsnap := htrue.2 _ hmem
  have hslots : u.store.permission = s.world.store.permission ∧
      u.store.choice = s.world.store.choice := by
    rw [hstore]
    exact ⟨rfl, rfl⟩
  obtain ⟨-, hperm, hask⟩ := deliverPrompts_spec env row u appID page
    (hsnap.1.mono hsuffix) (hsnap.2.mono hsuffix) (hslots.1 ▸ htrue.1.1.mono hsuffix)
    (hslots.2 ▸ htrue.1.2.mono hsuffix) hworld
  have hgrows : s.world.log <:+ t.world.log := by
    rw [hworld]
    exact hsuffix.trans (prompts_deliverPrompts env row page u appID
      (prompts_permissionFailure env row) _).log.suffix
  -- a prompt of the page is the latest one; without it the older slot answers
  have hold : PromptsSettled row.agentRunID t.world.log slot.payload evs := by
    rcases hprior with ⟨-, hsettled⟩ | ⟨-, rfl⟩
    · exact promptsSettled_mono _ _ _ _ _ hgrows hsettled
    · exact promptsSettled_nil _ _ _
  refine ⟨fun p hp => ?_, fun q hq => ?_⟩
  · rw [latestOf_append] at hp
    cases hpage : latestOf AgentRunEvent.permission? page with
    | none =>
      rw [hpage, Option.none_or] at hp
      exact hold.1 p hp
    | some p' =>
      rw [hpage, Option.some_or] at hp
      cases hp
      exact hperm p hpage (hslots.1 ▸ hpermLands p hpage)
  · rw [latestOf_append] at hq
    cases hpage : latestOf AgentRunEvent.ask? page with
    | none =>
      rw [hpage, Option.none_or] at hq
      exact hold.2 q hq
    | some q' =>
      rw [hpage, Option.some_or] at hq
      cases hq
      exact hask q hpage (hslots.2 ▸ haskLands q hpage)

/-- If prompts land, the cursor of a run's slot never passes a prompt whose card was not sent and
stored in its slot. -/
theorem prompts_not_lost (conv : ConversationInfo) (trace : List Label) (s : System)
    (hok : StepsMeet System.step PromptsLand { conv := conv } trace)
    (hreach : System.Reaches conv trace s) (run : RunID)
    (hown : s.world.store.working.hasWorkingSlotForRun run) :
    (∀ p, latestOf AgentRunEvent.permission?
          (upTo (s.world.store.events run) s.world.store.working.seqEmitted) = some p →
        PermissionShown conv trace run p.requestID) ∧
      ∀ q, latestOf AgentRunEvent.choiceRequest?
          (upTo (s.world.store.events run) s.world.store.working.seqEmitted) = some q →
        ChoiceShown conv trace run q := by
  have hinv : Base s ∧ LogReadable s ∧ SlotsTrue s ∧ SlotsSatisfy (Consumed PromptsSettled) s := by
    refine runTrace_invariant (I := fun s => Base s ∧ LogReadable s ∧ SlotsTrue s ∧
      SlotsSatisfy (Consumed PromptsSettled) s) ?_ hok hreach ⟨Base.init conv, ?_,
      slotsTrue_init conv, (consumed_property promptsSettled_mono).init conv⟩
    · rintro s a t hok hstep ⟨hbase, hread, htrue, hslots⟩
      exact ⟨System.base_step hstep hbase, logReadable_step hok hstep hread,
        slotsTrue_step hstep htrue, promptsSettled_step hok hstep hbase htrue hslots⟩
    · intro run ev hev
      cases hev
  obtain ⟨-, hread, -, hslots⟩ := hinv
  obtain ⟨hperm, hask⟩ := hslots.1 run hown
  have hseen : ∀ ev ∈ upTo (s.world.store.events run) s.world.store.working.seqEmitted,
      ev.Readable := fun ev hev => hread run ev (List.mem_of_mem_filter hev)
  refine ⟨fun p hp => permissionShown_of_pin hreach (hperm p hp), fun q hq => ?_⟩
  rw [latestOf_choiceRequest? hseen, Option.map_eq_some_iff] at hq
  obtain ⟨pending, hpending, rfl⟩ := hq
  exact choiceShown_of_pin hreach (hask pending hpending)

def askedEvent : AgentRunEvent :=
  ⟨1, .permissionAsked, [("request_id", .str "req-1"), ("action", .str "Bash")], Time.zero,
    startedEvent.sequence_pos, startedEvent.sequence_exact, startedEvent.occurredAt_layout⟩

def askTrace (env : TickEnv) : List Label :=
  [.record runA askedEvent, .start runA "agent", .claim Time.zero [runA], .list 0, .deliver 0 env]

def refusedEnv : TickEnv :=
  { call := .ok msgA, permissionCall := .sendError "timeout", choiceCall := .buildError }

def passedCheck (s : System) : Bool :=
  decide (s.world.store.working.hasWorkingSlotForRun runA) &&
    ((latestOf AgentRunEvent.permission? (upTo (s.world.store.events runA)
      s.world.store.working.seqEmitted)).map PendingPermission.requestID == some "req-1")

def Action.deadLetters (requestID : String) : Action → Bool
  | .deadLetterPermission _ q _ => q == requestID
  | _ => false

theorem permission_prompt_lost :
    ∃ s p, System.Reaches {} (askTrace refusedEnv) s ∧
      s.world.store.working.hasWorkingSlotForRun runA ∧
      latestOf AgentRunEvent.permission?
        (upTo (s.world.store.events runA) s.world.store.working.seqEmitted) = some p ∧
      ¬ PermissionShown {} (askTrace refusedEnv) runA p.requestID ∧
      ∀ a ∈ s.world.log, a.deadLetters p.requestID = false := by
  have hrun : (runTrace System.step {} (askTrace refusedEnv)).map (fun s => passedCheck s &&
      s.world.log.all fun a => !a.deadLetters "req-1") = some true := by decide
  have hslot : ∀ n < 6, ∀ s ∈ runTrace System.step {} ((askTrace refusedEnv).take n),
      s.world.store.permission.permissionRequestID ≠ "req-1" := by decide
  obtain ⟨s, hreach, hcheck⟩ := exists_of_runTrace_map hrun
  simp only [passedCheck, Bool.and_eq_true, decide_eq_true_eq, beq_iff_eq, List.all_eq_true,
    Bool.not_eq_true', Option.map_eq_some_iff] at hcheck
  obtain ⟨⟨hown, p, hp, hid⟩, hlog⟩ := hcheck
  refine ⟨s, p, hreach, hown, hp, ?_, hid ▸ hlog⟩
  rintro ⟨before, u, hbefore, hu, hshows⟩
  refine hslot before.length (Nat.lt_succ_of_le hbefore.length_le) u ?_ (hshows.request.trans hid)
  rw [← List.prefix_iff_eq_take.mp hbefore]
  exact hu

theorem prompts_not_lost_landed :
    ∃ s, System.Reaches {} (askTrace okEnv) s ∧ s.world.store.working.hasWorkingSlotForRun runA ∧
      PermissionShown {} (askTrace okEnv) runA "req-1" := by
  have hrun : (runTrace System.step {} (askTrace okEnv)).map passedCheck = some true := by decide
  obtain ⟨s, hreach, hcheck⟩ := exists_of_runTrace_map hrun
  simp only [passedCheck, Bool.and_eq_true, decide_eq_true_eq, beq_iff_eq,
    Option.map_eq_some_iff] at hcheck
  obtain ⟨hown, p, hp, hid⟩ := hcheck
  have hok : StepsMeet System.step PromptsLand {} (askTrace okEnv) :=
    stepsMeet_of_check (by decide)
  have hshown := (prompts_not_lost {} _ s hok hreach runA hown).1 p hp
  rw [hid] at hshown
  exact ⟨s, hreach, hown, hshown⟩

end Parsar.Inflight
