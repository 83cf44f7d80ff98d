import Parsar.Inflight.Driver

namespace Parsar.Inflight

open GoStd

def Grows (A : Action → Prop) (w w' : World) : Prop :=
  ∃ acts, w'.log = acts ++ w.log ∧ ∀ a ∈ acts, A a

namespace Grows

variable {A : Action → Prop} {w w' w'' : World}

theorem of_log_eq (h : w'.log = w.log) : Grows A w w' := ⟨[], h, by simp⟩

theorem act {a : Action} (ha : A a) (w : World) : Grows A w
    (w.act a) := ⟨[a], rfl, by simpa using ha⟩

theorem trans (h : Grows A w w') (h' : Grows A w' w'') : Grows A w w'' := by
  obtain ⟨acts, hlog, hacts⟩ := h
  obtain ⟨acts', hlog', hacts'⟩ := h'
  refine ⟨acts' ++ acts, by rw [hlog', hlog, List.append_assoc], ?_⟩
  intro a ha
  exact (List.mem_append.mp ha).elim (hacts' a) (hacts a)

theorem imp {B : Action → Prop} (h : Grows A w w') (hAB : ∀ a, A a → B a) : Grows B w w' := by
  obtain ⟨acts, hlog, hacts⟩ := h
  exact ⟨acts, hlog, fun a ha => hAB a (hacts a ha)⟩

theorem mem {a : Action} (h : Grows A w w') (ha : a ∈ w'.log) : a ∈ w.log ∨ A a := by
  obtain ⟨acts, hlog, hacts⟩ := h
  rw [hlog, List.mem_append] at ha
  exact ha.symm.imp_right (hacts a)

theorem suffix (h : Grows A w w') : w.log <:+ w'.log := by
  obtain ⟨acts, hlog, -⟩ := h
  exact ⟨acts, hlog.symm⟩

end Grows

/-- The working slot becomes one that `P` describes, the marks grow, and new actions are ones that
`A` allows. -/
structure Touches (P : WorkingInflightSlot → Prop) (A : Action → Prop) (w w' : World) : Prop where
  runs : w'.store.runs = w.store.runs
  events : w'.store.events = w.store.events
  permission : w'.store.permission = w.store.permission
  choice : w'.store.choice = w.store.choice
  working : w'.store.working = w.store.working ∨ P w'.store.working
  log : Grows A w w'

namespace Touches

variable {P Q : WorkingInflightSlot → Prop} {A : Action → Prop} {w w' w'' : World}

theorem refl (w : World) : Touches P A w w := ⟨rfl, rfl, rfl, rfl, .inl rfl, .of_log_eq rfl⟩

theorem trans (h : Touches P A w w') (h' : Touches P A w' w'') : Touches P A w w'' := by
  refine ⟨h'.runs.trans h.runs, h'.events.trans h.events, h'.permission.trans h.permission,
    h'.choice.trans h.choice, ?_, h.log.trans h'.log⟩
  rcases h'.working with heq | hP
  · rw [heq]
    exact h.working
  · exact .inr hP

theorem imp (h : Touches P A w w') (hPQ : ∀ s, P s → Q s) : Touches Q A w w' :=
  { h with working := h.working.imp_right (hPQ _) }

theorem act {a : Action} (ha : A a) (w : World) : Touches P A w (w.act a) :=
  ⟨rfl, rfl, rfl, rfl, .inl rfl, .act ha w⟩

theorem act_trans {a : Action} (ha : A a) (h : Touches P A (w.act a) w') : Touches P A w w' :=
  (act ha w).trans h

theorem setWorking {slot : WorkingInflightSlot} (h : P slot) (w : World) :
    Touches P A w (w.setStore { w.store with working := slot }) :=
  ⟨rfl, rfl, rfl, rfl, .inr h, .of_log_eq rfl⟩

end Touches

def Action.isPrompt : Action → Bool
  | sendPermission _ _ _ | pinPermission _ _ | deadLetterPermission _ _ _ => true
  | sendChoice _ _ _ | pinChoice _ _ => true
  | _ => false

/-- What the prompts may touch: their own two slots and the history. -/
structure Prompts (w w' : World) : Prop where
  runs : w'.store.runs = w.store.runs
  events : w'.store.events = w.store.events
  working : w'.store.working = w.store.working
  terminalDelivered : w'.store.terminalDelivered = w.store.terminalDelivered
  log : Grows (fun a => a.isPrompt = true) w w'

namespace Prompts

variable {w w' w'' : World}

theorem refl (w : World) : Prompts w w := ⟨rfl, rfl, rfl, rfl, .of_log_eq rfl⟩

theorem trans (h : Prompts w w') (h' : Prompts w' w'') : Prompts w w'' :=
  ⟨h'.runs.trans h.runs, h'.events.trans h.events, h'.working.trans h.working,
    h'.terminalDelivered.trans h.terminalDelivered, h.log.trans h'.log⟩

theorem act {a : Action} (ha : a.isPrompt = true) (w : World) : Prompts w (w.act a) :=
  ⟨rfl, rfl, rfl, rfl, .act ha w⟩

theorem setPermission (slot : PermissionInflightSlot) (w : World) :
    Prompts w (w.setStore { w.store with permission := slot }) :=
  ⟨rfl, rfl, rfl, rfl, .of_log_eq rfl⟩

theorem setChoice (slot : PromptForUserChoiceInflightSlot) (w : World) :
    Prompts w (w.setStore { w.store with choice := slot }) :=
  ⟨rfl, rfl, rfl, rfl, .of_log_eq rfl⟩

end Prompts

namespace Store

theorem upsertPermissionCard_eq_some {st st' : Store} {slot : PermissionInflightSlot}
    {old : String} :
    st.upsertPermissionCard slot old = some st' ↔
      st.permission.permissionRequestID = old ∧ { st with permission := slot } = st' := by
  unfold upsertPermissionCard
  split <;> simp_all

theorem upsertPromptForUserChoiceCard_eq_some {st st' : Store}
    {slot : PromptForUserChoiceInflightSlot} {old : String} :
    st.upsertPromptForUserChoiceCard slot old = some st' ↔
      st.choice.requestID = old ∧ { st with choice := slot } = st' := by
  unfold upsertPromptForUserChoiceCard
  split <;> simp_all

theorem clearWorkingSlot_eq (st : Store) (run : RunID) :
    st.clearWorkingSlot run = st ∨
      (st.working.agentRunID = run.text ∧ st.clearWorkingSlot run = { st with working := {} }) := by
  unfold clearWorkingSlot
  split <;> simp_all

theorem clearPermissionSlot_eq (st : Store) (run : RunID) :
    st.clearPermissionSlot run = st ∨
      st.clearPermissionSlot run = { st with permission := {} } := by
  unfold clearPermissionSlot
  split <;> simp

end Store

section Retry

variable {P : WorkingInflightSlot → Prop} {A : Action → Prop}

theorem touches_clearWorkingSlot (w : World) (run : RunID) :
    Touches (· = {}) A w (w.setStore (w.store.clearWorkingSlot run)) := by
  rcases w.store.clearWorkingSlot_eq run with h | ⟨-, h⟩
  · rw [h]
    exact .refl w
  · rw [h]
    exact ⟨rfl, rfl, rfl, rfl, .inr rfl, .of_log_eq rfl⟩

theorem prompts_clearPermissionSlot (w : World) (run : RunID) :
    Prompts w (w.setStore (w.store.clearPermissionSlot run)) := by
  rcases w.store.clearPermissionSlot_eq run with h | h
  · rw [h]
    exact .refl w
  · rw [h]
    exact .setPermission {} w

def Action.ofWorking : Action → Bool
  | create _ _ | edit _ _ _ | deadLetterWorking _ _ => true
  | _ => false

variable (hA : ∀ a : Action, a.ofWorking = true → A a)

include hA in
theorem touches_deadLetterWorking (env : TickEnv) (run : RunID) (slot : WorkingInflightSlot)
    (w : World) : Touches (· = {}) A w (deadLetterWorking env run slot w) := by
  unfold deadLetterWorking
  refine .act_trans (hA (.deadLetterWorking run
    (deadLetterNotice "Feishu" slot.attempts slot.lastError)) rfl) ?_
  split
  · exact .refl _
  · exact touches_clearWorkingSlot _ run

theorem upstreamFailure_cases (env : TickEnv) (prev : WorkingInflightSlot) (msg : String)
    (w : World) :
    ((env.faults.upsertWorking = true ∨ w.store.working.agentRunID ≠ prev.agentRunID) ∧
        upstreamFailure env prev msg w = (w, false)) ∨
      (w.store.working.agentRunID = prev.agentRunID ∧
        upstreamFailure env prev msg w =
          (w.setStore { w.store with working := prev.bumped env.now msg },
            decide (maxDriverAttempts ≤ prev.attempts + 1))) := by
  unfold upstreamFailure Store.upsertWorkingCard
  split
  · rename_i hfault
    exact .inl ⟨.inl hfault, rfl⟩
  · by_cases hcas : w.store.working.agentRunID = prev.agentRunID
    · rw [if_pos hcas]
      exact .inr ⟨hcas, rfl⟩
    · rw [if_neg hcas]
      exact .inl ⟨.inr hcas, rfl⟩

include hA in
theorem touches_handleUpstreamWorkingFailure (env : TickEnv) (run : RunID)
    (prev : WorkingInflightSlot) (stage err : String) (w : World) :
    Touches (fun s => s = {} ∨ (w.store.working.agentRunID = prev.agentRunID ∧
      ∃ msg, s = prev.bumped env.now msg)) A w
      (handleUpstreamWorkingFailure env run prev stage err w) := by
  unfold handleUpstreamWorkingFailure
  dsimp only
  rcases upstreamFailure_cases env prev (stage ++ ": " ++ err) w with ⟨-, h⟩ | ⟨hcas, h⟩
  · rw [h]
    exact .refl w
  · rw [h]
    have hbump : Touches (fun s => s = {} ∨ (w.store.working.agentRunID = prev.agentRunID ∧
        ∃ msg, s = prev.bumped env.now msg)) A w
        (w.setStore { w.store with working := prev.bumped env.now (stage ++ ": " ++ err) }) :=
      .setWorking (.inr ⟨hcas, _, rfl⟩) w
    cases decide (maxDriverAttempts ≤ prev.attempts + 1) with
    | false => exact hbump
    | true =>
      refine hbump.trans ?_
      exact (touches_deadLetterWorking hA env run _ _).imp fun s hs => Or.inl hs

theorem upstreamFailurePermission_cases (env : TickEnv) (prev : PermissionInflightSlot)
    (msg : String) (w : World) :
    ((env.faults.upsertPermission = true ∨
        w.store.permission.permissionRequestID ≠ prev.permissionRequestID) ∧
        upstreamFailurePermission env prev msg w = (w, false)) ∨
      (w.store.permission.permissionRequestID = prev.permissionRequestID ∧
        upstreamFailurePermission env prev msg w =
          (w.setStore { w.store with permission := prev.bumped env.now msg },
            decide (maxDriverAttempts ≤ prev.attempts + 1))) := by
  unfold upstreamFailurePermission Store.upsertPermissionCard
  split
  · rename_i hfault
    exact .inl ⟨.inl hfault, rfl⟩
  · by_cases hcas : w.store.permission.permissionRequestID = prev.permissionRequestID
    · rw [if_pos hcas]
      exact .inr ⟨hcas, rfl⟩
    · rw [if_neg hcas]
      exact .inl ⟨.inr hcas, rfl⟩

theorem prompts_deadLetterPermission (env : TickEnv) (run : RunID)
    (requestID : String) (slot : PermissionInflightSlot) (w : World) :
    Prompts w (deadLetterPermission env run requestID slot w) := by
  unfold deadLetterPermission
  refine (Prompts.act (a := .deadLetterPermission run requestID
    (deadLetterNotice "Feishu permission card" slot.attempts slot.lastError)) rfl w).trans ?_
  split
  · exact .refl _
  · exact prompts_clearPermissionSlot _ run

theorem prompts_handleUpstreamPermissionFailure (env : TickEnv)
    (run : RunID) (requestID : String) (prev : PermissionInflightSlot) (stage err : String)
    (w : World) :
    Prompts w (handleUpstreamPermissionFailure env run requestID prev stage err w) := by
  unfold handleUpstreamPermissionFailure
  dsimp only
  rcases upstreamFailurePermission_cases env prev (stage ++ ": " ++ err) w with ⟨-, h⟩ | ⟨-, h⟩
  · rw [h]
    exact .refl w
  · rw [h]
    have hbump : Prompts w (w.setStore
        { w.store with permission := prev.bumped env.now (stage ++ ": " ++ err) }) :=
      .setPermission _ w
    cases decide (maxDriverAttempts ≤ prev.attempts + 1) with
    | false => exact hbump
    | true => exact hbump.trans (prompts_deadLetterPermission env run requestID _ _)

end Retry

section Finalize

variable {P : WorkingInflightSlot → Prop} {A : Action → Prop}

theorem touches_stampTerminal (env : TickEnv) (c : FeishuInflightConversation) (w : World) :
    Touches P A w (stampTerminal env c w).1 := by
  unfold stampTerminal
  split
  · exact .refl w
  · exact ⟨rfl, rfl, rfl, rfl, .inl rfl, .of_log_eq rfl⟩

theorem touches_markOutput (env : TickEnv) (c : FeishuInflightConversation)
    (deliveredID : String) (w : World) :
    Touches P A w (markOutput env c deliveredID w).1 := by
  unfold markOutput
  split
  · split
    · exact .refl w
    · exact ⟨rfl, rfl, rfl, rfl, .inl rfl, .of_log_eq rfl⟩
  · exact .refl w

theorem touches_finalizeTerminalDelivery (env : TickEnv) (c : FeishuInflightConversation)
    (deliveredID : String) (stamp : Bool) (w : World) :
    Touches (· = {}) A w (finalizeTerminalDelivery env c deliveredID stamp w).1 := by
  have hmark : Touches (· = {}) A w (markOutput env c deliveredID w).1 := touches_markOutput ..
  unfold finalizeTerminalDelivery
  generalize markOutput env c deliveredID w = r at hmark ⊢
  obtain ⟨u, marked⟩ := r
  cases marked with
  | false => exact hmark
  | true =>
    refine hmark.trans ?_
    have hstamp : Touches (· = {}) A u (if stamp then stampTerminal env c u else (u, true)).1 := by
      cases stamp with
      | false => exact .refl u
      | true => exact touches_stampTerminal env c u
    dsimp only
    generalize (if stamp then stampTerminal env c u else (u, true)) = r at hstamp ⊢
    obtain ⟨v, stamped⟩ := r
    cases stamped with
    | false => exact hstamp
    | true =>
      refine hstamp.trans ?_
      dsimp only
      split
      · exact .refl v
      · exact touches_clearWorkingSlot v _

end Finalize

/-- Nothing, or the claimed slot with its counter bumped if the compare-and-set passed. -/
def Retried (env : TickEnv) (c : FeishuInflightConversation) (before slot : WorkingInflightSlot) :
    Prop :=
  slot = {} ∨ (before.agentRunID = c.working.agentRunID ∧
    ∃ msg, slot = (c.working.forRun c.agentRunID).bumped env.now msg)

inductive NewAction (env : TickEnv) (c : FeishuInflightConversation) (page : List AgentRunEvent)
    (events : EventLog) : Action → Prop where
  | rendered : NewAction env c page events (.renderTerminal c.agentRunID
      (buildFinalCardForRun env c
        (foldEventsIntoCardState (c.working.forRun c.agentRunID) page).card
        (events c.agentRunID)))
  | other (a : Action) (h : a.ofWorking = true) : NewAction env c page events a

section Tick

variable (env : TickEnv) (c : FeishuInflightConversation) (page : List AgentRunEvent) (w : World)

/-- Between two worlds on the way of a tick that starts from `w`. -/
abbrev TickTouches (u v : World) : Prop :=
  Touches (Retried env c w.store.working) (NewAction env c page w.store.events) u v

abbrev tickCard : CardState :=
  (foldEventsIntoCardState (c.working.forRun c.agentRunID) page).card

variable {env c page w}

theorem touches_renderFinalCard {u : World} (hu : u.store.events = w.store.events) :
    TickTouches env c page w u (renderFinalCard env c (tickCard c page) u) := by
  apply Touches.act
  rw [hu]
  exact .rendered

theorem touches_workingFailure (stage err : String) {u : World}
    (hu : u.store.working = w.store.working) :
    TickTouches env c page w u
      (handleUpstreamWorkingFailure env c.agentRunID (c.working.forRun c.agentRunID) stage err
        u) := by
  refine (touches_handleUpstreamWorkingFailure .other env _ _ stage err u).imp ?_
  intro slot hslot
  rwa [hu, WorkingInflightSlot.forRun_agentRunID] at hslot

theorem touches_finalize (deliveredID : String) (stamp : Bool) {u : World} :
    TickTouches env c page w u (finalizeTerminalDelivery env c deliveredID stamp u).1 :=
  (touches_finalizeTerminalDelivery env c deliveredID stamp u).imp fun _ h => .inl h

theorem touches_deliverFeishuTerminal :
    TickTouches env c page w w
      (deliverFeishuTerminal env c (c.working.forRun c.agentRunID) (tickCard c page) w) := by
  unfold deliverFeishuTerminal
  dsimp only
  obtain ⟨u, heq⟩ : ∃ u, (if env.form.shipped.isSome then w
      else renderFinalCard env c (tickCard c page) w) = u := ⟨_, rfl⟩
  have hwu : TickTouches env c page w w u ∧ u.store.working = w.store.working := by
    rw [← heq]
    split
    · exact ⟨.refl w, rfl⟩
    · exact ⟨touches_renderFinalCard rfl, rfl⟩
  obtain ⟨hwu, hu⟩ := hwu
  rw [heq]
  refine hwu.trans ?_
  split
  · split
    · exact .act_trans (.other _ rfl) (touches_stampTerminal env c _)
    · exact .act_trans (.other _ rfl) (touches_finalize _ _)
  · split
    · split
      · exact .act_trans (.other _ rfl) (touches_workingFailure _ _ hu)
      · exact .act_trans (.other _ rfl) (touches_finalize _ _)
    · split
      · refine .act_trans (.other (.create c.agentRunID none) rfl) ?_
        split
        · exact touches_stampTerminal env c _
        · exact touches_workingFailure _ _ hu
      · exact .act_trans (.other _ rfl) (touches_finalize _ _)

theorem touches_neutralForm (prev : WorkingInflightSlot) :
    TickTouches env c page w w (maybeDeliverNeutralCredentialForm env c prev w).1 := by
  unfold maybeDeliverNeutralCredentialForm
  dsimp only
  split
  · exact .refl w
  · exact touches_stampTerminal env c w
  · split_ifs
    all_goals
      split
      · exact .act_trans (.other _ rfl) (touches_stampTerminal env c _)
      · exact .act_trans (.other _ rfl) (touches_finalize _ _)

theorem touches_deliverNeutralTerminal (prev : WorkingInflightSlot) :
    TickTouches env c page w w (deliverNeutralTerminal env c prev (tickCard c page) w) := by
  have hform : TickTouches env c page w w _ := touches_neutralForm prev
  unfold deliverNeutralTerminal
  dsimp only
  generalize maybeDeliverNeutralCredentialForm env c prev w = r at hform ⊢
  obtain ⟨u, done⟩ := r
  cases done with
  | true => exact hform
  | false =>
    refine hform.trans ?_
    refine (touches_renderFinalCard hform.events).trans ?_
    dsimp only
    split
    all_goals
      split
      · exact .act (.other _ rfl) _
      · exact .act_trans (.other _ rfl) (touches_finalize _ _)

variable (env c page w)

theorem persistWorking_cases (slot : WorkingInflightSlot) (old : String) :
    ((env.faults.upsertWorking = true ∨ w.store.working.agentRunID ≠ old) ∧
        ∃ p, p ≠ .stored ∧ persistWorking env slot old w = (w, p)) ∨
      (env.faults.upsertWorking = false ∧ w.store.working.agentRunID = old ∧
        persistWorking env slot old w = (w.setStore { w.store with working := slot },
          .stored)) := by
  unfold persistWorking Store.upsertWorkingCard
  split
  · rename_i hfault
    exact .inl ⟨.inl hfault, .failed, by decide, rfl⟩
  · rename_i hfault
    by_cases hcas : w.store.working.agentRunID = old
    · rw [if_pos hcas]
      exact .inr ⟨by simpa using hfault, hcas, rfl⟩
    · rw [if_neg hcas]
      exact .inl ⟨.inr hcas, .conflict, by decide, rfl⟩

/-- The call a tick makes for the working card. -/
def progressAction (prev : WorkingInflightSlot) (landed : Option MsgID) : Action :=
  if prev.hasWorkingSlotForRun c.agentRunID then
    .edit c.agentRunID prev.externalMsgID landed.isSome
  else .create c.agentRunID landed

def progressSlot (appID : String) (prev : WorkingInflightSlot) (card : CardState) (id : MsgID) :
    WorkingInflightSlot :=
  if prev.hasWorkingSlotForRun c.agentRunID then patchedSlot prev page card
  else sentSlot appID c prev page card id

theorem deliverProgress_cases (appID : String) (onError : String → String → World → World)
    (prev : WorkingInflightSlot) (card : CardState) :
    (∃ stage err, env.call = .error err ∧ deliverProgress env appID onError c prev page card w =
        (onError stage err (w.act (progressAction c prev none)), .failed)) ∨
      (∃ id p, env.call = .ok id ∧ p ≠ .stored ∧
        (env.faults.upsertWorking = true ∨ w.store.working.agentRunID ≠ prev.agentRunID) ∧
        deliverProgress env appID onError c prev page card w =
          (w.act (progressAction c prev (some id)), p)) ∨
      ∃ id, env.call = .ok id ∧ env.faults.upsertWorking = false ∧
        w.store.working.agentRunID = prev.agentRunID ∧
        deliverProgress env appID onError c prev page card w =
          ((w.act (progressAction c prev (some id))).setStore
            { w.store with working := progressSlot c page appID prev card id }, .stored) := by
  unfold deliverProgress progressAction progressSlot
  -- Both branches make one call and persist one slot after it.
  by_cases hhas : prev.hasWorkingSlotForRun c.agentRunID <;> simp only [hhas, if_true, if_false]
  all_goals
    cases hcall : env.call with
    | error err => exact .inl ⟨_, err, rfl, rfl⟩
    | ok id =>
      rcases persistWorking_cases env (w.act _) _ prev.agentRunID with
        ⟨hwhy, p, hp, heq⟩ | ⟨hfault, hcas, heq⟩
      · exact .inr (.inl ⟨id, p, rfl, hp, hwhy, heq⟩)
      · exact .inr (.inr ⟨id, rfl, hfault, hcas, heq⟩)

theorem progressAction_other (prev : WorkingInflightSlot) (landed : Option MsgID) :
    (progressAction c prev landed).ofWorking = true := by
  unfold progressAction
  split <;> rfl

theorem touches_progressAction (landed : Option MsgID) : TickTouches env c page w w
    (w.act (progressAction c (c.working.forRun c.agentRunID) landed)) :=
  .act (.other _ (progressAction_other c _ landed)) w

theorem prompts_maybeSendPermissionCard (appID : String) {onError : String → World → World}
    (hOnError : ∀ err u, Prompts u (onError err u)) (pending : PendingPermission) :
    Prompts w (maybeSendPermissionCard env appID onError c pending w) := by
  unfold maybeSendPermissionCard
  dsimp only
  split
  · exact .refl w
  · split
    · exact .refl w
    · exact (Prompts.act rfl w).trans (hOnError _ _)
    · rename_i id _
      refine (Prompts.act (a := .sendPermission c.agentRunID pending.requestID (some id)) rfl
        w).trans ?_
      split
      · exact .refl _
      · split
        · exact .refl _
        · rename_i st hup
          obtain ⟨-, rfl⟩ := Store.upsertPermissionCard_eq_some.mp hup
          exact (Prompts.setPermission _ _).trans (.act rfl _)

theorem prompts_maybeSendPromptForUserChoiceCard (appID : String) (pending : PendingAsk) :
    Prompts w (maybeSendPromptForUserChoiceCard env appID c pending w) := by
  unfold maybeSendPromptForUserChoiceCard
  dsimp only
  split
  · exact .refl w
  · split
    · exact .refl w
    · split
      · exact .refl w
      · exact .act rfl w
      · rename_i id _
        refine (Prompts.act (a := .sendChoice c.agentRunID pending.requestID (some id)) rfl
          w).trans ?_
        split
        · exact .refl _
        · split
          · exact .refl _
          · rename_i st hup
            obtain ⟨-, rfl⟩ := Store.upsertPromptForUserChoiceCard_eq_some.mp hup
            exact (Prompts.setChoice _ _).trans (.act rfl _)

theorem prompts_deliverPrompts (appID : String) {onError : String → String → World → World}
    (hOnError : ∀ q err u, Prompts u (onError q err u)) (perm : Option PendingPermission) :
    Prompts w (deliverPrompts env appID onError c page perm w) := by
  have hperm : Prompts w (deliverPermission env appID onError c perm w) := by
    cases perm with
    | none => exact .refl w
    | some pending =>
      exact prompts_maybeSendPermissionCard env c w appID (hOnError pending.requestID) pending
  refine hperm.trans ?_
  unfold deliverPrompts deliverChoice
  split
  · exact prompts_maybeSendPromptForUserChoiceCard env c _ appID _
  · exact .refl _

/-- The answer to a failed permission card. Only Feishu keeps a retry state for it. -/
def permissionFailure (requestID err : String) (u : World) : World :=
  if c.conv.platform.isFeishu then
    handleUpstreamPermissionFailure env c.agentRunID requestID c.permission
      (sendStage "send permission card" c) err u
  else u

theorem prompts_permissionFailure (requestID err : String) (u : World) :
    Prompts u (permissionFailure env c requestID err u) := by
  unfold permissionFailure
  split
  · exact prompts_handleUpstreamPermissionFailure env _ requestID _ _ err u
  · exact .refl u

/-- A tick settles its delivery, or gets past the working card and hands over to the prompts. -/
inductive Outcome : World → Prop where
  | settled {v : World} (h : TickTouches env c page w w v) : Outcome v
  | prompted {u : World} (appID : String) (midRun : c.runStatus.terminal = false) (id : MsgID)
      (called : env.call = .ok id)
      (hlog : u.log = progressAction c (c.working.forRun c.agentRunID) (some id) :: w.log)
      (hstore : u.store = w.store ∨ ∃ slotApp, env.faults.upsertWorking = false ∧
        w.store.working.agentRunID = c.working.agentRunID ∧
        u.store = { w.store with
          working := progressSlot c page slotApp (c.working.forRun c.agentRunID)
            (tickCard c page) id }) :
      Outcome (deliverPrompts env appID (permissionFailure env c) c page
        (latestOf AgentRunEvent.permission? page) u)

theorem tick_pendingPerm :
    (foldEventsIntoCardState (c.working.forRun c.agentRunID) page).pendingPerm =
      latestOf AgentRunEvent.permission? page := by
  rw [foldEventsIntoCardState_eq]

theorem handleFeishu_outcome (hplatform : c.conv.platform.isFeishu = true) :
    Outcome env c page w (handleFeishuInflightConversation env c page w) := by
  have hfail : permissionFailure env c = fun requestID =>
      handleUpstreamPermissionFailure env c.agentRunID requestID c.permission
        (sendStage "send permission card" c) := by
    funext requestID err u
    simp only [permissionFailure, hplatform, if_true]
  unfold handleFeishuInflightConversation
  dsimp only
  split
  · exact .settled (.refl w)
  · split
    · exact .settled (.refl w)
    · split
      · exact .settled (.refl w)
      · rename_i appID _
        split
        · exact .settled (touches_deliverFeishuTerminal)
        · rename_i hterm
          rcases deliverProgress_cases env c page w appID
            (handleUpstreamWorkingFailure env c.agentRunID (c.working.forRun c.agentRunID))
            (c.working.forRun c.agentRunID) (tickCard c page) with
            ⟨stage, err, -, heq⟩ | ⟨id, p, -, hp, -, heq⟩ | ⟨id, hcall, hfault, hcas, heq⟩
          · rw [heq]
            exact .settled ((touches_progressAction env c page w none).trans
              (touches_workingFailure stage err rfl))
          · rw [heq]
            have hact := touches_progressAction env c page w (some id)
            cases p with
            | stored => exact absurd rfl hp
            | conflict | failed => exact .settled hact
          · rw [heq, tick_pendingPerm, ← hfail]
            rw [WorkingInflightSlot.forRun_agentRunID] at hcas
            exact .prompted appID (by simpa using hterm) id hcall rfl
              (.inr ⟨appID, hfault, hcas, rfl⟩)

theorem handleNeutral_outcome (hplatform : c.conv.platform.isFeishu = false) :
    Outcome env c page w (handleNeutralInflightConversation env c page w) := by
  have hfail : permissionFailure env c = fun _ _ u => u := by
    funext requestID err u
    simp [permissionFailure, hplatform]
  unfold handleNeutralInflightConversation
  dsimp only
  split
  · exact .settled (.refl w)
  · split
    · exact .settled (.refl w)
    · split
      · exact .settled (touches_deliverNeutralTerminal _)
      · rename_i hterm
        have hmid : c.runStatus.terminal = false := by simpa using hterm
        rcases deliverProgress_cases env c page w "" (fun _ _ u => u)
          (c.working.forRun c.agentRunID) (tickCard c page) with
          ⟨stage, err, -, heq⟩ | ⟨id, p, hcall, hp, -, heq⟩ | ⟨id, hcall, hfault, hcas, heq⟩
        · rw [heq]
          exact .settled (touches_progressAction env c page w none)
        · rw [heq, tick_pendingPerm, ← hfail]
          cases p with
          | stored => exact absurd rfl hp
          | conflict => exact .prompted c.conv.sourceAppID hmid id hcall rfl (.inl rfl)
          | failed => exact .settled (touches_progressAction env c page w (some id))
        · rw [heq, tick_pendingPerm, ← hfail]
          rw [WorkingInflightSlot.forRun_agentRunID] at hcas
          exact .prompted c.conv.sourceAppID hmid id hcall rfl (.inr ⟨"", hfault, hcas, rfl⟩)

theorem handle_outcome : Outcome env c page w (handleInflightConversation env c page w) := by
  unfold handleInflightConversation
  split
  · rename_i hplatform
    exact handleFeishu_outcome env c page w hplatform
  · rename_i hplatform
    exact handleNeutral_outcome env c page w (by simpa using hplatform)

end Tick

inductive NewSlot (c : FeishuInflightConversation) (page : List AgentRunEvent)
    (before : WorkingInflightSlot) : WorkingInflightSlot → Prop where
  | cleared : NewSlot c page before {}
  | bumped (now : Time) (msg : String) (cas : before.agentRunID = c.working.agentRunID) :
      NewSlot c page before ((c.working.forRun c.agentRunID).bumped now msg)
  | sent (appID : String) (id : MsgID) (midRun : c.runStatus.terminal = false)
      (fresh : ¬ c.working.hasWorkingSlotForRun c.agentRunID)
      (cas : before.agentRunID = c.working.agentRunID) :
      NewSlot c page before (sentSlot appID c (c.working.forRun c.agentRunID) page
        (foldEventsIntoCardState (c.working.forRun c.agentRunID) page).card id)
  | patched (midRun : c.runStatus.terminal = false)
      (owned : c.working.hasWorkingSlotForRun c.agentRunID)
      (cas : before.agentRunID = c.working.agentRunID) :
      NewSlot c page before (patchedSlot (c.working.forRun c.agentRunID) page
        (foldEventsIntoCardState (c.working.forRun c.agentRunID) page).card)

structure TickEffect (env : TickEnv) (c : FeishuInflightConversation) (page : List AgentRunEvent)
    (w v : World) : Prop where
  runs : v.store.runs = w.store.runs
  events : v.store.events = w.store.events
  working : v.store.working = w.store.working ∨ NewSlot c page w.store.working v.store.working
  log : Grows (fun a => NewAction env c page w.store.events a ∨ a.isPrompt = true) w v

theorem Outcome.effect {env : TickEnv} {c : FeishuInflightConversation}
    {page : List AgentRunEvent} {w v : World} (h : Outcome env c page w v) :
    TickEffect env c page w v := by
  cases h with
  | settled h =>
    refine ⟨h.runs, h.events, ?_, h.log.imp fun _ => .inl⟩
    rcases h.working with heq | heq | ⟨hcas, msg, heq⟩
    · exact .inl heq
    · exact .inr (heq ▸ .cleared)
    · exact .inr (heq ▸ .bumped env.now msg hcas)
  | @prompted u appID midRun id called hlog hstore =>
    have hprompts := prompts_deliverPrompts env c page u appID (prompts_permissionFailure env c)
      (latestOf AgentRunEvent.permission? page)
    have hgrows : Grows (NewAction env c page w.store.events) w u :=
      ⟨[_], hlog, by simpa using .other _ (progressAction_other c _ (some id))⟩
    have hlog := (hgrows.imp fun _ => Or.inl).trans (hprompts.log.imp fun _ => Or.inr)
    rcases hstore with heq | ⟨slotApp, -, hcas, heq⟩
    · refine ⟨?_, ?_, .inl ?_, hlog⟩
      · rw [hprompts.runs, heq]
      · rw [hprompts.events, heq]
      · rw [hprompts.working, heq]
    · refine ⟨?_, ?_, .inr ?_, hlog⟩
      · rw [hprompts.runs, heq]
      · rw [hprompts.events, heq]
      · rw [hprompts.working, heq]
        dsimp only
        unfold progressSlot
        split
        · rename_i hhas
          exact .patched midRun ((WorkingInflightSlot.forRun_has_iff _ _).mp hhas) hcas
        · rename_i hhas
          exact .sent slotApp id midRun
            (mt (WorkingInflightSlot.forRun_has_iff _ _).mpr hhas) hcas

theorem handle_effect (env : TickEnv) (c : FeishuInflightConversation)
    (page : List AgentRunEvent) (w : World) :
    TickEffect env c page w (handleInflightConversation env c page w) :=
  (handle_outcome env c page w).effect

end Parsar.Inflight
