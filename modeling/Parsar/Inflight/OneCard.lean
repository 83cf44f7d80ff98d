import Parsar.Inflight.RetryBudget

namespace Parsar.Inflight

open GoStd

def Action.createsFor (run : RunID) : Action → Bool
  | .create r _ => r = run
  | _ => false

def Action.quiet : Action → Bool
  | .create _ _ | .edit _ _ _ => false
  | _ => true

def creates (run : RunID) (log : List Action) : Nat := log.countP (·.createsFor run)

theorem creates_append (run : RunID) (xs ys : List Action) :
    creates run (xs ++ ys) = creates run xs + creates run ys := List.countP_append

theorem creates_cons (run : RunID) (a : Action) (log : List Action) :
    creates run (a :: log) = creates run log + if a.createsFor run then 1 else 0 :=
  List.countP_cons

theorem creates_quiet (run : RunID) {acts : List Action} (h : ∀ a ∈ acts, a.quiet = true) :
    creates run acts = 0 := by
  apply List.countP_eq_zero.mpr
  intro a ha
  have hquiet := h a ha
  cases a <;> simp_all [Action.createsFor, Action.quiet]

structure OneCall (c : FeishuInflightConversation) (id : MsgID) (w v : World) : Prop where
  log : ∃ after before, v.log =
      after ++ progressAction c (c.working.forRun c.agentRunID) (some id) :: (before ++ w.log) ∧
    (∀ a ∈ after, a.quiet = true) ∧ ∀ a ∈ before, a.quiet = true

namespace OneCall

variable {c : FeishuInflightConversation} {id : MsgID} {w v : World}

theorem call (w : World) :
    OneCall c id w (w.act (progressAction c (c.working.forRun c.agentRunID) (some id))) :=
  ⟨[], [], rfl, by simp, by simp⟩

theorem of_log_eq {v' : World} (h : OneCall c id w v) (hlog : v'.log = v.log) :
    OneCall c id w v' := by
  obtain ⟨after, before, heq, hafter, hbefore⟩ := h.log
  exact ⟨after, before, hlog.trans heq, hafter, hbefore⟩

theorem after {u : World} (hgrow : Grows (fun a => a.quiet = true) w u) (h : OneCall c id u v) :
    OneCall c id w v := by
  obtain ⟨after, before, heq, hafter, hbefore⟩ := h.log
  obtain ⟨acts, hlog, hacts⟩ := hgrow
  refine ⟨after, before ++ acts, by rw [heq, hlog, List.append_assoc], hafter, ?_⟩
  intro a ha
  exact (List.mem_append.mp ha).elim (hbefore a) (hacts a)

theorem grows {v' : World} (h : OneCall c id w v) (hgrow : Grows (fun a => a.quiet = true) v v') :
    OneCall c id w v' := by
  obtain ⟨after, before, heq, hafter, hbefore⟩ := h.log
  obtain ⟨acts, hlog, hacts⟩ := hgrow
  refine ⟨acts ++ after, before, by rw [hlog, heq, List.append_assoc], ?_, hbefore⟩
  intro a ha
  exact (List.mem_append.mp ha).elim (hacts a) (hafter a)

theorem suffix (h : OneCall c id w v) : w.log <:+ v.log := by
  obtain ⟨after, before, heq, -, -⟩ := h.log
  exact ⟨after ++ (progressAction c (c.working.forRun c.agentRunID) (some id) :: before),
    by rw [heq]; simp⟩

theorem mem_iff (h : OneCall c id w v) {a : Action} (ha : a.quiet = false) :
    a ∈ v.log ↔ a = progressAction c (c.working.forRun c.agentRunID) (some id) ∨ a ∈ w.log := by
  obtain ⟨after, before, heq, hafter, hbefore⟩ := h.log
  have hafter' : a ∉ after := fun hmem => by simp [hafter a hmem] at ha
  have hbefore' : a ∉ before := fun hmem => by simp [hbefore a hmem] at ha
  rw [heq, List.mem_append, List.mem_cons, List.mem_append]
  simp only [hafter', hbefore', false_or]

theorem creates_eq (h : OneCall c id w v) (run : RunID) : creates run v.log = creates run w.log +
    if (progressAction c (c.working.forRun c.agentRunID) (some id)).createsFor run then 1
      else 0 := by
  obtain ⟨after, before, heq, hafter, hbefore⟩ := h.log
  rw [heq, creates_append, creates_cons, creates_append, creates_quiet run hafter,
    creates_quiet run hbefore]
  omega

end OneCall

/-- The calls of the tick land, the store works, and no older credential form is patched. -/
structure NoFailure (env : TickEnv) : Prop where
  call : env.call.isOk = true
  formCall : env.form.shipped.isSome = true → env.formCall.isOk = true
  faults : env.faults = {}
  form : env.form.landed = false

instance (env : TickEnv) : Decidable (NoFailure env) :=
  decidable_of_iff (env.call.isOk = true ∧
      (env.form.shipped.isSome = true → env.formCall.isOk = true) ∧ env.faults = {} ∧
      env.form.landed = false)
    ⟨fun ⟨hcall, hformCall, hfaults, hform⟩ => ⟨hcall, hformCall, hfaults, hform⟩,
      fun h => ⟨h.call, h.formCall, h.faults, h.form⟩⟩

theorem exists_of_isOk {ε α : Type} {r : Except ε α} (h : r.isOk = true) : ∃ a, r = .ok a := by
  cases r with
  | error err => cases h
  | ok a => exact ⟨a, rfl⟩

structure Finalized (c : FeishuInflightConversation) (w v : World) : Prop where
  marked : c.agentRunID ∈ v.store.terminalDelivered
  delivered : ∀ run ∈ w.store.terminalDelivered, run ∈ v.store.terminalDelivered
  working : v.store.working = w.store.working ∨
    w.store.working.agentRunID = c.agentRunID.text ∧ v.store.working = {}

theorem mem_markTerminalDelivered {st : Store} {run r : RunID} :
    r ∈ (st.markTerminalDelivered run).terminalDelivered ↔ r = run ∨ r ∈ st.terminalDelivered := by
  by_cases h : r = run <;> simp [Store.markTerminalDelivered, h]

section Tick

variable {env : TickEnv} {c : FeishuInflightConversation} {w : World}

theorem stampTerminal_eq (hfaults : env.faults = {}) :
    stampTerminal env c w = (w.setStore (w.store.markTerminalDelivered c.agentRunID), true) := by
  rw [stampTerminal, hfaults]
  rfl

theorem markOutput_spec (hfaults : env.faults = {}) (deliveredID : String) :
    ∃ u, markOutput env c deliveredID w = (u, true) ∧ u.log = w.log ∧
      u.store.working = w.store.working ∧
      u.store.terminalDelivered = w.store.terminalDelivered := by
  rw [markOutput, hfaults]
  split
  · exact ⟨_, rfl, rfl, rfl, rfl⟩
  · exact ⟨w, rfl, rfl, rfl, rfl⟩

theorem finalizeTerminalDelivery_spec (hfaults : env.faults = {}) (deliveredID : String) :
    ∃ v, finalizeTerminalDelivery env c deliveredID true w = (v, true) ∧ v.log = w.log ∧
      Finalized c w v := by
  obtain ⟨u, hmark, hlog, hworking, hdelivered⟩ :=
    markOutput_spec (c := c) (w := w) hfaults deliveredID
  obtain ⟨st, hst⟩ : ∃ st, st = u.store.markTerminalDelivered c.agentRunID := ⟨_, rfl⟩
  have hworking' : st.working = w.store.working := by
    rw [hst, ← hworking]
    rfl
  have hmem : ∀ r, r ∈ st.terminalDelivered ↔ r = c.agentRunID ∨ r ∈ w.store.terminalDelivered := by
    intro r
    rw [hst, mem_markTerminalDelivered, hdelivered]
  refine ⟨u.setStore (st.clearWorkingSlot c.agentRunID), ?_, hlog, ?_⟩
  · rw [finalizeTerminalDelivery, hmark]
    dsimp only
    rw [if_pos rfl, stampTerminal_eq hfaults, hfaults, hst]
    rfl
  rcases st.clearWorkingSlot_eq c.agentRunID with heq | ⟨howner, heq⟩
  · rw [heq]
    exact ⟨(hmem _).mpr (.inl rfl), fun r hr => (hmem r).mpr (.inr hr), .inl hworking'⟩
  · rw [heq]
    exact ⟨(hmem _).mpr (.inl rfl), fun r hr => (hmem r).mpr (.inr hr),
      .inr ⟨hworking' ▸ howner, rfl⟩⟩

structure Idle (w u : World) : Prop where
  log : Grows (fun a => a.quiet = true) w u
  working : u.store.working = w.store.working
  delivered : ∀ run ∈ w.store.terminalDelivered, run ∈ u.store.terminalDelivered

structure Delivered (c : FeishuInflightConversation) (w v : World) : Prop extends
    Finalized c w v where
  called : ∃ id, OneCall c id w v

theorem Delivered.after {u v : World} (hidle : Idle w u) (h : Delivered c u v) :
    Delivered c w v := by
  obtain ⟨id, hcall⟩ := h.called
  refine ⟨⟨h.marked, ?_, hidle.working ▸ h.working⟩, id, hcall.after hidle.log⟩
  intro run hrun
  exact h.delivered run (hidle.delivered run hrun)

theorem delivered_finalize (hfaults : env.faults = {}) (deliveredID : String) (id : MsgID) :
    ∃ v, finalizeTerminalDelivery env c deliveredID true
        (w.act (progressAction c (c.working.forRun c.agentRunID) (some id))) = (v, true) ∧
      Delivered c w v := by
  obtain ⟨v, heq, hlog, hfin⟩ := finalizeTerminalDelivery_spec (c := c)
    (w := w.act (progressAction c (c.working.forRun c.agentRunID) (some id))) hfaults deliveredID
  exact ⟨v, heq, ⟨hfin.marked, hfin.delivered, hfin.working⟩, id, (OneCall.call w).of_log_eq hlog⟩

theorem idle_renderFinalCard (env : TickEnv) (c : FeishuInflightConversation) (card : CardState)
    (w : World) : Idle w (renderFinalCard env c card w) := by
  refine ⟨?_, rfl, fun _ h => h⟩
  apply Grows.act
  rfl

theorem idle_stampTerminal : Idle w (stampTerminal env c w).1 := by
  unfold stampTerminal
  split
  · exact ⟨.of_log_eq rfl, rfl, fun _ h => h⟩
  · exact ⟨.of_log_eq rfl, rfl, fun _ h => mem_markTerminalDelivered.mpr (.inr h)⟩

theorem pinned_of_has {slot : WorkingInflightSlot} {run : RunID}
    (h : slot.hasWorkingSlotForRun run) : slot.externalMsgID ≠ "" := by
  intro hblank
  have hpinned := h.1
  rw [hblank] at hpinned
  exact hpinned trimSpace_empty

theorem delivered_feishu (h : NoFailure env) (card : CardState) : Delivered c w
    (deliverFeishuTerminal env c (c.working.forRun c.agentRunID) card w) := by
  obtain ⟨id, hcall⟩ := exists_of_isOk h.call
  have hexisting : ¬ env.form.shipped.getD "" ≠ "" := by
    simpa [FormOutcome.landed] using h.form
  obtain ⟨u, hu⟩ : ∃ u, (if env.form.shipped.isSome then w else renderFinalCard env c card w) = u :=
    ⟨_, rfl⟩
  have hquiet : ∀ v, Delivered c u v → Delivered c w v := by
    rw [← hu]
    split
    · exact fun v hv => hv
    · exact fun v hv => hv.after (idle_renderFinalCard env c card w)
  apply hquiet
  unfold deliverFeishuTerminal
  dsimp only
  rw [hu, if_neg hexisting, hcall]
  by_cases hhas : (c.working.forRun c.agentRunID).hasWorkingSlotForRun c.agentRunID
  · obtain ⟨v, heq, hv⟩ := delivered_finalize (c := c) (w := u) h.faults
      (c.working.forRun c.agentRunID).externalMsgID id
    rw [progressAction, if_pos hhas, Option.isSome_some] at heq
    rw [if_pos hhas, decide_eq_true (pinned_of_has hhas), Bool.true_or]
    dsimp only
    rw [heq]
    exact hv
  · obtain ⟨v, heq, hv⟩ := delivered_finalize (c := c) (w := u) h.faults id.text id
    rw [progressAction, if_neg hhas] at heq
    rw [if_neg hhas]
    dsimp only
    rw [decide_eq_true id.nonempty, Bool.true_or, heq]
    exact hv

theorem neutralForm_spec (h : NoFailure env) :
    (∃ v, maybeDeliverNeutralCredentialForm env c (c.working.forRun c.agentRunID) w = (v, true) ∧
        Delivered c w v) ∨
      ∃ u, maybeDeliverNeutralCredentialForm env c (c.working.forRun c.agentRunID) w = (u, false) ∧
        Idle w u := by
  cases hform : env.form with
  | none =>
    rw [maybeDeliverNeutralCredentialForm, hform]
    exact .inr ⟨w, rfl, .of_log_eq rfl, rfl, fun _ h => h⟩
  | formed existing rendered =>
    cases rendered with
    | false =>
      rw [maybeDeliverNeutralCredentialForm, hform]
      exact .inr ⟨_, rfl, idle_stampTerminal⟩
    | true =>
      have hexisting : ¬ existing ≠ "" := by
        simpa [FormOutcome.landed, FormOutcome.shipped, hform] using h.form
      obtain ⟨id, hcall⟩ := exists_of_isOk (h.formCall (by rw [hform]; rfl))
      rw [maybeDeliverNeutralCredentialForm, hform]
      dsimp only
      rw [if_neg hexisting, hcall]
      by_cases hhas : (c.working.forRun c.agentRunID).hasWorkingSlotForRun c.agentRunID
      · have hfin := delivered_finalize (c := c) (w := w) h.faults
          (c.working.forRun c.agentRunID).externalMsgID id
        rw [progressAction, if_pos hhas, Option.isSome_some] at hfin
        rw [if_pos hhas]
        exact .inl hfin
      · have hfin := delivered_finalize (c := c) (w := w) h.faults id.text id
        rw [progressAction, if_neg hhas] at hfin
        rw [if_neg hhas]
        exact .inl hfin

theorem delivered_neutral (h : NoFailure env) (card : CardState) : Delivered c w
    (deliverNeutralTerminal env c (c.working.forRun c.agentRunID) card w) := by
  obtain ⟨id, hcall⟩ := exists_of_isOk h.call
  unfold deliverNeutralTerminal
  dsimp only
  rcases neutralForm_spec (c := c) (w := w) h with ⟨v, heq, hv⟩ | ⟨u, heq, hidle⟩
  · rw [heq]
    exact hv
  · rw [heq, hcall]
    refine Delivered.after hidle (Delivered.after (idle_renderFinalCard env c card u) ?_)
    by_cases hhas : (c.working.forRun c.agentRunID).hasWorkingSlotForRun c.agentRunID
    · obtain ⟨v, heq, hv⟩ :=
        delivered_finalize (c := c) (w := renderFinalCard env c card u) h.faults
        (c.working.forRun c.agentRunID).externalMsgID id
      rw [progressAction, if_pos hhas, Option.isSome_some] at heq
      dsimp only
      rw [if_pos hhas, heq]
      exact hv
    · obtain ⟨v, heq, hv⟩ :=
        delivered_finalize (c := c) (w := renderFinalCard env c card u) h.faults
        id.text id
      rw [progressAction, if_neg hhas] at heq
      dsimp only
      rw [if_neg hhas, heq]
      exact hv

/-- A tick that sent or patched the working card and moved the cursor. -/
structure Progressed (c : FeishuInflightConversation) (page : List AgentRunEvent) (id : MsgID)
    (w v : World) : Prop where
  called : OneCall c id w v
  slot : ∃ appID, v.store.working =
    progressSlot c page appID (c.working.forRun c.agentRunID) (tickCard c page) id
  delivered : v.store.terminalDelivered = w.store.terminalDelivered

variable {page : List AgentRunEvent}

theorem deliverProgress_stored (h : NoFailure env)
    (hcas : w.store.working.agentRunID = c.working.agentRunID) (page : List AgentRunEvent)
    (appID : String)
    (onError : String → String → World → World) :
    ∃ id, deliverProgress env appID onError c (c.working.forRun c.agentRunID) page
      (tickCard c page) w =
        ((w.act (progressAction c (c.working.forRun c.agentRunID) (some id))).setStore
          { w.store with
            working := progressSlot c page appID (c.working.forRun c.agentRunID)
              (tickCard c page) id }, .stored) := by
  have hcas' : w.store.working.agentRunID = (c.working.forRun c.agentRunID).agentRunID := by
    rw [hcas, WorkingInflightSlot.forRun_agentRunID]
  rcases deliverProgress_cases env c page w appID onError (c.working.forRun c.agentRunID)
    (tickCard c page) with ⟨stage, err, hcall, -⟩ | ⟨id, p, -, -, hwhy, -⟩ | ⟨id, -, -, -, heq⟩
  · have hok := h.call
    rw [hcall] at hok
    cases hok
  · rcases hwhy with hfault | hne
    · rw [h.faults] at hfault
      cases hfault
    · exact absurd hcas' hne
  · exact ⟨id, heq⟩

theorem progressed_prompts {u v : World} {id : MsgID} (hprompts : Prompts u v) (appID : String)
    (hlog : u.log = progressAction c (c.working.forRun c.agentRunID) (some id) :: w.log)
    (hstore : u.store = { w.store with
      working := progressSlot c page appID (c.working.forRun c.agentRunID)
        (tickCard c page) id }) : Progressed c page id w v := by
  have hquiet : ∀ a : Action, a.isPrompt = true → a.quiet = true := by
    intro a ha
    cases a <;> simp_all [Action.isPrompt, Action.quiet]
  refine ⟨?_, ⟨appID, ?_⟩, ?_⟩
  · exact ((OneCall.call w).of_log_eq hlog).grows (hprompts.log.imp hquiet)
  · rw [hprompts.working, hstore]
  · rw [hprompts.terminalDelivered, hstore]

theorem handle_clean (h : NoFailure env)
    (hcas : w.store.working.agentRunID = c.working.agentRunID) (page : List AgentRunEvent) :
    handleInflightConversation env c page w = w ∨
      Delivered c w (handleInflightConversation env c page w) ∨
      ∃ id, Progressed c page id w (handleInflightConversation env c page w) := by
  unfold handleInflightConversation
  split
  · unfold handleFeishuInflightConversation
    dsimp only
    split
    · exact .inl rfl
    · split
      · exact .inl rfl
      · split
        · exact .inl rfl
        · rename_i appID _
          split
          · exact .inr (.inl (delivered_feishu h _))
          · obtain ⟨id, heq⟩ := deliverProgress_stored h hcas page appID
              (handleUpstreamWorkingFailure env c.agentRunID (c.working.forRun c.agentRunID))
            rw [heq]
            dsimp only
            generalize hu : (w.act _).setStore _ = u
            refine .inr (.inr ⟨id, progressed_prompts (u := u) ?_ appID (hu ▸ rfl) (hu ▸ rfl)⟩)
            exact prompts_deliverPrompts env c page u appID
              (fun q err u => prompts_handleUpstreamPermissionFailure env _ q _ _ err u) _
  · unfold handleNeutralInflightConversation
    dsimp only
    split
    · exact .inl rfl
    · split
      · exact .inl rfl
      · split
        · exact .inr (.inl (delivered_neutral h _))
        · obtain ⟨id, heq⟩ := deliverProgress_stored h hcas page "" (fun _ _ u => u)
          rw [heq]
          dsimp only
          generalize hu : (w.act _).setStore _ = u
          refine .inr (.inr ⟨id, progressed_prompts (u := u) ?_ "" (hu ▸ rfl) (hu ▸ rfl)⟩)
          exact prompts_deliverPrompts env c page u _ (fun _ _ u => Prompts.refl u) _

end Tick

def Retired (st : Store) (run : RunID) : Prop :=
  run ∈ st.terminalDelivered ∨ (st.runs run).status = .cancelled

instance (st : Store) (run : RunID) : Decidable (Retired st run) :=
  inferInstanceAs (Decidable (_ ∨ _))

/-- The slot pins no card of another run that may still be claimed. -/
def Free (st : Store) (run : RunID) : Prop :=
  ∀ owner, st.working.hasWorkingSlotForRun owner → owner = run ∨ Retired st owner

instance (st : Store) (run : RunID) : Decidable (Free st run) :=
  if h : trimSpace (trimSpace st.working.agentRunID) = trimSpace st.working.agentRunID ∧
      trimSpace st.working.agentRunID ≠ "" then
    decidable_of_iff (st.working.hasWorkingSlotForRun ⟨_, h.1, h.2⟩ →
        ⟨_, h.1, h.2⟩ = run ∨ Retired st ⟨_, h.1, h.2⟩) (by
      refine ⟨fun howner owner hhas => ?_, fun hfree => hfree _⟩
      obtain rfl : owner = ⟨_, h.1, h.2⟩ := Ident.ext_text (owner.trimmed.symm.trans hhas.2.symm)
      exact howner hhas)
  else .isTrue (by
    intro owner hhas
    have howner : trimSpace st.working.agentRunID = owner.text := hhas.2.trans owner.trimmed
    rw [howner] at h
    exact absurd ⟨owner.trimmed, owner.nonempty⟩ h)

/-- One worker, nothing fails, and a run is claimed alone, while the slot is free for it. -/
def OneAtATime (s : System) : Label → Prop
  | .claim _ runs => s.ticks = [] ∧ runs.length ≤ 1 ∧ ∀ run ∈ runs, Free s.world.store run
  | .deliver _ env => NoFailure env
  | _ => True

instance (s : System) : ∀ a, Decidable (OneAtATime s a)
  | .claim .. =>
    have : Decidable (s.ticks = []) := decidable_of_iff (s.ticks.isEmpty = true) List.isEmpty_iff
    inferInstanceAs (Decidable (_ ∧ _ ∧ _))
  | .deliver _ env => inferInstanceAs (Decidable (NoFailure env))
  | .record .. | .start .. | .finish .. | .cancel _ | .list _ | .drop _ | .clearPermission
  | .clearChoice => instDecidableTrue

/-- The history of a conversation in which every run has one card. -/
structure CardLog (w : World) : Prop where
  once : ∀ run, creates run w.log ≤ 1
  kept : ∀ run, 0 < creates run w.log →
    Retired w.store run ∨ w.store.working.hasWorkingSlotForRun run
  pinned : ∀ run, w.store.working.hasWorkingSlotForRun run →
    ∃ id, .create run (some id) ∈ w.log ∧ w.store.working.externalMsgID = id.text
  edits : ∀ run msgID ok, .edit run msgID ok ∈ w.log →
    ∃ id, .create run (some id) ∈ w.log ∧ msgID = id.text

theorem CardLog.of_eq {w v : World} (h : CardLog w) (hlog : v.log = w.log)
    (hworking : v.store.working = w.store.working)
    (hretired : ∀ run, Retired w.store run → Retired v.store run) : CardLog v := by
  refine ⟨?_, ?_, ?_, ?_⟩
  · rw [hlog]
    exact h.once
  · rw [hlog, hworking]
    exact fun run hrun => (h.kept run hrun).imp_left (hretired run)
  · rw [hlog, hworking]
    exact h.pinned
  · rw [hlog]
    exact h.edits

structure Current (c : FeishuInflightConversation) (w : World) : Prop where
  reread : c.working = w.store.working.reread
  free : Free w.store c.agentRunID
  card : creates c.agentRunID w.log = 0 ∨ w.store.working.hasWorkingSlotForRun c.agentRunID

section Deliver

variable {c : FeishuInflightConversation} {w v : World} {id : MsgID}

theorem Current.has_iff (h : Current c w) (run : RunID) :
    c.working.hasWorkingSlotForRun run ↔ w.store.working.hasWorkingSlotForRun run := by
  rw [h.reread, WorkingInflightSlot.reread_has_iff]

theorem Current.agentRunID (h : Current c w) :
    c.working.agentRunID = w.store.working.agentRunID := by
  rw [h.reread, WorkingInflightSlot.reread_agentRunID]

theorem Current.externalMsgID (h : Current c w) :
    c.working.externalMsgID = w.store.working.externalMsgID := by
  rw [h.reread, WorkingInflightSlot.reread_externalMsgID]

theorem Current.call_cases (h : Current c w) (id : MsgID) :
    (w.store.working.hasWorkingSlotForRun c.agentRunID ∧
        progressAction c (c.working.forRun c.agentRunID) (some id) =
          .edit c.agentRunID w.store.working.externalMsgID true) ∨
      (creates c.agentRunID w.log = 0 ∧
        progressAction c (c.working.forRun c.agentRunID) (some id) =
          .create c.agentRunID (some id)) := by
  by_cases hhas : w.store.working.hasWorkingSlotForRun c.agentRunID
  · have howned := (h.has_iff _).mpr hhas
    left
    refine ⟨hhas, ?_⟩
    rw [WorkingInflightSlot.forRun_of_has howned, progressAction, if_pos howned, h.externalMsgID]
    rfl
  · right
    refine ⟨h.card.resolve_right hhas, if_neg ?_⟩
    rwa [WorkingInflightSlot.forRun_has_iff, h.has_iff]

theorem creates_other (hcall : OneCall c id w v) {run : RunID} (hne : run ≠ c.agentRunID) :
    creates run v.log = creates run w.log := by
  rw [hcall.creates_eq, progressAction]
  split <;> simp [Action.createsFor, hne.symm]

variable (h : CardLog w) (hcur : Current c w)

include h hcur

theorem once_of_call (hcall : OneCall c id w v) (run : RunID) : creates run v.log ≤ 1 := by
  by_cases heq : run = c.agentRunID
  · subst heq
    rw [hcall.creates_eq]
    rcases hcur.call_cases id with ⟨-, hact⟩ | ⟨hzero, hact⟩
    · rw [hact]
      exact h.once _
    · rw [hact, hzero]
      simp [Action.createsFor]
  · rw [creates_other hcall heq]
    exact h.once run

theorem card_of_call (hcall : OneCall c id w v) :
    ∃ card, .create c.agentRunID (some card) ∈ v.log ∧
      (w.store.working.hasWorkingSlotForRun c.agentRunID ∧
          w.store.working.externalMsgID = card.text ∨
        ¬ c.working.hasWorkingSlotForRun c.agentRunID ∧ card = id) := by
  by_cases hhas : w.store.working.hasWorkingSlotForRun c.agentRunID
  · obtain ⟨card, hmem, hpin⟩ := h.pinned _ hhas
    exact ⟨card, hcall.suffix.subset hmem, .inl ⟨hhas, hpin⟩⟩
  · refine ⟨id, (hcall.mem_iff rfl).mpr (.inl ?_), .inr ⟨mt (hcur.has_iff _).mp hhas, rfl⟩⟩
    rcases hcur.call_cases id with ⟨hhas', -⟩ | ⟨-, hact⟩
    · exact absurd hhas' hhas
    · exact hact.symm

theorem edits_of_call (hcall : OneCall c id w v) {run : RunID} {msgID : String} {ok : Bool}
    (hedit : .edit run msgID ok ∈ v.log) :
    ∃ card, .create run (some card) ∈ v.log ∧ msgID = card.text := by
  rcases (hcall.mem_iff rfl).mp hedit with heq | hold
  · rcases hcur.call_cases id with ⟨hhas, hact⟩ | ⟨-, hact⟩
    · rw [hact] at heq
      obtain ⟨rfl, rfl, -⟩ := Action.edit.inj heq
      obtain ⟨card, hmem, hpin⟩ := h.pinned _ hhas
      exact ⟨card, hcall.suffix.subset hmem, hpin⟩
    · rw [hact] at heq
      cases heq
  · obtain ⟨card, hmem, hpin⟩ := h.edits run msgID ok hold
    exact ⟨card, hcall.suffix.subset hmem, hpin⟩

theorem CardLog.delivered
    (hsane : trimSpace w.store.working.agentRunID = w.store.working.agentRunID)
    (hruns : v.store.runs = w.store.runs) (hv : Delivered c w v) : CardLog v := by
  obtain ⟨id, hcall⟩ := hv.called
  have hretired : ∀ run, Retired w.store run → Retired v.store run := by
    intro run hrun
    exact hrun.imp (hv.delivered run) (by rw [hruns]; exact fun hcancelled => hcancelled)
  refine ⟨once_of_call h hcur hcall, ?_, ?_, fun _ _ _ => edits_of_call h hcur hcall⟩
  · intro run hrun
    by_cases heq : run = c.agentRunID
    · exact .inl (.inl (heq ▸ hv.marked))
    · rw [creates_other hcall heq] at hrun
      rcases h.kept run hrun with hret | hhas
      · exact .inl (hretired run hret)
      · rcases hv.working with hsame | ⟨howner, -⟩
        · exact .inr (hsame ▸ hhas)
        · -- the slot that was cleared belonged to the other run
          have htext : run.text = c.agentRunID.text := by
            rw [← run.trimmed, ← hhas.2, hsane, howner]
          exact absurd (Ident.ext_text htext) heq
  · intro run hhas
    rcases hv.working with hsame | ⟨-, hblank⟩
    · rw [hsame] at hhas ⊢
      obtain ⟨card, hmem, hpin⟩ := h.pinned run hhas
      exact ⟨card, hcall.suffix.subset hmem, hpin⟩
    · rw [hblank] at hhas
      exact absurd hhas (WorkingInflightSlot.not_has_blank run "")

theorem progressSlot_pins (hcall : OneCall c id w v)
    (hsane : trimSpace w.store.working.agentRunID = w.store.working.agentRunID)
    {page : List AgentRunEvent} {appID : String} {slot : WorkingInflightSlot}
    (hslot : slot = progressSlot c page appID (c.working.forRun c.agentRunID)
      (tickCard c page) id) :
    slot.agentRunID = c.agentRunID.text ∧
      ∃ card, .create c.agentRunID (some card) ∈ v.log ∧ slot.externalMsgID = card.text := by
  obtain ⟨card, hmem, hcard⟩ := card_of_call h hcur hcall
  rcases hcard with ⟨hhas, hpin⟩ | ⟨hnot, rfl⟩
  · have howned := (hcur.has_iff _).mpr hhas
    have hforRun := WorkingInflightSlot.forRun_of_has howned
    have howner : w.store.working.agentRunID = c.agentRunID.text := by
      rw [← hsane, hhas.2, c.agentRunID.trimmed]
    rw [progressSlot, hforRun, if_pos howned] at hslot
    refine ⟨?_, card, hmem, ?_⟩
    · rw [hslot, ← howner]
      exact hcur.agentRunID
    · rw [hslot, ← hpin]
      exact hcur.externalMsgID
  · rw [progressSlot, if_neg (mt (WorkingInflightSlot.forRun_has_iff _ _).mp hnot)] at hslot
    exact ⟨by rw [hslot]; rfl, card, hmem, by rw [hslot]; rfl⟩

theorem CardLog.progressed
    (hsane : trimSpace w.store.working.agentRunID = w.store.working.agentRunID)
    (hruns : v.store.runs = w.store.runs) {page : List AgentRunEvent}
    (hv : Progressed c page id w v) : CardLog v := by
  have hcall := hv.called
  obtain ⟨appID, hslot⟩ := hv.slot
  obtain ⟨howner, card, hmem, hpin⟩ := progressSlot_pins h hcur hcall hsane hslot
  have hhas : v.store.working.hasWorkingSlotForRun c.agentRunID := by
    constructor
    · rw [hpin, card.trimmed]
      exact card.nonempty
    · rw [howner]
  have hretired : ∀ run, Retired w.store run → Retired v.store run := by
    intro run hrun
    rwa [Retired, hv.delivered, hruns]
  refine ⟨once_of_call h hcur hcall, ?_, ?_, fun _ _ _ => edits_of_call h hcur hcall⟩
  · intro run hrun
    by_cases heq : run = c.agentRunID
    · exact .inr (heq ▸ hhas)
    · rw [creates_other hcall heq] at hrun
      left
      apply hretired
      rcases h.kept run hrun with hret | hown
      · exact hret
      · exact (hcur.free run hown).resolve_left heq
  · intro run hrun
    have heq : run = c.agentRunID := by
      apply Ident.ext_text
      have htrim := hrun.2
      rwa [howner, c.agentRunID.trimmed, run.trimmed, eq_comm] at htrim
    subst heq
    exact ⟨card, hmem, hpin⟩

end Deliver

structure OneCard (s : System) : Prop where
  cards : CardLog s.world
  single : s.ticks.length ≤ 1
  current : ∀ tick ∈ s.ticks, Current tick.row s.world

theorem retired_setRun {st : Store} {changed : RunID} {row : AgentRun}
    (hrow : (st.runs changed).status = .cancelled → row.status = .cancelled) (run : RunID)
    (h : Retired st run) : Retired (st.setRun changed row) run := by
  refine h.imp (fun hmem => hmem) ?_
  intro hcancelled
  by_cases heq : run = changed
  · subst heq
    simpa [Store.setRun] using hrow hcancelled
  · simpa [Store.setRun, heq] using hcancelled

theorem Current.of_eq {c : FeishuInflightConversation} {w v : World} (h : Current c w)
    (hlog : v.log = w.log) (hworking : v.store.working = w.store.working)
    (hretired : ∀ run, Retired w.store run → Retired v.store run) : Current c v := by
  refine ⟨?_, ?_, ?_⟩
  · rw [hworking]
    exact h.reread
  · intro owner howner
    rw [hworking] at howner
    exact (h.free owner howner).imp_right (hretired owner)
  · rw [hlog, hworking]
    exact h.card

section

variable {s t : System} (h : OneCard s) (hlog : t.world.log = s.world.log)
  (hworking : t.world.store.working = s.world.store.working)
  (hretired : ∀ run, Retired s.world.store run → Retired t.world.store run)

include h hlog hworking hretired

theorem OneCard.of_eq (hlength : t.ticks.length ≤ s.ticks.length)
    (hrows : ∀ tick ∈ t.ticks, ∃ old ∈ s.ticks, tick.row = old.row) : OneCard t := by
  refine ⟨h.cards.of_eq hlog hworking hretired, hlength.trans h.single, ?_⟩
  intro tick htick
  obtain ⟨old, hold, hrow⟩ := hrows tick htick
  rw [hrow]
  exact (h.current old hold).of_eq hlog hworking hretired

theorem OneCard.same_ticks (hticks : t.ticks = s.ticks) : OneCard t := by
  apply h.of_eq hlog hworking hretired
  · rw [hticks]
  · rw [hticks]
    exact fun tick htick => ⟨tick, htick, rfl⟩

end

theorem oneCard_claim {s t : System} {now : Time} {runs : List RunID}
    (hok : OneAtATime s (.claim now runs)) (hstep : s.step (.claim now runs) = some t)
    (h : OneCard s) : OneCard t := by
  obtain ⟨hclaim, rfl⟩ := System.step_claim hstep
  obtain ⟨hidle, hone, hfree⟩ := hok
  refine ⟨h.cards, ?_, ?_⟩
  · simpa [hidle] using hone
  · intro tick htick
    simp only [hidle, List.nil_append, List.mem_map] at htick
    obtain ⟨run, hrun, rfl⟩ := htick
    refine ⟨rfl, hfree run hrun, ?_⟩
    obtain ⟨hlive, -, -, hundelivered, -⟩ := hclaim run hrun
    rcases Nat.eq_zero_or_pos (creates run s.world.log) with hzero | hpos
    · exact .inl hzero
    · right
      refine (h.cards.kept run hpos).resolve_left ?_
      exact fun hret => hret.elim hundelivered hlive

theorem oneCard_deliver {s t : System} {i : Nat} {env : TickEnv}
    (hok : OneAtATime s (.deliver i env)) (hstep : s.step (.deliver i env) = some t)
    (hbase : Base s) (h : OneCard s) : OneCard t := by
  obtain ⟨row, page, hget, rfl⟩ := System.step_deliver hstep
  have hmem : (⟨row, some page⟩ : Tick) ∈ s.ticks := List.mem_of_getElem? hget
  have hcur : Current row s.world := h.current _ hmem
  have hruns := (handle_effect env row page s.world).runs
  have hcards : CardLog (handleInflightConversation env row page s.world) := by
    rcases handle_clean hok hcur.agentRunID.symm page with heq | hv | ⟨id, hv⟩
    · rw [heq]
      exact h.cards
    · exact h.cards.delivered hcur hbase.working.trimmed hruns hv
    · exact h.cards.progressed hcur hbase.working.trimmed hruns hv
  -- the only tick is gone
  have hlast : s.ticks.eraseIdx i = [] := by
    have hlt := (List.getElem?_eq_some_iff.mp hget).1
    have hsingle := h.single
    apply List.eq_nil_of_length_eq_zero
    rw [List.length_eraseIdx_of_lt hlt]
    omega
  refine ⟨hcards, ?_, ?_⟩
  · simp [hlast]
  · simp [hlast]

theorem oneCard_step {s t : System} {a : Label} (hok : OneAtATime s a) (hstep : s.step a = some t)
    (hbase : Base s) (h : OneCard s) : OneCard t := by
  cases a with
  | claim now runs => exact oneCard_claim hok hstep h
  | deliver i env => exact oneCard_deliver hok hstep hbase h
  | record run ev =>
    obtain ⟨-, rfl⟩ := System.step_record hstep
    exact h.same_ticks rfl rfl (fun _ hret => hret) rfl
  | start run agentName =>
    obtain ⟨hqueued, rfl⟩ := System.step_start hstep
    refine h.same_ticks rfl rfl (retired_setRun ?_) rfl
    intro hcancelled
    rw [hqueued] at hcancelled
    cases hcancelled
  | finish run status output =>
    obtain ⟨hopen, -, -, rfl⟩ := System.step_finish hstep
    refine h.same_ticks rfl rfl (retired_setRun ?_) rfl
    intro hcancelled
    rw [hcancelled] at hopen
    cases hopen
  | cancel run =>
    obtain ⟨-, rfl⟩ := System.step_cancel hstep
    exact h.same_ticks rfl rfl (retired_setRun fun _ => rfl) rfl
  | list i =>
    obtain ⟨row, hget, rfl⟩ := System.step_list hstep
    refine h.of_eq rfl rfl (fun _ hret => hret) ?_ ?_
    · simp
    · intro tick htick
      rcases List.mem_or_eq_of_mem_set htick with htick | rfl
      · exact ⟨tick, htick, rfl⟩
      · exact ⟨_, List.mem_of_getElem? hget, rfl⟩
  | drop i =>
    obtain rfl := System.step_drop hstep
    refine h.of_eq rfl rfl (fun _ hret => hret) ?_ ?_
    · exact List.length_eraseIdx_le s.ticks i
    · exact fun tick htick => ⟨tick, List.mem_of_mem_eraseIdx htick, rfl⟩
  | clearPermission | clearChoice =>
    cases hstep
    exact h.same_ticks rfl rfl (fun _ hret => hret) rfl

theorem OneCard.init (conv : ConversationInfo) : OneCard { conv := conv } := by
  refine ⟨⟨?_, ?_, ?_, ?_⟩, ?_, ?_⟩
  · intro run
    exact Nat.zero_le 1
  · intro run hrun
    cases hrun
  · intro run hhas
    exact absurd hhas (WorkingInflightSlot.not_has_blank run "")
  · intro run msgID ok hmem
    cases hmem
  · exact Nat.zero_le 1
  · intro tick htick
    cases htick

/-- One worker that claims its runs one by one, each while no other live run owns the slot, sends
one card per run and patches it from then on. -/
theorem one_card_per_run (conv : ConversationInfo) (trace : List Label) (s : System)
    (hok : StepsMeet System.step OneAtATime { conv := conv } trace)
    (hreach : System.Reaches conv trace s) (run : RunID) :
    creates run s.world.log ≤ 1 ∧ ∀ msgID ok, .edit run msgID ok ∈ s.world.log →
      ∃ id, .create run (some id) ∈ s.world.log ∧ msgID = id.text := by
  have hinv : Base s ∧ OneCard s := by
    refine runTrace_invariant (I := fun s => Base s ∧ OneCard s) ?_ hok hreach
      ⟨Base.init conv, OneCard.init conv⟩
    rintro s a t hok hstep ⟨hbase, hcard⟩
    exact ⟨System.base_step hstep hbase, oneCard_step hok hstep hbase hcard⟩
  exact ⟨hinv.2.cards.once run, hinv.2.cards.edits run⟩

def runB : RunID := ⟨"run-b", by decide, by decide⟩

def thinkingEvent : AgentRunEvent := bareEvent 2 .messageThinking completedEvent.sequence_pos
  completedEvent.sequence_exact

/-- One worker, nothing fails. The agents take the slot from each other, and the first one sends a
second card when its turn comes again. -/
def takeoverTrace : List Label :=
  [.record runA startedEvent, .start runA "agent", .record runB startedEvent, .start runB "other",
    .claim Time.zero [runA], .list 0, .deliver 0 okEnv,
    .claim Time.zero [runB], .list 0, .deliver 0 okEnv,
    .record runA thinkingEvent, .claim Time.zero [runA], .list 0, .deliver 0 okEnv]

def takeoverCheck (s : System) : Bool :=
  s.world.log.all (fun a => !a.failed) && creates runA s.world.log == 2

theorem two_cards_for_one_run :
    ∃ s, System.Reaches {} takeoverTrace s ∧ (∀ a ∈ s.world.log, a.failed = false) ∧
      creates runA s.world.log = 2 := by
  have hrun : (runTrace System.step {} takeoverTrace).map takeoverCheck = some true := by decide
  obtain ⟨s, hreach, hcheck⟩ := exists_of_runTrace_map hrun
  simp only [takeoverCheck, Bool.and_eq_true, List.all_eq_true, Bool.not_eq_true',
    beq_iff_eq] at hcheck
  exact ⟨s, hreach, hcheck.1, hcheck.2⟩

def successiveTrace : List Label :=
  [.record runA startedEvent, .start runA "agent", .claim Time.zero [runA], .list 0,
    .deliver 0 okEnv, .record runA completedEvent, .finish runA .completed "out-a",
    .claim Time.zero [runA], .list 0, .deliver 0 okEnv,
    .record runB startedEvent, .start runB "other", .claim Time.zero [runB], .list 0,
    .deliver 0 okEnv]

theorem one_card_per_run_successive :
    ∃ s, System.Reaches {} successiveTrace s ∧ creates runA s.world.log ≤ 1 ∧
      .edit runA msgA.text true ∈ s.world.log ∧ creates runB s.world.log ≤ 1 := by
  have hrun : (runTrace System.step {} successiveTrace).map
      (fun s => decide (.edit runA msgA.text true ∈ s.world.log)) = some true := by decide
  obtain ⟨s, hreach, hedit⟩ := exists_of_runTrace_map hrun
  have hok : StepsMeet System.step OneAtATime {} successiveTrace := stepsMeet_of_check (by decide)
  exact ⟨s, hreach, (one_card_per_run {} successiveTrace s hok hreach runA).1, by simpa using hedit,
    (one_card_per_run {} successiveTrace s hok hreach runB).1⟩

end Parsar.Inflight
