import Parsar.Dispatch.Release

namespace Parsar.Dispatch

namespace Preparation

/-- The preparation stays the one it is. What it has let go of is gone, and the router forgets only
what has been let go of. -/
structure Frame (p p' : Preparation) : Prop where
  requestID : p'.requestID = p.requestID
  workspaceReadOnly : p'.workspaceReadOnly = p.workspaceReadOnly
  owns : p'.owns → p.owns
  unlisted : (p.listed = false → p.owns = false) → p'.listed = false → p'.owns = false

variable {p p' p'' : Preparation} {h h' : Handoff}

namespace Frame

theorem refl (p : Preparation) : p.Frame p := ⟨rfl, rfl, id, id⟩

theorem trans (h₁ : p.Frame p') (h₂ : p'.Frame p'') : p.Frame p'' :=
  ⟨h₂.requestID.trans h₁.requestID, h₂.workspaceReadOnly.trans h₁.workspaceReadOnly,
    h₁.owns ∘ h₂.owns, h₂.unlisted ∘ h₁.unlisted⟩

theorem after (h₂ : p'.Frame p'') (h₁ : p.Frame p') : p.Frame p'' := h₁.trans h₂

theorem of_eq (heq : (p'.requestID, p'.workspaceReadOnly, p'.owns, p'.listed) =
    (p.requestID, p.workspaceReadOnly, p.owns, p.listed)) : p.Frame p' := by
  simp only [Prod.mk.injEq] at heq
  obtain ⟨hrequest, hreadOnly, howns, hlisted⟩ := heq
  refine ⟨hrequest, hreadOnly, by simp [howns], ?_⟩
  rw [howns, hlisted]
  exact id

theorem stopTimer : p.Frame p.stopTimer := .of_eq rfl

theorem claim (abort : Bool) (failure : String) (retry : Bool) :
    p.Frame (p.claim h abort failure retry) := .of_eq rfl

theorem moveFrom (states : List PreparationPhase) (s : PreparationPhase) (c : PreparationError) :
    p.Frame (p.moveFrom states s c) := by
  unfold Preparation.moveFrom
  split <;> exact .of_eq rfl

theorem releaseActive (s : PreparationPhase) (c : PreparationError) (publishes retry : Bool) :
    p.Frame (p.releaseActive h s c publishes retry) := by
  unfold Preparation.releaseActive
  split
  · exact .refl p
  · simp only
    split <;> split <;> exact .of_eq rfl

theorem releaseIdle (s : PreparationPhase) (c : PreparationError) (publishes : Bool) :
    p.Frame (p.releaseIdle s c publishes) := by
  have hend : p.Frame (p.endIdle s c) := by
    unfold endIdle
    split <;> exact .of_eq rfl
  have hclose : (p.endIdle s c).Frame ((p.endIdle s c).closeIdle s) := by
    unfold closeIdle confirmRelease
    split
    · split <;> exact .of_eq rfl
    · exact .refl _
  unfold Preparation.releaseIdle
  simp only
  split
  · exact (hend.trans hclose).trans (.of_eq rfl)
  · exact hend.trans hclose

theorem releasePreparation (closed : Bool) (s : PreparationPhase) (c : PreparationError)
    (publishes retry : Bool) : p.Frame (p.releasePreparation closed s c publishes retry) := by
  unfold Preparation.releasePreparation
  split
  · exact .refl p
  · split
    · exact .releaseActive s c publishes retry
    · exact .releaseIdle s c publishes

theorem closedResource (err : Bool) : p.Frame (p.closedResource err) := by
  have hafter : p.Frame (p.afterClose err) := by
    refine ⟨rfl, rfl, fun howns => (Bool.and_eq_true_iff.mp howns).1, ?_⟩
    intro hgone hlisted
    have howns := hgone hlisted
    simp [afterClose, howns]
  unfold Preparation.closedResource
  split
  · simp only
    split <;> exact hafter.trans (.of_eq rfl)
  · exact hafter

theorem closePending : p.Frame p.closePending := by
  have hfailed : p.Frame ({ p.stopTimer with cancelled := true }.moveFrom
      [.preparing, .ready, .starting] .failed .connectionClosed) :=
    .after (.moveFrom _ _ _) (.of_eq rfl)
  unfold Preparation.closePending
  split
  · exact .refl p
  · split
    · exact .of_eq rfl
    · simp only
      split
      · exact hfailed
      · exact hfailed.trans (.of_eq rfl)

theorem stepTask {closed : Bool} {i : Nat} {ok : Bool} (hs : p.stepTask closed i ok = some p') :
    p.Frame p' := by
  have hrelease (s : PreparationPhase) (c : PreparationError) (publishes retry : Bool) :
      p.Frame ((p.dropTask i).releasePreparation closed s c publishes retry) :=
    .after (.releasePreparation closed s c publishes retry) (.of_eq rfl)
  unfold Preparation.stepTask at hs
  split at hs
  · cases hs
    exact hrelease _ _ _ _
  · cases hs
    exact hrelease _ _ _ _
  · split at hs <;> cases hs <;> exact .of_eq rfl
  · split at hs <;> cases hs <;> exact .of_eq rfl
  · cases hs
    exact hrelease _ _ _ _
  · cases hs

theorem stepCloser {i : Nat} {ok : Bool} (hs : p.stepCloser i ok = some p') : p.Frame p' := by
  unfold Preparation.stepCloser at hs
  split at hs <;> cases hs
  · exact .of_eq rfl
  · exact .after (.closedResource _) (.of_eq rfl)

theorem stepPreparer {closed : Bool} {a : Answer} (hs : p.stepPreparer closed a = some p') :
    p.Frame p' := by
  unfold Preparation.stepPreparer at hs
  split at hs <;> cases hs
  case h_4 prepared cancellable err _ =>
    unfold decidePrepared
    simp only
    split
    · exact .of_eq rfl
    · have hkept : p.Frame { p with
          busy := false, prepared := prepared, cancellable := cancellable } := .of_eq rfl
      exact (hkept.trans (.moveFrom [.preparing] .failed .preparationFailed)).trans (.of_eq rfl)
  case h_2 | h_9 => exact (Frame.releasePreparation closed _ _ _ _).trans (.of_eq rfl)
  case h_6 => exact (Frame.closedResource _).trans (.of_eq rfl)
  all_goals exact .of_eq rfl

theorem handleExecutionStart (runID : String) (known free : Bool) :
    p.Frame (p.handleExecutionStart runID known free).1 := by
  rcases handleExecutionStart_cases p runID known free with hsame | hpublish | hexpire | hstart
  · rw [hsame]
    exact .refl p
  · rw [hpublish]
    exact .of_eq rfl
  · rw [hexpire]
    exact .of_eq rfl
  · rw [hstart.2.2]
    exact .of_eq rfl

theorem returnedStart (session err : Bool) : p.Frame (p.returnedStart h session err) := by
  unfold Preparation.returnedStart
  split
  · exact .of_eq rfl
  · have hmoved : p.Frame (p.stopTimer.moveFrom [.starting] .failed .startFailed) :=
      .after (.moveFrom _ _ _) .stopTimer
    exact hmoved.trans (.claim _ _ _)

theorem publishedStart (started session delivered : Bool) :
    p.Frame (p.publishedStart h started session delivered) := by
  have hexpire (g : Handoff) : p.Frame (p.expireStart g started) := by
    unfold expireStart
    split
    · exact (Frame.moveFrom [.started] .expired .none).trans (.claim _ _ _)
    · exact .of_eq rfl
  have habort (q : Preparation) (g : Handoff) : q.Frame (q.abortStart g started) := by
    unfold abortStart
    split
    · exact .moveFrom _ _ _
    · exact .refl q
  have hsettle (q : Preparation) (g : Handoff) :
      q.Frame (q.settleStart g started session delivered) := by
    unfold settleStart
    split
    · split
      · exact (Frame.moveFrom [.started] .failed .statusDeliveryFailed).trans (.of_eq rfl)
      · exact .of_eq rfl
    · split
      · exact ⟨rfl, rfl, by simp [transferred], fun _ _ => rfl⟩
      · exact .of_eq rfl
  unfold Preparation.publishedStart
  simp only
  split
  · exact ((hexpire _).trans (habort _ _)).trans (hsettle _ _)
  · exact hexpire _

theorem stepStart {a : Answer} (hs : p.stepStart h a = some p') : p.Frame p' := by
  unfold Preparation.stepStart at hs
  split at hs
  case h_1 | h_8 =>
    split at hs <;> cases hs
    exact .of_eq rfl
  case h_14 => cases hs
  all_goals cases hs
  case h_3.refl =>
    exact ((Frame.moveFrom [.starting] .failed .statusDeliveryFailed).trans .stopTimer).trans
      (.claim _ _ _)
  case h_9.refl => exact .returnedStart _ _
  case h_12.refl => exact .publishedStart _ _ _
  all_goals exact .of_eq rfl

theorem stepPump {closed : Bool} {a : Answer} (hs : p.stepPump closed h a = some p') :
    p.Frame p' := by
  obtain ⟨-, g, rfl | ⟨f, rfl⟩ | ⟨abort, rfl⟩, -⟩ := stepPump_cases hs <;> exact .of_eq rfl

theorem runAttempt {closed : Bool} {i : Nat} {ok : Bool}
    (hs : p.runAttempt closed i ok = some p') : p.Frame p' := by
  simp only [Preparation.runAttempt, Option.bind_eq_bind, Option.bind_eq_some_iff] at hs
  obtain ⟨h, -, r, -, a, -, hs⟩ := hs
  unfold stepAttempt at hs
  simp only at hs
  split at hs
  case h_1 | h_2 | h_5 =>
    split at hs <;> cases hs
    exact .of_eq rfl
  case h_4 =>
    cases hs
    unfold endedCancel
    split <;> exact .of_eq rfl
  case h_10 =>
    cases hs
    exact ⟨rfl, rfl, by simp [settledRelease], fun _ _ => rfl⟩
  case h_11 => cases hs
  all_goals
    cases hs
    exact .of_eq rfl

theorem step {closed : Bool} {l : Label} (hs : p.step closed l = some p') : p.Frame p' := by
  cases effect hs with
  | preparer hs => exact .stepPreparer hs
  | closer hs => exact .stepCloser hs
  | task hs => exact .stepTask hs
  | closePending => exact .closePending
  | start => exact .handleExecutionStart _ _ _
  | prune howns => exact ⟨rfl, rfl, id, fun _ _ => howns⟩
  | starter hh hs => exact .stepStart hs
  | pump hh hs => exact .stepPump hs
  | attempt hs => exact .runAttempt hs
  | passDeadline | fireTimer | prepare | release | cancelRun | handoff => exact .of_eq rfl

end Frame

end Preparation

def PreparerPhase.undecided : PreparerPhase → Bool
  | sendingPreparing | undelivered | preparing | deciding _ _ _ => true
  | _ => false

/-- `prepareExecution` closes the resource itself. -/
def PreparerPhase.closes : PreparerPhase → Bool
  | closing | closed _ => true
  | _ => false

namespace Preparation

variable {p p' : Preparation} {h : Handoff}

/-- Until a start is admitted the preparation owns its resource and nothing is about to close it. What
the router has forgotten it does not own. -/
structure Tenure (p : Preparation) : Prop where
  undecided : p.preparer.undecided → p.status.state ≠ .ready
  held : p.status.state.rank < 2 → p.owns ∧ p.closers = [] ∧ p.preparer.closes = false
  unlisted : p.listed = false → p.owns = false

theorem Tenure.new (requestID handle : String) (readOnly : Bool) (expiresAt : Int) :
    (Preparation.new requestID handle readOnly expiresAt).Tenure := by
  constructor <;> simp [Preparation.new, PreparerPhase.closes]

theorem Moves.rank_le (hm : p.Moves p') (hp : p.Lawful) :
    p.status.state.rank ≤ p'.status.state.rank := by
  have hmem := hm.grows.subset hp.status_mem
  rcases (hm.lawful hp).before_status hmem with heq | hbefore
  · rw [heq]
  · exact hbefore.rank

theorem releasePreparation_rank (closed : Bool) {s : PreparationPhase} (hs : s.isTerminal)
    (c : PreparationError) (publishes retry : Bool) (hhandoff : p.handoff = none)
    (hrank : p.status.state.rank < 2) :
    p.releasePreparation closed s c publishes retry = p ∨
      2 ≤ (p.releasePreparation closed s c publishes retry).status.state.rank := by
  unfold Preparation.releasePreparation
  split
  · exact .inl rfl
  · right
    have hactive : p.activeHandoff = none := by simp [activeHandoff, hhandoff]
    have hstate : p.status.state ∈ [PreparationPhase.preparing, .ready, .starting] := by
      revert hrank
      cases p.status.state <;> decide
    have hterminal : s.rank = 4 := PreparationPhase.rank_eq_four.mp hs
    have hend : (p.endIdle s c).status.state = s := by
      unfold endIdle
      rw [if_pos hstate]
      rfl
    have hclose : ((p.endIdle s c).closeIdle s).status.state = s := by
      unfold closeIdle confirmRelease
      split
      · split
        · rfl
        · exact hend
      · exact hend
    have hreleased : (p.releaseIdle s c publishes).status.state = s := by
      unfold releaseIdle
      simp only
      split <;> exact hclose
    simp only [hactive]
    rw [hreleased]
    omega

namespace Tenure

theorem stepPreparer {closed : Bool} {a : Answer} (ht : p.Tenure) (hp : p.Lawful)
    (hs : p.stepPreparer closed a = some p') (hrank : p.status.state.rank < 2)
    (hrank' : p'.status.state.rank < 2) :
    (p'.preparer.undecided → p'.status.state ≠ .ready) ∧
      p'.owns ∧ p'.closers = [] ∧ p'.preparer.closes = false := by
  obtain ⟨howns, hclosers, hcloses⟩ := ht.held hrank
  have hundecided := ht.undecided
  have hreleased := releasePreparation_rank closed (s := .failed) rfl .statusDeliveryFailed false
    false (hp.handoff_eq_none hrank) hrank
  unfold Preparation.stepPreparer at hs
  split at hs
  case h_1 hphase =>
    cases hs
    rw [hphase] at hundecided
    refine ⟨fun _ => hundecided rfl, howns, hclosers, ?_⟩
    simp only [setPreparer]
    split <;> rfl
  case h_2 hphase =>
    cases hs
    rw [hphase] at hundecided
    rcases hreleased with hsame | hpast
    · unfold releaseUndelivered
      rw [hsame]
      exact ⟨fun _ => hundecided rfl, howns, hclosers, rfl⟩
    · exact absurd hrank' (Nat.not_lt.mpr hpast)
  case h_3 hphase =>
    cases hs
    rw [hphase] at hundecided
    exact ⟨fun _ => hundecided rfl, howns, hclosers, rfl⟩
  case h_4 prepared cancellable err hphase =>
    cases hs
    rw [hphase] at hundecided
    unfold decidePrepared at hrank' ⊢
    simp only at hrank' ⊢
    split
    · exact ⟨by simp [PreparerPhase.undecided], howns, hclosers, rfl⟩
    · rename_i hnot
      rw [if_neg hnot] at hrank'
      -- a preparation that is not ready by now fails here
      have hstate : p.status.state = .preparing := by
        have hready := hundecided rfl
        revert hrank hready
        cases p.status.state <;> decide
      simp [moveFrom, hstate, move, store, stopTimer, PreparationPhase.rank] at hrank'
  case h_5 hphase | h_6 hphase => simp [hphase, PreparerPhase.closes] at hcloses
  case h_7 hphase =>
    cases hs
    exact ⟨by simp [setPreparer, PreparerPhase.undecided], howns, hclosers, rfl⟩
  case h_8 status ready hphase =>
    cases hs
    refine ⟨?_, howns, hclosers, ?_⟩
    · simp only [setPreparer]
      split <;> simp [PreparerPhase.undecided]
    · simp only [setPreparer]
      split <;> rfl
  case h_9 hphase =>
    cases hs
    rcases hreleased with hsame | hpast
    · unfold releaseUndelivered
      rw [hsame]
      exact ⟨by simp [setPreparer, PreparerPhase.undecided], howns, hclosers, rfl⟩
    · exact absurd hrank' (Nat.not_lt.mpr hpast)
  case h_10 => cases hs

theorem step_early {closed : Bool} {l : Label} (ht : p.Tenure) (hp : p.Lawful)
    (hs : p.step closed l = some p') (hrank : p.status.state.rank < 2)
    (hrank' : p'.status.state.rank < 2) :
    (p'.owns = p.owns ∧ p'.closers = p.closers ∧ p'.preparer = p.preparer ∧
      p'.status = p.status) ∨ ∃ a, p.stepPreparer closed a = some p' := by
  have hnone := hp.handoff_eq_none hrank
  have hclosers := (ht.held hrank).2.1
  have hreleased (i : Nat) (s : PreparationPhase) (hterminal : s.isTerminal) (c : PreparationError)
      (publishes retry : Bool)
      (hp' : p' = (p.dropTask i).releasePreparation closed s c publishes retry) :
      p'.owns = p.owns ∧ p'.closers = p.closers ∧ p'.preparer = p.preparer ∧
        p'.status = p.status := by
    rcases releasePreparation_rank (p := p.dropTask i) closed hterminal c publishes retry hnone
      hrank with hsame | hpast
    · rw [hp', hsame]
      exact ⟨rfl, rfl, rfl, rfl⟩
    · rw [hp'] at hrank'
      exact absurd hrank' (Nat.not_lt.mpr hpast)
  cases l with
  | preparer a => exact .inr ⟨a, hs⟩
  | closer i ok => simp [Preparation.step, Preparation.stepCloser, hclosers] at hs
  | task i ok =>
    left
    simp only [Preparation.step, Preparation.stepTask] at hs
    split at hs
    · exact hreleased i .expired rfl _ _ _ (Option.some.inj hs).symm
    · exact hreleased i .released rfl _ _ _ (Option.some.inj hs).symm
    · split at hs <;> cases hs <;> exact ⟨rfl, rfl, rfl, rfl⟩
    · split at hs <;> cases hs <;> exact ⟨rfl, rfl, rfl, rfl⟩
    · exact hreleased i .failed rfl _ _ _ (Option.some.inj hs).symm
    · cases hs
  | passDeadline =>
    cases hs
    exact .inl ⟨rfl, rfl, rfl, rfl⟩
  | start runID known free =>
    left
    simp only [Preparation.step] at hs
    split at hs <;> cases hs
    rcases handleExecutionStart_cases p runID known free with hsame | hpublish | hexpire | hstart
    · simp [hsame]
    · rw [hpublish]
      exact ⟨rfl, rfl, rfl, rfl⟩
    · rw [hexpire]
      exact ⟨rfl, rfl, rfl, rfl⟩
    · rw [hstart.2.2] at hrank'
      simp [startExecution, store, PreparationPhase.rank] at hrank'
  | closePending =>
    left
    cases hs
    unfold Preparation.closePending at hrank' ⊢
    split
    · exact ⟨rfl, rfl, rfl, rfl⟩
    · rename_i hlisted
      rw [if_neg hlisted] at hrank'
      split
      · exact ⟨rfl, rfl, rfl, rfl⟩
      · rename_i hkept
        rw [if_neg hkept] at hrank'
        have hstate : p.status.state ∈ [PreparationPhase.preparing, .ready, .starting] := by
          revert hrank
          cases p.status.state <;> decide
        simp only [moveFrom, stopTimer, hstate, if_true] at hrank'
        split at hrank' <;> simp [move, store, startClose, PreparationPhase.rank] at hrank'
  | cancelRun => simp [Preparation.step, Preparation.cancelRun, hnone] at hs
  | starter | pump => simp [Preparation.step, hnone] at hs
  | attempt i ok => simp [Preparation.step, Preparation.runAttempt, hnone] at hs
  | write _ | closeOut | admitOperation | finishOperation =>
    simp [Preparation.step, Preparation.withHandoff, hnone] at hs
  | fireTimer | prepare | release | prune =>
    left
    simp only [Preparation.step] at hs
    split at hs <;> cases hs
    exact ⟨rfl, rfl, rfl, rfl⟩

theorem step {closed : Bool} {l : Label} (ht : p.Tenure) (hp : p.Lawful)
    (hs : p.step closed l = some p') : p'.Tenure := by
  have hle := (Moves.step hs).rank_le hp
  have hearly : p'.status.state.rank < 2 → (p'.preparer.undecided → p'.status.state ≠ .ready) ∧
      p'.owns ∧ p'.closers = [] ∧ p'.preparer.closes = false := by
    intro hrank'
    have hrank : p.status.state.rank < 2 := by omega
    rcases ht.step_early hp hs hrank hrank' with ⟨howns, hclosers, hpreparer, hstatus⟩ | ⟨a, ha⟩
    · rw [howns, hclosers, hpreparer, hstatus]
      exact ⟨ht.undecided, ht.held hrank⟩
    · exact ht.stepPreparer hp ha hrank hrank'
  refine ⟨?_, fun hrank' => (hearly hrank').2, (Frame.step hs).unlisted ht.unlisted⟩
  intro hundecided hready
  exact (hearly (by simp [hready, PreparationPhase.rank])).1 hundecided hready

end Tenure

end Preparation

end Parsar.Dispatch
