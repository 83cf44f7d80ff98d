import Parsar.Dispatch.Status

namespace Parsar.Dispatch

namespace Preparation

variable {p p' p'' : Preparation} {h : Handoff} {closed : Bool}

def hasStarted (p : Preparation) : Bool :=
  p.status.state = .started || p.stored.any (·.state = .started)

/-- A step that sends no frame and does not start the run: it leaves the handoff alone, or claims its
release. -/
structure Calm (p p' : Preparation) : Prop where
  frames : p'.log = p.log ∨ ∃ s, p'.log = p.log ++ [.status s]
  started : p'.hasStarted → p.hasStarted
  handoff : p'.handoff = p.handoff ∨
    ∃ h abort retry, p.handoff = some h ∧ p'.handoff = some (h.claim abort "" retry).1

namespace Calm

theorem of_same (hstatus : p'.status = p.status) (hstored : p'.stored = p.stored)
    (hlog : p'.log = p.log) (hhandoff : p'.handoff = p.handoff) : p.Calm p' :=
  ⟨.inl hlog, by simp [hasStarted, hstatus, hstored], .inl hhandoff⟩

theorem refl (p : Preparation) : p.Calm p := .of_same rfl rfl rfl rfl

theorem after (h₂ : p'.Calm p'') (hlog : p'.log = p.log) (hhandoff : p'.handoff = p.handoff)
    (hstarted : p'.hasStarted → p.hasStarted) : p.Calm p'' :=
  ⟨hlog ▸ h₂.frames, hstarted ∘ h₂.started, hhandoff ▸ h₂.handoff⟩

end Calm

variable {s : PreparationPhase}

theorem hasStarted_move (hs : s ≠ .started) (c : PreparationError) :
    (p.move s c).hasStarted → p.hasStarted := by
  simp only [hasStarted, move, store, List.any_append, List.any_cons, List.any_nil, hs, decide_false,
    Bool.false_or, Bool.or_false, Bool.or_eq_true]
  exact .inr

theorem hasStarted_moveFrom (hs : s ≠ .started) (states : List PreparationPhase)
    (c : PreparationError) : (p.moveFrom states s c).hasStarted → p.hasStarted := by
  unfold moveFrom
  split
  · exact hasStarted_move hs c
  · exact id

@[simp] theorem moveFrom_log (states : List PreparationPhase) (s : PreparationPhase)
    (c : PreparationError) : (p.moveFrom states s c).log = p.log := by
  unfold moveFrom
  split <;> rfl

theorem Calm.releaseActive (hh : p.handoff = some h) (hs : s ≠ .started) (c : PreparationError)
    (publishes retry : Bool) : p.Calm (p.releaseActive h s c publishes retry) := by
  unfold Preparation.releaseActive
  split
  · exact .refl p
  · simp only
    have hclaim : ∀ q : Preparation, q.log = p.log → (q.hasStarted → p.hasStarted) →
        p.Calm (q.claim h true "" retry) :=
      fun q hlog hstarted => ⟨.inl hlog, hstarted, .inr ⟨h, true, retry, hh, rfl⟩⟩
    have hmoved : p.Calm (Preparation.claim (if p.status.state.isTerminal then p
        else (p.move s c).stopTimer) h true "" retry) := by
      split
      · exact hclaim p rfl id
      · exact hclaim _ rfl (hasStarted_move hs c)
    split
    · exact ⟨hmoved.frames, hmoved.started, hmoved.handoff⟩
    · exact hmoved

theorem Calm.releaseIdle (hs : s ≠ .started) (c : PreparationError) (publishes : Bool) :
    p.Calm (p.releaseIdle s c publishes) := by
  have hend : (p.endIdle s c).log = p.log ∧ ((p.endIdle s c).hasStarted → p.hasStarted) := by
    unfold endIdle
    split
    · exact ⟨rfl, hasStarted_move hs c⟩
    · exact ⟨rfl, id⟩
  have hconfirm (q : Preparation) : (q.confirmRelease s).log = q.log ∧
      ((q.confirmRelease s).hasStarted → q.hasStarted) := by
    unfold confirmRelease
    split
    · exact ⟨rfl, hasStarted_move hs .none⟩
    · exact ⟨rfl, id⟩
  have hclose : ((p.endIdle s c).closeIdle s).log = p.log ∧
      (((p.endIdle s c).closeIdle s).hasStarted → p.hasStarted) := by
    unfold closeIdle
    split
    · exact ⟨(hconfirm _).1.trans hend.1, hend.2 ∘ (hconfirm _).2⟩
    · exact hend
  refine ⟨.inl ?_, ?_, .inl (releaseIdle_handoff ..)⟩
  · unfold Preparation.releaseIdle
    simp only
    split <;> exact hclose.1
  · unfold Preparation.releaseIdle
    simp only
    split <;> exact hclose.2

theorem Calm.releasePreparation (closed : Bool) (hs : s ≠ .started) (c : PreparationError)
    (publishes retry : Bool) : p.Calm (p.releasePreparation closed s c publishes retry) := by
  unfold Preparation.releasePreparation
  split
  · exact .refl p
  · split
    · rename_i h hh
      exact .releaseActive (activeHandoff_eq hh).1 hs c publishes retry
    · exact .releaseIdle hs c publishes

theorem Calm.closedResource (err : Bool) : p.Calm (p.closedResource err) := by
  unfold Preparation.closedResource
  split
  · cases err with
    | true => exact ⟨.inl rfl, hasStarted_move (p := p) (by simp) .cleanupUnconfirmed, .inl rfl⟩
    | false =>
      -- the state stays, under a new revision
      refine ⟨.inl rfl, ?_, .inl rfl⟩
      simp only [hasStarted, publish, addTask, move, store, afterClose, List.any_append,
        List.any_cons, List.any_nil, Bool.false_eq_true, if_false, Bool.or_false, Bool.or_eq_true]
      tauto
  · exact .of_same rfl rfl rfl rfl

theorem Calm.closePending : p.Calm p.closePending := by
  refine ⟨.inl ?_, ?_, .inl closePending_handoff⟩
  · unfold Preparation.closePending
    split
    · rfl
    · split
      · rfl
      · simp only
        split <;> exact moveFrom_log ..
  · unfold Preparation.closePending
    split
    · exact id
    · split
      · exact id
      · simp only
        split <;> exact hasStarted_moveFrom (p := { p.stopTimer with cancelled := true }) (by simp) _ _

theorem Calm.stepTask {i : Nat} {ok : Bool} (hs : p.stepTask closed i ok = some p') :
    p.Calm p' := by
  unfold Preparation.stepTask at hs
  split at hs
  · cases hs
    exact (Calm.releasePreparation closed (by simp) _ _ _).after (p := p) rfl rfl id
  · cases hs
    exact (Calm.releasePreparation closed (by simp) _ _ _).after (p := p) rfl rfl id
  · split at hs <;> cases hs <;> exact .of_same rfl rfl rfl rfl
  · rename_i status _
    split at hs
    · cases hs
      exact .of_same rfl rfl rfl rfl
    · cases hs
      refine ⟨?_, id, .inl rfl⟩
      cases ok with
      | true => exact .inr ⟨status, rfl⟩
      | false => exact .inl rfl
  · cases hs
    exact (Calm.releasePreparation closed (by simp) _ _ _).after (p := p) rfl rfl id
  · cases hs

theorem Calm.decidePrepared (prepared cancellable err : Bool) :
    p.Calm (p.decidePrepared closed prepared cancellable err) := by
  unfold Preparation.decidePrepared
  simp only
  split
  · exact ⟨.inl rfl, hasStarted_move (p := p) (by simp) p.status.errorCode, .inl rfl⟩
  · refine ⟨.inl (moveFrom_log ..), ?_, .inl (moveFrom_handoff ..)⟩
    exact hasStarted_moveFrom (p := { p with
      busy := false, prepared := prepared, cancellable := cancellable }) (by simp) _ _

theorem Calm.setPreparer (hcalm : p.Calm p') (phase : PreparerPhase) :
    p.Calm (p'.setPreparer phase) :=
  ⟨hcalm.frames, hcalm.started, hcalm.handoff⟩

theorem Calm.sent_status (ok : Bool) (s : Status) : p.Calm (p.sent ok (.status s)) := by
  refine ⟨?_, id, .inl rfl⟩
  cases ok with
  | true => exact .inr ⟨s, rfl⟩
  | false => exact .inl rfl

theorem Calm.stepPreparer {a : Answer} (hs : p.stepPreparer closed a = some p') : p.Calm p' := by
  unfold Preparation.stepPreparer at hs
  split at hs <;> cases hs
  · exact (Calm.sent_status a.ok _).setPreparer _
  · exact (Calm.releasePreparation closed (by simp) _ _ _).setPreparer _
  · exact (Calm.refl p).setPreparer _
  · exact .decidePrepared _ _ _
  · exact (Calm.refl p).setPreparer _
  · exact (Calm.closedResource _).setPreparer _
  · exact (Calm.refl p).setPreparer _
  · exact (Calm.sent_status a.ok _).setPreparer _
  · exact (Calm.releasePreparation closed (by simp) _ _ _).setPreparer _

def Label.concernsRun : Label → Bool
  | start _ _ _ | starter _ | pump _ | attempt _ _ | write _ | closeOut | admitOperation
  | finishOperation => true
  | _ => false

theorem Calm.step {l : Label} (hl : l.concernsRun = false) (hs : p.step closed l = some p') :
    p.Calm p' := by
  cases effect hs with
  | preparer hs => exact .stepPreparer hs
  | closer hs =>
    simp only [Preparation.stepCloser] at hs
    split at hs <;> cases hs
    · exact .of_same rfl rfl rfl rfl
    · exact (Calm.closedResource _).after (p := p) rfl rfl id
  | task hs => exact .stepTask hs
  | cancelRun hh => exact ⟨.inl rfl, id, .inr ⟨_, true, true, hh, rfl⟩⟩
  | closePending => exact .closePending
  | passDeadline | fireTimer | prepare | release | prune => exact .of_same rfl rfl rfl rfl
  | handoff => cases l <;> simp_all [Label.concernsRun, Label.onHandoff]
  | start | starter | pump | attempt => cases hl

theorem handoff_eq_none_of_closed {l : Label} (hs : p.step true l = some p')
    (hnone : p.handoff = none) : p'.handoff = none := by
  cases hl : l.concernsRun with
  | false =>
    rcases (Calm.step hl hs).handoff with hsame | ⟨h, _, _, hh, -⟩
    · exact hsame.trans hnone
    · rw [hnone] at hh
      cases hh
  | true =>
    cases l <;> simp [Label.concernsRun, Preparation.step, runAttempt, withHandoff, hnone] at hl hs

end Preparation

end Parsar.Dispatch
