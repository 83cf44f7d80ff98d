import Mathlib.Data.List.Chain
import Parsar.Framework.Trace
import Parsar.Dispatch.Preparation

namespace Parsar.Dispatch

/-- The steps forward, and the ends that every state may come to. -/
def PreparationPhase.leads : PreparationPhase → PreparationPhase → Bool
  | preparing, ready | ready, starting | starting, started => true
  | a, b => a = b || b.isTerminal

def PreparationPhase.rank : PreparationPhase → Nat
  | preparing => 0
  | ready => 1
  | starting => 2
  | started => 3
  | released | expired | failed => 4

variable {a b : PreparationPhase}

theorem PreparationPhase.rank_le (h : a.leads b) : a.rank ≤ b.rank := by
  revert h
  cases a <;> cases b <;> decide

structure Status.Legal (a b : Status) : Prop where
  handle : b.handle = a.handle
  expiresAt : b.expiresAt = a.expiresAt
  revision : b.revision = a.revision + 1
  state : a.state.leads b.state

/-- One status came before another one of the same preparation. -/
structure Status.Before (a b : Status) : Prop where
  handle : b.handle = a.handle
  expiresAt : b.expiresAt = a.expiresAt
  revision : a.revision < b.revision
  rank : a.state.rank ≤ b.state.rank

theorem Status.Legal.before {a b : Status} (h : a.Legal b) : a.Before b :=
  ⟨h.handle, h.expiresAt, by have := h.revision; omega, PreparationPhase.rank_le h.state⟩

instance : Trans Status.Before Status.Before Status.Before where
  trans h₁ h₂ := ⟨h₂.handle.trans h₁.handle, h₂.expiresAt.trans h₁.expiresAt,
    h₁.revision.trans h₂.revision, h₁.rank.trans h₂.rank⟩

theorem PreparationPhase.leads_terminal (hb : b.isTerminal) :
    a.leads b := by
  revert hb
  cases a <;> cases b <;> decide

theorem PreparationPhase.rank_eq_four : a.isTerminal ↔ a.rank = 4 := by
  cases a <;> decide

theorem PreparationPhase.leads_self (a : PreparationPhase) : a.leads a := by
  cases a <;> decide

def Task.status? : Task → Option Status
  | publish s | send s => some s
  | expire | release | undelivered => none

def PreparerPhase.status? : PreparerPhase → Option Status
  | sendingStatus s _ => some s
  | _ => none

def StartPhase.status? : StartPhase → Option Status
  | opening s | sendingStarting s | closingOut s _ _ | sendingStatus s _ _ => some s
  | _ => none

namespace Handoff

variable {h : Handoff}

@[simp] theorem claim_start (abort : Bool) (failure : String) (retry : Bool) :
    (h.claim abort failure retry).1.start = h.start := by
  unfold claim claimed
  cases h.release <;> simp only <;> split <;> rfl

end Handoff

namespace Preparation

structure Lawful (p : Preparation) : Prop where
  chain : p.stored.IsChain Status.Legal
  first : p.stored.head? = some p.announced
  last : p.stored.getLast? = some p.status
  tasks : ∀ t ∈ p.tasks, ∀ s, t.status? = some s → s ∈ p.stored
  preparer : ∀ s, p.preparer.status? = some s → s ∈ p.stored
  start : ∀ h, p.handoff = some h → ∀ s, h.start.status? = some s → s ∈ p.stored
  log : ∀ s, .status s ∈ p.log → s ∈ p.stored
  handed : p.handoff.isSome → ∃ s ∈ p.stored, s.state = .starting

section

variable {p : Preparation} {h : Handoff}

@[simp] theorem move_handoff (s : PreparationPhase) (c : PreparationError) :
    (p.move s c).handoff = p.handoff := rfl

@[simp] theorem moveFrom_handoff (states : List PreparationPhase) (s : PreparationPhase)
    (c : PreparationError) : (p.moveFrom states s c).handoff = p.handoff := by
  unfold moveFrom
  split <;> rfl

@[simp] theorem publish_handoff (s : Status) : (p.publish s).handoff = p.handoff := rfl

@[simp] theorem addTask_handoff (t : Task) : (p.addTask t).handoff = p.handoff := rfl

@[simp] theorem sent_handoff (ok : Bool) (s : Sent) : (p.sent ok s).handoff = p.handoff := rfl

@[simp] theorem stopTimer_handoff : p.stopTimer.handoff = p.handoff := rfl

@[simp] theorem setPreparer_handoff (phase : PreparerPhase) :
    (p.setPreparer phase).handoff = p.handoff := rfl

@[simp] theorem startClose_handoff : p.startClose.handoff = p.handoff := rfl

@[simp] theorem claim_handoff (abort : Bool) (failure : String) (retry : Bool) :
    (p.claim h abort failure retry).handoff = some (h.claim abort failure retry).1 := rfl

@[simp] theorem closedResource_handoff (err : Bool) :
    (p.closedResource err).handoff = p.handoff := by
  unfold closedResource
  split
  · cases err <;> rfl
  · rfl

@[simp] theorem closePending_handoff : p.closePending.handoff = p.handoff := by
  unfold closePending
  split
  · rfl
  · split
    · rfl
    · simp only
      split <;> simp

@[simp] theorem releaseIdle_handoff (s : PreparationPhase) (c : PreparationError)
    (publishes : Bool) : (p.releaseIdle s c publishes).handoff = p.handoff := by
  have hend : (p.endIdle s c).handoff = p.handoff := by
    unfold endIdle
    split <;> rfl
  have hclose : ((p.endIdle s c).closeIdle s).handoff = p.handoff := by
    unfold closeIdle confirmRelease
    rw [← hend]
    split
    · split <;> rfl
    · rfl
  unfold releaseIdle
  simp only
  split
  · exact hclose
  · exact hclose

theorem activeHandoff_eq (hh : p.activeHandoff = some h) :
    p.handoff = some h ∧ h.registered = true ∧ p.handed = true := by
  unfold activeHandoff at hh
  split at hh
  · rename_i hhanded
    obtain ⟨hsome, hregistered⟩ := Option.filter_eq_some_iff.mp hh
    exact ⟨hsome, hregistered, hhanded⟩
  · cases hh

theorem abortStart_handoff (g : Handoff) (started : Bool) :
    (p.abortStart g started).handoff = p.handoff := by
  unfold abortStart
  split
  · exact moveFrom_handoff ..
  · rfl

end

theorem handleExecutionStart_cases (p : Preparation) (runID : String) (known free : Bool) :
    (p.handleExecutionStart runID known free).1 = p ∨
    (p.handleExecutionStart runID known free).1 = p.publish p.status ∨
    (p.handleExecutionStart runID known free).1 = p.addTask .expire ∨
    (p.status.state = .ready ∧ p.workspaceReadOnly = false ∧
      (p.handleExecutionStart runID known free).1 = p.startExecution runID) := by
  unfold handleExecutionStart
  split
  · exact .inl rfl
  · rename_i hexecutable
    split
    · unfold restart
      split
      · exact .inl rfl
      · split
        · exact .inl rfl
        · exact .inr (.inl rfl)
    · split
      · exact .inl rfl
      · rename_i hstate
        split
        · exact .inr (.inr (.inl rfl))
        · split
          · exact .inl rfl
          · split
            · exact .inl rfl
            · simp only [ne_eq, not_or, not_not] at hstate
              exact .inr (.inr (.inr ⟨hstate.1, by simpa using hexecutable, rfl⟩))

/-- A step that keeps the discipline and takes no stored status back. -/
structure Moves (p p' : Preparation) : Prop where
  lawful : p.Lawful → p'.Lawful
  grows : p.stored <+: p'.stored

variable {p p' p'' : Preparation} {h h' : Handoff}

namespace Lawful

theorem pairwise (hp : p.Lawful) : p.stored.Pairwise Status.Before :=
  (hp.chain.imp fun _ _ => Status.Legal.before).pairwise

theorem status_mem (hp : p.Lawful) : p.status ∈ p.stored := List.mem_of_getLast? hp.last

theorem before_status (hp : p.Lawful) {s : Status} (hs : s ∈ p.stored) :
    s = p.status ∨ s.Before p.status := by
  obtain ⟨earlier, hearlier⟩ := List.getLast?_eq_some_iff.mp hp.last
  have hpairwise := hp.pairwise
  rw [hearlier] at hs hpairwise
  refine (mem_concat hs).symm.imp_right fun hold => ?_
  exact (List.pairwise_append.mp hpairwise).2.2 s hold _ (List.mem_singleton_self _)

theorem past_ready (hp : p.Lawful) (hh : p.handoff.isSome) : 2 ≤ p.status.state.rank := by
  obtain ⟨s, hs, hstarting⟩ := hp.handed hh
  have hrank : s.state.rank = 2 := by simp [hstarting, PreparationPhase.rank]
  rcases hp.before_status hs with rfl | hbefore
  · omega
  · have := hbefore.rank
    omega

theorem handoff_eq_none (hp : p.Lawful) (hrank : p.status.state.rank < 2) : p.handoff = none := by
  by_contra hsome
  have := hp.past_ready (Option.isSome_iff_ne_none.mpr hsome)
  omega

end Lawful

namespace Moves

theorem refl (p : Preparation) : p.Moves p := ⟨id, List.prefix_rfl⟩

theorem trans (h₁ : p.Moves p') (h₂ : p'.Moves p'') : p.Moves p'' :=
  ⟨h₂.lawful ∘ h₁.lawful, h₁.grows.trans h₂.grows⟩

theorem after (h₂ : p'.Moves p'') (h₁ : p.Moves p') : p.Moves p'' := h₁.trans h₂

theorem of_stored (hstored : p'.stored = p.stored) (hstatus : p'.status = p.status)
    (htasks : p.Lawful → ∀ t ∈ p'.tasks, ∀ s, t.status? = some s → s ∈ p.stored)
    (hpreparer : p.Lawful → ∀ s, p'.preparer.status? = some s → s ∈ p.stored)
    (hstart : p.Lawful → ∀ h, p'.handoff = some h → ∀ s, h.start.status? = some s → s ∈ p.stored)
    (hlog : p.Lawful → ∀ s, .status s ∈ p'.log → s ∈ p.stored)
    (hhanded : p'.handoff.isSome → p.handoff.isSome) : p.Moves p' := by
  refine ⟨fun hp => ⟨?_, ?_, ?_, ?_, ?_, ?_, ?_, ?_⟩, hstored ▸ List.prefix_rfl⟩
  · exact hstored ▸ hp.chain
  · rw [hstored, hp.first]
    simp [announced, hstatus]
  · rw [hstored, hstatus]
    exact hp.last
  · rw [hstored]
    exact htasks hp
  · rw [hstored]
    exact hpreparer hp
  · rw [hstored]
    exact hstart hp
  · rw [hstored]
    exact hlog hp
  · intro hsome
    rw [hstored]
    exact hp.handed (hhanded hsome)

theorem of_kept (hstored : p'.stored = p.stored) (hstatus : p'.status = p.status)
    (htasks : p'.tasks = p.tasks) (hpreparer : p'.preparer = p.preparer) (hlog : p'.log = p.log)
    (hstart : p.Lawful → ∀ h, p'.handoff = some h → ∀ s, h.start.status? = some s → s ∈ p.stored)
    (hhanded : p'.handoff.isSome → p.handoff.isSome) : p.Moves p' := by
  refine .of_stored hstored hstatus ?_ ?_ hstart ?_ hhanded
  · rw [htasks]
    exact fun hp => hp.tasks
  · rw [hpreparer]
    exact fun hp => hp.preparer
  · rw [hlog]
    exact fun hp => hp.log

theorem of_same (hstored : p'.stored = p.stored) (hstatus : p'.status = p.status)
    (htasks : p'.tasks = p.tasks) (hpreparer : p'.preparer = p.preparer)
    (hhandoff : p'.handoff = p.handoff) (hlog : p'.log = p.log) : p.Moves p' :=
  .of_kept hstored hstatus htasks hpreparer hlog (hhandoff ▸ fun hp => hp.start) (hhandoff ▸ id)

theorem store {s : Status} (hs : p.status.Legal s) : p.Moves (p.store s) := by
  have hgrows : ∀ t ∈ p.stored, t ∈ p.stored ++ [s] := fun t ht => List.mem_append_left _ ht
  refine ⟨fun hp => ⟨?_, ?_, ?_, ?_, ?_, ?_, ?_, ?_⟩, List.prefix_append _ _⟩
  · refine hp.chain.append (.singleton s) ?_
    intro a ha b hb
    rw [hp.last] at ha
    cases ha
    cases hb
    exact hs
  · simp only [Preparation.store, List.head?_append, hp.first, Option.some_or]
    simp [announced, hs.handle, hs.expiresAt]
  · simp [Preparation.store]
  · exact fun t ht s' hs' => hgrows _ (hp.tasks t ht s' hs')
  · exact fun s' hs' => hgrows _ (hp.preparer s' hs')
  · exact fun h hh s' hs' => hgrows _ (hp.start h hh s' hs')
  · exact fun s' hs' => hgrows _ (hp.log s' hs')
  · intro hsome
    obtain ⟨t, ht, hstarting⟩ := hp.handed hsome
    exact ⟨t, hgrows t ht, hstarting⟩

variable {s : PreparationPhase} {closed ok : Bool}

theorem move (hs : p.status.state.leads s) (c : PreparationError) :
    p.Moves (p.move s c) :=
  .store ⟨rfl, rfl, rfl, hs⟩

theorem terminate (hs : s.isTerminal) (c : PreparationError) :
    p.Moves (p.move s c) :=
  .move (PreparationPhase.leads_terminal hs) c

theorem moveFrom (hs : s.isTerminal) (states : List PreparationPhase)
    (c : PreparationError) : p.Moves (p.moveFrom states s c) := by
  unfold Preparation.moveFrom
  split
  · exact .terminate hs c
  · exact .refl p

theorem addTask {t : Task} (ht : p.Lawful → ∀ s, t.status? = some s → s ∈ p.stored) :
    p.Moves (p.addTask t) := by
  refine .of_stored rfl rfl ?_ (fun hp => hp.preparer) (fun hp => hp.start) (fun hp => hp.log) id
  intro hp t' ht' s hs
  rcases mem_concat ht' with hold | rfl
  · exact hp.tasks t' hold s hs
  · exact ht hp s hs

theorem publish : p.Moves (p.publish p.status) := by
  apply addTask
  intro hp s hs
  cases hs
  exact hp.status_mem

theorem sent (ok : Bool) {s : Sent} (hs : p.Lawful → ∀ t, s = .status t → t ∈ p.stored) :
    p.Moves (p.sent ok s) := by
  refine .of_stored rfl rfl (fun hp => hp.tasks) (fun hp => hp.preparer) (fun hp => hp.start) ?_ id
  intro hp t ht
  simp only [Preparation.sent] at ht
  split at ht
  · rcases mem_concat ht with hold | hnew
    · exact hp.log t hold
    · exact hs hp t hnew.symm
  · exact hp.log t ht

theorem of_handoff (hh : p.handoff.isSome) (hp' : p'.handoff = some h')
    (hstart : p.Lawful → ∀ s, h'.start.status? = some s → s ∈ p.stored)
    (hstored : p'.stored = p.stored) (hstatus : p'.status = p.status)
    (htasks : p'.tasks = p.tasks) (hpreparer : p'.preparer = p.preparer) (hlog : p'.log = p.log) :
    p.Moves p' := by
  refine .of_kept hstored hstatus htasks hpreparer hlog ?_ (fun _ => hh)
  intro hp g hg
  rw [hp'] at hg
  cases hg
  exact hstart hp

theorem setHandoff (hh : p.handoff = some h)
    (hstart : h'.start.status? = none ∨ h'.start.status? = h.start.status?) :
    p.Moves (p.setHandoff h') := by
  refine .of_handoff (by simp [hh]) rfl ?_ rfl rfl rfl rfl rfl
  intro hp s hs
  rcases hstart with hnone | hsame
  · rw [hnone] at hs
    cases hs
  · exact hp.start h hh s (hsame ▸ hs)

theorem claim (hh : p.handoff.isSome)
    (hstart : p.Lawful → ∀ s, h'.start.status? = some s → s ∈ p.stored) (abort : Bool)
    (failure : String) (retry : Bool) : p.Moves (p.claim h' abort failure retry) := by
  refine .of_handoff hh rfl ?_ rfl rfl rfl rfl rfl
  rw [Handoff.claim_start]
  exact hstart

theorem claim_own (hh : p.handoff = some h) (abort : Bool) (failure : String) (retry : Bool) :
    p.Moves (p.claim h abort failure retry) :=
  .claim (by simp [hh]) (fun hp => hp.start h hh) abort failure retry

theorem releaseActive (hh : p.handoff = some h) (hs : s.isTerminal)
    (c : PreparationError) (publishes retry : Bool) :
    p.Moves (p.releaseActive h s c publishes retry) := by
  have hmoved : ∀ q : Preparation, q.handoff = some h → p.Moves q →
      p.Moves (if publishes then (q.claim h true "" retry).publish (q.claim h true "" retry).status
        else q.claim h true "" retry) := by
    intro q hq hmoves
    have hclaim := hmoves.trans (.claim_own hq true "" retry)
    split
    · exact hclaim.trans .publish
    · exact hclaim
  unfold Preparation.releaseActive
  split
  · exact .refl p
  · simp only
    apply hmoved
    · split
      · exact hh
      · exact hh
    · split
      · exact .refl p
      · exact (Moves.terminate hs c).trans (.of_same rfl rfl rfl rfl rfl rfl)

theorem releaseIdle (hs : s.isTerminal) (c : PreparationError)
    (publishes : Bool) : p.Moves (p.releaseIdle s c publishes) := by
  have hend : p.Moves (p.endIdle s c) := by
    unfold endIdle
    split
    · exact (Moves.terminate hs c).trans (.of_same rfl rfl rfl rfl rfl rfl)
    · exact .refl p
  have hconfirm (q : Preparation) : q.Moves (q.confirmRelease s) := by
    unfold confirmRelease
    split
    · exact .terminate hs .none
    · exact .refl q
  have hclose : p.Moves ((p.endIdle s c).closeIdle s) := by
    unfold closeIdle
    split
    · exact (hend.trans (hconfirm _)).trans (.of_same rfl rfl rfl rfl rfl rfl)
    · exact hend
  unfold Preparation.releaseIdle
  simp only
  split
  · exact hclose.trans .publish
  · exact hclose

theorem releasePreparation (closed : Bool) (hs : s.isTerminal)
    (c : PreparationError) (publishes retry : Bool) :
    p.Moves (p.releasePreparation closed s c publishes retry) := by
  unfold Preparation.releasePreparation
  split
  · exact .refl p
  · split
    · rename_i h hh
      exact .releaseActive (activeHandoff_eq hh).1 hs c publishes retry
    · exact .releaseIdle hs c publishes

theorem releaseUndelivered (closed : Bool) : p.Moves (p.releaseUndelivered closed) :=
  .releasePreparation closed rfl _ _ _

theorem closedResource (err : Bool) : p.Moves (p.closedResource err) := by
  have hafter : p.Moves (p.afterClose err) := .of_same rfl rfl rfl rfl rfl rfl
  unfold Preparation.closedResource
  split
  · simp only
    split
    · exact (hafter.trans (.terminate rfl _)).trans .publish
    · refine (hafter.trans (.move ?_ _)).trans .publish
      exact PreparationPhase.leads_self _
  · exact hafter

theorem closePending : p.Moves p.closePending := by
  have hstop (q : Preparation) (hq : q = { p.stopTimer with cancelled := true }) :
      p.Moves (q.moveFrom [.preparing, .ready, .starting] .failed .connectionClosed) := by
    subst hq
    exact .after (.moveFrom rfl _ _) (.of_same rfl rfl rfl rfl rfl rfl)
  unfold Preparation.closePending
  split
  · exact .refl p
  · split
    · exact .of_same rfl rfl rfl rfl rfl rfl
    · simp only
      split
      · exact hstop _ rfl
      · exact (hstop _ rfl).trans (.of_same rfl rfl rfl rfl rfl rfl)

theorem dropTask (i : Nat) : p.Moves (p.dropTask i) := by
  refine .of_stored rfl rfl ?_ (fun hp => hp.preparer) (fun hp => hp.start) (fun hp => hp.log) id
  exact fun hp t ht => hp.tasks t (List.mem_of_mem_eraseIdx ht)

theorem setTask (i : Nat) {t : Task} (ht : p.Lawful → ∀ s, t.status? = some s → s ∈ p.stored) :
    p.Moves (p.setTask i t) := by
  refine .of_stored rfl rfl ?_ (fun hp => hp.preparer) (fun hp => hp.start) (fun hp => hp.log) id
  intro hp t' ht' s hs
  rcases List.mem_or_eq_of_mem_set ht' with hold | rfl
  · exact hp.tasks t' hold s hs
  · exact ht hp s hs

theorem stepTask {i : Nat} (hs : p.stepTask closed i ok = some p') :
    p.Moves p' := by
  unfold Preparation.stepTask at hs
  split at hs
  case h_1 | h_2 =>
    cases hs
    exact (Moves.dropTask i).trans (.releasePreparation closed rfl _ _ _)
  case h_3 status htask =>
    split at hs
    · cases hs
      exact .dropTask i
    · cases hs
      apply setTask
      intro hp s hs
      cases hs
      exact hp.tasks _ (List.mem_of_getElem? htask) _ rfl
  case h_4 status htask =>
    split at hs
    · cases hs
      exact .setTask i (by simp [Task.status?])
    · cases hs
      refine Moves.trans (.sent ok ?_) (.dropTask i)
      intro hp s hs
      cases hs
      exact hp.tasks _ (List.mem_of_getElem? htask) _ rfl
  case h_5 =>
    cases hs
    exact (Moves.dropTask i).trans (.releaseUndelivered closed)
  case h_6 => cases hs

theorem stepCloser {i : Nat} (hs : p.stepCloser i ok = some p') : p.Moves p' := by
  unfold Preparation.stepCloser at hs
  split at hs <;> cases hs
  · exact .of_same rfl rfl rfl rfl rfl rfl
  · exact .after (.closedResource _) (.of_same rfl rfl rfl rfl rfl rfl)

theorem setPreparer {phase : PreparerPhase}
    (hphase : p.Lawful → ∀ s, phase.status? = some s → s ∈ p.stored) :
    p.Moves (p.setPreparer phase) :=
  .of_stored rfl rfl (fun hp => hp.tasks) hphase (fun hp => hp.start) (fun hp => hp.log) id

theorem setPreparer_none {phase : PreparerPhase} (hphase : phase.status? = none) :
    p.Moves (p.setPreparer phase) := by
  apply setPreparer
  simp [hphase]

theorem decidePrepared (closed prepared cancellable err : Bool) :
    p.Moves (p.decidePrepared closed prepared cancellable err) := by
  have hkept : p.Moves { p with busy := false, prepared := prepared, cancellable := cancellable } :=
    .of_same rfl rfl rfl rfl rfl rfl
  unfold Preparation.decidePrepared
  simp only
  split
  · rename_i hready
    refine (hkept.trans (.move ?_ _)).trans (.setPreparer ?_)
    · simp [hready.2.2.1, PreparationPhase.leads]
    · intro hp s hs
      cases hs
      exact hp.status_mem
  · have hfailed := hkept.trans (.moveFrom (s := .failed) rfl [.preparing] .preparationFailed)
    refine hfailed.trans ?_
    refine .of_stored rfl rfl (fun hp => hp.tasks) ?_ (fun hp => hp.start) (fun hp => hp.log) id
    simp [PreparerPhase.status?]

theorem stepPreparer {a : Answer} (hs : p.stepPreparer closed a = some p') :
    p.Moves p' := by
  unfold Preparation.stepPreparer at hs
  split at hs
  case h_1 =>
    cases hs
    refine Moves.trans (.sent a.ok ?_) (.setPreparer_none ?_)
    · intro hp s hs
      cases hs
      exact List.mem_of_head? hp.first
    · cases a.ok <;> rfl
  case h_2 | h_9 =>
    cases hs
    exact (Moves.releaseUndelivered closed).trans (.setPreparer_none rfl)
  case h_3 | h_5 =>
    cases hs
    exact .setPreparer_none rfl
  case h_4 =>
    cases hs
    exact .decidePrepared ..
  case h_6 =>
    cases hs
    refine Moves.trans (.closedResource _) (.setPreparer_none ?_)
    cases p.workspaceReadOnly <;> rfl
  case h_7 =>
    cases hs
    apply setPreparer
    intro hp s hs
    cases hs
    exact hp.status_mem
  case h_8 status ready hphase =>
    cases hs
    refine Moves.trans (.sent a.ok ?_) (.setPreparer_none ?_)
    · intro hp s hs
      cases hs
      exact hp.preparer _ (by simp [hphase, PreparerPhase.status?])
    · cases a.ok <;> cases ready <;> rfl
  case h_10 => cases hs

theorem startExecution (hready : p.status.state = .ready) (runID : String) :
    p.Moves (p.startExecution runID) := by
  have hlegal : p.status.Legal { p.status with
      revision := p.status.revision + 1, state := .starting, runID := runID } :=
    ⟨rfl, rfl, rfl, by simp [hready, PreparationPhase.leads]⟩
  have hstore := Moves.store hlegal
  refine ⟨?_, hstore.grows⟩
  intro hp
  have hstored := hstore.lawful hp
  refine ⟨hstored.chain, hstored.first, hstored.last, hstored.tasks, hstored.preparer, ?_,
    hstored.log, fun _ => ⟨_, hstored.status_mem, rfl⟩⟩
  intro h hh s hs
  cases hh
  cases hs
  exact hstored.status_mem

theorem handleExecutionStart (runID : String) (known free : Bool) :
    p.Moves (p.handleExecutionStart runID known free).1 := by
  rcases handleExecutionStart_cases p runID known free with hsame | hpublish | hexpire | hstart
  · rw [hsame]
    exact .refl p
  · rw [hpublish]
    exact .publish
  · rw [hexpire]
    exact .addTask (by simp [Task.status?])
  · rw [hstart.2.2]
    exact .startExecution hstart.1 runID

theorem undeliveredStart (hh : p.handoff = some h) : p.Moves (p.undeliveredStart h) := by
  have hmoved : p.Moves (p.moveFrom [.starting] .failed .statusDeliveryFailed).stopTimer :=
    (Moves.moveFrom rfl _ _).trans (.of_same rfl rfl rfl rfl rfl rfl)
  exact hmoved.trans (.claim (by simp [hh]) (by simp [StartPhase.status?]) true "" false)

theorem startedSession (hh : p.handoff = some h) (hstarting : p.status.state = .starting) :
    p.Moves (p.startedSession h) := by
  have hlegal : p.status.state.leads .started := by simp [hstarting, PreparationPhase.leads]
  refine (Moves.move hlegal .none).trans ?_
  refine .of_handoff (by simp [hh]) rfl ?_ rfl rfl rfl rfl rfl
  intro hp s hs
  cases hs
  exact hp.status_mem

theorem failedStart (hh : p.handoff = some h) (session : Bool) :
    p.Moves (p.failedStart h session) := by
  have hmoved : p.Moves (p.stopTimer.moveFrom [.starting] .failed .startFailed) :=
    .after (.moveFrom rfl _ _) (.of_same rfl rfl rfl rfl rfl rfl)
  refine hmoved.trans (.claim (by simp [hh]) ?_ true couldNotStart false)
  intro hp s hs
  cases session <;> (cases hs; exact hp.status_mem)

theorem returnedStart (hh : p.handoff = some h) (session err : Bool) :
    p.Moves (p.returnedStart h session err) := by
  unfold Preparation.returnedStart
  split
  · rename_i hwanted
    exact .startedSession hh hwanted.2.2.1
  · exact .failedStart hh session

theorem expireStart (hh : p.handoff = some h) (hstart : h'.start.status? = none)
    (started : Bool) : p.Moves (p.expireStart h' started) := by
  unfold Preparation.expireStart
  split
  · exact (Moves.moveFrom rfl _ _).trans (.claim (by simp [hh]) (by simp [hstart]) true "" false)
  · exact .setHandoff hh (.inl hstart)

theorem abortStart (started : Bool) : p.Moves (p.abortStart h started) := by
  unfold Preparation.abortStart
  split
  · exact .moveFrom rfl _ _
  · exact .refl p

theorem settleStart (hh : p.handoff = some h) (started session delivered : Bool) :
    p.Moves (p.settleStart h started session delivered) := by
  unfold Preparation.settleStart
  split
  · have hmoved : p.Moves (if started then p.moveFrom [.started] .failed .statusDeliveryFailed
        else p) := by
      split
      · exact .moveFrom rfl _ _
      · exact .refl p
    have hsome : (if started then p.moveFrom [.started] .failed .statusDeliveryFailed
        else p).handoff = some h := by
      split <;> simp [hh]
    refine hmoved.trans (.claim (by simp [hsome]) ?_ true "" false)
    exact fun hp => hp.start h hsome
  · split
    · refine .of_handoff (by simp [hh]) rfl ?_ rfl rfl rfl rfl rfl
      exact fun hp => hp.start h hh
    · exact .setHandoff hh (.inr rfl)

theorem publishedStart (hh : p.handoff = some h) (started session delivered : Bool) :
    p.Moves (p.publishedStart h started session delivered) := by
  have hexpired : p.Moves (p.expireStart { h with
      startDone := true
      start := if started then .unlocking else .over } started) := by
    refine .expireStart hh ?_ started
    cases started <;> rfl
  unfold Preparation.publishedStart
  simp only
  split
  · rename_i g hg
    refine (hexpired.trans (.abortStart started)).trans (.settleStart ?_ started session delivered)
    exact (abortStart_handoff g started).trans hg
  · exact hexpired

theorem stepStart (hh : p.handoff = some h) {a : Answer} (hs : p.stepStart h a = some p') :
    p.Moves p' := by
  have hown : ∀ {ok : Bool} {s : Status}, h.start.status? = some s →
      p.Moves (p.sent ok (.status s)) := by
    intro ok s hstatus
    apply sent
    intro hp t ht
    cases ht
    exact hp.start h hh s hstatus
  unfold Preparation.stepStart at hs
  split at hs
  case h_1 status hstart =>
    split at hs <;> cases hs
    exact .setHandoff hh (.inr (by simp [hstart, StartPhase.status?]))
  case h_2 status hstart =>
    cases hs
    refine (hown (by simp [hstart, StartPhase.status?])).trans (.setHandoff hh (.inl ?_))
    cases a.ok <;> rfl
  case h_3 =>
    cases hs
    exact .undeliveredStart hh
  case h_8 =>
    split at hs <;> cases hs
    exact .setHandoff hh (.inl rfl)
  case h_9 =>
    cases hs
    exact .returnedStart hh _ _
  case h_10 status started session hstart =>
    cases hs
    exact .setHandoff hh (.inr (by simp [hstart, StartPhase.status?]))
  case h_11 status started session hstart =>
    cases hs
    exact (hown (by simp [hstart, StartPhase.status?])).trans (.setHandoff hh (.inl rfl))
  case h_12 =>
    cases hs
    exact .publishedStart hh _ _ _
  case h_14 => cases hs
  all_goals
    cases hs
    exact .setHandoff hh (.inl rfl)

theorem stepPump (hh : p.handoff = some h) {a : Answer}
    (hs : p.stepPump closed h a = some p') : p.Moves p' := by
  obtain ⟨-, g, hcases, -, hstart⟩ := stepPump_cases hs
  have hstatus : g.start.status? = h.start.status? := by rw [hstart]
  rcases hcases with rfl | ⟨f, rfl⟩ | ⟨abort, rfl⟩
  · exact .setHandoff hh (.inr hstatus)
  · exact Moves.trans (.sent a.ok (by simp)) (.setHandoff hh (.inr hstatus))
  · refine .claim (by simp [hh]) ?_ abort "" false
    rw [hstart]
    exact fun hp => hp.start h hh

theorem runAttempt {i : Nat} (hs : p.runAttempt closed i ok = some p') : p.Moves p' := by
  simp only [Preparation.runAttempt, Option.bind_eq_bind, Option.bind_eq_some_iff] at hs
  obtain ⟨h, hh, r, hr, a, ha, hs⟩ := hs
  have hgoes {g : Handoff} {q : Preparation} (hq : q.handoff = some g) (hg : g.start = h.start)
      (hstored : q.stored = p.stored) (hstatus : q.status = p.status) (htasks : q.tasks = p.tasks)
      (hpreparer : q.preparer = p.preparer) (hlog : q.log = p.log) : p.Moves q := by
    refine .of_handoff (by simp [hh]) hq ?_ hstored hstatus htasks hpreparer hlog
    rw [hg]
    exact fun hp => hp.start h hh
  have hsent (f : Frame) (g : Handoff) (hg : g.start = h.start) :
      p.Moves ((p.sent ok (.frame f)).setHandoff g) := by
    refine Moves.trans (.sent ok (by simp)) (.setHandoff hh (.inr ?_))
    rw [hg]
  unfold stepAttempt at hs
  simp only at hs
  split at hs
  case h_4 =>
    cases hs
    unfold endedCancel
    split
    · exact hgoes rfl rfl rfl rfl rfl rfl rfl
    · exact hgoes rfl rfl rfl rfl rfl rfl rfl
  case h_7 | h_8 =>
    cases hs
    exact hsent _ _ rfl
  case h_11 => cases hs
  case h_1 | h_2 | h_5 =>
    split at hs <;> cases hs
    exact hgoes rfl rfl rfl rfl rfl rfl rfl
  all_goals
    cases hs
    exact hgoes rfl rfl rfl rfl rfl rfl rfl

theorem step {l : Label} (hs : p.step closed l = some p') : p.Moves p' := by
  cases effect hs with
  | preparer hs => exact .stepPreparer hs
  | closer hs => exact .stepCloser hs
  | task hs => exact .stepTask hs
  | passDeadline | prune => exact .of_same rfl rfl rfl rfl rfl rfl
  | fireTimer =>
    refine .after (.addTask ?_) (.of_same rfl rfl rfl rfl rfl rfl)
    simp [Task.status?]
  | prepare => exact .publish
  | release => exact .addTask (by simp [Task.status?])
  | start => exact .handleExecutionStart _ _ _
  | cancelRun hh => exact .claim_own hh true "" true
  | closePending => exact .closePending
  | starter hh hs => exact .stepStart hh hs
  | pump hh hs => exact .stepPump hh hs
  | attempt hs => exact .runAttempt hs
  | handoff hh hg => exact .setHandoff hh (.inr (by rw [(onHandoff_same hg).2.1]))

end Moves

theorem Lawful.new (requestID handle : String) (workspaceReadOnly : Bool) (expiresAt : Int) :
    (Preparation.new requestID handle workspaceReadOnly expiresAt).Lawful := by
  refine ⟨.singleton _, rfl, rfl, ?_, ?_, ?_, ?_, ?_⟩ <;>
    simp [Preparation.new, PreparerPhase.status?]

end Preparation

end Parsar.Dispatch
