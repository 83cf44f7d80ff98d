import Mathlib.Data.List.Nodup
import Parsar.Framework.Pool

namespace Parsar.Audit

/-- `looping` is the `select` of `run`, or of `drain`; `handling` is a call of `Sink.Write`. -/
inductive Worker (ε : Type*) where
  | absent
  | looping (draining : Bool)
  | handling (draining : Bool) (entry : Nat × ε)
  | ended

/-- The entries are the events with the number of the `Emit` they came from. `accepted` is every
one that has entered the buffer, `written` every one that was passed to the sink. -/
structure Ingester (ε : Type*) where
  capacity : Nat
  buffer : List (Nat × ε) := []
  bufferClosed : Bool := false
  closing : Bool := false
  cancelled : Bool := false
  worker : Worker ε := .absent
  accepted : List (Nat × ε) := []
  written : List (Nat × ε) := []

inductive EmitError where
  | closed
  | dropped

inductive EmitPhase where
  | called
  | checked
  | returned (err : Option EmitError)
  | panicked

structure Emit (ε : Type*) where
  event : ε
  phase : EmitPhase := .called

variable {ε : Type*}

def defaultBufferCapacity : Nat := 2048

def newIngester (bufferCapacity : Int) : Ingester ε :=
  { capacity := if bufferCapacity ≤ 0 then defaultBufferCapacity else bufferCapacity.toNat }

/-- A call of `Emit`: it looks at `closing`, and then sends without blocking. -/
def emit (i : Nat) (s : Ingester ε) (c : Emit ε) (_ : Unit) : Option (Ingester ε × Emit ε) :=
  match c.phase with
  | .called => some (s, { c with phase := if s.closing then .returned (some .closed) else .checked })
  | .checked =>
    if s.bufferClosed then some (s, { c with phase := .panicked })
    else if s.buffer.length < s.capacity then
      some ({ s with
        buffer := s.buffer ++ [(i, c.event)]
        accepted := s.accepted ++ [(i, c.event)] }, { c with phase := .returned none })
    else some (s, { c with phase := .returned (some .dropped) })
  | _ => none

inductive Move where
  | start
  | cancel
  | stop
  | close
  | done
  | receive
  | write

/-- `Start`, the end of its context, the two statements of `Stop`, and the worker. -/
def Ingester.move (s : Ingester ε) : Move → Option (Ingester ε)
  | .start => match s.worker with
    | .absent => some { s with worker := .looping false }
    | _ => none
  | .cancel => some { s with cancelled := true }
  | .stop => some { s with closing := true }
  | .close => if s.closing && !s.bufferClosed then some { s with bufferClosed := true } else none
  | .done => match s.worker with
    | .looping false => if s.cancelled then some { s with worker := .looping true } else none
    | _ => none
  | .receive => match s.worker, s.buffer with
    | .looping draining, entry :: rest =>
      some { s with buffer := rest, worker := .handling draining entry }
    | .looping draining, [] =>
      if draining || s.bufferClosed then some { s with worker := .ended } else none
    | _, _ => none
  | .write => match s.worker with
    | .handling draining entry =>
      some { s with written := s.written ++ [entry], worker := .looping draining }
    | _ => none

abbrev System (ε : Type*) := Pool (Ingester ε) (Emit ε)

abbrev Label (ε : Type*) := Pool.Action ε Unit Move

def System.step : System ε → Label ε → Option (System ε) :=
  Pool.step (fun event => { event }) emit Ingester.move

@[simp] def Worker.hand : Worker ε → List (Nat × ε)
  | .handling _ entry => [entry]
  | _ => []

/-- No call panics; what was accepted are the events of the calls that returned nil, each one once;
it is written in order, all of it when the worker has ended and by the worker's own moves before. -/
structure Accounted (p : System ε) : Prop where
  alive : ∀ c ∈ p.threads, c.phase ≠ .panicked
  once : (p.shared.accepted.map Prod.fst).Nodup
  returned : ∀ i c, p.threads[i]? = some c →
    ∀ e, (i, e) ∈ p.shared.accepted ↔ e = c.event ∧ c.phase = .returned none
  order : p.shared.written <+: p.shared.accepted
  ended : p.shared.worker = .ended → p.shared.written = p.shared.accepted
  written : p.shared.worker ≠ .absent → ∃ moves t, (∀ m ∈ moves, m = .receive ∨ m = .write) ∧
    runTrace Ingester.move p.shared moves = some t ∧ t.written = p.shared.accepted

/-- `Stop` closes the buffer only while no `Emit` is between its check and its send, and an `Emit`
sends only while the worker has not ended. -/
def Orderly (p : System ε) : Label ε → Prop
  | .env .close => ∀ c ∈ p.threads, c.phase ≠ .checked
  | .run i _ => ∀ c, p.threads[i]? = some c → c.phase = .checked → p.shared.worker ≠ .ended
  | _ => True

structure Ingester.Ok (s : Ingester ε) (n : Nat) : Prop where
  accepted : s.accepted = s.written ++ s.worker.hand ++ s.buffer
  ended : s.worker = .ended → s.buffer = []
  closing : s.bufferClosed = true → s.closing = true
  once : (s.accepted.map Prod.fst).Nodup
  known : ∀ entry ∈ s.accepted, entry.1 < n

structure Emit.Ok (s : Ingester ε) (i : Nat) (c : Emit ε) : Prop where
  alive : c.phase ≠ .panicked
  checked : s.bufferClosed = true → c.phase ≠ .checked
  returned : ∀ e, (i, e) ∈ s.accepted ↔ e = c.event ∧ c.phase = .returned none

variable {s t : Ingester ε} {n : Nat}

theorem move_ok {m : Move} (h : s.move m = some t) (hs : s.Ok n) :
    t.Ok n ∧ t.accepted = s.accepted ∧ (m = .close ∨ t.bufferClosed = s.bufferClosed) := by
  obtain ⟨haccepted, hended, hclosing, honce, hknown⟩ := hs
  cases m with
  | start =>
    simp only [Ingester.move] at h
    split at h <;> cases h
    next hw => exact ⟨⟨by simpa [hw] using haccepted, nofun, hclosing, honce, hknown⟩, rfl, .inr rfl⟩
  | cancel =>
    cases h
    exact ⟨⟨haccepted, hended, hclosing, honce, hknown⟩, rfl, .inr rfl⟩
  | stop =>
    cases h
    exact ⟨⟨haccepted, hended, fun _ => rfl, honce, hknown⟩, rfl, .inr rfl⟩
  | close =>
    simp only [Ingester.move, Bool.and_eq_true, Option.ite_none_right_eq_some] at h
    obtain ⟨⟨hstop, -⟩, h⟩ := h
    cases h
    exact ⟨⟨haccepted, hended, fun _ => hstop, honce, hknown⟩, rfl, .inl rfl⟩
  | done =>
    simp only [Ingester.move] at h
    split at h
    next hw =>
      simp only [Option.ite_none_right_eq_some] at h
      obtain ⟨-, h⟩ := h
      cases h
      exact ⟨⟨by simpa [hw] using haccepted, nofun, hclosing, honce, hknown⟩, rfl, .inr rfl⟩
    · cases h
  | receive =>
    simp only [Ingester.move] at h
    split at h
    next hw hb =>
      cases h
      exact ⟨⟨by simpa [hw, hb] using haccepted, nofun, hclosing, honce, hknown⟩, rfl,
        .inr rfl⟩
    next hw hb =>
      simp only [Option.ite_none_right_eq_some] at h
      obtain ⟨-, h⟩ := h
      cases h
      exact ⟨⟨by simpa [hw] using haccepted, fun _ => hb, hclosing, honce, hknown⟩, rfl, .inr rfl⟩
    · cases h
  | write =>
    simp only [Ingester.move] at h
    split at h <;> cases h
    next hw =>
      exact ⟨⟨by simpa [hw] using haccepted, nofun, hclosing, honce, hknown⟩, rfl,
        .inr rfl⟩

theorem emit_ok {t : Ingester ε} {i : Nat} {c d : Emit ε} {u : Unit} (hi : i < n)
    (hsend : c.phase = .checked → s.worker ≠ .ended) (h : emit i s c u = some (t, d)) (hs : s.Ok n)
    (hc : c.Ok s i) : t.Ok n ∧ d.Ok t i ∧ ∀ j b, j ≠ i → b.Ok s j → Emit.Ok t j b := by
  unfold emit at h
  split at h
  next hphase =>
    cases h
    refine ⟨hs, ⟨?_, ?_, ?_⟩, fun _ _ _ h => h⟩
    · dsimp only
      split <;> nofun
    · intro hclosed
      simp [hs.closing hclosed]
    · intro e
      rw [hc.returned, hphase]
      split <;> simp
  next hphase =>
    split at h
    next hclosed => exact absurd hphase (hc.checked hclosed)
    split at h
    · cases h
      -- An event that is sent while the worker goes on is behind everything the worker has taken.
      have hnew : i ∉ s.accepted.map Prod.fst := by simp [hc.returned, hphase]
      refine ⟨⟨?_, fun hend => absurd hend (hsend hphase), hs.closing, ?_, ?_⟩,
        ⟨nofun, fun _ => nofun, ?_⟩, fun j b hj hb => ⟨hb.alive, hb.checked, ?_⟩⟩
      · simp [hs.accepted]
      · simpa using hs.once.concat hnew
      · exact forall_mem_concat hs.known hi
      · intro e
        have := hc.returned e
        simp_all
      · intro e
        simp [hj, hb.returned]
    · cases h
      refine ⟨hs, ⟨nofun, fun _ => nofun, fun e => ?_⟩, fun _ _ _ h => h⟩
      rw [hc.returned, hphase]
      simp
  · cases h

theorem keeps_ok : Pool.Keeps (fun event => ({ event } : Emit ε)) emit Ingester.move Orderly
    Ingester.Ok Emit.Ok where
  spawn p x _ hp := by
    refine ⟨{ hp.shared with known := fun entry h => Nat.lt_succ_of_lt (hp.shared.known entry h) },
      nofun, fun _ => nofun, fun e => ?_⟩
    have := hp.shared.known (p.threads.length, e)
    simpa using this
  run p i c a t d hok hp hi h := by
    have hlt : i < p.threads.length := (List.getElem?_eq_some_iff.mp hi).1
    obtain ⟨ht, hd, hothers⟩ := emit_ok hlt (hok c hi) h hp.shared (hp.threads i c hi)
    exact ⟨ht, hd, fun j b hj hb => hothers j b hj (hp.threads j b hb)⟩
  env p m t hok hp h := by
    obtain ⟨ht, haccepted, hm⟩ := move_ok h hp.shared
    refine ⟨ht, fun j c hc => ?_⟩
    obtain ⟨halive, hchecked, hreturned⟩ := hp.threads j c hc
    refine ⟨halive, ?_, haccepted ▸ hreturned⟩
    rcases hm with rfl | hsame
    · exact fun _ => hok c (List.mem_of_getElem? hc)
    · rwa [hsame]

theorem drains {draining : Bool} {buffer : List (Nat × ε)} (hw : s.worker = .looping draining)
    (hb : s.buffer = buffer) : ∃ moves t, (∀ m ∈ moves, m = .receive ∨ m = .write) ∧
      runTrace Ingester.move s moves = some t ∧ t.written = s.written ++ buffer := by
  induction buffer generalizing s with
  | nil => exact ⟨[], s, nofun, rfl, by simp⟩
  | cons entry rest ih =>
    obtain ⟨moves, t, hmoves, hrun, ht⟩ := @ih
      { s with buffer := rest, worker := .looping draining, written := s.written ++ [entry] } rfl rfl
    exact ⟨.receive :: .write :: moves, t, by simpa using hmoves,
      by simpa [runTrace, Ingester.move, hw, hb] using hrun, by simp [ht]⟩

theorem writes_all (hs : s.Ok n) (hstarted : s.worker ≠ .absent) :
    ∃ moves t, (∀ m ∈ moves, m = .receive ∨ m = .write) ∧
      runTrace Ingester.move s moves = some t ∧ t.written = s.accepted := by
  have haccepted := hs.accepted
  cases hw : s.worker with
  | absent => exact absurd hw hstarted
  | looping draining =>
    obtain ⟨moves, t, hmoves, hrun, ht⟩ := drains hw rfl
    exact ⟨moves, t, hmoves, hrun, by simpa [ht, hw] using haccepted.symm⟩
  | handling draining entry =>
    obtain ⟨moves, t, hmoves, hrun, ht⟩ := @drains _
      { s with worker := .looping draining, written := s.written ++ [entry] } draining _ rfl rfl
    exact ⟨.write :: moves, t, by simpa using hmoves, by simpa [runTrace, Ingester.move, hw] using hrun,
      by simpa [ht, hw] using haccepted.symm⟩
  | ended =>
    exact ⟨[], s, by simp, rfl, by simpa [hw, hs.ended hw] using haccepted.symm⟩

/-- In every run whose `Stop` waits for the calls of `Emit`, and whose calls find the worker, no
event is lost. -/
theorem accepted_events_written {bufferCapacity : Int} {actions : List (Label ε)} {p : System ε}
    (hok : StepsMeet System.step Orderly ⟨newIngester bufferCapacity, []⟩ actions)
    (hrun : runTrace System.step ⟨newIngester bufferCapacity, []⟩ actions = some p) :
    Accounted p := by
  obtain ⟨hs, hthreads⟩ := keeps_ok.run_holds hok hrun
    ⟨⟨rfl, nofun, nofun, List.nodup_nil, nofun⟩, nofun⟩
  refine ⟨?_, hs.once, fun i c hc => (hthreads i c hc).returned, ?_, ?_, writes_all hs⟩
  · intro c hc
    obtain ⟨i, hi⟩ := List.mem_iff_getElem?.mp hc
    exact (hthreads i c hi).alive
  · exact ⟨p.shared.worker.hand ++ p.shared.buffer, by rw [hs.accepted, List.append_assoc]⟩
  · intro hw
    simp [hs.accepted, hw, hs.ended hw]

def stoppedTrace : List (Label Nat) :=
  [.env .start, .spawn 7, .run 0 (), .run 0 (), .env .stop, .env .close, .env .receive, .env .write,
    .env .receive]

theorem stopped_ingester_accounted :
    ∃ p, runTrace System.step ⟨newIngester 0, []⟩ stoppedTrace = some p ∧ Accounted p := by
  obtain ⟨p, hp⟩ : ∃ p, runTrace System.step ⟨newIngester 0, []⟩ stoppedTrace = some p := ⟨_, rfl⟩
  refine ⟨p, hp, accepted_events_written ?_ hp⟩
  simp [StepsMeet, System.step, Pool.step, emit, Ingester.move, Orderly, stoppedTrace, newIngester,
    defaultBufferCapacity]

/-- An `Emit` has passed its check when `Stop` closes the buffer; and one finds no worker, which
has left with its context. -/
theorem emit_panics_or_is_lost :
    (∃ p : System Nat, runTrace System.step ⟨newIngester 0, []⟩
      [.env .start, .spawn 7, .run 0 (), .env .stop, .env .close, .run 0 ()] = some p ∧
      p.threads = [⟨7, .panicked⟩]) ∧
    ∃ p : System Nat, runTrace System.step ⟨newIngester 0, []⟩
      [.env .start, .env .cancel, .env .done, .env .receive, .spawn 7, .run 0 (), .run 0 ()] = some p ∧
      p.threads = [⟨7, .returned none⟩] ∧ p.shared.worker = .ended ∧ p.shared.written = [] :=
  ⟨⟨_, rfl, rfl⟩, _, rfl, rfl, rfl, rfl⟩

end Parsar.Audit
