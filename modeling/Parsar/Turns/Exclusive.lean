import Parsar.Turns.Cancelling

namespace Parsar.Turns

open Tx Relation

variable {π : Type} [EmptyCollection π] {P : Permits π} {s t : Session π}
  {now : Int} {key : String}

def Session.OneFileWrite (s : Session π) : Prop := AtMostOne (·.state = .pending) s.fileWrites

structure Session.Exclusive (s : Session π) : Prop where
  one_reservation : s.OnePending
  one_file_write : s.OneFileWrite
  file_write_alone : ∀ write ∈ s.fileWrites, write.state = .pending →
    (∀ turn ∈ s.turns, turn.status.active = false) ∧
      ∀ row ∈ s.reservations, row.state ≠ .pending
  reservation_captured : ∀ row ∈ s.reservations, row.state = .pending →
    ∀ turn ∈ s.turns, turn.status.active = true → turn.artifactCaptureStarted = true
  messages_uncaptured : ∀ row ∈ s.inputs, row.input.isMessage = true →
    ∀ turn, row.target = some turn → turn.artifactCaptureStarted = false

def Permits.uncaptured : Permits π :=
  { message := fun turn => turn.artifactCaptureStarted = false, new := fun _ => rfl }

theorem Write.reservations (h : Write P s t) : t.reservations = s.reservations ∨
    (∃ row, s.Free ∧ (∀ id turn, s.getActiveTurn = some (id, turn) →
        turn.artifactCaptureStarted = true) ∧
      t = { s with reservations := s.reservations ++ [row] }) ∨
    ∃ rows, Grows (Reservation.Settles P.admits) (fun _ => False) s.reservations rows ∧
      t = { s with reservations := rows } := by
  cases h with
  | reserve row hkey hfree hpending hfresh hactive => exact .inr (.inl ⟨row, hfree, hactive, rfl⟩)
  | settle rows hsettles => exact .inr (.inr ⟨rows, hsettles, rfl⟩)
  | requestTurnCancel | finish | stage => exact .inl (by simp)
  | _ => exact .inl rfl

def FileWrite.Settles (write write' : FileWrite) : Prop :=
  write' = write ∨ write'.state ≠ .pending

theorem Write.fileWrites (h : Write P s t) : t.fileWrites = s.fileWrites ∨
    (∃ row, s.Free ∧ s.getActiveTurn = none ∧ t = { s with fileWrites := s.fileWrites ++ [row] }) ∨
    ∃ rows, Grows FileWrite.Settles (fun _ => False) s.fileWrites rows ∧
      t = { s with fileWrites := rows } := by
  cases h with
  | createFileWrite row hidle hfree => exact .inr (.inl ⟨row, hfree, hidle, rfl⟩)
  | settleFileWrite now id hstate =>
    refine .inr (.inr ⟨_, .map fun write => ?_, rfl⟩)
    unfold FileWrite.settle
    split
    · exact .inr hstate
    · exact .inl rfl
  | requestTurnCancel | finish | stage => exact .inl (by simp)
  | _ => exact .inl rfl

omit [EmptyCollection π] in
theorem pending_of_settles {rows : List (Reservation π)} {admits : Prop}
    (h : Grows (Reservation.Settles admits) (fun _ => False) s.reservations rows)
    {row : Reservation π}
    (hrow : row ∈ rows) (hpending : row.state = .pending) : row ∈ s.reservations := by
  obtain ⟨i, hi⟩ := List.getElem?_of_mem hrow
  obtain ⟨old, hold, rfl | ⟨-, now, state, hstate, -, rfl⟩⟩ | ⟨-, hfalse⟩ := h.cases hi
  · exact List.mem_of_getElem? hold
  · exact absurd hpending hstate
  · exact hfalse.elim

omit [EmptyCollection π] in
theorem active_of_grows {turns turns' : List (Turn π)}
    (h : Grows Turn.Steps (fun _ => False) turns turns') {turn : Turn π} (hturn : turn ∈ turns')
    (hactive : turn.status.active = true) : ∃ old ∈ turns, old.status.active = true ∧
      (old.artifactCaptureStarted = true → turn.artifactCaptureStarted = true) := by
  obtain ⟨i, hi⟩ := List.getElem?_of_mem hturn
  obtain ⟨old, hold, hsteps⟩ | ⟨-, hfalse⟩ := h.cases hi
  · exact ⟨old, List.mem_of_getElem? hold, hsteps.active hactive, hsteps.captured⟩
  · exact hfalse.elim

theorem Write.oneFileWrite (h : Write P s t) (hs : s.OneFileWrite) : t.OneFileWrite := by
  rcases h.fileWrites with heq | ⟨row, hfree, -, rfl⟩ | ⟨rows, hsettles, rfl⟩
  · rw [Session.OneFileWrite, heq]
    exact hs
  · exact atMostOne_append (Session.fileWriteBlocks_eq_false.mp hfree.2) row
  · refine hs.grows hsettles ?_ fun _ hfalse => hfalse.elim
    rintro x y (rfl | hsettled) hpending
    · exact hpending
    · exact absurd hpending hsettled

theorem Write.file_write_alone (h : Write P s t) (hs : s.Exclusive) :
    ∀ write ∈ t.fileWrites, write.state = .pending →
      (∀ turn ∈ t.turns, turn.status.active = false) ∧
        ∀ row ∈ t.reservations, row.state ≠ .pending := by
  intro write hwrite hpending
  rcases h.fileWrites with heq | ⟨row, hfree, hidle, rfl⟩ | ⟨rows, hsettles, rfl⟩
  · rw [heq] at hwrite
    have hblocks : ¬s.Free := fun hfree =>
      Session.fileWriteBlocks_eq_false.mp hfree.2 write hwrite hpending
    obtain ⟨hturns, hrows⟩ := hs.file_write_alone write hwrite hpending
    constructor
    · intro turn hturn
      rcases h.turns_cases with ⟨-, -, hfree, -⟩ | hgrows
      · exact absurd hfree hblocks
      · cases hactive : turn.status.active with
        | false => rfl
        | true =>
          obtain ⟨old, hold, hoactive, -⟩ := active_of_grows hgrows hturn hactive
          rw [hturns old hold] at hoactive
          cases hoactive
    · intro row hrow hrpending
      rcases h.reservations with heq | ⟨-, hfree, -⟩ | ⟨rows, hsettles, rfl⟩
      · rw [heq] at hrow
        exact hrows row hrow hrpending
      · exact hblocks hfree
      · exact hrows row (pending_of_settles hsettles hrow hrpending) hrpending
  · exact ⟨Session.getActiveTurn_eq_none.mp hidle, Session.hasPendingInput_eq_false.mp hfree.1⟩
  · obtain ⟨i, hi⟩ := List.getElem?_of_mem hwrite
    obtain ⟨old, hold, rfl | hsettled⟩ | ⟨-, hfalse⟩ := hsettles.cases hi
    · exact hs.file_write_alone write (List.mem_of_getElem? hold) hpending
    · exact absurd hpending hsettled
    · exact hfalse.elim

theorem Write.reservation_captured (h : Write P s t) (hs : s.Exclusive) (hone : s.OneActive) :
    ∀ row ∈ t.reservations, row.state = .pending →
      ∀ turn ∈ t.turns, turn.status.active = true → turn.artifactCaptureStarted = true := by
  intro row hrow hpending turn hturn hactive
  rcases h.reservations with heq | ⟨new, hfree, hcaptured, rfl⟩ | ⟨rows, hsettles, rfl⟩
  · rw [heq] at hrow
    rcases h.turns_cases with ⟨-, -, hfree, -⟩ | hgrows
    · exact absurd hpending (Session.hasPendingInput_eq_false.mp hfree.1 row hrow)
    · obtain ⟨old, hold, hoactive, hkept⟩ := active_of_grows hgrows hturn hactive
      exact hkept (hs.reservation_captured row hrow hpending old hold hoactive)
  · obtain ⟨i, hi⟩ := List.getElem?_of_mem hturn
    exact hcaptured i turn (hone.getActiveTurn hi hactive)
  · exact hs.reservation_captured row (pending_of_settles hsettles hrow hpending)
      hpending turn hturn
      hactive

theorem Write.exclusive (h : Write .uncaptured s t) (hs : s.Exclusive) (hone : s.OneActive) :
    t.Exclusive where
  one_reservation := h.onePending hs.one_reservation
  one_file_write := h.oneFileWrite hs.one_file_write
  file_write_alone := h.file_write_alone hs
  reservation_captured := h.reservation_captured hs hone
  messages_uncaptured := by
    intro row hrow hmessage turn htarget
    rcases h.inputs with heq | ⟨new, heq, hgood⟩
    · rw [heq] at hrow
      exact hs.messages_uncaptured row hrow hmessage turn htarget
    · rw [heq, List.mem_append, List.mem_singleton] at hrow
      rcases hrow with hold | rfl
      · exact hs.messages_uncaptured row hold hmessage turn htarget
      · obtain ⟨target, htarget', -, hcaptured⟩ := hgood hmessage
        rw [htarget] at htarget'
        cases htarget'
        exact hcaptured

/-- Messages are reserved; only cancellations or tool results are submitted. -/
def Op.Routed : Op π → Prop
  | .submitInputs _ _ batch =>
    (∀ input ∈ batch, input = .cancel) ∨ ∀ input ∈ batch, ∃ id callID result,
      input = .toolResult id callID result
  | _ => True

omit [EmptyCollection π] in
theorem Op.Routed.no_message {batch : List (Input π)}
    (h : Op.Routed (.submitInputs now key batch)) : ∀ input ∈ batch, input.isMessage = false := by
  intro input hinput
  rcases h with hcancel | hresult
  · rw [hcancel input hinput]
    rfl
  · obtain ⟨id, callID, result, rfl⟩ := hresult input hinput
    rfl

variable [DecidableEq π]

theorem admitsFrom_of_no_message {batch : List (Input π)}
    (hbatch : ∀ input ∈ batch, input.isMessage = false) : AdmitsFrom P now key s batch := by
  induction batch generalizing s with
  | nil => trivial
  | cons input batch ih =>
    refine ⟨fun hmessage => ?_, fun _ _ _ _ => ih fun input hinput =>
      hbatch input (List.mem_cons_of_mem _ hinput)⟩
    rw [hbatch input List.mem_cons_self] at hmessage
    cases hmessage

def Session.Uncaptured (s : Session π) : Prop :=
  ∀ turn ∈ s.turns, turn.status.active = true → turn.artifactCaptureStarted = false

theorem admitInput_uncaptured {position : Nat} {input : Input π} {r : InputReceipt}
    (hs : s.Uncaptured) (h : admitInput now key position input s = .ok (r, t)) :
    t.Uncaptured := by
  intro turn hturn hactive
  obtain hsame | ⟨-, hnew⟩ | ⟨-, id, hcancel⟩ := admitInput_turns h
  · exact hs turn (hsame ▸ hturn) hactive
  · rw [hnew] at hturn
    rcases mem_concat hturn with hold | rfl
    · exact hs turn hold hactive
    · rfl
  · obtain ⟨i, hi⟩ := List.getElem?_of_mem hturn
    rw [hcancel, List.getElem?_modify, Option.map_eq_map, Option.map_eq_some_iff] at hi
    obtain ⟨x, hx, rfl⟩ := hi
    have hmem := List.mem_of_getElem? hx
    split at hactive
    · next hid =>
      rw [if_pos hid]
      have hxactive := (x.steps_requestCancel now).active hactive
      unfold Turn.requestCancel
      rw [if_pos hxactive]
      exact hs x hmem hxactive
    · next hid =>
      rw [if_neg hid]
      exact hs x hmem hactive

theorem admitsFrom_of_uncaptured {batch : List (Input π)} (hs : s.Uncaptured) :
    AdmitsFrom .uncaptured now key s batch := by
  induction batch generalizing s with
  | nil => trivial
  | cons input batch ih =>
    refine ⟨fun _ id turn hactive => ?_, fun _ _ _ h => ih (admitInput_uncaptured hs h)⟩
    obtain ⟨hturn, hstatus⟩ := Session.getActiveTurn_eq_some hactive
    exact hs turn (List.mem_of_getElem? hturn) hstatus

omit [DecidableEq π] [EmptyCollection π] in
theorem Session.uncaptured_of_appends (hone : s.OneActive) (h : s.appends = true) :
    s.Uncaptured := by
  intro turn hturn hactive
  obtain ⟨i, hi⟩ := List.getElem?_of_mem hturn
  simpa [Session.appends, hone.getActiveTurn hi hactive] using h

theorem Op.admits_uncaptured {op : Op π} (hone : s.OneActive) (hop : op.Routed) :
    op.Admits .uncaptured s := by
  cases op with
  | submitInputs now key batch =>
    exact ⟨trivial, fun _ => admitsFrom_of_no_message (Op.Routed.no_message hop)⟩
  | reserveEnvironmentInput now key batch =>
    exact ⟨trivial, fun _ _ happends =>
      admitsFrom_of_uncaptured (Session.uncaptured_of_appends hone happends)⟩
  | settleEnvironmentInput now id settlement => exact fun _ => ⟨trivial, fun _ _ => trivial⟩
  | completeExecution now id status outcome size appliedThrough => exact fun _ => trivial
  | _ => trivial

omit [DecidableEq π] [EmptyCollection π] in
theorem exclusive_new (sequence : Nat) : Session.Exclusive (π := π) { sequence } where
  one_reservation := onePending_new sequence
  one_file_write := by
    intro i j a b ha
    cases ha
  file_write_alone := by
    intro write hwrite
    cases hwrite
  reservation_captured := by
    intro row hrow
    cases hrow
  messages_uncaptured := by
    intro row hrow
    cases hrow

omit [DecidableEq π] in
theorem Writes.exclusive (h : Writes .uncaptured s t) (hs : s.Exclusive) (hone : s.OneActive) :
    t.Exclusive ∧ t.OneActive := by
  refine Writes.invariant (I := fun u => u.Exclusive ∧ u.OneActive) ?_ h ⟨hs, hone⟩
  intro u v hwrite hu
  exact ⟨hwrite.exclusive hu.1 hu.2, hu.2.go hwrite.turns⟩

/-- The three kinds of work on the Environment exclude each other, and no message has joined a Turn
that is being captured. -/
theorem environment_exclusive (s₀ s : Session π) (ops : List (Op π)) (hstarted : Started s₀)
    (hops : ∀ op ∈ ops, op.Routed) (hrun : runTrace step s₀ ops = some s) : s.Exclusive := by
  obtain ⟨sequence, hstart⟩ := hstarted.writes (P := .uncaptured) (fun _ => trivial)
  have hfirst := hstart.exclusive (exclusive_new sequence) (sound_new sequence).oneActive
  have hmeet : StepsMeet step (fun _ op => op.Routed) s₀ ops := stepsMeet_of_forall hops s₀
  have hkeeps : ∀ (u : Session π) op v, op.Routed → step u op = some v → u.Exclusive ∧ u.OneActive →
      v.Exclusive ∧ v.OneActive := by
    intro u op v hop huv hu
    have hwrites := Op.writes hu.1.one_reservation (Op.admits_uncaptured hu.2 hop) huv
    exact hwrites.exclusive hu.1 hu.2
  exact (runTrace_invariant hkeeps hmeet hrun hfirst).1

def captureOps : List (Op Flat) :=
  [.settleEnvironmentInput 1 0 .promote, .beginTurnArtifactCapture 0 8,
   .reserveEnvironmentInput 3 "next" [.message [("text", "and then")]]]

theorem environment_exclusive_capture : ∃ s₀ s : Session Flat, Started s₀ ∧
    runTrace step s₀ captureOps = some s ∧
    (s.reservations.map (·.state) = [.admitted, .pending] ∧
      s.turns.map (·.artifactCaptureStarted) = [true]) ∧ s.Exclusive := by
  obtain ⟨s₀, s, hstarted, hrun, hcheck⟩ := exists_run (some {}) captureOps
    (fun s => s.reservations.map (·.state) = [.admitted, .pending] &&
      s.turns.map (·.artifactCaptureStarted) = [true])
    (by decide +kernel)
  simp only [Bool.and_eq_true, decide_eq_true_eq] at hcheck
  have hops : ∀ op ∈ captureOps, op.Routed := by simp [captureOps, Op.Routed]
  exact ⟨s₀, s, hstarted, hrun, hcheck, environment_exclusive s₀ s captureOps hstarted hops hrun⟩

end Parsar.Turns
