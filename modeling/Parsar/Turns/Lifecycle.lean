import Parsar.Turns.Commits

namespace Parsar.Turns

open Tx Relation

variable {π : Type} {s t : Session π}

structure Turn.Steps (turn turn' : Turn π) : Prop where
  frozen : turn.status.active = false → turn' = turn
  queued : turn'.status = .queued → turn' = turn
  captured : turn.artifactCaptureStarted = true → turn'.artifactCaptureStarted = true

theorem Turn.Steps.refl (turn : Turn π) : turn.Steps turn :=
  ⟨fun _ => rfl, fun _ => rfl, fun h => h⟩

theorem Turn.Steps.trans {a b c : Turn π} (hab : a.Steps b) (hbc : b.Steps c) : a.Steps c := by
  constructor
  · intro ha
    have hb := hab.frozen ha
    subst hb
    exact hbc.frozen ha
  · intro hc
    have hc' := hbc.queued hc
    subst hc'
    exact hab.queued hc
  · exact fun ha => hbc.captured (hab.captured ha)

variable {turn turn' : Turn π} {call : FunctionCall π}

theorem Turn.Steps.unqueued (h : turn.Steps turn')
    (hstatus : turn.status ≠ .queued) : turn'.status ≠ .queued := by
  intro hqueued
  rw [h.queued hqueued] at hqueued
  exact hstatus hqueued

theorem Turn.Steps.active (h : turn.Steps turn')
    (hactive : turn'.status.active = true) : turn.status.active = true := by
  cases hwas : turn.status.active with
  | true => rfl
  | false =>
    rw [h.frozen hwas, hwas] at hactive
    cases hactive

theorem Turn.Steps.of_active (hactive : turn.status.active = true)
    (hstatus : turn'.status ≠ .queued)
    (hcaptured : turn.artifactCaptureStarted = true → turn'.artifactCaptureStarted = true) :
    turn.Steps turn' :=
  ⟨fun hended => by simp [hactive] at hended, fun hqueued => absurd hqueued hstatus, hcaptured⟩

theorem Turn.steps_requestCancel (turn : Turn π) (now : Int) :
    turn.Steps (turn.requestCancel now) := by
  unfold Turn.requestCancel
  split
  · next hactive =>
    refine Turn.Steps.of_active hactive ?_ id
    by_cases hqueued : turn.status = .queued
    · simp [hqueued]
    · simp [hqueued]
  · exact .refl turn

theorem active_of_accepts (h : acceptsFunctionResult turn = true) :
    turn.status.active = true ∧ turn.status ≠ .queued ∧ turn.cancelRequestedAt = none := by
  simp only [acceptsFunctionResult, Bool.and_eq_true, Bool.or_eq_true, beq_iff_eq,
    Option.isNone_iff_eq_none] at h
  obtain ⟨hstatus | hstatus, hcancel⟩ := h <;> simp [hstatus, hcancel, TurnStatus.active]

variable [EmptyCollection π] {P : Permits π}

theorem Turn.status_await (turn : Turn π) (now : Int) (status : TurnStatus) :
    (turn.await now status).status = status := by
  unfold Turn.await
  split
  · rfl
  · next h => exact not_not.mp h

theorem Turn.artifactCaptureStarted_await (turn : Turn π) (now : Int) (status : TurnStatus) :
    (turn.await now status).artifactCaptureStarted = turn.artifactCaptureStarted := by
  unfold Turn.await
  split <;> rfl

theorem active_of_terminalStatus {status : TurnStatus} (h : terminalStatus status = true) :
    status.active = false := by
  cases status <;> first | rfl | cases h

def Session.TurnsGo (s t : Session π) : Prop :=
  (s.getActiveTurn = none ∧ ∃ now, t.turns = s.turns ++ [{ createdAt := now, outcome := ∅ }]) ∨
    Grows Turn.Steps (fun _ => False) s.turns t.turns

theorem Write.turns_cases (h : Write P s t) :
    (∃ now, s.getActiveTurn = none ∧ s.Free ∧ t = s.createTurn now) ∨
      Grows Turn.Steps (fun _ => False) s.turns t.turns := by
  have hsame : t.turns = s.turns → Grows Turn.Steps (fun _ => False) s.turns t.turns :=
    fun heq => .of_eq Turn.Steps.refl heq
  cases h with
  | createTurn now hidle hfree => exact .inl ⟨now, hidle, hfree, rfl⟩
  | requestTurnCancel now =>
    rw [(Session.requestTurnCancel_frame ..).1]
    exact .inr (.modify Turn.Steps.refl (fun turn => turn.steps_requestCancel now) _)
  | claim now hturn hqueued =>
    refine .inr (.set Turn.Steps.refl hturn (.of_active (by rw [hqueued]; rfl) ?_ id))
    simp [Turn.transition]
  | @finish now id turn status outcome events hturn hactive hterminal =>
    rw [(Session.recordTurnChange_frame ..).1]
    refine .inr (.set Turn.Steps.refl hturn (.of_active hactive ?_ fun h => h))
    intro hqueued
    have hstatus : status = .queued := hqueued
    rw [hstatus] at hterminal
    cases hterminal
  | recordCall now call hturn haccepts =>
    obtain ⟨hactive, -, -⟩ := active_of_accepts haccepts
    refine .inr (.set Turn.Steps.refl hturn (.of_active hactive ?_ ?_))
    · simp [Turn.status_await]
    · rw [Turn.artifactCaptureStarted_await]
      exact fun h => h
  | applyResult now hconfirm hturn haccepts =>
    obtain ⟨hactive, -, -⟩ := active_of_accepts haccepts
    refine .inr (.set Turn.Steps.refl hturn (.of_active hactive ?_ ?_))
    · rw [Turn.status_await]
      split <;> simp
    · rw [Turn.artifactCaptureStarted_await]
      exact fun h => h
  | appendEvents events hturn hrunning =>
    refine .inr (.set Turn.Steps.refl hturn (.of_active ?_ ?_ id))
    · rcases hrunning with h | h <;> rw [h] <;> rfl
    · rcases hrunning with h | h <;> simp [Turn.appendEvents, h]
  | beginCapture hturn hrunning =>
    refine .inr (.set Turn.Steps.refl hturn (.of_active ?_ ?_ fun _ => rfl))
    · rw [hrunning]
      rfl
    · simp [hrunning]
  | stage => exact .inr (hsame (by simp))
  | _ => exact .inr (hsame rfl)

theorem Write.turns (h : Write P s t) : s.TurnsGo t := by
  rcases h.turns_cases with ⟨now, hidle, -, rfl⟩ | hgrows
  · exact .inl ⟨hidle, now, rfl⟩
  · exact .inr hgrows

def Session.OneActive (s : Session π) : Prop := AtMostOne (·.status.active = true) s.turns

theorem Session.OneActive.go (hs : s.OneActive) (h : s.TurnsGo t) : t.OneActive := by
  rcases h with ⟨hidle, now, hturns⟩ | hgrows
  · rw [Session.OneActive, hturns]
    apply atMostOne_append
    simpa using Session.getActiveTurn_eq_none.mp hidle
  · exact hs.grows hgrows (fun x y => Turn.Steps.active) fun _ hfalse => hfalse.elim

theorem Writes.turns (h : Writes P s t) {i : TurnID}
    (hturn : s.turns[i]? = some turn) : ∃ turn', t.turns[i]? = some turn' ∧ turn.Steps turn' := by
  induction h with
  | refl => exact ⟨turn, hturn, .refl turn⟩
  | tail _ hlast ih =>
    obtain ⟨x, hx, hsteps⟩ := ih
    rcases hlast.turns with ⟨-, now, hturns⟩ | hgrows
    · refine ⟨x, ?_, hsteps⟩
      rw [hturns, List.getElem?_append_left (List.getElem?_eq_some_iff.mp hx).1, hx]
    · obtain ⟨y, hy, hxy⟩ := hgrows.old i x hx
      exact ⟨y, hy, hsteps.trans hxy⟩

structure FunctionCall.Steps (confirm : Prop) (call call' : FunctionCall π) : Prop where
  identity : call'.turn = call.turn ∧ call'.callID = call.callID ∧
    call'.executorCallID = call.executorCallID ∧ call'.name = call.name ∧
    call'.arguments = call.arguments
  result : call.result.isSome = true → call'.result = call.result
  applied : call'.applied = true → call.applied = true ∨ confirm ∧ call.result.isSome = true
  stays : call.applied = true → call'.applied = true

omit [EmptyCollection π] in
theorem FunctionCall.Steps.refl (confirm : Prop) (call : FunctionCall π) :
    call.Steps confirm call :=
  ⟨⟨rfl, rfl, rfl, rfl, rfl⟩, fun _ => rfl, .inl, id⟩

/-- The primary key of `function_calls`. -/
def Session.CallsDistinct (s : Session π) : Prop :=
  ∀ (i j : Nat) (a b : FunctionCall π), s.calls[i]? = some a → s.calls[j]? = some b →
    a.turn = b.turn → a.callID = b.callID → i = j

omit [EmptyCollection π] in
theorem Session.findCall_eq_some {id : TurnID} {callID : String}
    (h : s.findCall id callID = some call) :
    call ∈ s.calls ∧ call.turn = id ∧ call.callID = callID := by
  have hfound := List.find?_some h
  simp only [Bool.and_eq_true, beq_iff_eq] at hfound
  exact ⟨List.mem_of_find?_eq_some h, hfound.1, hfound.2⟩

omit [EmptyCollection π] in
theorem Session.CallsDistinct.eq_of_findCall (hs : s.CallsDistinct) {id : TurnID}
    {callID : String} {row : FunctionCall π} (h : s.findCall id callID = some call)
    (hrow : row ∈ s.calls) (hturn : row.turn = id) (hcallID : row.callID = callID) :
    row = call := by
  obtain ⟨hmem, hcturn, hccallID⟩ := Session.findCall_eq_some h
  obtain ⟨i, hi⟩ := List.getElem?_of_mem hrow
  obtain ⟨j, hj⟩ := List.getElem?_of_mem hmem
  have hij := hs i j row call hi hj (hturn.trans hcturn.symm) (hcallID.trans hccallID.symm)
  rw [hij, hj] at hi
  exact (Option.some.inj hi).symm

theorem Write.calls (h : Write P s t) (hs : s.CallsDistinct) :
    (∃ call turn, t.calls = s.calls ++ [call] ∧ s.findCall call.turn call.callID = none ∧
        call.applied = false ∧ s.turns[call.turn]? = some turn ∧
        acceptsFunctionResult turn = true) ∨
      Grows (FunctionCall.Steps P.confirm) (fun _ => False) s.calls t.calls := by
  have hsame : t.calls = s.calls →
      Grows (FunctionCall.Steps P.confirm) (fun _ => False) s.calls t.calls :=
    fun heq => .of_eq (FunctionCall.Steps.refl _) heq
  cases h with
  | recordCall now call hturn haccepts hnew hfresh =>
    exact .inl ⟨call, _, rfl, hfresh, hnew.2, hturn, haccepts⟩
  | storeResult result hturn haccepts hcall hnone =>
    refine .inr (.map_of_mem fun row hrow => ?_)
    split
    · next hkey =>
      have hrow' := hs.eq_of_findCall hcall hrow hkey.1 hkey.2
      subst hrow'
      exact ⟨⟨rfl, rfl, rfl, rfl, rfl⟩, fun hsome => by simp [hnone] at hsome, .inl, id⟩
    · exact .refl _ row
  | applyResult now hconfirm hturn haccepts hcall hresult =>
    refine .inr (.map_of_mem fun row hrow => ?_)
    split
    · next hkey =>
      have hrow' := hs.eq_of_findCall hcall hrow hkey.1 hkey.2
      subst hrow'
      exact ⟨⟨rfl, rfl, rfl, rfl, rfl⟩, fun _ => rfl, fun _ => .inr ⟨hconfirm, hresult⟩,
        fun _ => rfl⟩
    · exact .refl _ row
  | requestTurnCancel | finish | stage => exact .inr (hsame (by simp))
  | _ => exact .inr (hsame rfl)

theorem Write.callsDistinct (h : Write P s t) (hs : s.CallsDistinct) : t.CallsDistinct := by
  rcases h.calls hs with ⟨call, turn, hcalls, hfresh, -, -, -⟩ | hgrows
  · have hgrows : Grows (fun a b => a = b) (fun b => b = call) s.calls t.calls :=
      hcalls ▸ .append (fun _ => rfl) rfl
    have hother : ∀ row ∈ s.calls, row.turn = call.turn → row.callID ≠ call.callID := by
      intro row hrow hturn hcallID
      have := List.find?_eq_none.mp hfresh row hrow
      simp [hturn, hcallID] at this
    intro i j a b ha hb hturn hcallID
    obtain ⟨x, hx, rfl⟩ | ⟨hi, rfl⟩ := hgrows.cases ha
    · obtain ⟨y, hy, rfl⟩ | ⟨hj, rfl⟩ := hgrows.cases hb
      · exact hs i j x y hx hy hturn hcallID
      · exact absurd hcallID (hother x (List.mem_of_getElem? hx) hturn)
    · obtain ⟨y, hy, rfl⟩ | ⟨hj, rfl⟩ := hgrows.cases hb
      · exact absurd hcallID.symm (hother y (List.mem_of_getElem? hy) hturn.symm)
      · exact hi.trans hj.symm
  · intro i j a b ha hb hturn hcallID
    obtain ⟨x, hx, hxa⟩ | ⟨-, hfalse⟩ := hgrows.cases ha
    · obtain ⟨y, hy, hyb⟩ | ⟨-, hfalse⟩ := hgrows.cases hb
      · apply hs i j x y hx hy
        · rw [← hxa.identity.1, ← hyb.identity.1, hturn]
        · rw [← hxa.identity.2.1, ← hyb.identity.2.1, hcallID]
      · exact hfalse.elim
    · exact hfalse.elim

def Session.HasUnapplied (s : Session π) (id : TurnID) : Prop :=
  ∃ call ∈ s.calls, call.turn = id ∧ call.applied = false

structure Session.Sound (s : Session π) : Prop where
  oneActive : s.OneActive
  distinct : s.CallsDistinct
  called : ∀ call ∈ s.calls, ∃ turn, s.turns[call.turn]? = some turn ∧ turn.status ≠ .queued
  applied : ∀ call ∈ s.calls, call.applied = true → call.result.isSome = true
  waiting : ∀ (id : TurnID) (turn : Turn π), s.turns[id]? = some turn →
    acceptsFunctionResult turn = true → (turn.status = .waiting ↔ s.HasUnapplied id)

theorem Write.called (h : Write P s t) (hs : s.Sound) : ∀ call ∈ t.calls,
    ∃ turn, t.turns[call.turn]? = some turn ∧ turn.status ≠ .queued := by
  have hstays : ∀ (id : TurnID) (turn : Turn π), s.turns[id]? = some turn →
      turn.status ≠ .queued → ∃ turn', t.turns[id]? = some turn' ∧ turn'.status ≠ .queued := by
    intro id turn hturn hqueued
    obtain ⟨turn', hturn', hsteps⟩ := Writes.turns (.single h) hturn
    exact ⟨turn', hturn', hsteps.unqueued hqueued⟩
  intro call hcall
  obtain ⟨i, hi⟩ := List.getElem?_of_mem hcall
  rcases h.calls hs.distinct with ⟨new, turn, hcalls, -, -, hturn, haccepts⟩ | hgrows
  · rw [hcalls, List.mem_append, List.mem_singleton] at hcall
    rcases hcall with hold | rfl
    · obtain ⟨turn, hturn, hqueued⟩ := hs.called call hold
      exact hstays _ turn hturn hqueued
    · exact hstays _ turn hturn (active_of_accepts haccepts).2.1
  · obtain ⟨x, hx, hsteps⟩ | ⟨-, hfalse⟩ := hgrows.cases hi
    · obtain ⟨turn, hturn, hqueued⟩ := hs.called x (List.mem_of_getElem? hx)
      rw [hsteps.identity.1]
      exact hstays _ turn hturn hqueued
    · exact hfalse.elim

theorem Write.applied (h : Write P s t) (hs : s.Sound) :
    ∀ call ∈ t.calls, call.applied = true → call.result.isSome = true := by
  intro call hcall happlied
  obtain ⟨i, hi⟩ := List.getElem?_of_mem hcall
  rcases h.calls hs.distinct with ⟨new, turn, hcalls, -, hnew, -, -⟩ | hgrows
  · rw [hcalls, List.mem_append, List.mem_singleton] at hcall
    rcases hcall with hold | rfl
    · exact hs.applied call hold happlied
    · rw [hnew] at happlied
      cases happlied
  · obtain ⟨x, hx, hsteps⟩ | ⟨-, hfalse⟩ := hgrows.cases hi
    · have hsome : x.result.isSome = true := by
        rcases hsteps.applied happlied with hx' | ⟨-, hx'⟩
        · exact hs.applied x (List.mem_of_getElem? hx) hx'
        · exact hx'
      rw [hsteps.result hsome]
      exact hsome
    · exact hfalse.elim

omit [EmptyCollection π] in
theorem Session.HasUnapplied.congr {id : TurnID} {calls : List (FunctionCall π)}
    {f : FunctionCall π → FunctionCall π} (hf : ∀ call, (f call).turn = call.turn)
    (happlied : ∀ call, call.turn = id → (f call).applied = call.applied)
    (hcalls : calls = s.calls.map f) :
    Session.HasUnapplied { s with calls } id ↔ s.HasUnapplied id := by
  subst hcalls
  simp only [Session.HasUnapplied, List.mem_map, exists_exists_and_eq_and, hf]
  constructor
  · rintro ⟨call, hcall, hturn, hunapplied⟩
    exact ⟨call, hcall, hturn, happlied call hturn ▸ hunapplied⟩
  · rintro ⟨call, hcall, hturn, hunapplied⟩
    exact ⟨call, hcall, hturn, (happlied call hturn).trans hunapplied⟩

theorem Write.waiting (h : Write P s t) (hs : s.Sound) (id : TurnID) (turn : Turn π)
    (hturn : t.turns[id]? = some turn) (haccepts : acceptsFunctionResult turn = true) :
    turn.status = .waiting ↔ t.HasUnapplied id := by
  obtain ⟨hactive, hqueued, hcancel⟩ := active_of_accepts haccepts
  cases h with
  | createTurn now =>
    have hgrows : Grows (fun a b => a = b) (fun b => b.status = .queued) s.turns
        (s.createTurn now).turns := .append (fun _ => rfl) rfl
    obtain ⟨x, hx, rfl⟩ | ⟨-, hnew⟩ := hgrows.cases hturn
    · exact hs.waiting id x hx haccepts
    · exact absurd hnew hqueued
  | @requestTurnCancel now id' turn' =>
    rw [(Session.requestTurnCancel_frame ..).1, List.getElem?_modify, Option.map_eq_map,
      Option.map_eq_some_iff] at hturn
    obtain ⟨x, hx, rfl⟩ := hturn
    simp only [Session.HasUnapplied, Session.requestTurnCancel_frame]
    by_cases hid : id' = id
    · -- the Turn is cancelling now, or it had ended
      simp only [hid, if_true] at hcancel hactive
      unfold Turn.requestCancel at hcancel hactive
      split at hcancel
      · simp at hcancel
      · simp_all
    · simp only [hid, if_false] at haccepts ⊢
      exact hs.waiting id x hx haccepts
  | claim now hclaimed hwas =>
    rcases getElem?_set_cases hturn with ⟨rfl, rfl⟩ | ⟨-, hold⟩
    · -- a queued Turn has no calls
      refine ⟨fun hstatus => (by cases hstatus), ?_⟩
      rintro ⟨call, hcall, rfl, -⟩
      obtain ⟨x, hx, hxqueued⟩ := hs.called call hcall
      rw [hclaimed] at hx
      cases hx
      exact absurd hwas hxqueued
    · exact hs.waiting id turn hold haccepts
  | @finish now id' turn' status outcome events hfinished hwas hterminal =>
    simp only [Session.HasUnapplied, Session.recordTurnChange_frame] at hturn ⊢
    rcases getElem?_set_cases hturn with ⟨-, rfl⟩ | ⟨-, hold⟩
    · have hended : status.active = true := hactive
      rw [active_of_terminalStatus hterminal] at hended
      cases hended
    · exact hs.waiting id turn hold haccepts
  | recordCall now call hcalled hcalls hnew =>
    rcases getElem?_set_cases hturn with ⟨rfl, rfl⟩ | ⟨hid, hold⟩
    · refine iff_of_true (Turn.status_await ..) ⟨call, ?_, rfl, hnew.2⟩
      simp
    · rw [hs.waiting id turn hold haccepts]
      simp only [Session.HasUnapplied, List.mem_append, List.mem_singleton]
      constructor
      · rintro ⟨row, hrow, hunapplied⟩
        exact ⟨row, .inl hrow, hunapplied⟩
      · rintro ⟨row, hrow | rfl, hturn', hunapplied⟩
        · exact ⟨row, hrow, hturn', hunapplied⟩
        · exact absurd hturn' hid
  | storeResult result =>
    rw [hs.waiting id turn hturn haccepts]
    refine (Session.HasUnapplied.congr ?_ ?_ rfl).symm
    · intro call
      split <;> rfl
    · intro call _
      split <;> rfl
  | @applyResult now id' turn' callID call =>
    rcases getElem?_set_cases hturn with ⟨rfl, rfl⟩ | ⟨hid, hold⟩
    · rw [Turn.status_await]
      have hempty : ((s.applyFunctionResult id' callID).pendingCalls id').isEmpty = false ↔
          (s.applyFunctionResult id' callID).HasUnapplied id' := by
        simp [Session.pendingCalls, Session.HasUnapplied]
      cases h : ((s.applyFunctionResult id' callID).pendingCalls id').isEmpty with
      | false => exact iff_of_true rfl (hempty.mp h)
      | true =>
        refine iff_of_false (by simp) fun hunapplied => ?_
        rw [hempty.mpr hunapplied] at h
        cases h
    · rw [hs.waiting id turn hold haccepts]
      refine (Session.HasUnapplied.congr ?_ ?_ rfl).symm
      · intro call
        split <;> rfl
      · intro call hturn'
        have hother : ¬(call.turn = id' ∧ call.callID = callID) :=
          fun hkey => hid (hkey.1.symm.trans hturn')
        rw [if_neg hother]
  | @appendEvents id' turn' events happended =>
    rcases getElem?_set_cases hturn with ⟨rfl, rfl⟩ | ⟨-, hold⟩
    · exact hs.waiting id' turn' happended haccepts
    · exact hs.waiting id turn hold haccepts
  | @beginCapture id' turn' hbegun =>
    rcases getElem?_set_cases hturn with ⟨rfl, rfl⟩ | ⟨-, hold⟩
    · exact hs.waiting id' turn' hbegun haccepts
    · exact hs.waiting id turn hold haccepts
  | stage =>
    simp only [Session.HasUnapplied, Session.stageArtifacts_frame] at hturn ⊢
    exact hs.waiting id turn hturn haccepts
  | _ => exact hs.waiting id turn hturn haccepts

theorem Write.sound (h : Write P s t) (hs : s.Sound) : t.Sound where
  oneActive := hs.oneActive.go h.turns
  distinct := h.callsDistinct hs.distinct
  called := h.called hs
  applied := h.applied hs
  waiting := h.waiting hs

omit [EmptyCollection π] in
theorem sound_new (sequence : Nat) : Session.Sound (π := π) { sequence } where
  oneActive := by
    intro i j a b ha
    cases ha
  distinct := by
    intro i j a b ha
    cases ha
  called := by
    intro call hcall
    cases hcall
  applied := by
    intro call hcall
    cases hcall
  waiting := by
    intro id turn hturn
    cases hturn

variable [DecidableEq π]

theorem Reached.sound (h : Reached s) : s.Sound :=
  h.invariant sound_new fun _ _ => Write.sound

theorem Reached.onePending (h : Reached s) : s.OnePending :=
  h.invariant onePending_new fun _ _ => Write.onePending

theorem run_writes_all {ops : List (Op π)} (hs : Reached s)
    (hrun : runTrace step s ops = some t) : Writes .all s t :=
  run_writes hs.onePending ((stepsMeet_true s ops).imp fun _ op _ => op.admits_all) hrun

omit [DecidableEq π] in
theorem Writes.calls (h : Writes P s t) (hs : s.Sound) {i : Nat}
    (hcall : s.calls[i]? = some call) : ∃ call', t.calls[i]? = some call' ∧
      call'.turn = call.turn ∧ call'.callID = call.callID ∧
      (call.result.isSome = true → call'.result = call.result) ∧
      (¬P.confirm → call'.applied = true → call.applied = true) := by
  induction h with
  | refl => exact ⟨call, hcall, rfl, rfl, fun _ => rfl, fun _ => id⟩
  | tail hprevious hlast ih =>
    obtain ⟨x, hx, hturn, hcallID, hresult, happlied⟩ := ih
    rcases hlast.calls (Writes.invariant (fun _ _ => Write.sound) hprevious hs).distinct with
      ⟨new, -, hcalls, -⟩ | hgrows
    · refine ⟨x, ?_, hturn, hcallID, hresult, happlied⟩
      rw [hcalls, List.getElem?_append_left (List.getElem?_eq_some_iff.mp hx).1, hx]
    · obtain ⟨y, hy, hsteps⟩ := hgrows.old i x hx
      refine ⟨y, hy, hsteps.identity.1.trans hturn, hsteps.identity.2.1.trans hcallID, ?_, ?_⟩
      · intro hsome
        have hx' := hresult hsome
        rw [hsteps.result (by rw [hx', hsome]), hx']
      · intro hconfirm hy'
        rcases hsteps.applied hy' with hx' | ⟨hyes, -⟩
        · exact happlied hconfirm hx'
        · exact absurd hyes hconfirm

/-- Everything but the confirmation of function results. -/
def Permits.unconfirmed : Permits π := { confirm := False }

theorem step_applied {op : Op π} (hs : Reached s) (h : step s op = some t) {i : Nat}
    {call' : FunctionCall π} (hcall : s.calls[i]? = some call)
    (hcall' : t.calls[i]? = some call') (happlied : call'.applied = true) :
    call.applied = true ∨ call.result.isSome = true := by
  have hother : op.Performs .unconfirmed → call.applied = true := by
    intro hop
    have hadmits : op.Admits .unconfirmed s :=
      Op.admits_of_performs (fun _ => trivial) (fun _ => trivial) trivial hop
    obtain ⟨row, hrow, -, -, -, hkept⟩ := (Op.writes hs.onePending hadmits h).calls hs.sound hcall
    rw [hcall'] at hrow
    cases hrow
    exact hkept id happlied
  cases op with
  | confirmFunctionResult now id callID =>
    obtain ⟨reply, h⟩ := step_eq_some.mp h
    obtain ⟨r, hr, -⟩ := map_ok.mp h
    rcases confirmFunctionResult_write (P := .all) trivial hr with rfl | hwrite
    · rw [hcall] at hcall'
      cases hcall'
      exact .inl happlied
    · rcases hwrite.calls hs.sound.distinct with ⟨new, -, hcalls, -⟩ | hgrows
      · rw [hcalls, List.getElem?_append_left (List.getElem?_eq_some_iff.mp hcall).1, hcall]
          at hcall'
        cases hcall'
        exact .inl happlied
      · obtain ⟨row, hrow, hsteps⟩ := hgrows.old i call hcall
        rw [hcall'] at hrow
        cases hrow
        exact (hsteps.applied happlied).imp_right And.right
  | completeExecution now id status outcome size appliedThrough =>
    exact .inl (hother fun _ => trivial)
  | _ => exact .inl (hother trivial)

/-- The state machine of the Turns of one Session, in the state `s` and over every continuation. -/
structure TurnStateMachine (s : Session π) : Prop where
  one_active : ∀ (i j : TurnID) (a b : Turn π), s.turns[i]? = some a → s.turns[j]? = some b →
    a.status.active = true → b.status.active = true → i = j
  waiting_iff : ∀ (id : TurnID) (turn : Turn π), s.turns[id]? = some turn →
    turn.status = .inProgress ∨ turn.status = .waiting → turn.cancelRequestedAt = none →
    (turn.status = .waiting ↔ ∃ call ∈ s.calls, call.turn = id ∧ call.applied = false)
  terminal_frozen : ∀ (ops : List (Op π)) (t : Session π), runTrace step s ops = some t →
    ∀ (id : TurnID) (turn : Turn π), s.turns[id]? = some turn →
      terminalStatus turn.status = true → t.turns[id]? = some turn
  result_kept : ∀ (ops : List (Op π)) (t : Session π), runTrace step s ops = some t →
    ∀ (i : Nat) (call : FunctionCall π) (result : π), s.calls[i]? = some call →
      call.result = some result → ∃ call', t.calls[i]? = some call' ∧ call'.turn = call.turn ∧
        call'.callID = call.callID ∧ call'.result = some result
  applied_stored : ∀ (op : Op π) (t : Session π), step s op = some t →
    ∀ (i : Nat) (call call' : FunctionCall π), s.calls[i]? = some call →
      t.calls[i]? = some call' → call'.applied = true → call.result.isSome = true
  applied_result : ∀ call ∈ s.calls, call.applied = true → call.result.isSome = true

/-- The Turns of every reachable Session follow their state machine, whatever calls come, in any
order. -/
theorem turn_state_machine (s : Session π) (hs : Reached s) : TurnStateMachine s where
  one_active := hs.sound.oneActive
  waiting_iff := by
    intro id turn hturn hstatus hcancel
    apply hs.sound.waiting id turn hturn
    rcases hstatus with h | h <;> simp [acceptsFunctionResult, h, hcancel]
  terminal_frozen := by
    intro ops t hrun id turn hturn hterminal
    obtain ⟨turn', hturn', hsteps⟩ := (run_writes_all hs hrun).turns hturn
    rw [hturn', hsteps.frozen (active_of_terminalStatus hterminal)]
  result_kept := by
    intro ops t hrun i call result hcall hresult
    obtain ⟨call', hcall', hturn, hcallID, hkept, -⟩ :=
      (run_writes_all hs hrun).calls hs.sound hcall
    exact ⟨call', hcall', hturn, hcallID, (hkept (by simp [hresult])).trans hresult⟩
  applied_stored := by
    intro op t hop i call call' hcall hcall' happlied
    exact (step_applied hs hop hcall hcall' happlied).elim
      (hs.sound.applied call (List.mem_of_getElem? hcall)) id
  applied_result := hs.sound.applied

abbrev Flat := List (String × String)

def messageSession (environment : Option Environment) : Except StoreError (Unit × Session Flat) :=
  createSession 0 environment "first" [.message [("text", "hello")]] { sequence := 7 }

theorem exists_run (environment : Option Environment) (ops : List (Op Flat))
    (p : Session Flat → Bool)
    (h : (match messageSession environment with
      | .ok (_, s₀) => (runTrace step s₀ ops).any p
      | .error _ => false) = true) :
    ∃ s₀ s, Started s₀ ∧ runTrace step s₀ ops = some s ∧ p s = true := by
  split at h
  · next s₀ hstarted =>
    obtain ⟨s, hrun, hs⟩ := Option.any_eq_true _ _ |>.mp h
    exact ⟨s₀, s, ⟨0, environment, "first", _, 7, hstarted⟩, hrun, hs⟩
  · cases h

theorem exists_reached (environment : Option Environment) (ops : List (Op Flat))
    (p : Session Flat → Bool)
    (h : (match messageSession environment with
      | .ok (_, s₀) => (runTrace step s₀ ops).any p
      | .error _ => false) = true) : ∃ s, Reached s ∧ p s = true := by
  obtain ⟨s₀, s, hstarted, hrun, hs⟩ := exists_run environment ops p h
  exact ⟨s, ⟨s₀, ops, hstarted, hrun⟩, hs⟩

def callOps : List (Op Flat) :=
  [.claimTurn 1 0, .recordFunctionCall 2 0 "call" "native" "lookup" [("q", "x")],
   .submitFunctionResult 0 "call" [("ok", "1")], .confirmFunctionResult 3 0 "call",
   .completeExecution 4 0 .completed [("done", "1")] 12 8]

theorem turn_state_machine_call : ∃ s : Session Flat, Reached s ∧
    (s.turns.map (·.status) = [.completed] ∧ s.calls.map (·.applied) = [true]) ∧
    TurnStateMachine s := by
  obtain ⟨s, hs, hcheck⟩ := exists_reached none callOps
    (fun s => s.turns.map (·.status) = [.completed] && s.calls.map (·.applied) = [true])
    (by decide +kernel)
  simp only [Bool.and_eq_true, decide_eq_true_eq] at hcheck
  exact ⟨s, hs, hcheck, turn_state_machine s hs⟩

end Parsar.Turns
