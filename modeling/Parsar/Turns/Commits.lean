import Parsar.Turns.Writes

namespace Parsar.Turns

open Tx Relation

variable {π : Type} [DecidableEq π] [EmptyCollection π] {P : Permits π} {now : Int}
  {key : String} {s t : Session π} {batch : List (Input π)}

variable {rs : List InputReceipt} {v : Unit} {id : TurnID} {row row' : Reservation π}
  {reply : EnvironmentInputReservation π} {state : ReservationState} {appliedThrough position : Nat}

omit [EmptyCollection π] in
theorem inputBatchReceipts_ok (h : inputBatchReceipts key batch s = .ok (rs, t)) :
    s = t ∧ rs = (s.inputBatch key).map (·.replay) ∧
      (s.inputBatch key ≠ [] → (s.inputBatch key).map (·.input) = batch) := by
  simp only [inputBatchReceipts, get_bind_ok, require_bind_ok, pure_ok] at h
  exact ⟨h.2.2, h.2.1.symm, fun hne => h.1.resolve_left hne⟩

omit [DecidableEq π] [EmptyCollection π] in
theorem checkEnvironmentFileWriteGate_ok
    (h : checkEnvironmentFileWriteGate s = .ok (v, t)) : s = t ∧ s.fileWriteBlocks = false := by
  rw [checkEnvironmentFileWriteGate, get_bind_ok, require_ok, Bool.not_eq_true'] at h
  exact ⟨h.2.symm, h.1⟩

omit [EmptyCollection π] in
theorem checkEnvironmentInputGate_ok (h : checkEnvironmentInputGate key batch s = .ok (v, t)) :
    s = t ∧ s.hasPendingInput = false ∧ ∀ row ∈ s.reservations, row.key ≠ key := by
  simp only [checkEnvironmentInputGate, get_bind_ok, require_bind_ok, require_ok] at h
  obtain ⟨-, hnone, rfl⟩ := h
  simp only [Bool.not_eq_true', List.any_eq_false, Bool.or_eq_true, beq_iff_eq, not_or] at hnone
  refine ⟨rfl, ?_, fun row hrow => (hnone row hrow).2⟩
  exact Session.hasPendingInput_eq_false.mpr fun row hrow => (hnone row hrow).1

theorem submitInputs_ok (h : submitInputs now key batch s = .ok (rs, t)) :
    validateInputs batch = true ∧ s.deletedAt = none ∧
      (s.inputBatch key ≠ [] ∧ (s.inputBatch key).map (·.input) = batch ∧ t = s ∧
          rs = (s.inputBatch key).map (·.replay) ∨
        s.inputBatch key = [] ∧ s.hasPendingInput = false ∧
          (∀ row ∈ s.reservations, row.key ≠ key) ∧
          ((∃ input ∈ batch, input.isMessage = true) → s.Free) ∧
          admitInputs now key 0 batch s = .ok (rs, t)) := by
  simp only [submitInputs, withPublicSession, require_bind_ok, get_bind_ok] at h
  obtain ⟨hvalid, hpublic, h⟩ := h
  obtain ⟨previous, u, hprevious, h⟩ := bind_ok.mp h
  obtain ⟨rfl, rfl, hmatch⟩ := inputBatchReceipts_ok hprevious
  refine ⟨hvalid.2, hpublic, ?_⟩
  rcases ite_ok.mp h with ⟨hne, h⟩ | ⟨hempty, h⟩
  · simp only [pure_ok] at h
    have hrows : s.inputBatch key ≠ [] := fun hnil => hne (by simp [hnil])
    exact .inl ⟨hrows, hmatch hrows, h.2.symm, h.1.symm⟩
  · have hrows : s.inputBatch key = [] := by simpa using hempty
    -- the gate of the file writes is for messages only
    have hgates : ∃ v w, checkEnvironmentInputGate key batch s = .ok (v, w) ∧
        admitInputs now key 0 batch w = .ok (rs, t) ∧
        ((∃ input ∈ batch, input.isMessage = true) → s.fileWriteBlocks = false) := by
      rcases ite_ok.mp h with ⟨-, hboth⟩ | ⟨hnone, hone⟩
      · obtain ⟨v, w, hfile, hrest⟩ := bind_ok.mp hboth
        obtain ⟨rfl, hblocks⟩ := checkEnvironmentFileWriteGate_ok hfile
        obtain ⟨v', w', hgate, hadmitted⟩ := bind_ok.mp hrest
        exact ⟨v', w', hgate, hadmitted, fun _ => hblocks⟩
      · obtain ⟨v', w', hgate, hadmitted⟩ := bind_ok.mp hone
        exact ⟨v', w', hgate, hadmitted, fun hany => absurd (by simpa using hany) hnone⟩
    obtain ⟨v, w, hgate, hadmitted, hblocks⟩ := hgates
    obtain ⟨rfl, hpending, hkey⟩ := checkEnvironmentInputGate_ok hgate
    exact .inr ⟨hrows, hpending, hkey, fun hany => ⟨hpending, hblocks hany⟩, hadmitted⟩

omit [DecidableEq π] [EmptyCollection π] in
theorem transitionTurn_ok {expected new : TurnStatus} {outcome : π}
    (h : transitionTurn now id expected new outcome s = .ok (v, t)) :
    ∃ turn, s.turns[id]? = some turn ∧ turn.mayTransition expected new = true ∧
      t = Session.recordTurnChange
        { s with turns := s.turns.set id (turn.transition now new outcome) } id := by
  simp only [transitionTurn, get_bind_ok, fetch_bind_ok, set_ok] at h
  obtain ⟨turn, hturn, u, hu, rfl⟩ := h
  simp only [Session.transitionTurn?, hturn] at hu
  split at hu
  · next hmay =>
    cases hu
    exact ⟨turn, hturn, hmay, rfl⟩
  · cases hu

omit [DecidableEq π] [EmptyCollection π] in
theorem environmentInputMayStart_ok (h : environmentInputMayStart s = .ok (v, t)) :
    s = t ∧ s.fileWriteBlocks = false ∧ s.getActiveTurn = none := by
  obtain ⟨v', u, hfile, h⟩ := bind_ok.mp h
  obtain ⟨rfl, hblocks⟩ := checkEnvironmentFileWriteGate_ok hfile
  rw [get_bind_ok, require_ok] at h
  exact ⟨h.2.symm, hblocks, h.1⟩

variable {id : ReservationID}

omit [EmptyCollection π] in
theorem environmentInputOutcome_ok (h : environmentInputOutcome id row s = .ok (reply, t)) :
    s = t := by
  simp only [environmentInputOutcome, ite_ok] at h
  rcases h with ⟨-, h⟩ | ⟨-, h⟩
  · simp only [pure_ok] at h
    exact h.2
  · obtain ⟨rs, u, hrs, h⟩ := bind_ok.mp h
    simp only [require_bind_ok, pure_ok] at h
    exact (inputBatchReceipts_ok hrs).1.trans h.2.2

omit [DecidableEq π] [EmptyCollection π] in
theorem Reservation.settles_settle (row : Reservation π) (now : Int)
    (hstate : state ≠ .pending) {admits : Prop} (hadmits : state = .admitted → admits) :
    row.Settles admits (row.settle now state) := by
  unfold Reservation.settle
  split
  · next hpending => exact .inr ⟨hpending, now, state, hstate, hadmits, rfl⟩
  · exact .inl rfl

omit [DecidableEq π] [EmptyCollection π] in
theorem Reservation.settles_expire (row : Reservation π) (now : Int) {admits : Prop} :
    row.Settles admits (row.expire now) := by
  unfold Reservation.expire
  split
  · next hdue => exact .inr ⟨hdue.1, now, .expired, by simp, fun h => (by cases h), rfl⟩
  · exact .inl rfl

omit [DecidableEq π] in
theorem write_setReservation (hrow : s.reservations[id]? = some row)
    (hsettles : row.Settles P.admits row') : Write P s (s.setReservation id row') :=
  .settle _ (.set (fun _ => .inl rfl) hrow hsettles)

omit [DecidableEq π] in
theorem transitionTurn_claims
    (h : transitionTurn now id .queued .inProgress ∅ s = .ok (v, t)) : Write P s t := by
  obtain ⟨turn, hturn, hmay, rfl⟩ := transitionTurn_ok h
  simp only [Turn.mayTransition, Bool.and_eq_true, beq_iff_eq, Bool.or_eq_true, bne_self_eq_false,
    Bool.false_eq_true, false_or, Option.isNone_iff_eq_none] at hmay
  rw [Session.recordTurnChange_set hturn (by rfl)]
  exact .claim now hturn hmay.1.1 hmay.2

/-- Every active Turn is as its creation has left it. -/
def Session.AllNew (s : Session π) : Prop :=
  ∀ (id : TurnID) (turn : Turn π), s.turns[id]? = some turn → turn.status.active = true →
    ∃ now, turn = { createdAt := now, outcome := ∅ }

omit [DecidableEq π] [EmptyCollection π] in
theorem Turn.active_requestCancel {turn : Turn π} (hqueued : turn.status = .queued) :
    (turn.requestCancel now).status.active = false := by
  simp [Turn.requestCancel, hqueued, TurnStatus.active]

theorem admitInput_allNew {input : Input π} {r : InputReceipt} (hs : s.AllNew)
    (h : admitInput now key position input s = .ok (r, t)) : t.AllNew := by
  intro id turn hturn hactive
  obtain hsame | ⟨-, hnew⟩ | ⟨-, cancelled, hcancel⟩ := admitInput_turns h
  · exact hs id turn (hsame ▸ hturn) hactive
  · rw [hnew, Session.createTurn, List.getElem?_append, List.getElem?_singleton] at hturn
    split at hturn
    · exact hs id turn hturn hactive
    · split at hturn
      · cases hturn
        exact ⟨now, rfl⟩
      · cases hturn
  · rw [hcancel, List.getElem?_modify, Option.map_eq_map, Option.map_eq_some_iff] at hturn
    obtain ⟨row, hrow, rfl⟩ := hturn
    split at hactive
    · next hid =>
      -- an active Turn is queued, and so it has been cancelled at once
      cases hstatus : row.status.active with
      | true =>
        obtain ⟨now', rfl⟩ := hs id row hrow hstatus
        rw [Turn.active_requestCancel rfl] at hactive
        cases hactive
      | false =>
        rw [Turn.requestCancel, hstatus] at hactive
        simp [hstatus] at hactive
    · next hid =>
      simp only [hid, if_false]
      exact hs id row hrow hactive

theorem admitsFrom_of_allNew (hs : s.AllNew) : AdmitsFrom P now key s batch := by
  induction batch generalizing s with
  | nil => trivial
  | cons input batch ih =>
    refine ⟨fun _ id turn hactive => ?_, fun position r t h => ih (admitInput_allNew hs h)⟩
    obtain ⟨hturn, hactive⟩ := Session.getActiveTurn_eq_some hactive
    obtain ⟨now', rfl⟩ := hs id turn hturn hactive
    exact P.new now'

def Session.OnePending (s : Session π) : Prop := AtMostOne (·.state = .pending) s.reservations

omit [DecidableEq π] [EmptyCollection π] in
theorem Session.OnePending.settled (hone : s.OnePending) (hrow : s.reservations[id]? = some row)
    (hpending : row.state = .pending) (hsettled : row'.state ≠ .pending) :
    (s.setReservation id row').hasPendingInput = false := by
  rw [Session.hasPendingInput_eq_false]
  intro other hother
  obtain ⟨i, hi⟩ := List.getElem?_of_mem hother
  rcases getElem?_set_cases hi with ⟨-, rfl⟩ | ⟨hne, hi⟩
  · exact hsettled
  · intro hstate
    exact hne (hone id i row other hrow hi hpending hstate)

theorem promoteEnvironmentInput_ok (h : promoteEnvironmentInput now id row s = .ok (reply, t)) :
    ∃ u, admitInputs now row.key 0 row.batch s = .ok (reply.receipts, u) ∧ t.inputs = u.inputs ∧
      t.reservations = s.reservations.set id (row.settle now .admitted) ∧
      s.fileWriteBlocks = false ∧ s.getActiveTurn = none ∧ ∃ turn v,
        transitionTurn now turn .queued .inProgress ∅
          { u with reservations := s.reservations.set id (row.settle now .admitted) } =
            .ok (v, t) := by
  obtain ⟨v, u, hstart, h⟩ := bind_ok.mp h
  obtain ⟨rfl, hblocks, hidle⟩ := environmentInputMayStart_ok hstart
  obtain ⟨rs, w, hadmitted, h⟩ := bind_ok.mp h
  simp only [modify_bind_ok, fetch_bind_ok] at h
  obtain ⟨turn, -, h⟩ := h
  obtain ⟨v', w', hclaim, h⟩ := bind_ok.mp h
  obtain ⟨rfl, rfl⟩ := pure_ok.mp h
  rw [Session.setReservation, (admitInputs_frame hadmitted).1] at hclaim
  obtain ⟨row', -, -, hw'⟩ := transitionTurn_ok hclaim
  exact ⟨w, hadmitted, by simp [hw'], by simp [hw'], hblocks, hidle, turn, v', hclaim⟩

theorem promoteEnvironmentInput_writes (hkey : P.key row.key) (hadmits : P.admits)
    (hone : s.OnePending) (hrow : s.reservations[id]? = some row) (hpending : row.state = .pending)
    (h : promoteEnvironmentInput now id row s = .ok (reply, t)) : Writes P s t := by
  obtain ⟨w, hadmitted, -, -, hblocks, hidle, turn, v, hclaim⟩ := promoteEnvironmentInput_ok h
  -- the reservation may as well be settled first: admission does not look at it
  let rows := s.reservations.set id (row.settle now .admitted)
  have hsettle : Write P s { s with reservations := rows } := write_setReservation hrow
    (row.settles_settle now (by simp) fun _ => hadmits)
  have hfree : Session.Free { s with reservations := rows } := by
    refine ⟨hone.settled hrow hpending ?_, hblocks⟩
    simp [Reservation.settle, hpending]
  have hall : s.AllNew := by
    intro i turn hturn hactive
    have := Session.getActiveTurn_eq_none.mp hidle turn (List.mem_of_getElem? hturn)
    rw [this] at hactive
    cases hactive
  have hwrites := admitInputs_writes rows hkey (admitsFrom_of_allNew hall) (fun _ => hfree)
    hadmitted
  exact .trans (.head hsettle hwrites) (.single (transitionTurn_claims hclaim))

omit [DecidableEq π] [EmptyCollection π] in
theorem Session.setReservation_self (hrow : s.reservations[id]? = some row) :
    s.setReservation id row = s := by
  obtain ⟨hlength, rfl⟩ := List.getElem?_eq_some_iff.mp hrow
  simp [Session.setReservation]

omit [DecidableEq π] [EmptyCollection π] in
theorem Reservation.expire_live {p : Prop}
    (h : ¬((row.expire now).state ≠ .pending ∨ p)) : row.expire now = row := by
  unfold Reservation.expire at h ⊢
  split
  · next hdue => simp [hdue] at h
  · rfl

theorem settleEnvironmentInput_ok (hrow : s.reservations[id]? = some row)
    (hstate : state ≠ .pending) (h : settleEnvironmentInput now id row state s = .ok (reply, t)) :
    (∃ row', (∀ admits, row.Settles admits row') ∧ t = s.setReservation id row') ∨
      row.state = .pending ∧ state = .admitted ∧
        promoteEnvironmentInput now id row s = .ok (reply, t) := by
  rcases ite_ok.mp h with ⟨-, hold⟩ | ⟨hpending, hnow⟩
  · rw [← environmentInputOutcome_ok hold]
    exact .inl ⟨row, fun _ => .inl rfl, (Session.setReservation_self hrow).symm⟩
  · rw [not_not] at hpending
    rw [modify_bind_ok, ite_ok] at hnow
    rcases hnow with ⟨-, hsettled⟩ | ⟨hlive, hsettle⟩
    · exact .inl ⟨_, fun _ => row.settles_expire now, (environmentInputOutcome_ok hsettled).symm⟩
    · rw [Reservation.expire_live hlive, Session.setReservation_self hrow, ite_ok] at hsettle
      rcases hsettle with ⟨hstate', hpromote⟩ | ⟨hstate', hother⟩
      · exact .inr ⟨hpending, hstate', hpromote⟩
      · rw [modify_bind_ok, pure_ok] at hother
        exact .inl ⟨_, fun _ => row.settles_settle now hstate (absurd · hstate'), hother.2.symm⟩

theorem settleEnvironmentInput_writes (hone : s.OnePending) (hrow : s.reservations[id]? = some row)
    (hstate : state ≠ .pending) (hadmits : state = .admitted → P.key row.key ∧ P.admits)
    (h : settleEnvironmentInput now id row state s = .ok (reply, t)) : Writes P s t := by
  obtain ⟨row', hsettles, rfl⟩ | ⟨hpending, hstate', hpromote⟩ :=
    settleEnvironmentInput_ok hrow hstate h
  · exact .single (write_setReservation hrow (hsettles _))
  · obtain ⟨hkey, hadmits⟩ := hadmits hstate'
    exact promoteEnvironmentInput_writes hkey hadmits hone hrow hpending hpromote

theorem settleEnvironmentInputByID_writes (hone : s.OnePending) (hstate : state ≠ .pending)
    (hadmits : state = .admitted → P.admits ∧ ∀ row, s.reservations[id]? = some row → P.key row.key)
    (h : settleEnvironmentInputByID now id state s = .ok (reply, t)) : Writes P s t := by
  simp only [settleEnvironmentInputByID, withPublicSession, get_bind_ok, require_bind_ok,
    fetch_bind_ok] at h
  obtain ⟨-, row, hrow, h⟩ := h
  exact settleEnvironmentInput_writes hone hrow hstate
    (fun hstate' => ⟨(hadmits hstate').2 row hrow, (hadmits hstate').1⟩) h

theorem admitInputs_writes_self (hkey : P.key key) (hP : AdmitsFrom P now key s batch)
    (hfree : (∃ input ∈ batch, input.isMessage = true) → s.Free)
    (h : admitInputs now key position batch s = .ok (rs, t)) : Writes P s t := by
  have hwrites := admitInputs_writes s.reservations hkey hP hfree h
  have ht : { t with reservations := s.reservations } = t := by rw [← (admitInputs_frame h).1]
  rwa [ht] at hwrites

/-- A reservation would be added to the active Turn instead. -/
def Session.appends (s : Session π) : Bool :=
  s.getActiveTurn.any fun active => !active.2.artifactCaptureStarted

def newReservation (now : Int) (key : String) (batch : List (Input π)) (isInitial : Bool) :
    Reservation π :=
  { key, batch, isInitial, createdAt := now, deadline := now + reservationLifetime }

/-- What a `ReserveEnvironmentInput` that commits has found and done. -/
inductive Reserved (now : Int) (key : String) (batch : List (Input π)) (s : Session π) :
    EnvironmentInputReservation π → Session π → Prop
  | known {id : ReservationID} {row : Reservation π} {reply : EnvironmentInputReservation π}
      {t : Session π} (hfind : s.findReservation key = some id)
      (hrow : s.reservations[id]? = some row) (hbatch : row.batch = batch)
      (hsettle : settleEnvironmentInput now id row .expired s = .ok (reply, t)) :
      Reserved now key batch s reply t
  | replayed (hfind : s.findReservation key = none) (hrows : s.inputBatch key ≠ [])
      (hbatch : (s.inputBatch key).map (·.input) = batch) :
      Reserved now key batch s
        { state := .admitted, receipts := (s.inputBatch key).map (·.replay) } s
  | appended {rs : List InputReceipt} {t : Session π} (hfind : s.findReservation key = none)
      (hrows : s.inputBatch key = []) (hfree : s.Free) (happends : s.appends = true)
      (hadmitted : admitInputs now key 0 batch s = .ok (rs, t)) :
      Reserved now key batch s { state := .admitted, receipts := rs } t
  | created (hfind : s.findReservation key = none) (hrows : s.inputBatch key = [])
      (hfree : s.Free) (hkey : ∀ row ∈ s.reservations, row.key ≠ key)
      (hidle : s.appends = false) :
      Reserved now key batch s
        (environmentInputFromRow s.reservations.length (newReservation now key batch false))
        { s with reservations := s.reservations ++ [newReservation now key batch false] }

omit [DecidableEq π] [EmptyCollection π] in
theorem createReservation_ok {isInitial : Bool}
    (h : createReservation now key batch isInitial s = .ok (reply, t)) :
    reply = environmentInputFromRow s.reservations.length (newReservation now key batch isInitial) ∧
      t = { s with reservations :=
        s.reservations ++ [newReservation now key batch isInitial] } := by
  simp only [createReservation, get_bind_ok, set_bind_ok, pure_ok] at h
  exact ⟨h.1.symm, h.2.symm⟩

theorem reserveNew_ok (hfind : s.findReservation key = none) (hrows : s.inputBatch key = [])
    (h : reserveNew now key batch s = .ok (reply, t)) : Reserved now key batch s reply t := by
  obtain ⟨v, u, hfile, h⟩ := bind_ok.mp h
  obtain ⟨rfl, hblocks⟩ := checkEnvironmentFileWriteGate_ok hfile
  simp only [get_bind_ok, fetch_bind_ok, require_bind_ok] at h
  obtain ⟨environment, -, -, h⟩ := h
  obtain ⟨v', u', hgate, h⟩ := bind_ok.mp h
  obtain ⟨rfl, hpending, hkey⟩ := checkEnvironmentInputGate_ok hgate
  rcases ite_ok.mp h with ⟨happends, hadded⟩ | ⟨hidle, hcreate⟩
  · obtain ⟨rs, w, hadmitted, hdone⟩ := bind_ok.mp hadded
    obtain ⟨rfl, rfl⟩ := pure_ok.mp hdone
    exact .appended hfind hrows ⟨hpending, hblocks⟩ happends hadmitted
  · obtain ⟨rfl, rfl⟩ := createReservation_ok hcreate
    exact .created hfind hrows ⟨hpending, hblocks⟩ hkey (by simpa [Session.appends] using hidle)

theorem reserveEnvironmentInput_ok (h : reserveEnvironmentInput now key batch s = .ok (reply, t)) :
    validateInputs batch = true ∧ s.deletedAt = none ∧ Reserved now key batch s reply t := by
  simp only [reserveEnvironmentInput, withPublicSession, require_bind_ok, get_bind_ok] at h
  obtain ⟨hvalid, hpublic, h⟩ := h
  refine ⟨hvalid.2.2, hpublic, ?_⟩
  cases hfind : s.findReservation key with
  | some id =>
    simp only [hfind, fetch_bind_ok, require_bind_ok] at h
    obtain ⟨row, hrow, hbatch, h⟩ := h
    exact .known hfind hrow hbatch h
  | none =>
    simp only [hfind] at h
    obtain ⟨rs, u, hrows, h⟩ := bind_ok.mp h
    obtain ⟨rfl, rfl, hmatch⟩ := inputBatchReceipts_ok hrows
    rcases ite_ok.mp h with ⟨hne, hold⟩ | ⟨hempty, hfresh⟩
    · obtain ⟨rfl, rfl⟩ := pure_ok.mp hold
      have hrows : s.inputBatch key ≠ [] := fun hnil => hne (by simp [hnil])
      exact .replayed hfind hrows (hmatch hrows)
    · exact reserveNew_ok hfind (by simpa using hempty) hfresh

theorem Reserved.writes (hkey' : P.key key) (hone : s.OnePending)
    (hP : s.findReservation key = none → s.inputBatch key = [] → s.appends = true →
      AdmitsFrom P now key s batch)
    (h : Reserved now key batch s reply t) : Writes P s t := by
  cases h with
  | known hfind hrow hbatch hsettle =>
    exact settleEnvironmentInput_writes hone hrow (by simp) (fun h => by cases h) hsettle
  | replayed => exact .refl
  | appended hfind hrows hfree happends hadmitted =>
    exact admitInputs_writes_self hkey' (hP hfind hrows happends) (fun _ => hfree) hadmitted
  | created hfind hrows hfree hkey hidle =>
    refine .single (.reserve _ hkey' hfree rfl (fun old hold => hkey old hold) ?_)
    intro id turn hactive
    simpa [Session.appends, hactive] using hidle

theorem submitInputs_writes (hkey : P.key key)
    (hP : s.inputBatch key = [] → AdmitsFrom P now key s batch)
    (h : submitInputs now key batch s = .ok (rs, t)) : Writes P s t := by
  obtain ⟨-, -, ⟨-, -, rfl, -⟩ | ⟨hrows, -, -, hfree, hadmitted⟩⟩ := submitInputs_ok h
  · exact .refl
  · exact admitInputs_writes_self hkey (hP hrows) hfree hadmitted

omit [DecidableEq π] in
theorem recordFunctionState_ok {turn : Turn π}
    (hturn : s.turns[id]? = some turn) (haccepts : acceptsFunctionResult turn = true)
    (h : recordFunctionState now id turn s = .ok (v, t)) :
    t = { s with
      turns := s.turns.set id (turn.await now
        (if (s.pendingCalls id).isEmpty then .inProgress else .waiting)) } := by
  have hstatus : (if (acceptsFunctionResult turn && !(s.pendingCalls id).isEmpty) = true
      then TurnStatus.waiting else .inProgress) =
      (if (s.pendingCalls id).isEmpty then .inProgress else .waiting) := by
    rw [haccepts]
    cases (s.pendingCalls id).isEmpty <;> rfl
  simp only [recordFunctionState, get_bind_ok] at h
  rw [hstatus, ite_ok] at h
  generalize hgoal : (if (s.pendingCalls id).isEmpty then TurnStatus.inProgress else .waiting) =
    status at h ⊢
  have hnonterminal : terminalStatus status = false := by
    subst hgoal
    split <;> rfl
  rcases h with ⟨hne, h⟩ | ⟨heq, h⟩
  · simp only [fetch_bind_ok, set_ok] at h
    obtain ⟨u, hu, rfl⟩ := h
    simp only [Session.transitionTurn?, hturn] at hu
    split at hu
    · cases hu
      rw [Session.recordTurnChange_set hturn hnonterminal, Turn.await, if_pos hne]
    · cases hu
  · simp only [pure_ok] at h
    obtain ⟨hlength, hget⟩ := List.getElem?_eq_some_iff.mp hturn
    rw [Turn.await, if_neg heq, ← h.2, ← hget, List.set_getElem_self]

theorem recordFunctionCall_writes {callID executorCallID name : String} {arguments : π}
    (h : recordFunctionCall now id callID executorCallID name arguments s = .ok (v, t)) :
    Writes P s t := by
  simp only [recordFunctionCall, require_bind_ok, get_bind_ok, fetch_bind_ok] at h
  obtain ⟨-, turn, hturn, h⟩ := h
  cases hcall : s.findCall id callID with
  | some call =>
    simp only [hcall, require_ok] at h
    rw [h.2]
  | none =>
    simp only [hcall, require_bind_ok, modify_bind_ok] at h
    obtain ⟨haccepts, -, h⟩ := h
    let call : FunctionCall π := { turn := id, callID, executorCallID, name, arguments }
    have hstate := recordFunctionState_ok (s := { s with calls := s.calls ++ [call] }) hturn
      haccepts h
    have hpending : (Session.pendingCalls { s with calls := s.calls ++ [call] } id).isEmpty =
        false := by
      simp [Session.pendingCalls, call]
    rw [hpending] at hstate
    rw [hstate]
    exact .single (.recordCall now call hturn haccepts ⟨rfl, rfl⟩ hcall)

theorem submitFunctionResult_writes {callID : String} {result : π}
    (h : submitFunctionResult id callID result s = .ok (v, t)) : Writes P s t := by
  simp only [submitFunctionResult, storeFunctionResult, require_bind_ok, get_bind_ok,
    fetch_bind_ok] at h
  obtain ⟨-, turn, hturn, -, -, call, hcall, h⟩ := h
  cases hresult : call.result with
  | some stored =>
    simp only [hresult, require_ok] at h
    rw [h.2]
  | none =>
    simp only [hresult, require_bind_ok, modify_ok] at h
    rw [h.2]
    exact .single (.storeResult result hturn h.1 hcall hresult)

omit [DecidableEq π] in
theorem confirmFunctionResult_write {callID : String}
    (hconfirm : P.confirm) (h : confirmFunctionResult now id callID s = .ok (v, t)) :
    s = t ∨ Write P s t := by
  simp only [confirmFunctionResult, require_bind_ok, get_bind_ok, fetch_bind_ok, ite_ok,
    modify_bind_ok] at h
  obtain ⟨-, turn, hturn, call, hcall, ⟨-, h⟩ | ⟨-, ⟨hresult, haccepts⟩, h⟩⟩ := h
  · simp only [pure_ok] at h
    exact .inl h.2
  · rw [recordFunctionState_ok (s := s.applyFunctionResult id callID) hturn haccepts h]
    exact .inr (.applyResult now hconfirm hturn haccepts hcall hresult)

omit [DecidableEq π] [EmptyCollection π] in
theorem Turn.appendEvents_nil (turn : Turn π) : turn.appendEvents [] = turn := by
  simp [Turn.appendEvents]

theorem claimTurn_writes
    (h : transitionTurnCall now id .queued .inProgress ∅ s = .ok (v, t)) : Writes P s t := by
  simp only [transitionTurnCall, require_bind_ok] at h
  exact .single (transitionTurn_claims h.2.2)

theorem failTurn_writes {expected : TurnStatus} {outcome : π}
    (h : transitionTurnCall now id expected .failed outcome s = .ok (v, t)) : Writes P s t := by
  simp only [transitionTurnCall, require_bind_ok] at h
  obtain ⟨turn, hturn, hmay, rfl⟩ := transitionTurn_ok h.2.2
  simp only [Turn.mayTransition, Bool.and_eq_true] at hmay
  have hfinish := Write.finish (P := P) now outcome [] hturn hmay.1.2
    (show terminalStatus .failed = true from rfl) (fun h => by cases h)
  rw [Turn.appendEvents_nil] at hfinish
  exact .single hfinish

theorem modify_set {α : Type} (l : List α) (i : Nat) (a : α) (f : α → α) :
    (l.set i a).modify i f = l.set i (f a) := by
  apply List.ext_getElem?
  intro j
  rw [List.getElem?_modify, List.getElem?_set, List.getElem?_set]
  split <;> simp_all [Option.map_if]

omit [DecidableEq π] in
theorem completeExecution_writes {status : TurnStatus} {outcome : π}
    {size : Nat} (hcompletes : status = .completed → P.completes)
    (h : completeExecution now id status outcome size appliedThrough s = .ok (v, t)) :
    Writes P s t := by
  simp only [completeExecution, require_bind_ok, get_bind_ok, fetch_bind_ok, set_ok] at h
  obtain ⟨hterminal, turn, hturn, hrunning, -, u, hu, rfl⟩ := h
  simp only [Session.transitionTurn?, hturn] at hu
  split at hu
  · next hmay =>
    cases hu
    simp only [Turn.mayTransition, Bool.and_eq_true] at hmay
    rw [modify_set]
    refine .single (.finish now outcome _ hturn hmay.1.2 hterminal fun hcompleted => ?_)
    exact ⟨hrunning.resolve_right fun hwaiting => hwaiting.2 hcompleted, hcompletes hcompleted⟩
  · cases hu

theorem appendTurnEvents_writes {first : Nat} {events : List (ExecutionEvent π)}
    (h : appendTurnEvents id first events s = .ok (v, t)) : Writes P s t := by
  simp only [appendTurnEvents, require_bind_ok, get_bind_ok, fetch_bind_ok, ite_ok,
    require_ok, modify_ok] at h
  obtain ⟨-, -, turn, hturn, ⟨-, -, rfl⟩ | ⟨-, hrunning, -, rfl⟩⟩ := h
  · exact .refl
  · exact .single (.appendEvents events hturn hrunning.1)

section

omit [DecidableEq π]

theorem beginTurnArtifactCapture_writes
    (h : beginTurnArtifactCapture id appliedThrough s = .ok (v, t)) : Writes P s t := by
  simp only [beginTurnArtifactCapture, require_bind_ok, get_bind_ok, fetch_bind_ok, set_ok] at h
  obtain ⟨turn, hturn, hrunning, -, -, rfl⟩ := h
  exact .single (.beginCapture hturn hrunning.1 hrunning.2)

theorem stageTurnArtifacts_writes {input : ArchiveStream}
    (hstages : P.stages) (h : stageTurnArtifacts id input s = .ok (v, t)) : Writes P s t := by
  simp only [stageTurnArtifacts, get_bind_ok, fetch_bind_ok, require_bind_ok] at h
  obtain ⟨environment, -, -, h⟩ := h
  cases hcapture : captureArtifactArchive input with
  | error e => simp [hcapture] at h
  | ok files =>
    simp only [hcapture, require_bind_ok, fetch_bind_ok, set_ok] at h
    obtain ⟨hpublic, turn, hturn, hrunning, hfresh, rfl⟩ := h
    exact .single (.stage hstages hturn hrunning.1 hrunning.2 hpublic hcapture hfresh)

theorem reserveEnvironmentFileWrite_writes {key : FileWriteIdentity} {row : FileWrite}
    (h : reserveEnvironmentFileWrite now key s = .ok (row, t)) : Writes P s t := by
  simp only [reserveEnvironmentFileWrite, withPublicSession, require_bind_ok, get_bind_ok] at h
  obtain ⟨-, -, h⟩ := h
  cases hfind : s.findFileWrite key.id with
  | some previous =>
    simp only [hfind, require_bind_ok, pure_ok] at h
    rw [h.2.2]
  | none =>
    simp only [hfind, fetch_bind_ok, require_bind_ok] at h
    obtain ⟨environment, -, -, device, -, -, h⟩ := h
    obtain ⟨v, u, hstart, h⟩ := bind_ok.mp h
    obtain ⟨rfl, hblocks, hidle⟩ := environmentInputMayStart_ok hstart
    simp only [require_bind_ok, set_bind_ok, pure_ok, Bool.not_eq_true'] at h
    rw [← h.2.2]
    exact .single (.createFileWrite _ hidle ⟨h.1, hblocks⟩)

theorem settleEnvironmentFileWrite_writes {key : FileWriteIdentity} {state : FileWriteState}
    (h : settleEnvironmentFileWrite now key state s = .ok (v, t)) : Writes P s t := by
  simp only [settleEnvironmentFileWrite, require_bind_ok, get_bind_ok, fetch_bind_ok, ite_ok,
    pure_ok, set_ok] at h
  obtain ⟨hvalid, current, -, -, ⟨-, -, rfl⟩ | ⟨-, rfl⟩⟩ := h
  · exact .refl
  · exact .single (.settleFileWrite now key.id hvalid.2)

theorem settleReservations_write (hstate : state ≠ .pending) (hadmitted : state ≠ .admitted) :
    Write P s (s.settleReservations now state) :=
  .settle _ (.map fun row => row.settles_settle now hstate fun h => absurd h hadmitted)

theorem cancelSessionWork_writes : Writes P s (s.cancelSessionWork now) := by
  unfold Session.cancelSessionWork
  cases hactive : s.getActiveTurn with
  | none => exact .single (settleReservations_write (by simp) (by simp))
  | some active =>
    exact .head (.requestTurnCancel now hactive)
      (.single (settleReservations_write (by simp) (by simp)))

theorem cleanup_writes {expired : Bool} : Writes P s (s.cleanup now expired) := by
  simp only [Session.cleanup, Session.terminateEnvironment]
  refine .head (.environment (s.environment.map fun (environment : Environment) =>
    { environment with device := none })) ?_
  split
  · exact cancelSessionWork_writes
  · exact .head (.environment _) (.head (settleReservations_write (by simp) (by simp))
      cancelSessionWork_writes)

omit [EmptyCollection π] in
theorem Session.deletedAt_cancelSessionWork :
    (s.cancelSessionWork now).deletedAt = s.deletedAt := by
  simp only [Session.cancelSessionWork, Session.settleReservations]
  cases s.getActiveTurn <;> simp

theorem deleteSession_writes (h : deleteSession now s = .ok (v, t)) : Writes P s t := by
  simp only [deleteSession, withPublicSession, get_bind_ok, require_bind_ok, modify_bind_ok,
    modify_ok] at h
  obtain ⟨hpublic, rfl⟩ := h
  have hdeleted : (s.cancelSessionWork now).deleteSessionArtifacts.deletedAt = none :=
    Session.deletedAt_cancelSessionWork.trans hpublic
  rw [hdeleted]
  exact cancelSessionWork_writes.tail (.delete now hdeleted)

theorem environmentChanges_writes {status : EnvironmentStatus} {device : Option Device}
    (h : environmentChanges status device s = .ok (v, t)) : Writes P s t := by
  simp only [environmentChanges, get_bind_ok, fetch_bind_ok, require_bind_ok, set_ok] at h
  obtain ⟨environment, -, -, rfl⟩ := h
  exact .single (.environment _)

end

/-- What of `P` a call needs that brings no batch. -/
def Op.Performs (P : Permits π) : Op π → Prop
  | .confirmFunctionResult .. => P.confirm
  | .completeExecution _ _ status .. => status = .completed → P.completes
  | .stageTurnArtifacts .. => P.stages
  | _ => True

def Op.Admits (P : Permits π) (s : Session π) : Op π → Prop
  | .submitInputs now key batch =>
    P.key key ∧ (s.inputBatch key = [] → AdmitsFrom P now key s batch)
  | .reserveEnvironmentInput now key batch =>
    P.key key ∧ (s.findReservation key = none → s.inputBatch key = [] → s.appends = true →
      AdmitsFrom P now key s batch)
  | .settleEnvironmentInput _ id settlement => settlement.state = .admitted →
    P.admits ∧ ∀ row, s.reservations[id]? = some row → P.key row.key
  | op => op.Performs P

theorem Op.writes {op : Op π}
    (hone : s.OnePending) (hP : op.Admits P s) (h : step s op = some t) : Writes P s t := by
  obtain ⟨reply, hcall⟩ := step_eq_some.mp h
  cases op
  all_goals obtain ⟨r, hr, -⟩ := map_ok.mp hcall
  case submitInputs => exact submitInputs_writes hP.1 hP.2 hr
  case reserveEnvironmentInput => exact (reserveEnvironmentInput_ok hr).2.2.writes hP.1 hone hP.2
  case settleEnvironmentInput now id settlement =>
    exact settleEnvironmentInputByID_writes hone (by cases settlement <;> simp [Settlement.state])
      hP hr
  case recordFunctionCall => exact recordFunctionCall_writes hr
  case submitFunctionResult => exact submitFunctionResult_writes hr
  case confirmFunctionResult =>
    rcases confirmFunctionResult_write hP hr with rfl | hwrite
    · exact .refl
    · exact .single hwrite
  case claimTurn => exact claimTurn_writes hr
  case failTurn => exact failTurn_writes hr
  case completeExecution => exact completeExecution_writes hP hr
  case appendTurnEvents => exact appendTurnEvents_writes hr
  case beginTurnArtifactCapture => exact beginTurnArtifactCapture_writes hr
  case stageTurnArtifacts => exact stageTurnArtifacts_writes hP hr
  case reserveEnvironmentFileWrite => exact reserveEnvironmentFileWrite_writes hr
  case settleEnvironmentFileWrite => exact settleEnvironmentFileWrite_writes hr
  case requestRuntimeCleanup now expired =>
    have ht : t = s.cleanup now expired := modify_ok.mp hr
    rw [ht]
    exact cleanup_writes
  case deleteSession => exact deleteSession_writes hr
  case environmentChanges => exact environmentChanges_writes hr
  case otherInputs count =>
    have ht : t = { s with sequence := s.sequence + count } := modify_ok.mp hr
    rw [ht]
    exact .single (.otherInputs count)

omit [DecidableEq π] in
theorem Write.onePending (h : Write P s t) (hs : s.OnePending) : t.OnePending := by
  cases h with
  | reserve row hkey hfree =>
    exact atMostOne_append (Session.hasPendingInput_eq_false.mp hfree.1) row
  | settle rows hsettles =>
    refine hs.grows hsettles ?_ fun _ hfalse => hfalse.elim
    rintro x y (rfl | ⟨-, now, state, hstate, -, rfl⟩) hpending
    · exact hpending
    · exact absurd hpending hstate
  | requestTurnCancel | finish | stage => simpa [Session.OnePending] using hs
  | _ => exact hs

omit [DecidableEq π] in
theorem Writes.invariant {I : Session π → Prop} (hwrite : ∀ s t, Write P s t → I s → I t)
    (h : Writes P s t) (hs : I s) : I t := by
  induction h with
  | refl => exact hs
  | tail _ hlast ih => exact hwrite _ _ hlast ih

theorem run_writes {ops : List (Op π)}
    (hone : s.OnePending) (hops : StepsMeet step (fun s op => op.Admits P s) s ops)
    (hrun : runTrace step s ops = some t) : Writes P s t := by
  have hstep : ∀ u op v, op.Admits P u → step u op = some v → Writes P s u ∧ u.OnePending →
      Writes P s v ∧ v.OnePending := by
    intro u op v hP huv hu
    have hwrites := Op.writes hu.2 hP huv
    exact ⟨hu.1.trans hwrites, hwrites.invariant (fun _ _ => Write.onePending) hu.2⟩
  exact (runTrace_invariant hstep hops hrun ⟨.refl, hone⟩).1

omit [DecidableEq π] [EmptyCollection π] in
theorem onePending_new (sequence : Nat) : Session.OnePending (π := π) { sequence } := by
  intro i j a b ha
  cases ha

theorem Started.writes (hkey : ∀ key, P.key key) (h : Started s) :
    ∃ sequence, Writes P { sequence } s := by
  obtain ⟨now, environment, key, inputs, sequence, h⟩ := h
  refine ⟨sequence, ?_⟩
  simp only [createSession, require_bind_ok, modify_bind_ok, ite_ok] at h
  have hfree : Session.Free (π := π) { sequence, environment } := ⟨rfl, rfl⟩
  have hall : Session.AllNew (π := π) { sequence, environment } := by
    intro id turn hturn
    cases hturn
  refine .head (.environment environment) ?_
  obtain ⟨-, ⟨-, h⟩ | ⟨-, ⟨-, h⟩ | ⟨-, h⟩⟩⟩ := h
  · obtain ⟨-, rfl⟩ := pure_ok.mp h
    exact .refl
  · obtain ⟨reply, u, hu, h⟩ := bind_ok.mp h
    obtain ⟨-, rfl⟩ := pure_ok.mp h
    rw [(createReservation_ok hu).2]
    refine .single (.reserve _ (hkey _) hfree rfl (fun old hold => by cases hold) ?_)
    intro id turn hactive
    cases hactive
  · obtain ⟨rs, u, hadmitted, hu⟩ := bind_ok.mp h
    obtain ⟨-, rfl⟩ := pure_ok.mp hu
    exact admitInputs_writes_self (hkey _) (admitsFrom_of_allNew hall) (fun _ => hfree) hadmitted

def Permits.all : Permits π := {}

theorem admitsFrom_of_message (hmessage : ∀ turn, P.message turn) :
    AdmitsFrom P now key s batch := by
  induction batch generalizing s with
  | nil => trivial
  | cons input batch ih => exact ⟨fun _ _ turn _ => hmessage turn, fun _ _ _ _ => ih⟩

theorem Op.admits_of_performs {op : Op π} (hmessage : ∀ turn, P.message turn)
    (hkey : ∀ key, P.key key) (hadmits : P.admits) (hop : op.Performs P) : op.Admits P s := by
  cases op with
  | submitInputs now key batch => exact ⟨hkey key, fun _ => admitsFrom_of_message hmessage⟩
  | reserveEnvironmentInput now key batch =>
    exact ⟨hkey key, fun _ _ _ => admitsFrom_of_message hmessage⟩
  | settleEnvironmentInput now id settlement => exact fun _ => ⟨hadmits, fun row _ => hkey row.key⟩
  | _ => exact hop

theorem Op.admits_all (op : Op π) : op.Admits .all s := by
  refine Op.admits_of_performs (fun _ => trivial) (fun _ => trivial) trivial ?_
  cases op with
  | completeExecution now id status outcome size appliedThrough => exact fun _ => trivial
  | _ => trivial

theorem Reached.tail {op : Op π} (h : Reached s) (hstep : step s op = some t) :
    Reached t := by
  obtain ⟨s₀, ops, hstarted, hrun⟩ := h
  exact ⟨s₀, ops ++ [op], hstarted, runTrace_concat hrun hstep⟩

theorem Reached.writes (h : Reached s) : ∃ sequence, Writes .all { sequence } s := by
  obtain ⟨s₀, ops, hstarted, hrun⟩ := h
  obtain ⟨sequence, hstart⟩ := hstarted.writes (P := .all) (fun _ => trivial)
  have hone := hstart.invariant (fun _ _ => Write.onePending) (onePending_new sequence)
  have hops : StepsMeet step (fun s op => op.Admits .all s) s₀ ops :=
    (stepsMeet_true s₀ ops).imp fun _ op _ => op.admits_all
  exact ⟨sequence, hstart.trans (run_writes hone hops hrun)⟩

theorem Reached.invariant {I : Session π → Prop} (hstart : ∀ sequence, I { sequence })
    (hwrite : ∀ s t, Write .all s t → I s → I t) (h : Reached s) : I s := by
  obtain ⟨sequence, hwrites⟩ := h.writes
  exact hwrites.invariant hwrite (hstart sequence)

end Parsar.Turns
