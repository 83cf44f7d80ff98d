import Parsar.Turns.Session

namespace Parsar.Turns

open GoStd Tx

variable {π : Type}

namespace Session

def publishTurnArtifacts (s : Session π) (id : TurnID) (createdAt : Option Int) : Session π :=
  { s with
    artifacts := s.artifacts.map fun row =>
      if row.turn = id ∧ row.createdAt = none then { row with createdAt } else row }

/-- Delete the rows `gone` selects together with their large objects. -/
def deleteArtifacts (s : Session π) (gone : Artifact → Bool) : Session π :=
  { s with
    artifacts := s.artifacts.filter (!gone ·)
    objects := s.objects.filter fun object =>
      !s.artifacts.any fun row => gone row && row.bodyOid == object.1 }

def deleteUnpublishedTurnArtifacts (s : Session π) (id : TurnID) : Session π :=
  s.deleteArtifacts fun row => row.turn == id && row.createdAt.isNone

def deleteSessionArtifacts (s : Session π) : Session π := s.deleteArtifacts fun _ => true

def settleTurnArtifacts (s : Session π) (id : TurnID) (turn : Turn π) : Session π :=
  if turn.status = .completed then s.publishTurnArtifacts id turn.completedAt
  else s.deleteUnpublishedTurnArtifacts id

/-- What `recordTurnChange` does to these rows; the Items and the event stream are elsewhere. -/
def recordTurnChange (s : Session π) (id : TurnID) : Session π :=
  match s.turns[id]? with
  | some turn => if terminalStatus turn.status then s.settleTurnArtifacts id turn else s
  | none => s

end Session

/-- The `UPDATE` of `RequestTurnCancel` on the row of an active Turn. -/
def Turn.requestCancel (turn : Turn π) (now : Int) : Turn π :=
  if turn.status.active then
    { turn with
      cancelRequestedAt := turn.cancelRequestedAt.or (some now)
      completedAt := if turn.status = .queued then some now else turn.completedAt
      status := if turn.status = .queued then .cancelled else turn.status }
  else turn

/-- The `WHERE` of the SQL `TransitionTurn`. -/
def Turn.mayTransition (turn : Turn π) (expected new : TurnStatus) : Bool :=
  turn.status == expected && turn.status.active &&
    (new != .inProgress || turn.cancelRequestedAt.isNone)

/-- The `SET` of the SQL `TransitionTurn`. -/
def Turn.transition (turn : Turn π) (now : Int) (new : TurnStatus) (outcome : π) : Turn π :=
  { turn with
    status := new
    outcome
    startedAt := if new = .inProgress then turn.startedAt.or (some now) else turn.startedAt
    completedAt := if terminalStatus new then some now else none }

namespace Session

/-- `requestTurnCancel` with the row its caller has read. -/
def requestTurnCancel (s : Session π) (now : Int) (id : TurnID) (turn : Turn π) : Session π :=
  let s := { s with turns := s.turns.modify id (·.requestCancel now) }
  if turn.status = .queued then s.recordTurnChange id else s

/-- The SQL `TransitionTurn`; `none` where no row is returned. -/
def transitionTurn? (s : Session π) (now : Int) (id : TurnID) (expected new : TurnStatus)
    (outcome : π) : Option (Session π) :=
  match s.turns[id]? with
  | some turn =>
    if turn.mayTransition expected new then
      some { s with turns := s.turns.set id (turn.transition now new outcome) }
    else none
  | none => none

end Session

def transitionTurn (now : Int) (id : TurnID) (expected new : TurnStatus) (outcome : π) :
    SessionTx π Unit := do
  let s ← get
  let _ ← fetch s.turns[id]? StoreError.notFound
  let s ← fetch (s.transitionTurn? now id expected new outcome) .turnConflict
  set (s.recordTurnChange id)

structure InputReceipt where
  sequence : Nat
  turn : Option TurnID
  replayed : Bool
  deriving DecidableEq, Repr

def validateInputKey (key : String) : Bool := trimSpace key ≠ "" && (utf8 key).length ≤ 128

/-- What is left of `validateInputs` on a decoded batch. -/
def validateInputs (batch : List (Input π)) : Bool := 1 ≤ batch.length && batch.length ≤ 64

def withPublicSession {α : Type} (apply : SessionTx π α) : SessionTx π α := do
  let s ← get
  require (s.deletedAt = none) StoreError.notFound
  apply

def acceptsFunctionResult (turn : Turn π) : Bool :=
  (turn.status == .inProgress || turn.status == .waiting) && turn.cancelRequestedAt.isNone

namespace Session

/-- The SQL `SubmitFunctionResult`. -/
def storeResult (s : Session π) (id : TurnID) (callID : String) (result : π) : Session π :=
  { s with
    calls := s.calls.map fun row =>
      if row.turn = id ∧ row.callID = callID then { row with result := some result } else row }

/-- The SQL `CreateTurnInput`. -/
def insertInput (s : Session π) (turn : Option TurnID) (key : String) (input : Input π)
    (position : Nat) : Session π :=
  { s with
    sequence := s.sequence + 1
    inputs := s.inputs ++
      [{ sequence := s.sequence + 1, turn, key, input, position,
         target := turn.bind (s.turns[·]?) }] }

/-- The SQL `CreateTurn`. -/
def createTurn [EmptyCollection π] (s : Session π) (now : Int) : Session π :=
  { s with turns := s.turns ++ [{ createdAt := now, outcome := ∅ }] }

end Session

section Admission

variable [DecidableEq π]

def storeFunctionResult (id : TurnID) (turn : Turn π) (callID : String) (result : π) :
    SessionTx π Unit := do
  let s ← get
  let call ← fetch (s.findCall id callID) StoreError.notFound
  match call.result with
  | some stored => require (stored = result) .idempotencyConflict
  | none =>
    require (acceptsFunctionResult turn) .turnConflict
    modify (·.storeResult id callID result)

def createTurnInput (turn : Option TurnID) (key : String) (input : Input π) (position : Nat) :
    SessionTx π InputReceipt := do
  let s ← get
  set (s.insertInput turn key input position)
  return { sequence := s.sequence + 1, turn, replayed := false }

def admitFunctionResult (key : String) (position : Nat) (id : TurnID) (callID : String)
    (result : π) : SessionTx π InputReceipt := do
  let s ← get
  let turn ← fetch s.turns[id]? StoreError.notFound
  storeFunctionResult id turn callID result
  createTurnInput (some id) key (.toolResult id callID result) position

variable [EmptyCollection π]

/-- The Turn a message or a cancellation goes to: the active one; a message to an idle Session
creates one. -/
def targetTurn (now : Int) (input : Input π) : SessionTx π (Option (TurnID × Turn π)) := do
  let s ← get
  match s.getActiveTurn with
  | some active => return some active
  | none =>
    if input.isMessage then
      set (s.createTurn now)
      return some (s.turns.length, { createdAt := now, outcome := ∅ })
    else return none

def admitInput (now : Int) (key : String) (position : Nat) (input : Input π) :
    SessionTx π InputReceipt :=
  match input with
  | .toolResult id callID result => admitFunctionResult key position id callID result
  | .message _ => do
    let turn ← targetTurn now input
    createTurnInput (turn.map (·.1)) key input position
  | .cancel => do
    let turn ← targetTurn now input
    let receipt ← createTurnInput (turn.map (·.1)) key input position
    match turn with
    | some (id, row) => modify (·.requestTurnCancel now id row)
    | none => pure ()
    return receipt

def admitInputs (now : Int) (key : String) : Nat → List (Input π) → SessionTx π (List InputReceipt)
  | _, [] => pure []
  | position, input :: batch => do
    let receipt ← admitInput now key position input
    let receipts ← admitInputs now key (position + 1) batch
    return receipt :: receipts

def TurnInput.replay (row : TurnInput π) : InputReceipt :=
  { sequence := row.sequence, turn := row.turn, replayed := true }

def inputBatchReceipts (key : String) (batch : List (Input π)) :
    SessionTx π (List InputReceipt) := do
  let s ← get
  let rows := s.inputBatch key
  require (rows = [] ∨ rows.map (·.input) = batch) StoreError.idempotencyConflict
  return rows.map (·.replay)

def checkEnvironmentFileWriteGate : SessionTx π Unit := do
  let s ← get
  require (!s.fileWriteBlocks) StoreError.turnConflict

def checkEnvironmentInputGate (key : String) (batch : List (Input π)) : SessionTx π Unit := do
  let s ← get
  require (∀ row ∈ s.reservations, row.key = key → row.batch = batch) StoreError.idempotencyConflict
  require (!s.reservations.any fun row => row.state == .pending || row.key == key)
    StoreError.turnConflict

def submitInputs (now : Int) (key : String) (batch : List (Input π)) :
    SessionTx π (List InputReceipt) := do
  require (validateInputKey key ∧ validateInputs batch) StoreError.invalidInput
  withPublicSession do
    let previous ← inputBatchReceipts key batch
    if previous ≠ [] then return previous
    else do
      if batch.any (·.isMessage) then checkEnvironmentFileWriteGate else pure ()
      checkEnvironmentInputGate key batch
      admitInputs now key 0 batch

structure EnvironmentInputReservation (π : Type) where
  id : Option ReservationID := none
  state : ReservationState
  isInitial : Bool := false
  inputs : List (Input π) := []
  createdAt : Option Int := none
  deadline : Option Int := none
  settledAt : Option Int := none
  receipts : List InputReceipt := []
  deriving DecidableEq

def environmentInputFromRow (id : ReservationID) (row : Reservation π) :
    EnvironmentInputReservation π :=
  { id := some id, state := row.state, isInitial := row.isInitial, inputs := row.batch,
    createdAt := some row.createdAt, deadline := some row.deadline, settledAt := row.settledAt }

def environmentInputOutcome (id : ReservationID) (row : Reservation π) :
    SessionTx π (EnvironmentInputReservation π) :=
  if row.state ≠ .admitted then return environmentInputFromRow id row
  else do
    let receipts ← inputBatchReceipts row.key row.batch
    require (receipts ≠ []) (StoreError.internal "admitted Environment input has no receipts")
    return { environmentInputFromRow id row with receipts }

def environmentInputMayStart : SessionTx π Unit := do
  checkEnvironmentFileWriteGate
  let s ← get
  require (s.getActiveTurn = none) StoreError.turnConflict

/-- `ExpireEnvironmentInputReservation`. -/
def Reservation.expire (row : Reservation π) (now : Int) : Reservation π :=
  if row.state = .pending ∧ row.deadline ≤ now then
    { row with state := .expired, settledAt := some now }
  else row

/-- `SettleEnvironmentInputReservation` and its two variants for a whole Session. -/
def Reservation.settle (row : Reservation π) (now : Int) (state : ReservationState) :
    Reservation π :=
  if row.state = .pending then { row with state, settledAt := some now } else row

def Session.setReservation (s : Session π) (id : ReservationID) (row : Reservation π) :
    Session π :=
  { s with reservations := s.reservations.set id row }

def promoteEnvironmentInput (now : Int) (id : ReservationID) (row : Reservation π) :
    SessionTx π (EnvironmentInputReservation π) := do
  environmentInputMayStart
  let receipts ← admitInputs now row.key 0 row.batch
  modify (·.setReservation id (row.settle now .admitted))
  let turn ← fetch (receipts.head?.bind (·.turn)) (StoreError.internal "invalid UUID")
  transitionTurn now turn .queued .inProgress ∅
  return { environmentInputFromRow id (row.settle now .admitted) with receipts }

def settleEnvironmentInput (now : Int) (id : ReservationID) (row : Reservation π)
    (state : ReservationState) : SessionTx π (EnvironmentInputReservation π) :=
  if row.state ≠ .pending then environmentInputOutcome id row
  else do
    modify (·.setReservation id (row.expire now))
    if (row.expire now).state ≠ .pending ∨ state = .expired then
      environmentInputOutcome id (row.expire now)
    else if state = .admitted then promoteEnvironmentInput now id (row.expire now)
    else do
      modify (·.setReservation id ((row.expire now).settle now state))
      return environmentInputFromRow id ((row.expire now).settle now state)

def settleEnvironmentInputByID (now : Int) (id : ReservationID) (state : ReservationState) :
    SessionTx π (EnvironmentInputReservation π) :=
  withPublicSession do
    let s ← get
    let row ← fetch s.reservations[id]? StoreError.notFound
    settleEnvironmentInput now id row state

def reservationLifetime : Int := 300

/-- `CreateEnvironmentInputReservation`. -/
def createReservation (now : Int) (key : String) (batch : List (Input π)) (isInitial : Bool) :
    SessionTx π (EnvironmentInputReservation π) := do
  let s ← get
  let row : Reservation π :=
    { key, batch, isInitial, createdAt := now, deadline := now + reservationLifetime }
  set { s with reservations := s.reservations ++ [row] }
  return environmentInputFromRow s.reservations.length row

def reserveNew (now : Int) (key : String) (batch : List (Input π)) :
    SessionTx π (EnvironmentInputReservation π) := do
  checkEnvironmentFileWriteGate
  let s ← get
  let environment ← fetch s.environment StoreError.invalidInput
  require (!environment.status.ended) StoreError.environmentUnavailable
  checkEnvironmentInputGate key batch
  -- later messages of a Turn whose outputs are being captured wait for the next Turn
  if s.getActiveTurn.any fun active => !active.2.artifactCaptureStarted then do
    let receipts ← admitInputs now key 0 batch
    return { state := .admitted, receipts }
  else createReservation now key batch false

def reserveEnvironmentInput (now : Int) (key : String) (batch : List (Input π)) :
    SessionTx π (EnvironmentInputReservation π) := do
  require (validateInputKey key ∧ batch.all (·.isMessage) ∧ validateInputs batch)
    StoreError.invalidInput
  withPublicSession do
    let s ← get
    match s.findReservation key with
    | some id => do
      let row ← fetch s.reservations[id]? StoreError.notFound
      require (row.batch = batch) StoreError.idempotencyConflict
      settleEnvironmentInput now id row .expired
    | none => do
      let receipts ← inputBatchReceipts key batch
      if receipts ≠ [] then return { state := .admitted, receipts }
      else reserveNew now key batch

end Admission

end Parsar.Turns
