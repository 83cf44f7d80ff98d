import Mathlib.Algebra.GroupWithZero.Nat
import Parsar.Turns.Admission

namespace Parsar.Turns

open GoStd Tx

variable {π : Type}

def validFunctionIdentity (id : String) : Bool := trimSpace id ≠ "" && (utf8 id).length ≤ 512

section Functions

variable [DecidableEq π] [EmptyCollection π]

/-- `recordFunctionState` with the row its caller has read; an update without a row is a plain
error. -/
def recordFunctionState (now : Int) (id : TurnID) (turn : Turn π) : SessionTx π Unit := do
  let s ← get
  let waits := acceptsFunctionResult turn && !(s.pendingCalls id).isEmpty
  let status := if waits then TurnStatus.waiting else .inProgress
  if turn.status ≠ status then do
    let s ← fetch (s.transitionTurn? now id turn.status status ∅) (StoreError.internal "no rows")
    set (s.recordTurnChange id)
  else pure ()

/-- `RecordFunctionCall`, for a call without a result. -/
def recordFunctionCall (now : Int) (id : TurnID) (callID executorCallID name : String)
    (arguments : π) : SessionTx π Unit := do
  require (validFunctionIdentity callID ∧ validFunctionIdentity executorCallID ∧
    validFunctionIdentity name) StoreError.invalidInput
  let s ← get
  let turn ← fetch s.turns[id]? StoreError.notFound
  match s.findCall id callID with
  | some call =>
    require (call.executorCallID = executorCallID ∧ call.name = name ∧ call.arguments = arguments)
      StoreError.idempotencyConflict
  | none => do
    require (acceptsFunctionResult turn) StoreError.turnConflict
    -- `ON CONFLICT DO NOTHING`: another call of the Turn may have the executor's id
    require (∀ call ∈ s.calls, call.turn = id → call.executorCallID ≠ executorCallID)
      StoreError.idempotencyConflict
    modify fun s => { s with
      calls := s.calls ++ [{ turn := id, callID, executorCallID, name, arguments }] }
    recordFunctionState now id turn

def submitFunctionResult (id : TurnID) (callID : String) (result : π) : SessionTx π Unit := do
  require (validFunctionIdentity callID) StoreError.invalidInput
  let s ← get
  let turn ← fetch s.turns[id]? StoreError.notFound
  let _ ← fetch (s.findCall id callID) StoreError.notFound
  storeFunctionResult id turn callID result

def Session.applyFunctionResult (s : Session π) (id : TurnID) (callID : String) : Session π :=
  { s with
    calls := s.calls.map fun row =>
      if row.turn = id ∧ row.callID = callID then { row with applied := true } else row }

def confirmFunctionResult (now : Int) (id : TurnID) (callID : String) : SessionTx π Unit := do
  require (validFunctionIdentity callID) StoreError.invalidInput
  let s ← get
  let turn ← fetch s.turns[id]? StoreError.notFound
  let call ← fetch (s.findCall id callID) StoreError.notFound
  if call.applied then pure ()
  else do
    require (call.result.isSome ∧ acceptsFunctionResult turn) StoreError.turnConflict
    modify (·.applyFunctionResult id callID)
    recordFunctionState now id turn

end Functions

/-- `TransitionTurn` as an execution callback. -/
def transitionTurnCall [DecidableEq π] [EmptyCollection π] (now : Int) (id : TurnID)
    (expected new : TurnStatus) (outcome : π) : SessionTx π Unit := do
  require (validTransition expected new) StoreError.invalidInput
  require (terminalStatus new ∨ outcome = ∅) StoreError.invalidInput
  transitionTurn now id expected new outcome

def executionKind : TurnStatus → String
  | .queued => "execution_queued"
  | .inProgress => "execution_in_progress"
  | .waiting => "execution_waiting"
  | .completed => "execution_completed"
  | .failed => "execution_failed"
  | .cancelled => "execution_cancelled"

/-- `InsertTurnEventBatch` and `CountTurnEvent`. -/
def Turn.appendEvents (turn : Turn π) (events : List (ExecutionEvent π)) : Turn π :=
  { turn with
    events := turn.events ++ events
    eventBytes := turn.eventBytes + (events.map (·.size)).sum }

def completeExecution (now : Int) (id : TurnID) (status : TurnStatus) (outcome : π) (size : Nat)
    (appliedThrough : Nat) : SessionTx π Unit := do
  require (terminalStatus status) StoreError.invalidInput
  let s ← get
  let current ← fetch s.turns[id]? StoreError.notFound
  require (current.status = .inProgress ∨ current.status = .waiting ∧ status ≠ .completed)
    StoreError.turnConflict
  require (status = .completed → !s.hasUnappliedMessages id appliedThrough)
    StoreError.unappliedInputs
  let s ← fetch (s.transitionTurn? now id current.status status outcome) StoreError.turnConflict
  let event : ExecutionEvent π := { kind := executionKind status, payload := outcome, size }
  let s := { s with turns := s.turns.modify id (·.appendEvents [event]) }
  set (s.recordTurnChange id)

def maxTurnEvents : Nat := 65536
def maxTurnEventBytes : Nat := 32 * 1024 * 1024
def maxEventBatch : Nat := 64
def maxEventBatchBytes : Nat := 1024 * 1024

/-- What `jsonb` compares of an event. -/
def ExecutionEvent.content (event : ExecutionEvent π) : String × π := (event.kind, event.payload)

def Turn.eventBatch (turn : Turn π) (first count : Nat) : List (ExecutionEvent π) :=
  (turn.events.drop (first - 1)).take count

def appendTurnEvents [DecidableEq π] (id : TurnID) (first : Nat)
    (events : List (ExecutionEvent π)) : SessionTx π Unit := do
  require (1 ≤ first ∧ events ≠ [] ∧ events.length ≤ maxEventBatch) StoreError.invalidInput
  let bytes := (events.map (·.size)).sum
  require (bytes ≤ maxEventBatchBytes) StoreError.eventLimit
  let s ← get
  let turn ← fetch s.turns[id]? StoreError.notFound
  if first ≤ turn.events.length then
    require ((turn.eventBatch first events.length).map (·.content) = events.map (·.content))
      StoreError.idempotencyConflict
  else do
    require ((turn.status = .inProgress ∨ turn.status = .waiting) ∧
      first = turn.events.length + 1) StoreError.turnConflict
    require (turn.events.length + events.length ≤ maxTurnEvents ∧
      turn.eventBytes + bytes ≤ maxTurnEventBytes) StoreError.eventLimit
    modify fun s => { s with turns := s.turns.set id (turn.appendEvents events) }

def beginTurnArtifactCapture (id : TurnID) (appliedThrough : Nat) : SessionTx π Unit := do
  let s ← get
  let turn ← fetch s.turns[id]? StoreError.notFound
  require (turn.status = .inProgress ∧ turn.cancelRequestedAt = none) StoreError.turnConflict
  require (!s.hasUnappliedMessages id appliedThrough) StoreError.unappliedInputs
  require (!turn.artifactCaptureStarted) StoreError.turnConflict
  set { s with turns := s.turns.set id { turn with artifactCaptureStarted := true } }

def Session.stageArtifact (s : Session π) (id : TurnID) (file : CapturedFile) : Session π :=
  { s with
    nextOid := s.nextOid + 1
    objects := s.objects ++ [(s.nextOid, file.body)]
    artifacts := s.artifacts ++
      [{ turn := id, path := file.path, sizeBytes := file.sizeBytes, bodyOid := s.nextOid,
         sha256 := file.sha256 }] }

/-- `StageTurnArtifacts`. The bodies are written before the lock is taken, in the transaction
that the checks behind the lock may still abandon. -/
def stageTurnArtifacts (id : TurnID) (input : ArchiveStream) : SessionTx π Unit := do
  let s ← get
  let environment ← fetch s.environment StoreError.notFound
  require environment.hosted StoreError.invalidInput
  match captureArtifactArchive input with
  | .error e => throw e
  | .ok files => do
    require (s.deletedAt = none) StoreError.notFound
    let turn ← fetch s.turns[id]? (StoreError.internal "no rows")
    require (turn.status = .inProgress ∧ turn.cancelRequestedAt = none) StoreError.turnConflict
    -- `UNIQUE (turn_id, path)`
    require (∀ file ∈ files, ∀ row ∈ s.artifacts, row.turn = id → row.path ≠ file.path)
      (StoreError.internal "duplicate key")
    set (files.foldl (·.stageArtifact id) s)

def FileWriteIdentity.valid (key : FileWriteIdentity) : Bool :=
  [key.id, key.deviceID].all canonicalUUID && isHexDigest key.requestSHA256

section Files

variable [DecidableEq π] [EmptyCollection π]

def reserveEnvironmentFileWrite (now : Int) (key : FileWriteIdentity) :
    SessionTx π FileWrite := do
  require key.valid StoreError.invalidInput
  withPublicSession do
    let s ← get
    match s.findFileWrite key.id with
    | some previous => do
      require (previous.identity = key) StoreError.idempotencyConflict
      return previous
    | none => do
      let environment ← fetch s.environment (StoreError.internal "no rows")
      require (!environment.status.ended) StoreError.invalidInput
      let device ← fetch environment.device StoreError.notFound
      require (device.id = key.deviceID ∧ device.dedicated) StoreError.deviceBindingConflict
      environmentInputMayStart
      require (!s.hasPendingInput) StoreError.turnConflict
      let row : FileWrite := { identity := key, createdAt := now }
      set { s with fileWrites := s.fileWrites ++ [row] }
      return row

end Files

/-- The SQL `SettleEnvironmentFileWrite`. -/
def FileWrite.settle (row : FileWrite) (now : Int) (id : String) (state : FileWriteState) :
    FileWrite :=
  if row.identity.id = id ∧ row.state = .pending then { row with state, settledAt := some now }
  else row

/-- `SettleEnvironmentFileWrite`, also on a deleted Session. -/
def settleEnvironmentFileWrite (now : Int) (key : FileWriteIdentity) (state : FileWriteState) :
    SessionTx π Unit := do
  require (key.valid ∧ state ≠ .pending) StoreError.invalidInput
  let s ← get
  let current ← fetch (s.findFileWrite key.id) StoreError.notFound
  require (current.identity = key ∧ (current.state = .pending ∨ current.state = state))
    StoreError.idempotencyConflict
  if current.state = state then pure ()
  else set { s with fileWrites := s.fileWrites.map (FileWrite.settle · now key.id state) }

namespace Session

def settleReservations (s : Session π) (now : Int) (state : ReservationState) : Session π :=
  { s with reservations := s.reservations.map (·.settle now state) }

def cancelSessionWork (s : Session π) (now : Int) : Session π :=
  let s := match s.getActiveTurn with
    | some (id, turn) => s.requestTurnCancel now id turn
    | none => s
  s.settleReservations now .cancelled

/-- `terminateRuntimeEnvironment`. -/
def terminateEnvironment (s : Session π) (now : Int) (expired : Bool) : Session π :=
  let s := { s with
    environment := s.environment.map fun (environment : Environment) =>
      if environment.status.ended then environment
      else { environment with status := if expired then .expired else .failed } }
  s.settleReservations now .failed

/-- What `RequestRuntimeCleanup` does to the Session of its allocation, whose device it revokes. -/
def cleanup (s : Session π) (now : Int) (expired : Bool) : Session π :=
  let s := { s with
    environment := s.environment.map fun (environment : Environment) =>
      { environment with device := none } }
  if s.deletedAt.isSome then s.cancelSessionWork now
  else (s.terminateEnvironment now expired).cancelSessionWork now

end Session

def deleteSession (now : Int) : SessionTx π Unit :=
  withPublicSession do
    modify (·.cancelSessionWork now)
    modify (·.deleteSessionArtifacts)
    modify fun s => { s with deletedAt := s.deletedAt.or (some now) }

end Parsar.Turns
