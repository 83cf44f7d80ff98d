import Parsar.Framework.Transaction
import Parsar.Turns.Archive

namespace Parsar.Turns

open GoStd

/-! ## Rows

`π` holds the JSON values of the rows, up to the equality of `jsonb`; `∅` is the empty object. A
Turn or a reservation is named by its place among the rows of its table in the order of creation,
which stands for its fresh UUID. -/

abbrev TurnID := Nat
abbrev ReservationID := Nat

inductive TurnStatus where
  | queued
  | inProgress
  | waiting
  | completed
  | failed
  | cancelled
  deriving DecidableEq, Repr

def TurnStatus.active : TurnStatus → Bool
  | .queued | .inProgress | .waiting => true
  | .completed | .failed | .cancelled => false

def terminalStatus (status : TurnStatus) : Bool :=
  status == .completed || status == .failed || status == .cancelled

def validTransition : TurnStatus → TurnStatus → Bool
  | .queued, new => new == .inProgress || new == .failed || new == .cancelled
  | .inProgress, new => new == .waiting || terminalStatus new
  | .waiting, new => new == .inProgress || terminalStatus new
  | .completed, _ | .failed, _ | .cancelled, _ => false

theorem active_of_validTransition {expected new : TurnStatus}
    (h : validTransition expected new = true) : expected.active = true := by
  cases expected <;> first | rfl | cases h

/-- An execution event; `size` is the length of its canonical payload, which `jsonb` does not
compare. -/
structure ExecutionEvent (π : Type) where
  kind : String
  payload : π
  size : Nat
  deriving DecidableEq

structure Turn (π : Type) where
  status : TurnStatus := .queued
  createdAt : Int
  startedAt : Option Int := none
  completedAt : Option Int := none
  cancelRequestedAt : Option Int := none
  outcome : π
  artifactCaptureStarted : Bool := false
  events : List (ExecutionEvent π) := []
  eventBytes : Nat := 0
  deriving DecidableEq

inductive Input (π : Type) where
  | message (payload : π)
  | cancel
  | toolResult (turn : TurnID) (callID : String) (result : π)
  deriving DecidableEq

def Input.isMessage {π : Type} : Input π → Bool
  | .message _ => true
  | .cancel | .toolResult .. => false

/-- A row of `turn_inputs`. `target` is history: the Turn as its insertion has read it. -/
structure TurnInput (π : Type) where
  sequence : Nat
  turn : Option TurnID
  key : String
  input : Input π
  position : Nat
  target : Option (Turn π)
  deriving DecidableEq

structure FunctionCall (π : Type) where
  turn : TurnID
  callID : String
  executorCallID : String
  name : String
  arguments : π
  result : Option π := none
  applied : Bool := false
  deriving DecidableEq

inductive ReservationState where
  | pending
  | admitted
  | expired
  | cancelled
  | failed
  deriving DecidableEq, Repr

/-- A row of `environment_input_reservations`. -/
structure Reservation (π : Type) where
  key : String
  batch : List (Input π)
  state : ReservationState := .pending
  isInitial : Bool := false
  createdAt : Int
  deadline : Int
  settledAt : Option Int := none
  deriving DecidableEq

inductive FileWriteState where
  | pending
  | committed
  | rejected
  deriving DecidableEq, Repr

structure FileWriteIdentity where
  id : String
  deviceID : String
  requestSHA256 : String
  deriving DecidableEq

/-- A row of `environment_file_writes`. -/
structure FileWrite where
  identity : FileWriteIdentity
  state : FileWriteState := .pending
  createdAt : Int
  settledAt : Option Int := none
  deriving DecidableEq

inductive EnvironmentStatus where
  | pending
  | connected
  | disconnected
  | expired
  | failed
  deriving DecidableEq, Repr

def EnvironmentStatus.ended (status : EnvironmentStatus) : Bool :=
  status == .failed || status == .expired

/-- The device a Session is bound to; `dedicated` where it is this Environment's own. -/
structure Device where
  id : String
  dedicated : Bool
  deriving DecidableEq

structure Environment where
  status : EnvironmentStatus := .pending
  hosted : Bool := true
  device : Option Device := none
  deriving DecidableEq

/-- A row of `session_artifacts`; `createdAt` is set when it is published. -/
structure Artifact where
  turn : TurnID
  path : Bytes
  sizeBytes : Nat
  bodyOid : Nat
  sha256 : String
  createdAt : Option Int := none
  deriving DecidableEq

/-- What the database holds of one Session; `sequence` is the identity column of `turn_inputs`. -/
structure Session (π : Type) where
  deletedAt : Option Int := none
  sequence : Nat := 0
  turns : List (Turn π) := []
  inputs : List (TurnInput π) := []
  reservations : List (Reservation π) := []
  calls : List (FunctionCall π) := []
  environment : Option Environment := none
  fileWrites : List FileWrite := []
  artifacts : List Artifact := []
  objects : List (Nat × Bytes) := []
  nextOid : Nat := 0
  deriving DecidableEq

abbrev SessionTx (π : Type) : Type → Type := Tx (Session π) StoreError

variable {π : Type}

namespace Session

def getActiveTurn (s : Session π) : Option (TurnID × Turn π) := do
  let id ← s.turns.findIdx? (·.status.active)
  let turn ← s.turns[id]?
  return (id, turn)

def hasUnappliedMessages (s : Session π) (turn : TurnID) (sequence : Nat) : Bool :=
  s.inputs.any fun row => row.turn == some turn && sequence < row.sequence && row.input.isMessage

def inputBatch (s : Session π) (key : String) : List (TurnInput π) :=
  s.inputs.filter (·.key == key)

/-- `FindEnvironmentInputReservation`, by the unique key of the table. -/
def findReservation (s : Session π) (key : String) : Option ReservationID :=
  s.reservations.findIdx? (·.key == key)

/-- `EnvironmentFileWriteHasPendingInput`. -/
def hasPendingInput (s : Session π) : Bool := s.reservations.any (·.state == .pending)

/-- `EnvironmentFileWriteBlocksSession`. -/
def fileWriteBlocks (s : Session π) : Bool := s.fileWrites.any (·.state == .pending)

/-- `GetEnvironmentFileWrite`. -/
def findFileWrite (s : Session π) (id : String) : Option FileWrite :=
  s.fileWrites.find? (·.identity.id == id)

/-- `GetFunctionCall`, by the primary key of the table. -/
def findCall (s : Session π) (turn : TurnID) (callID : String) : Option (FunctionCall π) :=
  s.calls.find? fun call => call.turn == turn && call.callID == callID

/-- `ListPendingFunctionCalls` of a Turn whose status and cancellation its caller has checked. -/
def pendingCalls (s : Session π) (turn : TurnID) : List (FunctionCall π) :=
  s.calls.filter fun call => call.turn == turn && !call.applied

end Session

end Parsar.Turns
