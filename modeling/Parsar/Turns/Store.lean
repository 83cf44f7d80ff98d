import Parsar.Framework.Trace
import Parsar.Turns.Execution

namespace Parsar.Turns

open Tx

/-- How a reservation is settled by its id. -/
inductive Settlement where
  | promote
  | cancel
  | expire
  deriving DecidableEq, Repr

def Settlement.state : Settlement → ReservationState
  | .promote => .admitted
  | .cancel => .cancelled
  | .expire => .expired

/-- The calls of the store on one Session; the last two are the world's. -/
inductive Op (π : Type) where
  | submitInputs (now : Int) (key : String) (batch : List (Input π))
  | reserveEnvironmentInput (now : Int) (key : String) (batch : List (Input π))
  | settleEnvironmentInput (now : Int) (id : ReservationID) (settlement : Settlement)
  | recordFunctionCall (now : Int) (id : TurnID) (callID executorCallID name : String)
      (arguments : π)
  | submitFunctionResult (id : TurnID) (callID : String) (result : π)
  | confirmFunctionResult (now : Int) (id : TurnID) (callID : String)
  | claimTurn (now : Int) (id : TurnID)
  | failTurn (now : Int) (id : TurnID) (expected : TurnStatus) (outcome : π)
  | completeExecution (now : Int) (id : TurnID) (status : TurnStatus) (outcome : π) (size : Nat)
      (appliedThrough : Nat)
  | appendTurnEvents (id : TurnID) (first : Nat) (events : List (ExecutionEvent π))
  | beginTurnArtifactCapture (id : TurnID) (appliedThrough : Nat)
  | stageTurnArtifacts (id : TurnID) (input : ArchiveStream)
  | reserveEnvironmentFileWrite (now : Int) (key : FileWriteIdentity)
  | settleEnvironmentFileWrite (now : Int) (key : FileWriteIdentity) (state : FileWriteState)
  | requestRuntimeCleanup (now : Int) (expired : Bool)
  | deleteSession (now : Int)
  | environmentChanges (status : EnvironmentStatus) (device : Option Device)
  | otherInputs (count : Nat)

inductive Reply (π : Type) where
  | receipts (receipts : List InputReceipt)
  | reservation (reservation : EnvironmentInputReservation π)
  | fileWrite (row : FileWrite)
  | done
  deriving DecidableEq

variable {π : Type} [DecidableEq π] [EmptyCollection π]

def environmentChanges (status : EnvironmentStatus) (device : Option Device) :
    SessionTx π Unit := do
  let s ← get
  let environment ← fetch s.environment StoreError.notFound
  require (!environment.status.ended ∨ status = environment.status) StoreError.invalidInput
  set { s with environment := some { environment with status, device } }

def Op.call : Op π → SessionTx π (Reply π)
  | .submitInputs now key batch => .receipts <$> Turns.submitInputs now key batch
  | .reserveEnvironmentInput now key batch =>
    .reservation <$> Turns.reserveEnvironmentInput now key batch
  | .settleEnvironmentInput now id settlement =>
    .reservation <$> settleEnvironmentInputByID now id settlement.state
  | .recordFunctionCall now id callID executorCallID name arguments =>
    (fun _ => .done) <$> Turns.recordFunctionCall now id callID executorCallID name arguments
  | .submitFunctionResult id callID result =>
    (fun _ => .done) <$> Turns.submitFunctionResult id callID result
  | .confirmFunctionResult now id callID =>
    (fun _ => .done) <$> Turns.confirmFunctionResult now id callID
  | .claimTurn now id => (fun _ => .done) <$> transitionTurnCall now id .queued .inProgress ∅
  | .failTurn now id expected outcome =>
    (fun _ => .done) <$> transitionTurnCall now id expected .failed outcome
  | .completeExecution now id status outcome size appliedThrough =>
    (fun _ => .done) <$> Turns.completeExecution now id status outcome size appliedThrough
  | .appendTurnEvents id first events =>
    (fun _ => .done) <$> Turns.appendTurnEvents id first events
  | .beginTurnArtifactCapture id appliedThrough =>
    (fun _ => .done) <$> Turns.beginTurnArtifactCapture id appliedThrough
  | .stageTurnArtifacts id input => (fun _ => .done) <$> Turns.stageTurnArtifacts id input
  | .reserveEnvironmentFileWrite now key =>
    .fileWrite <$> Turns.reserveEnvironmentFileWrite now key
  | .settleEnvironmentFileWrite now key state =>
    (fun _ => .done) <$> Turns.settleEnvironmentFileWrite now key state
  | .requestRuntimeCleanup now expired => (fun _ => .done) <$> modify (·.cleanup now expired)
  | .deleteSession now => (fun _ => .done) <$> Turns.deleteSession now
  | .environmentChanges status device =>
    (fun _ => .done) <$> Turns.environmentChanges status device
  | .otherInputs count =>
    (fun _ => .done) <$> modify fun s => { s with sequence := s.sequence + count }

/-- A call that commits; one that fails leaves the Session as it is. -/
def step (s : Session π) (op : Op π) : Option (Session π) :=
  match op.call s with
  | .ok (_, t) => some t
  | .error _ => none

theorem step_eq_some {s t : Session π} {op : Op π} :
    step s op = some t ↔ ∃ r, op.call s = .ok (r, t) := by
  unfold step
  split <;> simp_all

/-- `createSessionResources`: with an Environment the first inputs wait as a reservation. -/
def createSession (now : Int) (environment : Option Environment) (key : String)
    (inputs : List (Input π)) : SessionTx π Unit := do
  require (inputs = [] ∨ inputs.all (·.isMessage) ∧ validateInputs inputs) StoreError.invalidInput
  modify fun s => { s with environment }
  if inputs = [] then pure ()
  else if environment.isSome then do
    let _ ← createReservation now key inputs true
  else do
    let _ ← admitInputs now key 0 inputs

def Started (s : Session π) : Prop :=
  ∃ now environment key inputs sequence,
    createSession now environment key inputs { sequence } = .ok ((), s)

def Reached (s : Session π) : Prop := ∃ s₀ ops, Started s₀ ∧ runTrace step s₀ ops = some s

end Parsar.Turns
