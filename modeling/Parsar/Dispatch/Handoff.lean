import Mathlib.Data.List.Basic

namespace Parsar.Dispatch

/-- The frame types the prepared output tells apart; `other` stands for the rest. -/
inductive FrameType where
  | done
  | error
  | permissionRequest
  | permissionCancel
  | promptForUserChoice
  | other
  deriving DecidableEq, Repr

structure Frame where
  type : FrameType
  id : String
  payload : String
  deriving DecidableEq

def Frame.isDone (f : Frame) : Bool := f.type = .done

inductive PreparationPhase where
  | preparing
  | ready
  | starting
  | started
  | released
  | expired
  | failed
  deriving DecidableEq, Repr

def PreparationPhase.isTerminal : PreparationPhase → Bool
  | released | expired | failed => true
  | preparing | ready | starting | started => false

inductive PreparationError where
  | none
  | statusDeliveryFailed
  | preparationFailed
  | startFailed
  | cleanupUnconfirmed
  | connectionClosed
  deriving DecidableEq, Repr

/-- The part of `PreparationStatusPayload` that a preparation sends. -/
structure Status where
  handle : String
  revision : Nat
  state : PreparationPhase
  expiresAt : Int
  runID : String := ""
  errorCode : PreparationError := .none
  deriving DecidableEq

/-- Where a `runPreparedRelease` goroutine is. -/
inductive AttemptPhase where
  | waiting
  | locking
  | cancelling
  | cancelled (failed : Bool)
  | joining
  | collecting
  | reportingError (failure : String) (terminal : Option Frame)
  | reportingDone (terminal : Frame)
  | cleaning (failed : Bool)
  | settling (failed : Bool)
  | over
  deriving DecidableEq

/-- `preparedReleaseAttempt`; `retry` is what the claim that made it asked for, `doneCloses` counts
the closes of `done`. -/
structure Attempt where
  retry : Bool
  phase : AttemptPhase := .waiting
  err : Bool := false
  doneCloses : Nat := 0
  deriving DecidableEq

def Attempt.isDone (a : Attempt) : Bool := a.doneCloses ≠ 0

structure Release where
  aborted : Bool := false
  failure : String
  attempts : List Attempt := []
  succeeded : Bool := false
  settledCloses : Nat := 0
  deriving DecidableEq

def Release.needsAttempt (r : Release) (retry : Bool) : Bool :=
  if r.succeeded then false
  else match r.attempts.getLast? with
    | some current => current.isDone && current.err && retry
    | none => true

/-- Where `startPreparedExecution` is. -/
inductive StartPhase where
  | opening (status : Status)
  | sendingStarting (status : Status)
  | startingFailed
  | abandoningOut
  | abandoning
  | checking
  | calling (blocked : Bool)
  | returned (session err : Bool)
  | closingOut (status : Status) (started session : Bool)
  | sendingStatus (status : Status) (started session : Bool)
  | publishing (started session delivered : Bool)
  | unlocking
  | over
  deriving DecidableEq

/-- Where `forwardPreparedOutput` is. -/
inductive PumpPhase where
  | starting
  | selecting
  | received (f : Frame)
  | forwarding (f : Frame)
  | sendFailed
  | outClosed
  | interrupted
  | draining
  | over
  deriving DecidableEq

/-- `preparedHandoff` with its session state. `registered`: in `Router.sessions`; `session`: set;
`readers`, `startReads`, `writing`: who holds `operations`; `written`: by the engine, `out` of it
still in the channel; `engine`: may still write; `sendFailed`: a send for the run failed. -/
structure Handoff where
  start : StartPhase
  pump : PumpPhase := .starting
  registered : Bool := true
  session : Bool := false
  steeringClosed : Bool := false
  published : Bool := false
  release : Option Release := none
  terminal : Option Frame := none
  outputErr : Bool := false
  shutdownInterrupted : Bool := false
  startDone : Bool := false
  readers : Nat := 0
  startReads : Bool := false
  writing : Bool := false
  out : List Frame := []
  outClosed : Bool := false
  engine : Bool := false
  written : List Frame := []
  sendFailed : Bool := false
  deriving DecidableEq

def outCapacity : Nat := 64

namespace Handoff

def frame (h : Handoff) : Option Release × Bool × Bool × Bool × Bool × Bool :=
  (h.release, h.startDone, h.startReads, h.registered, h.session, h.steeringClosed)

def aborted (h : Handoff) : Bool := h.release.any (·.aborted)

def outputDone (h : Handoff) : Bool := h.pump = .over

/-- `preparedOperationLocked`. -/
def admits (h : Handoff) : Bool :=
  h.registered && h.session && !h.steeringClosed && h.release.isNone

/-- The release a claim works on. The first claim closes admission for good. -/
def claimed (h : Handoff) (failure : String) : Handoff × Release :=
  match h.release with
  | some r => (h, r)
  | none => ({ h with session := false, steeringClosed := true }, { failure := failure })

/-- `claimPreparedReleaseLocked`, and whether it made an attempt. -/
def claim (h : Handoff) (abort : Bool) (failure : String) (retry : Bool) : Handoff × Bool :=
  let r := { (h.claimed failure).2 with aborted := (h.claimed failure).2.aborted || abort }
  if r.needsAttempt retry then
    ({ (h.claimed failure).1 with
      release := some { r with attempts := r.attempts ++ [{ retry := retry }] } }, true)
  else ({ (h.claimed failure).1 with release := some r }, false)

def setAttempt (h : Handoff) (r : Release) (i : Nat) (a : Attempt) : Handoff :=
  { h with release := some { r with attempts := r.attempts.set i a } }

def write (h : Handoff) (f : Frame) : Option Handoff :=
  if h.engine ∧ h.out.length < outCapacity then
    some { h with out := h.out ++ [f], written := h.written ++ [f] }
  else none

def closeOut (h : Handoff) : Option Handoff :=
  if h.engine then some { h with outClosed := true, engine := false } else none

def admitOperation (h : Handoff) : Option Handoff :=
  if h.admits then some { h with readers := h.readers + 1 } else none

def finishOperation (h : Handoff) : Option Handoff :=
  if 0 < h.readers then some { h with readers := h.readers - 1 } else none

end Handoff

end Parsar.Dispatch
