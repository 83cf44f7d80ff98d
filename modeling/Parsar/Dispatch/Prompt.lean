import Mathlib.Data.List.Basic

namespace Parsar.Dispatch

/-- Where `handlePromptRequest` is once the session is registered, and then its `pump`. -/
inductive PromptPhase where
  | calling
  | returned (ok : Bool)
  | failing
  | starting
  | selecting
  | releasing
  | released (ok : Bool)
  | sending
  | stopping
  | draining
  | cleaning
  | over
  deriving DecidableEq

inductive CancelStep where
  | context
  | session
  deriving DecidableEq

/-- The session state of a prompt with its goroutine; `calls` has what each call that cancels it has
still to do. -/
structure Prompt where
  runID : String
  stateKey : String
  releaseOnCompletion : Bool
  retain : Bool
  phase : PromptPhase := .calling
  registered : Bool := true
  session : Bool := false
  idle : Bool := false
  ctxCancelled : Bool := false
  sessionCancelled : Bool := false
  calls : List (List CancelStep) := []
  deriving DecidableEq

inductive PromptEvent where
  | answer (ok : Bool)
  | frame (done : Bool)
  | outClosed
  | shutdown
  deriving DecidableEq

namespace Prompt

def new (runID stateKey : String) (releaseOnCompletion : Bool) : Prompt where
  runID := runID
  stateKey := stateKey
  releaseOnCompletion := releaseOnCompletion
  retain := stateKey ≠ ""

def cleanupSession (closed : Bool) (q : Prompt) : Prompt :=
  { q with
    registered := false
    idle := q.retain && q.session && q.stateKey ≠ "" && !closed
    phase := .over }

/-- `forwardSessionOutput` at its select. -/
def select (closed : Bool) (q : Prompt) : PromptEvent → Option Prompt
  | .frame done =>
    if done ∧ q.releaseOnCompletion then some { q with retain := false, phase := .releasing }
    else some { q with phase := .sending }
  | .outClosed => some { q with phase := .cleaning }
  | .shutdown => if closed then some { q with phase := .stopping } else none
  | .answer _ => none

/-- `handlePromptRequest` after its registration, up to the start of `pump`. -/
def begin (q : Prompt) (ok : Bool) : Option Prompt :=
  match q.phase with
  | .calling => some { q with phase := .returned ok }
  | .returned true => some { q with session := true, phase := .starting }
  | .returned false => some { q with registered := false, phase := .failing }
  | .failing => some { q with ctxCancelled := true, phase := .over }
  | .starting => some { q with phase := .selecting }
  | _ => none

def pump (closed : Bool) (q : Prompt) (e : PromptEvent) : Option Prompt :=
  match q.phase, e with
  | .selecting, e => q.select closed e
  | .releasing, .answer ok => some { q with sessionCancelled := true, phase := .released ok }
  -- a failed release is reported and the pump goes on
  | .released ok, _ =>
    some { q with ctxCancelled := true, phase := if ok then .sending else .selecting }
  | .sending, .answer ok => some { q with phase := if ok then .selecting else .stopping }
  | .stopping, _ => some { q with retain := false, ctxCancelled := true, phase := .draining }
  | .draining, .outClosed => some { q with phase := .cleaning }
  | .cleaning, _ => some (q.cleanupSession closed)
  | _, _ => none

def perform (q : Prompt) : CancelStep → Prompt
  | .context => { q with ctxCancelled := true }
  | .session => { q with sessionCancelled := true }

def continueCall (q : Prompt) (j : Nat) : Option Prompt :=
  match q.calls[j]? with
  | some (s :: rest) => some { q.perform s with calls := q.calls.set j rest }
  | _ => none

def cancellation (q : Prompt) : List CancelStep := .context :: if q.session then [.session] else []

/-- `handlePromptCancel` for a session without a handoff. -/
def cancel (q : Prompt) : Prompt :=
  { q with
    retain := false
    calls := if q.session then q.calls ++ [[.session, .context]] else q.calls }

def expireIdle (q : Prompt) : Option Prompt :=
  if q.idle then
    some { q with idle := false, retain := false, calls := q.calls ++ [[.context, .session]] }
  else none

def held (q : Prompt) : Bool := q.registered || q.idle

/-- The critical section of the two shutdowns. -/
def letGo (q : Prompt) : Prompt := if q.held then { q with retain := false, idle := false } else q

/-- `handleDeviceShutdown`. -/
def interrupt (q : Prompt) : Prompt :=
  if q.held then { q.letGo with calls := q.calls ++ [q.cancellation] } else q

def pumping (q : Prompt) : Bool :=
  match q.phase with
  | .selecting | .releasing | .released _ | .sending | .stopping | .draining | .cleaning => true
  | _ => false

def arriving (q : Prompt) : Bool :=
  match q.phase with
  | .calling | .returned _ | .starting => true
  | _ => false

def created (q : Prompt) : Bool := q.session || q.phase = .returned true

def cancelled (q : Prompt) : Bool := q.ctxCancelled || q.sessionCancelled

end Prompt

end Parsar.Dispatch
