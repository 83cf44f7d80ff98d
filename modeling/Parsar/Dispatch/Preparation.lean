import Parsar.Dispatch.Handoff

namespace Parsar.Dispatch

/-- Where `prepareExecution` is. -/
inductive PreparerPhase where
  | sendingPreparing
  | undelivered
  | preparing
  | deciding (prepared cancellable err : Bool)
  | closing
  | closed (err : Bool)
  | reading
  | sendingStatus (status : Status) (ready : Bool)
  | unannounced
  | over
  deriving DecidableEq

inductive Closer where
  | closing
  | closed (err : Bool)
  deriving DecidableEq

/-- What else is under way for a preparation: releases, publications, the goroutine that sends, and
what follows a send that failed. -/
inductive Task where
  | expire
  | release
  | publish (status : Status)
  | send (status : Status)
  | undelivered
  deriving DecidableEq

inductive RejectionCode where
  | invalidRequest
  | unsupportedPreparation
  | unsupportedReadPreparation
  | invalidConfiguration
  | unsupportedConfiguration
  | invalidStart
  | invalidRelease
  | resourceUnavailable
  | requestConflict
  | preparationCapacity
  | unknownPreparation
  | readOnlyPreparation
  | startConflict
  | preparationNotReady
  | runConflict
  deriving DecidableEq, Repr

inductive Sent where
  | status (s : Status)
  | frame (f : Frame)
  deriving DecidableEq

/-- `preparationState` with its goroutines. `handed`: `handoff` is set in the source, which forgets
it later; `cancelled`: its context is done; `overdue`: its deadline has passed; `timer`: may still
fire; `listed`: in the router's maps. `stored` is every value of `status`, `log` what was sent. -/
structure Preparation where
  requestID : String
  workspaceReadOnly : Bool
  status : Status
  stored : List Status := [status]
  busy : Bool := true
  owns : Bool := true
  prepared : Bool := false
  cancellable : Bool := false
  closeErr : Bool := false
  cancelled : Bool := false
  overdue : Bool := false
  timer : Bool := true
  listed : Bool := true
  handed : Bool := false
  handoff : Option Handoff := none
  preparer : PreparerPhase := .sendingPreparing
  closers : List Closer := []
  tasks : List Task := []
  log : List Sent := []
  deriving DecidableEq

structure Answer where
  ok : Bool := true
  value : Bool := true
  cancellable : Bool := true
  deriving DecidableEq

namespace Preparation

def new (requestID handle : String) (workspaceReadOnly : Bool) (expiresAt : Int) :
    Preparation where
  requestID := requestID
  workspaceReadOnly := workspaceReadOnly
  status := { handle := handle, revision := 1, state := .preparing, expiresAt := expiresAt }

def store (p : Preparation) (status : Status) : Preparation :=
  { p with status := status, stored := p.stored ++ [status] }

def move (p : Preparation) (state : PreparationPhase) (code : PreparationError) : Preparation :=
  p.store { p.status with revision := p.status.revision + 1, state := state, errorCode := code }

def moveFrom (p : Preparation) (states : List PreparationPhase) (state : PreparationPhase)
    (code : PreparationError) : Preparation :=
  if p.status.state ∈ states then p.move state code else p

def sent (p : Preparation) (ok : Bool) (s : Sent) : Preparation :=
  { p with log := if ok then p.log ++ [s] else p.log }

def addTask (p : Preparation) (t : Task) : Preparation := { p with tasks := p.tasks ++ [t] }

def publish (p : Preparation) (status : Status) : Preparation := p.addTask (.publish status)

def stopTimer (p : Preparation) : Preparation := { p with timer := false }

def setHandoff (p : Preparation) (h : Handoff) : Preparation := { p with handoff := some h }

/-- `claimPreparedReleaseLocked`. -/
def claim (p : Preparation) (h : Handoff) (abort : Bool) (failure : String) (retry : Bool) :
    Preparation :=
  { p.setHandoff (h.claim abort failure retry).1 with
    busy := p.busy || (h.claim abort failure retry).2
    closeErr := p.closeErr && !(h.claim abort failure retry).2 }

def activeHandoff (p : Preparation) : Option Handoff :=
  if p.handed then p.handoff.filter (·.registered) else none

/-- `releasePreparation` while the run is active. -/
def releaseActive (p : Preparation) (h : Handoff) (state : PreparationPhase)
    (code : PreparationError) (publishes retry : Bool) : Preparation :=
  if state = .expired ∧ h.published then p
  else
    let moved := if p.status.state.isTerminal then p else (p.move state code).stopTimer
    let claimed := moved.claim h true "" retry
    if publishes then claimed.publish claimed.status else claimed

/-- A read-only preparation whose cleanup failed is released again. -/
def confirmRelease (p : Preparation) (state : PreparationPhase) : Preparation :=
  if p.workspaceReadOnly ∧ state = .released ∧ p.status.errorCode = .cleanupUnconfirmed then
    p.move state .none
  else p

/-- The resource is closed by the one that finds it idle. -/
def startClose (p : Preparation) : Preparation :=
  { p with busy := true, closers := p.closers ++ [.closing] }

/-- The first part of `releasePreparation` without a run. -/
def endIdle (p : Preparation) (state : PreparationPhase) (code : PreparationError) : Preparation :=
  if p.status.state ∈ [.preparing, .ready, .starting] then
    { (p.move state code).stopTimer with cancelled := true }
  else p

def closeIdle (p : Preparation) (state : PreparationPhase) : Preparation :=
  if p.owns ∧ !p.busy then (p.confirmRelease state).startClose else p

/-- `releasePreparation` without a run. -/
def releaseIdle (p : Preparation) (state : PreparationPhase) (code : PreparationError)
    (publishes : Bool) : Preparation :=
  let released := (p.endIdle state code).closeIdle state
  if publishes ∧ (!p.workspaceReadOnly ∨ (!released.owns ∧ !released.busy)) then
    released.publish released.status
  else released

def releasePreparation (closed : Bool) (p : Preparation) (state : PreparationPhase)
    (code : PreparationError) (publishes retry : Bool) : Preparation :=
  if closed then p
  else match p.activeHandoff with
    | some h => p.releaseActive h state code publishes retry
    | none => p.releaseIdle state code publishes

/-- What a failed delivery of a status leads to. -/
def releaseUndelivered (closed : Bool) (p : Preparation) : Preparation :=
  p.releasePreparation closed .failed .statusDeliveryFailed false false

def afterClose (p : Preparation) (err : Bool) : Preparation :=
  { p with
    busy := false
    closeErr := err
    prepared := p.prepared && err
    owns := p.owns && err }

/-- `closePreparationResource` after `Close`. -/
def closedResource (p : Preparation) (err : Bool) : Preparation :=
  if p.workspaceReadOnly then
    let moved := if err then (p.afterClose err).move .failed .cleanupUnconfirmed
      else (p.afterClose err).move p.status.state p.status.errorCode
    moved.publish moved.status
  else p.afterClose err

/-- `closePendingPreparationsLocked` for one preparation. -/
def closePending (p : Preparation) : Preparation :=
  if !p.listed then p
  else if !p.owns ∨ p.handed then p.stopTimer
  else
    let moved := { p.stopTimer with cancelled := true }.moveFrom [.preparing, .ready, .starting]
      .failed .connectionClosed
    if moved.busy then moved else moved.startClose

def stale (p : Preparation) (status : Status) : Bool :=
  p.workspaceReadOnly && (status.revision ≠ p.status.revision ||
    (p.owns && (p.busy || status.state = .released || status.state = .expired) &&
      status.state ≠ .preparing && status.state ≠ .ready))

/-- A failed notification of a read-only preparation that has ended changes nothing. -/
def retracts (p : Preparation) (status : Status) : Bool :=
  !p.workspaceReadOnly || status.state = .preparing || status.state = .ready

def dropTask (p : Preparation) (i : Nat) : Preparation := { p with tasks := p.tasks.eraseIdx i }

def setTask (p : Preparation) (i : Nat) (t : Task) : Preparation :=
  { p with tasks := p.tasks.set i t }

def stepTask (closed : Bool) (p : Preparation) (i : Nat) (ok : Bool) : Option Preparation :=
  match p.tasks[i]? with
  | some .expire => some ((p.dropTask i).releasePreparation closed .expired .none true true)
  | some .release => some ((p.dropTask i).releasePreparation closed .released .none true true)
  | some (.publish status) =>
    if p.stale status || closed then some (p.dropTask i) else some (p.setTask i (.send status))
  | some (.send status) =>
    if !ok && p.retracts status then some (p.setTask i .undelivered)
    else some ((p.sent ok (.status status)).dropTask i)
  | some .undelivered => some ((p.dropTask i).releaseUndelivered closed)
  | none => none

def stepCloser (p : Preparation) (i : Nat) (ok : Bool) : Option Preparation :=
  match p.closers[i]? with
  | some .closing => some { p with closers := p.closers.set i (.closed (p.prepared && !ok)) }
  | some (.closed err) => some ({ p with closers := p.closers.eraseIdx i }.closedResource err)
  | none => none

def announced (p : Preparation) : Status :=
  { handle := p.status.handle, revision := 1, state := .preparing, expiresAt := p.status.expiresAt }

/-- The critical section after the native preparation. -/
def decidePrepared (closed : Bool) (p : Preparation) (prepared cancellable err : Bool) :
    Preparation :=
  let kept := { p with busy := false, prepared := prepared, cancellable := cancellable }
  if !err ∧ prepared ∧ p.status.state = .preparing ∧ !p.cancelled ∧ !closed then
    let ready := kept.move .ready p.status.errorCode
    { ready with preparer := .sendingStatus ready.status true }
  else
    { (kept.moveFrom [.preparing] .failed .preparationFailed).stopTimer with
      busy := true
      cancelled := true
      preparer := .closing }

def setPreparer (p : Preparation) (phase : PreparerPhase) : Preparation :=
  { p with preparer := phase }

def stepPreparer (closed : Bool) (p : Preparation) (a : Answer) : Option Preparation :=
  match p.preparer with
  | .sendingPreparing =>
    some ((p.sent a.ok (.status p.announced)).setPreparer (if a.ok then .preparing else .undelivered))
  | .undelivered => some ((p.releaseUndelivered closed).setPreparer .preparing)
  | .preparing =>
    -- an executable preparation must be cancellable across its start
    let prepared := !p.cancelled && a.value
    some (p.setPreparer (.deciding prepared a.cancellable
      (p.cancelled || !a.ok || (prepared && !p.workspaceReadOnly && !a.cancellable))))
  | .deciding prepared cancellable err => some (p.decidePrepared closed prepared cancellable err)
  | .closing => some (p.setPreparer (.closed (p.prepared && !a.ok)))
  | .closed err =>
    some ((p.closedResource err).setPreparer (if p.workspaceReadOnly then .over else .reading))
  | .reading => some (p.setPreparer (.sendingStatus p.status false))
  | .sendingStatus status ready =>
    some ((p.sent a.ok (.status status)).setPreparer
      (if !a.ok && ready then .unannounced else .over))
  | .unannounced => some ((p.releaseUndelivered closed).setPreparer .over)
  | .over => none

def startExecution (p : Preparation) (runID : String) : Preparation :=
  let started := p.store { p.status with
    revision := p.status.revision + 1
    state := .starting
    runID := runID }
  { started with busy := true, handed := true, handoff := some { start := .opening started.status } }

/-- A start for a run that is on its way; `known` says that it is the same start. -/
def restart (p : Preparation) (known : Bool) : Preparation × Option RejectionCode :=
  if !known then (p, some .startConflict)
  else if p.handoff.any (fun h => h.registered && (!h.session || h.release.isSome)) then (p, none)
  else (p.publish p.status, none)

/-- `handleExecutionStart` once the preparation is found, and the code it rejects the start with;
`free` says that no session has the run's id. -/
def handleExecutionStart (p : Preparation) (runID : String) (known free : Bool) :
    Preparation × Option RejectionCode :=
  if p.workspaceReadOnly then (p, some .readOnlyPreparation)
  else if p.status.state = .starting ∨ p.status.state = .started then p.restart known
  else if p.status.state ≠ .ready ∨ p.cancelled then (p, some .preparationNotReady)
  else if p.overdue then (p.addTask .expire, none)
  else if !free then (p, some .runConflict)
  else if !p.prepared ∨ !p.cancellable then (p, some .preparationNotReady)
  else (p.startExecution runID, none)

def couldNotStart : String := "prepared execution could not start"

def undeliveredStart (p : Preparation) (h : Handoff) : Preparation :=
  (p.moveFrom [.starting] .failed .statusDeliveryFailed).stopTimer.claim
    { h with outputErr := true, start := .abandoningOut } true "" false

/-- `Start` has returned a session for a run that is still wanted. -/
def startedSession (p : Preparation) (h : Handoff) : Preparation :=
  let moved := p.move .started .none
  moved.setHandoff { h with startReads := true, start := .sendingStatus moved.status true true }

def failedStart (p : Preparation) (h : Handoff) (session : Bool) : Preparation :=
  let moved := p.stopTimer.moveFrom [.starting] .failed .startFailed
  moved.claim { h with
    start := if session then .sendingStatus moved.status false true
      else .closingOut moved.status false false } true couldNotStart false

/-- The critical section after `Start` has returned. -/
def returnedStart (p : Preparation) (h : Handoff) (session err : Bool) : Preparation :=
  if !err ∧ session ∧ p.status.state = .starting ∧ !p.cancelled ∧ !h.aborted then p.startedSession h
  else p.failedStart h session

def expireStart (p : Preparation) (h : Handoff) (started : Bool) : Preparation :=
  if started ∧ p.overdue then (p.moveFrom [.started] .expired .none).claim h true "" false
  else p.setHandoff h

def abortStart (p : Preparation) (h : Handoff) (started : Bool) : Preparation :=
  if started ∧ h.aborted then p.moveFrom [.started] .failed .startFailed else p

def transferred (p : Preparation) (h : Handoff) (session : Bool) : Preparation :=
  { (p.stopTimer).setHandoff { h with
      published := true
      session := if h.release.isNone then session else h.session } with
    prepared := false
    owns := false
    busy := false
    handed := false }

def settleStart (p : Preparation) (h : Handoff) (started session delivered : Bool) : Preparation :=
  if !delivered then
    (if started then p.moveFrom [.started] .failed .statusDeliveryFailed else p).claim
      { h with outputErr := true } true "" false
  else if started ∧ p.status.state = .started ∧ !h.aborted then p.transferred h session
  else p.setHandoff h

/-- The last critical section of `startPreparedExecution`. -/
def publishedStart (p : Preparation) (h : Handoff) (started session delivered : Bool) :
    Preparation :=
  let expired := p.expireStart { h with
    startDone := true
    start := if started then .unlocking else .over } started
  match expired.handoff with
  | some h => (expired.abortStart h started).settleStart h started session delivered
  | none => expired

def stepStart (p : Preparation) (h : Handoff) (a : Answer) : Option Preparation :=
  match h.start with
  | .opening status =>
    if h.pump = .starting then none
    else some (p.setHandoff { h with start := .sendingStarting status })
  | .sendingStarting status =>
    some ((p.sent a.ok (.status status)).setHandoff { h with
      start := if a.ok then .checking else .startingFailed
      sendFailed := h.sendFailed || !a.ok })
  | .startingFailed => some (p.undeliveredStart h)
  | .abandoningOut => some (p.setHandoff { h with outClosed := true, start := .abandoning })
  | .abandoning => some (p.setHandoff { h with startDone := true, start := .over })
  | .checking => some (p.setHandoff { h with start := .calling h.aborted, engine := !h.aborted })
  | .calling true => some (p.setHandoff { h with start := .returned false true })
  | .calling false =>
    -- without a session the router closes the channel, so the engine has not
    if !a.value ∧ h.outClosed then none
    else some (p.setHandoff { h with
      start := .returned a.value (!a.ok)
      engine := h.engine && a.value })
  | .returned session err => some (p.returnedStart h session err)
  | .closingOut status started session =>
    some (p.setHandoff { h with
      outClosed := true
      start := .sendingStatus status started session })
  | .sendingStatus status started session =>
    some ((p.sent a.ok (.status status)).setHandoff { h with
      start := .publishing started session a.ok
      sendFailed := h.sendFailed || !a.ok })
  | .publishing started session delivered => some (p.publishedStart h started session delivered)
  | .unlocking => some (p.setHandoff { h with startReads := false, start := .over })
  | .over => none

/-- The select; `shutdown` takes the case of `shutdownCh`. -/
def selectOutput (closed : Bool) (p : Preparation) (h : Handoff) (shutdown : Bool) :
    Option Preparation :=
  if shutdown then
    if closed then some (p.setHandoff { h with pump := .interrupted }) else none
  else match h.out with
    | f :: rest => some (p.setHandoff { h with out := rest, pump := .received f })
    | [] => if h.outClosed then some (p.setHandoff { h with pump := .outClosed }) else none

def receivedOutput (closed : Bool) (p : Preparation) (h : Handoff) (f : Frame) : Preparation :=
  if h.terminal.isSome then p.setHandoff { h with pump := .selecting }
  else if f.isDone then
    p.claim { h with terminal := some f, pump := .selecting } false "" false
  else if h.outputErr || h.shutdownInterrupted || closed then
    p.setHandoff { h with pump := .selecting }
  else p.setHandoff { h with pump := .forwarding f }

def failedOutput (closed : Bool) (p : Preparation) (h : Handoff) : Preparation :=
  p.claim { h with
    pump := .draining
    shutdownInterrupted := h.shutdownInterrupted || closed
    outputErr := h.outputErr || !closed } true "" false

def closedOutput (p : Preparation) (h : Handoff) : Preparation :=
  if h.release.isNone then p.claim { h with pump := .over } false "" false
  else p.setHandoff { h with pump := .over }

def drainOutput (p : Preparation) (h : Handoff) : Option Preparation :=
  match h.out with
  | _ :: rest => some (p.setHandoff { h with out := rest })
  | [] => if h.outClosed then some (p.setHandoff { h with pump := .over }) else none

def stepPump (closed : Bool) (p : Preparation) (h : Handoff) (a : Answer) : Option Preparation :=
  match h.pump with
  | .starting => some (p.setHandoff { h with pump := .selecting })
  | .selecting => p.selectOutput closed h (!a.ok)
  | .received f => some (p.receivedOutput closed h f)
  | .forwarding f =>
    some ((p.sent a.ok (.frame f)).setHandoff { h with
      pump := if a.ok then .selecting else .sendFailed
      sendFailed := h.sendFailed || !a.ok })
  | .sendFailed => some (p.failedOutput closed h)
  | .outClosed => some (p.closedOutput h)
  | .interrupted =>
    some (p.claim { h with pump := .draining, shutdownInterrupted := true } true "" false)
  | .draining => p.drainOutput h
  | .over => none

/-- `ErrorPayload` in JSON, for a text with nothing to escape. -/
def errorPayload (failure : String) : String := "\x7b\"error\":\"" ++ failure ++ "\"\x7d"

def errorFrame (p : Preparation) (failure : String) : Frame :=
  ⟨.error, p.status.runID, errorPayload failure⟩

def doneFrame (p : Preparation) : Frame := ⟨.done, p.status.runID, "\x7b\"content\":\"\"\x7d"⟩

/-- What is left to send for the run once everything has stopped. -/
def collectOutcome (closed : Bool) (h : Handoff) (r : Release) : AttemptPhase :=
  if h.outputErr || closed then .cleaning false
  else if r.failure ≠ "" then .reportingError r.failure h.terminal
  else match h.terminal with
    | some f => .reportingDone f
    | none => .cleaning false

/-- The critical section after the native `Cancel`. -/
def endedCancel (p : Preparation) (h : Handoff) (r : Release) (i : Nat) (a : Attempt)
    (failed : Bool) : Preparation :=
  if failed then
    { p.setHandoff (h.setAttempt r i
        { a with err := true, doneCloses := a.doneCloses + 1, phase := .over }) with
      busy := false
      closeErr := true }
  else p.setHandoff (h.setAttempt { r with succeeded := true } i
    { a with doneCloses := a.doneCloses + 1, phase := .joining })

/-- The last critical section of a release that succeeded. -/
def settledRelease (p : Preparation) (h : Handoff) (r : Release) (i : Nat) (a : Attempt)
    (failed : Bool) : Preparation :=
  { p.setHandoff ({ h with outputErr := h.outputErr || failed }.setAttempt
      { r with settledCloses := r.settledCloses + 1 } i { a with phase := .over }) with
    busy := false
    closeErr := failed
    prepared := false
    owns := false
    handed := false
    cancelled := true }

def stepAttempt (closed : Bool) (p : Preparation) (h : Handoff) (r : Release) (i : Nat)
    (a : Attempt) (ok : Bool) : Option Preparation :=
  let go (phase : AttemptPhase) : Preparation := p.setHandoff (h.setAttempt r i { a with phase := phase })
  match a.phase with
  | .waiting => if h.startDone || r.aborted then some (go .locking) else none
  | .locking =>
    if h.readers = 0 ∧ !h.startReads ∧ !h.writing then
      some (p.setHandoff ({ h with writing := true }.setAttempt r i { a with phase := .cancelling }))
    else none
  | .cancelling =>
    some (p.setHandoff ({ h with writing := false }.setAttempt r i
      { a with phase := .cancelled (!ok) }))
  | .cancelled failed => some (p.endedCancel h r i a failed)
  | .joining => if h.startDone && h.outputDone then some (go .collecting) else none
  | .collecting => some (go (collectOutcome closed h r))
  | .reportingError failure terminal =>
    some ((p.sent ok (.frame (p.errorFrame failure))).setHandoff
      ({ h with sendFailed := h.sendFailed || !ok }.setAttempt r i { a with
        phase := if ok then .reportingDone (terminal.getD p.doneFrame) else .cleaning true }))
  | .reportingDone f =>
    some ((p.sent ok (.frame f)).setHandoff
      ({ h with sendFailed := h.sendFailed || !ok }.setAttempt r i { a with
        phase := .cleaning (!ok) }))
  | .cleaning failed =>
    some (p.setHandoff ({ h with registered := false }.setAttempt r i
      { a with phase := .settling failed }))
  | .settling failed => some (p.settledRelease h r i a failed)
  | .over => none

/-- `prepare`, `start`, `release` and `cancelRun` are frames of the server; the two shutdowns also
do `cancelRun` and `closePending`. -/
inductive Label where
  | preparer (a : Answer)
  | closer (i : Nat) (ok : Bool)
  | task (i : Nat) (ok : Bool)
  | passDeadline
  | fireTimer
  | prepare
  | release
  | start (runID : String) (known free : Bool)
  | cancelRun
  | closePending
  | prune
  | starter (a : Answer)
  | pump (a : Answer)
  | attempt (i : Nat) (ok : Bool)
  | write (f : Frame)
  | closeOut
  | admitOperation
  | finishOperation

def withHandoff (p : Preparation) (f : Handoff → Option Handoff) : Option Preparation := do
  let h ← p.handoff
  let h ← f h
  some (p.setHandoff h)

def runAttempt (closed : Bool) (p : Preparation) (i : Nat) (ok : Bool) : Option Preparation := do
  let h ← p.handoff
  let r ← h.release
  let a ← r.attempts[i]?
  p.stepAttempt closed h r i a ok

/-- A claim that aborts and asks for a retry, while the router still holds the session. -/
def cancelRun (p : Preparation) : Option Preparation := do
  let h ← p.handoff
  if h.registered then some (p.claim h true "" true) else none

def step (closed : Bool) (p : Preparation) : Label → Option Preparation
  | .preparer a => p.stepPreparer closed a
  | .closer i ok => p.stepCloser i ok
  | .task i ok => p.stepTask closed i ok
  | .passDeadline => some { p with overdue := true }
  | .fireTimer => if p.timer ∧ p.overdue then some (p.stopTimer.addTask .expire) else none
  | .prepare => if p.listed ∧ !closed then some (p.publish p.status) else none
  -- the preparation is looked up in a section of its own
  | .release => if p.listed ∧ !closed then some (p.addTask .release) else none
  | .start runID known free =>
    if p.listed ∧ !closed then some (p.handleExecutionStart runID known free).1 else none
  | .cancelRun => p.cancelRun
  | .closePending => some p.closePending
  | .prune => if p.owns then none else some { p with listed := false }
  | .starter a => do
    let h ← p.handoff
    p.stepStart h a
  | .pump a => do
    let h ← p.handoff
    p.stepPump closed h a
  | .attempt i ok => p.runAttempt closed i ok
  | .write f => p.withHandoff (·.write f)
  | .closeOut => p.withHandoff (·.closeOut)
  | .admitOperation => p.withHandoff (·.admitOperation)
  | .finishOperation => p.withHandoff (·.finishOperation)

def Label.onHandoff : Label → Handoff → Option Handoff
  | .write f => (·.write f)
  | .closeOut => (·.closeOut)
  | .admitOperation => (·.admitOperation)
  | .finishOperation => (·.finishOperation)
  | _ => fun _ => none

theorem onHandoff_same {l : Label} {h g : Handoff} (hg : l.onHandoff h = some g) :
    g.frame = h.frame ∧ g.start = h.start ∧ g.pump = h.pump := by
  cases l <;> simp only [Label.onHandoff, Handoff.write, Handoff.closeOut, Handoff.admitOperation,
    Handoff.finishOperation] at hg
  case write | closeOut | admitOperation | finishOperation =>
    split at hg <;> cases hg
    exact ⟨rfl, rfl, rfl⟩
  all_goals cases hg

/-- The steps, case by case, with what they check. -/
inductive Effect (closed : Bool) (p : Preparation) : Label → Preparation → Prop where
  | preparer {a : Answer} {p' : Preparation} (hs : p.stepPreparer closed a = some p') :
      Effect closed p (.preparer a) p'
  | closer {i : Nat} {ok : Bool} {p' : Preparation} (hs : p.stepCloser i ok = some p') :
      Effect closed p (.closer i ok) p'
  | task {i : Nat} {ok : Bool} {p' : Preparation} (hs : p.stepTask closed i ok = some p') :
      Effect closed p (.task i ok) p'
  | passDeadline : Effect closed p .passDeadline { p with overdue := true }
  | fireTimer : Effect closed p .fireTimer (p.stopTimer.addTask .expire)
  | prepare : Effect closed p .prepare (p.publish p.status)
  | release : Effect closed p .release (p.addTask .release)
  | start {runID : String} {known free : Bool} :
      Effect closed p (.start runID known free) (p.handleExecutionStart runID known free).1
  | cancelRun {h : Handoff} (hh : p.handoff = some h) :
      Effect closed p .cancelRun (p.claim h true "" true)
  | closePending : Effect closed p .closePending p.closePending
  | prune (howns : p.owns = false) : Effect closed p .prune { p with listed := false }
  | starter {a : Answer} {h : Handoff} {p' : Preparation} (hh : p.handoff = some h)
      (hs : p.stepStart h a = some p') : Effect closed p (.starter a) p'
  | pump {a : Answer} {h : Handoff} {p' : Preparation} (hh : p.handoff = some h)
      (hs : p.stepPump closed h a = some p') : Effect closed p (.pump a) p'
  | attempt {i : Nat} {ok : Bool} {p' : Preparation} (hs : p.runAttempt closed i ok = some p') :
      Effect closed p (.attempt i ok) p'
  | handoff {l : Label} {h g : Handoff} (hh : p.handoff = some h) (hg : l.onHandoff h = some g) :
      Effect closed p l (p.setHandoff g)

theorem effect {closed : Bool} {p p' : Preparation} {l : Label} (hs : p.step closed l = some p') :
    Effect closed p l p' := by
  have hhandoff (f : Handoff → Option Handoff) (hl : l.onHandoff = f)
      (hs : p.withHandoff f = some p') : Effect closed p l p' := by
    simp only [withHandoff, Option.bind_eq_bind, Option.bind_eq_some_iff] at hs
    obtain ⟨h, hh, g, hg, hs⟩ := hs
    cases hs
    exact .handoff hh (hl ▸ hg)
  cases l with
  | preparer a => exact .preparer hs
  | closer i ok => exact .closer hs
  | task i ok => exact .task hs
  | attempt i ok => exact .attempt hs
  | write | closeOut | admitOperation | finishOperation => exact hhandoff _ rfl hs
  | passDeadline =>
    cases hs
    exact .passDeadline
  | closePending =>
    cases hs
    exact .closePending
  | starter a | pump a =>
    obtain ⟨h, hh, hs⟩ := Option.bind_eq_some_iff.mp hs
    constructor <;> assumption
  | cancelRun =>
    obtain ⟨h, hh, hs⟩ := Option.bind_eq_some_iff.mp hs
    split at hs <;> cases hs
    exact .cancelRun hh
  | prune =>
    simp only [step] at hs
    split at hs <;> cases hs
    rename_i howns
    exact .prune (by simpa using howns)
  | fireTimer | prepare | release | start =>
    simp only [step] at hs
    split at hs <;> cases hs
    constructor

theorem stepPump_cases {closed : Bool} {p p' : Preparation} {h : Handoff} {a : Answer}
    (hs : p.stepPump closed h a = some p') : h.pump ≠ .over ∧ ∃ g : Handoff,
      (p' = p.setHandoff g ∨ (∃ f, p' = (p.sent a.ok (.frame f)).setHandoff g) ∨
        ∃ abort, p' = p.claim g abort "" false) ∧ g.frame = h.frame ∧ g.start = h.start := by
  unfold stepPump at hs
  split at hs
  case h_9 => cases hs
  all_goals refine ⟨by simp [*], ?_⟩
  case h_2 =>
    unfold selectOutput at hs
    split at hs
    · split at hs <;> cases hs
      exact ⟨_, .inl rfl, rfl, rfl⟩
    · split at hs
      · cases hs
        exact ⟨_, .inl rfl, rfl, rfl⟩
      · split at hs <;> cases hs
        exact ⟨_, .inl rfl, rfl, rfl⟩
  case h_8 =>
    unfold drainOutput at hs
    split at hs
    · cases hs
      exact ⟨_, .inl rfl, rfl, rfl⟩
    · split at hs <;> cases hs
      exact ⟨_, .inl rfl, rfl, rfl⟩
  all_goals cases hs
  case h_1 => exact ⟨_, .inl rfl, rfl, rfl⟩
  case h_3 =>
    unfold receivedOutput
    split
    · exact ⟨_, .inl rfl, rfl, rfl⟩
    · split
      · exact ⟨_, .inr (.inr ⟨_, rfl⟩), rfl, rfl⟩
      · split <;> exact ⟨_, .inl rfl, rfl, rfl⟩
  case h_4 => exact ⟨_, .inr (.inl ⟨_, rfl⟩), rfl, rfl⟩
  case h_6 =>
    unfold closedOutput
    split
    · exact ⟨_, .inr (.inr ⟨_, rfl⟩), rfl, rfl⟩
    · exact ⟨_, .inl rfl, rfl, rfl⟩
  all_goals exact ⟨_, .inr (.inr ⟨_, rfl⟩), rfl, rfl⟩

end Preparation

end Parsar.Dispatch
