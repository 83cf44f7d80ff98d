import Parsar.Framework.Trace
import Parsar.WorkspaceExport.Router
import Parsar.WorkspaceWrite.Router
import Parsar.Dispatch.Preparation
import Parsar.Dispatch.Prompt

namespace Parsar.Dispatch

inductive Operation where
  | executionPrepare
  | executionStart
  | executionRelease
  deriving DecidableEq, Repr

structure Rejection where
  requestID : String
  code : RejectionCode
  operation : Operation
  deriving DecidableEq

/-- The codes that are decided without a look at the router's state. -/
def RejectionCode.beforeLookup : RejectionCode → Bool
  | invalidRequest | unsupportedPreparation | unsupportedReadPreparation | invalidConfiguration
  | unsupportedConfiguration | invalidStart | invalidRelease => true
  | _ => false

/-- A `sessionCancellation` of a shutdown: a prompt with what is left to do for it, or the release
attempt of a handoff. -/
inductive Victim where
  | prompt (i : Nat) (steps : List CancelStep)
  | handoff (i j : Nat)
  deriving DecidableEq

/-- Where `runShutdownAttempt` is. -/
inductive ShutdownPhase where
  | cancelling
  | waiting
  | checking
  | finished (err : Bool)
  deriving DecidableEq

/-- `shutdownAttempt`, with the victims that are left. -/
structure ShutdownAttempt where
  victims : List Victim
  releaseErr : Bool := false
  phase : ShutdownPhase := .cancelling
  deriving DecidableEq

/-- `preparations` and `prompts` are all that were ever admitted, `rejecting` the rejections about
to be sent. -/
structure Router where
  closed : Bool := false
  preparations : List Preparation := []
  prompts : List Prompt := []
  write : WorkspaceWrite.Router := {}
  exports : WorkspaceExport.Router := {}
  rejecting : List Rejection := []
  rejected : List Rejection := []
  shutdowns : List ShutdownAttempt := []

def preparationCapacity : Nat := 4

def preparationRecords : Nat := 64

namespace Preparation

def running (p : Preparation) : Bool := p.handoff.any (·.registered)

def exportable (p : Preparation) (handle : String) : Bool :=
  p.listed && p.status.handle = handle && p.status.state = .ready && p.owns && !p.busy &&
    !p.cancelled && !p.overdue && p.workspaceReadOnly

def shutDown (p : Preparation) : Preparation := (p.cancelRun.getD p).closePending

def Label.isOwn : Label → Bool
  | prepare | release | start _ _ _ | cancelRun | closePending => false
  | _ => true

def tracked (p : Preparation) : Bool :=
  p.preparer ≠ .over || !p.closers.isEmpty ||
  p.tasks.any (fun
    | .send _ | .undelivered => true
    | _ => false) ||
  p.handoff.any (fun h => h.start ≠ .over || h.pump ≠ .over ||
    h.release.any (fun r => r.attempts.any (·.phase ≠ .over)))

end Preparation

namespace Router

def hasSession (r : Router) (runID : String) : Bool :=
  r.prompts.any (fun q => q.registered && q.runID = runID) ||
  r.preparations.any (fun p => p.running && p.status.runID = runID)

def hasSessions (r : Router) : Bool :=
  r.prompts.any (·.registered) || r.preparations.any (·.running)

def hasIdle (r : Router) : Bool := r.prompts.any (·.idle)

def ownsPreparation (r : Router) : Bool := r.preparations.any (fun p => p.listed && p.owns)

def transferring (r : Router) : Bool :=
  r.write.workspaceWrite.isSome || r.exports.workspaceExport.isSome

def setPreparation (r : Router) (i : Nat) (p : Preparation) : Router :=
  { r with preparations := r.preparations.set i p }

def setPrompt (r : Router) (i : Nat) (q : Prompt) : Router :=
  { r with prompts := r.prompts.set i q }

def stepPreparation (r : Router) (i : Nat) (l : Preparation.Label) : Option Router := do
  let p ← r.preparations[i]?
  let p ← p.step r.closed l
  some (r.setPreparation i p)

/-- `rejectPreparation`. -/
def reject (r : Router) (requestID : String) (operation : Operation) (code : RejectionCode) :
    Router :=
  { r with rejecting := r.rejecting ++ [⟨requestID, code, operation⟩] }

def find (r : Router) (requestID handle : String) : Option Nat :=
  r.preparations.findIdx? (fun p => p.listed && p.status.handle = handle && p.requestID = requestID)

def findRequest (r : Router) (requestID : String) : Option Nat :=
  r.preparations.findIdx? (fun p => p.listed && p.requestID = requestID)

def admitPreparation (r : Router) (requestID handle : String) (readOnly : Bool) (expiresAt : Int) :
    Option Router :=
  if preparationCapacity ≤ r.preparations.countP (fun p => p.listed && p.owns) ∨
      preparationRecords ≤ r.preparations.countP (·.listed) then
    some (r.reject requestID .executionPrepare .preparationCapacity)
  else if r.preparations.any (·.status.handle = handle) then none
  else some { r with
    preparations := r.preparations ++ [.new requestID handle readOnly expiresAt] }

/-- `handleExecutionPrepare` for a valid configuration; `known` says that a request of this id asked
for the same one. -/
def handleExecutionPrepare (r : Router) (requestID handle : String) (readOnly known : Bool)
    (expiresAt : Int) : Option Router :=
  if r.closed then none
  else if r.transferring ∧ !readOnly then
    some (r.reject requestID .executionPrepare .resourceUnavailable)
  else match r.findRequest requestID with
    | some i =>
      if known then r.stepPreparation i .prepare
      else some (r.reject requestID .executionPrepare .requestConflict)
    | none => r.admitPreparation requestID handle readOnly expiresAt

/-- `handleExecutionStart` for a valid payload. -/
def handleExecutionStart (r : Router) (requestID handle runID : String) (known : Bool) :
    Option Router :=
  if r.closed then none
  else if r.exports.workspaceExport.isSome then
    some (r.reject requestID .executionStart .resourceUnavailable)
  else match r.find requestID handle with
    | none => some (r.reject requestID .executionStart .unknownPreparation)
    | some i => do
      let p ← r.preparations[i]?
      let free := !r.hasSession runID
      let r ← r.stepPreparation i (.start runID known free)
      match (p.handleExecutionStart runID known free).2 with
      | some code => some (r.reject requestID .executionStart code)
      | none => some r

/-- `handleExecutionRelease` for a valid payload. -/
def handleExecutionRelease (r : Router) (requestID handle : String) : Option Router :=
  if r.closed then none
  else match r.find requestID handle with
    | none => some (r.reject requestID .executionRelease .unknownPreparation)
    | some i => r.stepPreparation i .release

/-- `handlePromptRequest` up to the registration. A prompt that is refused changes nothing. -/
def handlePromptRequest (r : Router) (runID stateKey : String) (releaseOnCompletion : Bool) :
    Option Router :=
  if r.closed ∨ r.transferring ∨ r.hasSession runID then none
  else some { r with prompts := r.prompts ++ [.new runID stateKey releaseOnCompletion] }

/-- `handlePromptCancel` for the session with this id. -/
def handlePromptCancel (r : Router) (runID : String) : Option Router :=
  if r.closed then none
  else match r.prompts.findIdx? (fun q => q.registered && q.runID = runID) with
    | some i => do
      let q ← r.prompts[i]?
      some (r.setPrompt i q.cancel)
    | none => do
      let i ← r.preparations.findIdx? (fun p => p.running && p.status.runID = runID)
      r.stepPreparation i .cancelRun

/-- What `handleWorkspaceWrite` sees of the rest of the router; `accepts` is `AcceptsFileWrite`. -/
def otherWork (r : Router) (accepts : Bool) : WorkspaceWrite.OtherWork where
  workspaceExport := r.exports.workspaceExport.isSome
  acceptsFileWrite := accepts
  sessions := r.hasSessions
  idle := r.hasIdle
  ownedPreparation := r.ownsPreparation

def handleWorkspaceWrite (r : Router) (env : WorkspaceWrite.Frame) (accepts : Bool) : Router :=
  { r with write := (r.write.handleWorkspaceWrite (r.otherWork accepts) env).1 }

/-- What `handleWorkspaceExport` asks of the rest of the router; `can` is `CanExport` and that the
environment is the preparation's. -/
def exportAvailable (r : Router) (env : WorkspaceExport.Frame) (can : Bool) : Bool :=
  r.write.workspaceWrite.isNone && can &&
    env.request.any (fun request => r.preparations.any (·.exportable request.handle))

def handleWorkspaceExport (r : Router) (env : WorkspaceExport.Frame) (can : Bool)
    (stream : GoStd.Bytes) : Router :=
  { r with exports := (r.exports.handleWorkspaceExport (r.exportAvailable env can) stream env).1 }

inductive UploadStep where
  | takeBody
  | writeLocal (answer : WorkspaceWrite.WriteAnswer)
  | recordResult
  | sendResult (i : Nat)

inductive ExportStep where
  | takeRequest
  | readPipe (read : WorkspaceExport.PipeRead)
  | send (ok : Bool)
  | expire
  | letGo
  | sendCompleted (i : Nat)

def runUpload (w : WorkspaceWrite.Router) : UploadStep → Option WorkspaceWrite.Router
  | .takeBody => w.takeBody
  | .writeLocal answer => w.writeWorkspaceFile answer
  | .recordResult => w.recordResult
  | .sendResult i => if i < w.outbox.length then some { w with outbox := w.outbox.eraseIdx i } else none

def runExport (e : WorkspaceExport.Router) : ExportStep → Option WorkspaceExport.Router
  | .takeRequest => e.takeRequest
  | .readPipe read => e.readPipe read
  | .send ok =>
    match e.workspaceExport with
    | some u =>
      match u.turn with
      | .sending result => some (e.sentExport u result ok)
      | _ => none
    | none => none
  | .expire => e.expire
  | .letGo => e.letGo
  | .sendCompleted i =>
    if i < e.outbox.length then some { e with outbox := e.outbox.eraseIdx i } else none

def uploading (r : Router) : Bool :=
  r.write.workspaceWrite.any (fun u => u.worker ≠ .settled) || !r.write.outbox.isEmpty

def exporting (r : Router) : Bool :=
  r.exports.workspaceExport.isSome || !r.exports.outbox.isEmpty

/-- `handleDeviceShutdown` up to the calls that cancel. -/
def handleDeviceShutdown (r : Router) : Option Router :=
  if r.closed then none
  else some { r with
    prompts := r.prompts.map Prompt.interrupt
    preparations := r.preparations.map Preparation.shutDown }

def handoffVictim (i : Nat) (p : Preparation) : Option Victim := do
  let h ← p.handoff
  if h.registered then
    let r ← (h.claim true "" true).1.release
    some (.handoff i (r.attempts.length - 1))
  else none

def promptVictim (i : Nat) (q : Prompt) : Option Victim :=
  if q.held then some (.prompt i q.cancellation) else none

/-- Whom a call of `Shutdown` has to cancel. The sessions of prompts are for the first one. -/
def victims (r : Router) : List Victim :=
  (r.preparations.zipIdx.filterMap fun (p, i) => handoffVictim i p) ++
    if r.closed then [] else r.prompts.zipIdx.filterMap fun (q, i) => promptVictim i q

def mayShutDown (r : Router) : Bool :=
  match r.shutdowns.getLast? with
  | none => true
  | some attempt => attempt.phase = .finished true

/-- A call of `Shutdown` that makes an attempt; the maps may give the victims in any order. -/
def shutdown (r : Router) (order : List Victim) : Option Router :=
  if r.mayShutDown ∧ order.isPerm r.victims then
    some { r with
      closed := true
      prompts := r.prompts.map Prompt.letGo
      preparations := r.preparations.map Preparation.shutDown
      write := { r.write with closed := true }
      exports := { r.exports with closed := true }
      shutdowns := r.shutdowns ++ [{ victims := order }] }
  else none

def releaseAttempt (r : Router) (i j : Nat) : Option (Release × Attempt) := do
  let p ← r.preparations[i]?
  let h ← p.handoff
  let release ← h.release
  let a ← release.attempts[j]?
  some (release, a)

/-- `awaitPreparedNativeRelease`: it has failed, or it has succeeded and is settled. -/
def awaitRelease (r : Router) (i j : Nat) : Option Bool :=
  match r.releaseAttempt i j with
  | some (release, a) =>
    if !a.isDone then none
    else if a.err then some false
    else if release.settledCloses ≠ 0 then some true
    else none
  | none => none

def quiet (r : Router) : Bool :=
  r.preparations.all (!·.tracked) && r.prompts.all (!·.pumping) && !r.uploading && !r.exporting &&
    r.rejecting.isEmpty && r.shutdowns.all (·.phase ≠ .cancelling)

def unsettled (r : Router) : Bool :=
  r.write.workspaceWrite.any (·.uncertain) || r.ownsPreparation

def setShutdown (r : Router) (k : Nat) (attempt : ShutdownAttempt) : Router :=
  { r with shutdowns := r.shutdowns.set k attempt }

def cancelVictim (r : Router) (k : Nat) (attempt : ShutdownAttempt) : Option Router :=
  match attempt.victims with
  | [] => some (r.setShutdown k { attempt with
      phase := if attempt.releaseErr then .finished true else .waiting })
  | .prompt _ [] :: rest => some (r.setShutdown k { attempt with victims := rest })
  | .prompt i (s :: steps) :: rest => do
    let q ← r.prompts[i]?
    some ((r.setPrompt i (q.perform s)).setShutdown k { attempt with
      victims := .prompt i steps :: rest })
  | .handoff i j :: rest => do
    let ok ← r.awaitRelease i j
    some (r.setShutdown k { attempt with
      victims := rest
      releaseErr := attempt.releaseErr || !ok })

def runShutdownAttempt (r : Router) (k : Nat) : Option Router := do
  let attempt ← r.shutdowns[k]?
  match attempt.phase with
  | .cancelling => r.cancelVictim k attempt
  | .waiting => if r.quiet then some (r.setShutdown k { attempt with phase := .checking }) else none
  | .checking => some (r.setShutdown k { attempt with phase := .finished r.unsettled })
  | .finished _ => none

inductive Label where
  | reject (requestID : String) (operation : Operation) (code : RejectionCode)
  | executionPrepare (requestID handle : String) (readOnly known : Bool) (expiresAt : Int)
  | executionStart (requestID handle runID : String) (known : Bool)
  | executionRelease (requestID handle : String)
  | promptRequest (runID stateKey : String) (releaseOnCompletion : Bool)
  | promptCancel (runID : String)
  | workspaceWrite (env : WorkspaceWrite.Frame) (accepts : Bool)
  | workspaceExport (env : WorkspaceExport.Frame) (can : Bool) (stream : GoStd.Bytes)
  | deviceShutdown
  | shutdown (order : List Victim)
  | preparation (i : Nat) (l : Preparation.Label)
  | beginPrompt (i : Nat) (ok : Bool)
  | pump (i : Nat) (e : PromptEvent)
  | continueCall (i j : Nat)
  | expireIdle (i : Nat)
  | upload (s : UploadStep)
  | runExport (s : ExportStep)
  | sendRejection (i : Nat) (ok : Bool)
  | shutdownAttempt (k : Nat)

def withPrompt (r : Router) (i : Nat) (f : Prompt → Option Prompt) : Option Router := do
  let q ← r.prompts[i]?
  let q ← f q
  some (r.setPrompt i q)

def sendRejection (r : Router) (i : Nat) (ok : Bool) : Option Router := do
  let rejection ← r.rejecting[i]?
  some { r with
    rejecting := r.rejecting.eraseIdx i
    rejected := if ok then r.rejected ++ [rejection] else r.rejected }

def step (r : Router) : Label → Option Router
  | .reject requestID operation code =>
    if !r.closed ∧ code.beforeLookup then some (r.reject requestID operation code) else none
  | .executionPrepare requestID handle readOnly known expiresAt =>
    r.handleExecutionPrepare requestID handle readOnly known expiresAt
  | .executionStart requestID handle runID known => r.handleExecutionStart requestID handle runID known
  | .executionRelease requestID handle => r.handleExecutionRelease requestID handle
  | .promptRequest runID stateKey release => r.handlePromptRequest runID stateKey release
  | .promptCancel runID => r.handlePromptCancel runID
  | .workspaceWrite env accepts => some (r.handleWorkspaceWrite env accepts)
  | .workspaceExport env can stream => some (r.handleWorkspaceExport env can stream)
  | .deviceShutdown => r.handleDeviceShutdown
  | .shutdown order => r.shutdown order
  | .preparation i l => if l.isOwn then r.stepPreparation i l else none
  | .beginPrompt i ok => r.withPrompt i (·.begin ok)
  | .pump i e => r.withPrompt i (·.pump r.closed e)
  | .continueCall i j => r.withPrompt i (·.continueCall j)
  | .expireIdle i => r.withPrompt i (·.expireIdle)
  | .upload s => (runUpload r.write s).map fun w => { r with write := w }
  | .runExport s => (runExport r.exports s).map fun e => { r with exports := e }
  | .sendRejection i ok => r.sendRejection i ok
  | .shutdownAttempt k => r.runShutdownAttempt k

def Reaches (as : List Label) (r : Router) : Prop := runTrace step {} as = some r

end Router

end Parsar.Dispatch
