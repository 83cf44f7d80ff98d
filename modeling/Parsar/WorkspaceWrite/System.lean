import Parsar.Framework.Trace
import Parsar.WorkspaceWrite.Router

namespace Parsar.WorkspaceWrite

open GoStd

inductive Stage where
  | begin
  | chunk (offset : Nat)
  | commit
  deriving DecidableEq

/-- Nothing is returned with an error. -/
inductive Status where
  | sending
  | awaiting
  | returned (result : Option WorkspaceWriteResultPayload)
  deriving DecidableEq

structure Call where
  request : WorkspaceWritePayload
  data : Bytes
  stage : Stage := .begin
  status : Status := .sending
  begins : request.step = .begin
  sized : request.sizeBytes = data.length

def chunkEnd (data : Bytes) (offset : Nat) : Nat :=
  min (offset + workspaceWriteChunkBytes) data.length

def chunkPayload (data : Bytes) (offset : Nat) : WorkspaceWritePayload where
  step := .chunk
  offset := offset
  data := (data.drop offset).take (chunkEnd data offset - offset)

def Stage.ofOffset (data : Bytes) (offset : Nat) : Stage :=
  if offset < data.length then .chunk offset else .commit

namespace Call

/-- The caller names the place, the call fills in the size and the digest. -/
def new (request : WorkspaceWritePayload) (data : Bytes) : Call where
  request := { request with
    step := .begin
    sizeBytes := data.length
    sha256 := sha256Hex data }
  data := data
  begins := rfl
  sized := rfl

def payload (c : Call) : WorkspaceWritePayload :=
  match c.stage with
  | .begin => c.request
  | .chunk offset => chunkPayload c.data offset
  | .commit => { step := .commit }

def expected (c : Call) : Outcome × Int :=
  match c.stage with
  | .begin => (.ready, 0)
  | .chunk offset => (.received, chunkEnd c.data offset)
  | .commit => (.completed, 0)

def next (c : Call) : Stage :=
  match c.stage with
  | .begin => .ofOffset c.data 0
  | .chunk offset => .ofOffset c.data (chunkEnd c.data offset)
  | .commit => .commit

def exchanged (c : Call) (reply : Option WorkspaceWriteResultPayload) : Call :=
  match reply.filter (validWorkspaceWriteResult · c.expected.1 c.expected.2 c.data.length) with
  | none => { c with status := .returned none }
  | some result =>
    if result.outcome ≠ c.expected.1 ∨ c.stage = .commit then
      { c with status := .returned (some result) }
    else { c with stage := c.next, status := .sending }

def hasReturned (c : Call) : Bool :=
  match c.status with
  | .returned _ => true
  | _ => false

end Call

inductive Handler where
  | idle
  | handling (env : Frame)
  | replying (reply : Reply)
  deriving DecidableEq

/-- `writes` is the one entry `workspaceWrites` may have, `slots` the reply channels. -/
structure System where
  closed : Bool := false
  writes : Option String := none
  calls : String → Option Call := fun _ => none
  slots : String → Option (Option WorkspaceWriteResultPayload) := fun _ => none
  down : List Frame := []
  up : List Reply := []
  handler : Handler := .idle
  router : Router := {}

inductive Label where
  | writeWorkspaceFile (id : String) (request : WorkspaceWritePayload) (data : Bytes)
  | send (id : String) (size : Nat)
  | receive (id : String)
  | giveUp (id : String)
  | dispatchWorkspaceWrite
  | close
  | closeWorkspaceWrites
  | loseFrame (i : Nat)
  | loseReply (i : Nat)
  | strayFrame (env : Frame)
  | strayReply (reply : Reply)
  | handle
  | handleWorkspaceWrite (work : OtherWork)
  | sendWorkspaceWrite (ok : Bool)
  | takeBody
  | writeLocal (answer : WriteAnswer)
  | recordResult
  | sendResult (i : Nat) (ok : Bool)
  | shutdown

namespace System

def setCall (st : System) (id : String) (c : Call) : System :=
  { st with calls := Function.update st.calls id (some c) }

/-- The deferred delete of a call that returns. -/
def release (st : System) (id : String) : System :=
  { st with writes := if st.writes = some id then none else st.writes }

def setStatus (st : System) (id : String) (c : Call) : System :=
  if c.hasReturned then (st.setCall id c).release id else st.setCall id c

/-- A call that cannot start returns at once. -/
def writeWorkspaceFile (st : System) (id : String) (request : WorkspaceWritePayload)
    (data : Bytes) : System :=
  if !canonicalUUID id || workspaceWriteMaxBytes < data.length ||
      !validWorkspaceWriteRequest (Call.new request data).request || st.closed ||
      st.writes.isSome then
    st.setCall id { Call.new request data with status := .returned none }
  else { st.setCall id (Call.new request data) with writes := some id }

def send (st : System) (id : String) (size : Nat) : Option System := do
  let c ← st.calls id
  if c.status ≠ .sending then none
  else if workspaceWriteMaxFrameBytes < size ∨ st.closed then
    some (st.setStatus id { c with status := .returned none })
  else some { st.setStatus id { c with status := .awaiting } with
    down := st.down ++ [⟨id, size, some c.payload⟩] }

def receive (st : System) (id : String) : Option System := do
  let c ← st.calls id
  let reply ← st.slots id
  if c.status ≠ .awaiting then none
  else some { st.setStatus id (c.exchanged reply) with slots := Function.update st.slots id none }

/-- The context is done, the session is closed, or the send failed. -/
def giveUp (st : System) (id : String) : Option System := do
  let c ← st.calls id
  if c.hasReturned then none else some (st.setStatus id { c with status := .returned none })

/-- A reply that finds no call, or a full channel, is dropped. -/
def dispatchWorkspaceWrite (st : System) : Option System :=
  match st.up with
  | [] => none
  | reply :: rest =>
    if st.writes = some reply.id ∧ st.slots reply.id = none then
      some { st with up := rest, slots := Function.update st.slots reply.id (some reply.result) }
    else some { st with up := rest }

/-- `Router.Handle` up to the handler. -/
def handle (st : System) : Option System :=
  match st.handler, st.down with
  | .idle, env :: rest =>
    some { st with down := rest, handler := if st.router.closed then .idle else .handling env }
  | _, _ => none

def handleWorkspaceWrite (st : System) (work : OtherWork) : Option System :=
  match st.handler with
  | .handling env =>
    some { st with
      router := (st.router.handleWorkspaceWrite work env).1
      handler := match (st.router.handleWorkspaceWrite work env).2 with
        | some result => .replying ⟨env.id, some result⟩
        | none => .idle }
  | _ => none

def sendWorkspaceWrite (st : System) (ok : Bool) : Option System :=
  match st.handler with
  | .replying reply =>
    some { st with handler := .idle, up := if ok then st.up ++ [reply] else st.up }
  | _ => none

def sendResult (st : System) (i : Nat) (ok : Bool) : Option System :=
  (st.router.outbox[i]?).map fun reply => { st with
    router := { st.router with outbox := st.router.outbox.eraseIdx i }
    up := if ok then st.up ++ [reply] else st.up }

/-- The ids for which `own` holds are this session's, one for each call. -/
def step (own : String → Bool) (st : System) : Label → Option System
  | .writeWorkspaceFile id request data =>
    if own id ∧ (st.calls id).isNone then some (st.writeWorkspaceFile id request data) else none
  | .send id size => st.send id size
  | .receive id => st.receive id
  | .giveUp id => st.giveUp id
  | .dispatchWorkspaceWrite => st.dispatchWorkspaceWrite
  | .close => some { st with closed := true }
  | .closeWorkspaceWrites => if st.closed then some { st with writes := none } else none
  | .loseFrame i => some { st with down := st.down.eraseIdx i }
  | .loseReply i => some { st with up := st.up.eraseIdx i }
  | .strayFrame env =>
    if env.request = none ∨ own env.id = false then some { st with down := st.down ++ [env] }
    else none
  | .strayReply reply =>
    if reply.result = none ∨ own reply.id = false then some { st with up := st.up ++ [reply] }
    else none
  | .handle => st.handle
  | .handleWorkspaceWrite work => st.handleWorkspaceWrite work
  | .sendWorkspaceWrite ok => st.sendWorkspaceWrite ok
  | .takeBody => st.router.takeBody.map fun r => { st with router := r }
  | .writeLocal answer =>
    (st.router.writeWorkspaceFile answer).map fun r => { st with router := r }
  | .recordResult => st.router.recordResult.map fun r => { st with router := r }
  | .sendResult i ok => st.sendResult i ok
  | .shutdown => some { st with router := { st.router with closed := true } }

def Reaches (own : String → Bool) (trace : List Label) (st : System) : Prop :=
  runTrace (step own) {} trace = some st

end System

end Parsar.WorkspaceWrite
