import Parsar.GoStd.Text

namespace Parsar.WorkspaceExport

open GoStd

def workspaceExportChunkBytes : Nat := 64 <<< 10

def workspaceExportMaxBytes : Nat := 528 <<< 20

def workspaceReadMaxRequestBytes : Nat := 8 <<< 10

def workspaceReadMaxIDBytes : Nat := 128

inductive Step where
  | begin
  | next
  | cancel
  | other
  deriving DecidableEq, Repr

structure WorkspaceExportPayload where
  step : Step
  handle : String := ""
  environmentID : String := ""
  offset : Int := 0
  deriving DecidableEq

def validWorkspaceExportRequest (p : WorkspaceExportPayload) : Bool :=
  if p.step = .begin then
    p.offset = 0 && 0 < (utf8 p.handle).length && (utf8 p.handle).length ≤ 128 &&
      0 < (utf8 p.environmentID).length && (utf8 p.environmentID).length ≤ 128
  else p.handle = "" && p.environmentID = "" &&
    ((p.step = .next && 0 ≤ p.offset && p.offset ≤ workspaceExportMaxBytes) ||
      (p.step = .cancel && p.offset = 0))

structure Frame where
  id : String
  size : Nat
  payload : Option WorkspaceExportPayload
  deriving DecidableEq

def Frame.request (f : Frame) : Option WorkspaceExportPayload :=
  if (utf8 f.id).length = 0 ∨ workspaceReadMaxIDBytes < (utf8 f.id).length ∨
      workspaceReadMaxRequestBytes < f.size then none
  else f.payload.filter validWorkspaceExportRequest

inductive Outcome where
  | chunk
  | completed
  | failed
  | rejected
  deriving DecidableEq, Repr

inductive ErrorCode where
  | none
  | invalidRequest
  | exportFailed
  | resourceUnavailable
  deriving DecidableEq, Repr

structure WorkspaceExportResultPayload where
  outcome : Outcome
  offset : Int := 0
  data : Bytes := []
  errorCode : ErrorCode := .none
  deriving DecidableEq

/-- A call of `ExportOutputs`: the export it is made for and the bytes it writes when nothing stops
it. -/
structure Source where
  id : String
  stream : Bytes
  deriving DecidableEq

/-- Where the loop of `runWorkspaceExport` is. -/
inductive Turn where
  | waiting
  | reading
  | sending (result : WorkspaceExportResultPayload)
  | stopped
  deriving DecidableEq

/-- `workspaceExport`, with the loop that serves it. -/
structure ExportState where
  source : Source
  requests : Option WorkspaceExportPayload
  offset : Nat := 0
  turn : Turn := .waiting
  deriving DecidableEq

/-- What `reader.Read` gives: some bytes of the stream, the end of the pipe, which only a writer
closed without an error has, or an error. -/
inductive PipeRead where
  | bytes (n : Nat)
  | eof
  | error
  deriving DecidableEq

/-- The part of the router that `mu` guards for exports; `outbox` has the completion receipts,
`finished` the sources read to their end. -/
structure Router where
  closed : Bool := false
  workspaceExport : Option ExportState := none
  outbox : List (String × WorkspaceExportResultPayload) := []
  admitted : List Source := []
  finished : List Source := []

def rejectedWorkspaceExport : WorkspaceExportResultPayload :=
  { outcome := .rejected, errorCode := .resourceUnavailable }

namespace Router

def holds (r : Router) (u : ExportState) : Router := { r with workspaceExport := some u }

/-- A request that does not begin an export. Cancelling the export's context changes nothing here:
the context may end at any time. -/
def continueExport (r : Router) (id : String) (request : WorkspaceExportPayload) :
    Router × Option WorkspaceExportResultPayload :=
  match r.workspaceExport with
  | none => (r, some rejectedWorkspaceExport)
  | some u =>
    if u.source.id ≠ id then (r, some rejectedWorkspaceExport)
    else if request.step = .cancel then (r, none)
    else if u.requests = none then (r.holds { u with requests := some request }, none)
    else (r, none)

/-- The critical section of `handleWorkspaceExport` and the result it sends; `stream` is what its
exporter will write. -/
def handleWorkspaceExport (r : Router) (available : Bool) (stream : Bytes) (env : Frame) :
    Router × Option WorkspaceExportResultPayload :=
  match env.request with
  | none => (r, none)
  | some request =>
    if r.closed then (r, none)
    else if request.step ≠ .begin then r.continueExport env.id request
    else if r.workspaceExport.isSome || !available then (r, some rejectedWorkspaceExport)
    else ({ r with
      workspaceExport := some { source := ⟨env.id, stream⟩, requests := some request }
      admitted := r.admitted ++ [⟨env.id, stream⟩] }, none)

def takeRequest (r : Router) : Option Router :=
  match r.workspaceExport with
  | some u =>
    match u.turn, u.requests with
    | .waiting, some request =>
      some (r.holds { u with
        requests := none
        turn := if request.offset = u.offset then .reading
          else .sending { outcome := .failed, offset := u.offset, errorCode := .invalidRequest } })
    | _, _ => none
  | none => none

def exportFailed (u : ExportState) : WorkspaceExportResultPayload :=
  { outcome := .failed, offset := u.offset, errorCode := .exportFailed }

def chunkOf (u : ExportState) (n : Nat) : WorkspaceExportResultPayload :=
  { outcome := .chunk, offset := u.offset, data := (u.source.stream.drop u.offset).take n }

/-- One read of the pipe. At its end the export is let go before the receipt is sent. -/
def readPipe (r : Router) (read : PipeRead) : Option Router :=
  match r.workspaceExport with
  | some u =>
    if u.turn ≠ .reading then none
    else match read with
      | .bytes n =>
        if workspaceExportChunkBytes < n ∨ u.source.stream.length < u.offset + n then none
        else if n = 0 ∨ (workspaceExportMaxBytes : Int) - u.offset < n then
          some (r.holds { u with turn := .sending (exportFailed u) })
        else some (r.holds { u with offset := u.offset + n, turn := .sending (chunkOf u n) })
      | .eof =>
        if u.offset ≠ u.source.stream.length then none
        else some { r with
          workspaceExport := none
          outbox := r.outbox ++ [(u.source.id, { outcome := .completed, offset := u.offset })]
          finished := r.finished ++ [u.source] }
      | .error => some (r.holds { u with turn := .sending (exportFailed u) })
  | none => none

def sentExport (r : Router) (u : ExportState) (result : WorkspaceExportResultPayload) (ok : Bool) :
    Router :=
  r.holds { u with turn := if ok && result.outcome = .chunk then .waiting else .stopped }

/-- The context ends while the loop waits for a request. -/
def expire (r : Router) : Option Router :=
  match r.workspaceExport with
  | some u => if u.turn = .waiting then some (r.holds { u with turn := .stopped }) else none
  | none => none

/-- The deferred part of `runWorkspaceExport`. -/
def letGo (r : Router) : Option Router :=
  match r.workspaceExport with
  | some u => if u.turn = .stopped then some { r with workspaceExport := none } else none
  | none => none

end Router

end Parsar.WorkspaceExport
