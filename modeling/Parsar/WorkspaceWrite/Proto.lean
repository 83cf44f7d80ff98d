import Parsar.GoStd.Sha256

namespace Parsar.WorkspaceWrite

open GoStd

/-- `fs.ValidPath`. -/
def validPath (name : String) : Bool :=
  name = "." ||
    (name.toList.splitOn '/').all fun elem => elem ≠ [] && elem ≠ ['.'] && elem ≠ ['.', '.']

/-- `strings.ContainsAny` of a backslash, a zero byte or a line break. -/
def containsForbidden (path : String) : Bool :=
  path.toList.any fun c => c ∈ ['\\', '\x00', '\r', '\n']

def workspaceWriteMaxBytes : Nat := 50 <<< 20

def workspaceWriteChunkBytes : Nat := 64 <<< 10

def workspaceWriteMaxFrameBytes : Nat := 96 <<< 10

inductive Step where
  | begin
  | chunk
  | commit
  | other
  deriving DecidableEq, Repr

structure WorkspaceWritePayload where
  step : Step
  environmentID : String := ""
  sessionID : String := ""
  path : String := ""
  sizeBytes : Int := 0
  sha256 : String := ""
  offset : Int := 0
  data : Bytes := []
  deriving DecidableEq

def validWorkspaceWriteRequest (p : WorkspaceWritePayload) : Bool :=
  if p.step = .begin then
    [p.environmentID, p.sessionID].all canonicalUUID && isHexDigest p.sha256 &&
      0 ≤ p.sizeBytes && p.sizeBytes ≤ workspaceWriteMaxBytes && p.offset = 0 &&
      p.data.length = 0 && (utf8 p.path).length ≤ 4096 && p.path ≠ "." && validPath p.path &&
      !containsForbidden p.path
  else if p.environmentID ≠ "" ∨ p.sessionID ≠ "" ∨ p.path ≠ "" ∨ p.sizeBytes ≠ 0 ∨
      p.sha256 ≠ "" then false
  else match p.step with
    | .chunk => 0 ≤ p.offset && p.offset ≤ workspaceWriteMaxBytes && 0 < p.data.length &&
        p.data.length ≤ workspaceWriteChunkBytes
    | .commit => p.offset = 0 && p.data.length = 0
    | _ => false

structure Frame where
  id : String
  size : Nat
  payload : Option WorkspaceWritePayload
  deriving DecidableEq

def Frame.request (f : Frame) : Option WorkspaceWritePayload :=
  if workspaceWriteMaxFrameBytes < f.size then none
  else f.payload.filter validWorkspaceWriteRequest

theorem Frame.request_eq_some {f : Frame} {p : WorkspaceWritePayload} (h : f.request = some p) :
    f.payload = some p ∧ validWorkspaceWriteRequest p = true := by
  unfold request at h
  split at h
  · cases h
  · simpa [Option.filter_eq_some_iff] using h

inductive Outcome where
  | ready
  | received
  | completed
  | rejected
  | unknown
  deriving DecidableEq, Repr

inductive ErrorCode where
  | none
  | invalidRequest
  | resourceUnavailable
  | writeCapacity
  | writeUnsupported
  | writeRejected
  | writeUnconfirmed
  deriving DecidableEq, Repr

structure WorkspaceWriteResultPayload where
  outcome : Outcome
  offset : Int := 0
  sizeBytes : Int := 0
  errorCode : ErrorCode := .none
  deriving DecidableEq

def rejectedWorkspaceWrite (code : ErrorCode) : WorkspaceWriteResultPayload :=
  { outcome := .rejected, errorCode := code }

structure Reply where
  id : String
  result : Option WorkspaceWriteResultPayload
  deriving DecidableEq

def validWorkspaceWriteResult (r : WorkspaceWriteResultPayload) (expected : Outcome)
    (offset size : Int) : Bool :=
  if r.outcome = .rejected then
    if r.offset ≠ 0 ∨ r.sizeBytes ≠ 0 then false
    else match r.errorCode with
      | .invalidRequest | .resourceUnavailable | .writeCapacity | .writeUnsupported
      | .writeRejected => true
      | _ => false
  else if r.outcome = .unknown then
    r.offset = 0 && r.sizeBytes = 0 && r.errorCode = .writeUnconfirmed
  else if r.outcome ≠ expected ∨ r.offset ≠ offset ∨ r.errorCode ≠ .none then false
  else if expected = .completed then r.sizeBytes = size
  else r.sizeBytes = 0

end Parsar.WorkspaceWrite
