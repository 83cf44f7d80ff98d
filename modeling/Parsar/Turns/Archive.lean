import Mathlib.Algebra.Group.Int.Defs
import Parsar.GoStd.Sha256

namespace Parsar.Turns

open GoStd

inductive StoreError where
  | invalidInput
  | notFound
  | idempotencyConflict
  | turnConflict
  | unappliedInputs
  | environmentUnavailable
  | deviceBindingConflict
  | eventLimit
  | internal (text : String)
  deriving DecidableEq, Repr

/-- One header of the exported archive with what its body reads as: at most `size` bytes, fewer
where the stream ends inside it. -/
structure ArchiveEntry where
  regular : Bool
  name : Bytes
  size : Int
  body : Bytes
  deriving DecidableEq

/-- An export as the `tar` reader gives it: entries, then the trailer or an error, and what the
transport still holds behind the trailer. -/
structure ArchiveStream where
  entries : List ArchiveEntry
  trailer : Bool
  rest : Bytes
  restEnds : Bool
  deriving DecidableEq

structure CapturedFile where
  path : Bytes
  sizeBytes : Nat
  body : Bytes
  sha256 : String
  deriving DecidableEq

def maxArtifactBytes : Int := 200 * 2 ^ 20
def maxArtifactBatchBytes : Int := 500 * 2 ^ 20
def maxArtifacts : Nat := 4096
def maxPadding : Nat := 32768

/-- `fs.ValidPath`. -/
def validPath (name : Bytes) : Bool :=
  decide (ValidUTF8 name) &&
    (name == utf8 "." ||
      (name.splitOn 0x2F).all fun element =>
        element ≠ [] && element ≠ utf8 "." && element ≠ utf8 "..")

def badNameBytes : Bytes := [0x5C, 0x00, 0x0D, 0x0A]

def acceptsHeader (seen : List Bytes) (total : Int) (rows : Nat) (header : ArchiveEntry) : Bool :=
  header.regular && (utf8 "outputs/").isPrefixOf header.name && validPath header.name &&
    !header.name.any (badNameBytes.contains ·) && header.name.length ≤ 4096 &&
    0 ≤ header.size && header.size ≤ maxArtifactBytes &&
    header.size ≤ maxArtifactBatchBytes - total && rows < maxArtifacts &&
    !seen.contains header.name

def capturedFile (header : ArchiveEntry) : CapturedFile :=
  { path := utf8 "/workspace/" ++ header.name, sizeBytes := header.body.length,
    body := header.body, sha256 := sha256Hex header.body }

/-- The loop of `captureArtifactArchive` over the headers. `io.CopyN` fails on a short body. -/
def captureEntries : List ArchiveEntry → List Bytes → Int → List CapturedFile →
    Except StoreError (List CapturedFile)
  | [], _, _, rows => .ok rows
  | header :: entries, seen, total, rows =>
    if !acceptsHeader seen total rows.length header then .error .invalidInput
    else if header.body.length ≠ header.size then .error (.internal "unexpected EOF")
    else captureEntries entries (header.name :: seen) (total + header.size)
      (rows ++ [capturedFile header])

def captureArtifactArchive (input : ArchiveStream) : Except StoreError (List CapturedFile) :=
  match captureEntries input.entries [] 0 [] with
  | .error e => .error e
  | .ok rows =>
    if !input.trailer then .error (.internal "archive/tar: invalid tar header")
    else if maxPadding < input.rest.length then .error .invalidInput
    else if !input.restEnds then .error (.internal "unexpected EOF")
    else if input.rest.any (· ≠ 0) then .error .invalidInput
    else .ok rows

end Parsar.Turns
