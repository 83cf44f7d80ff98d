import Parsar.GoStd.Text

namespace Parsar.GoStd

/-! ## `crypto/sha256` -/

namespace Sha256

abbrev Word := BitVec 32

/-- The chaining value between two blocks, and the working variables inside one. -/
structure State where
  a : Word
  b : Word
  c : Word
  d : Word
  e : Word
  f : Word
  g : Word
  h : Word

def initial : State :=
  ⟨0x6a09e667, 0xbb67ae85, 0x3c6ef372, 0xa54ff53a, 0x510e527f, 0x9b05688c, 0x1f83d9ab, 0x5be0cd19⟩

def roundConstants : List Word :=
  [0x428a2f98, 0x71374491, 0xb5c0fbcf, 0xe9b5dba5, 0x3956c25b, 0x59f111f1, 0x923f82a4, 0xab1c5ed5,
    0xd807aa98, 0x12835b01, 0x243185be, 0x550c7dc3, 0x72be5d74, 0x80deb1fe, 0x9bdc06a7, 0xc19bf174,
    0xe49b69c1, 0xefbe4786, 0x0fc19dc6, 0x240ca1cc, 0x2de92c6f, 0x4a7484aa, 0x5cb0a9dc, 0x76f988da,
    0x983e5152, 0xa831c66d, 0xb00327c8, 0xbf597fc7, 0xc6e00bf3, 0xd5a79147, 0x06ca6351, 0x14292967,
    0x27b70a85, 0x2e1b2138, 0x4d2c6dfc, 0x53380d13, 0x650a7354, 0x766a0abb, 0x81c2c92e, 0x92722c85,
    0xa2bfe8a1, 0xa81a664b, 0xc24b8b70, 0xc76c51a3, 0xd192e819, 0xd6990624, 0xf40e3585, 0x106aa070,
    0x19a4c116, 0x1e376c08, 0x2748774c, 0x34b0bcb5, 0x391c0cb3, 0x4ed8aa4a, 0x5b9cca4f, 0x682e6ff3,
    0x748f82ee, 0x78a5636f, 0x84c87814, 0x8cc70208, 0x90befffa, 0xa4506ceb, 0xbef9a3f7, 0xc67178f2]

def sigma0 (x : Word) : Word := x.rotateRight 7 ^^^ x.rotateRight 18 ^^^ (x >>> 3)

def sigma1 (x : Word) : Word := x.rotateRight 17 ^^^ x.rotateRight 19 ^^^ (x >>> 10)

/-- The words of a block and `n` more, newest first. -/
def schedule (block : List Word) : Nat → List Word
  | 0 => block.reverse
  | n + 1 =>
    let w := schedule block n
    (w.getD 15 0 + sigma0 (w.getD 14 0) + w.getD 6 0 + sigma1 (w.getD 1 0)) :: w

def round (s : State) (kw : Word × Word) : State :=
  let t1 := s.h + (s.e.rotateRight 6 ^^^ s.e.rotateRight 11 ^^^ s.e.rotateRight 25) +
    ((s.e &&& s.f) ^^^ (~~~ s.e &&& s.g)) + kw.1 + kw.2
  let t2 := (s.a.rotateRight 2 ^^^ s.a.rotateRight 13 ^^^ s.a.rotateRight 22) +
    ((s.a &&& s.b) ^^^ (s.a &&& s.c) ^^^ (s.b &&& s.c))
  ⟨t1 + t2, s.a, s.b, s.c, s.d + t1, s.e, s.f, s.g⟩

def compress (s : State) (block : List Word) : State :=
  let r := (roundConstants.zip (schedule block 48).reverse).foldl round s
  ⟨s.a + r.a, s.b + r.b, s.c + r.c, s.d + r.d, s.e + r.e, s.f + r.f, s.g + r.g, s.h + r.h⟩

/-- The low `n` bytes of a number, most significant first. -/
def bigEndian (n x : Nat) : Bytes :=
  (List.range n).reverse.map fun i => UInt8.ofNat (x >>> (8 * i))

/-- The message, a one bit, zeros, and the bit length in the last eight bytes of a block. -/
def pad (data : Bytes) : Bytes :=
  data ++ 0x80 :: List.replicate ((119 - data.length % 64) % 64) 0 ++ bigEndian 8 (8 * data.length)

def word (bytes : Bytes) : Word :=
  BitVec.ofNat 32 (bytes.foldl (fun acc b => acc * 256 + b.toNat) 0)

end Sha256

open Sha256 in
/-- `sha256.Sum256`. -/
def sum256 (data : Bytes) : Bytes :=
  let s := ((((pad data).toChunks 4).map word).toChunks 16).foldl compress initial
  [s.a, s.b, s.c, s.d, s.e, s.f, s.g, s.h].flatMap fun w => bigEndian 4 w.toNat

/-! ## `encoding/hex` -/

def hexDigits : List Char := "0123456789abcdef".toList

def isLowerHex (c : Char) : Bool := c ∈ hexDigits

def hexPair (x : UInt8) : List Char :=
  [hexDigits.getD (x.toNat / 16) '0', hexDigits.getD (x.toNat % 16) '0']

/-- `hex.EncodeToString`. -/
def encodeToString (b : Bytes) : String := String.ofList (b.flatMap hexPair)

/-- A text that `hex.DecodeString` takes to 32 bytes and `strings.ToLower` leaves alone. -/
def isHexDigest (s : String) : Bool := s.toList.length = 64 && s.toList.all isLowerHex

/-- What `uuid.Parse` accepts, is not `uuid.Nil` and prints as itself. -/
def canonicalUUID (id : String) : Bool :=
  id.toList.length = 36 &&
    id.toList.zipIdx.all (fun x => if x.2 ∈ [8, 13, 18, 23] then x.1 = '-' else isLowerHex x.1) &&
    id.toList.any (fun c => c ≠ '0' && c ≠ '-')

def sha256Hex (data : Bytes) : String := encodeToString (sum256 data)

example : sha256Hex (utf8 "abc") =
    "ba7816bf8f01cfea414140de5dae2223b00361a396177a9cb410ff61f20015ad" := by decide +kernel

theorem utf8Size_hexDigit (k : Nat) : (hexDigits[k]?.getD '0').utf8Size = 1 := by
  have hall : hexDigits.all (·.utf8Size = 1) := by decide
  cases h : hexDigits[k]? with
  | none => rfl
  | some c => exact of_decide_eq_true (List.all_eq_true.mp hall c (List.mem_of_getElem? h))

theorem length_sha256Hex (data : Bytes) : (utf8 (sha256Hex data)).length = 64 := by
  have hhex (b : Bytes) : (utf8 (encodeToString b)).length = 2 * b.length := by
    induction b with
    | nil => rfl
    | cons x b ih =>
      simp only [encodeToString, utf8, String.toList_ofList] at ih
      simp [encodeToString, utf8, hexPair, utf8Size_hexDigit, ih]
      omega
  have hsum : (sum256 data).length = 32 := by simp [sum256, Sha256.bigEndian]
  rw [sha256Hex, hhex, hsum]

end Parsar.GoStd
