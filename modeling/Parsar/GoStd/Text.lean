import Mathlib.Data.List.DropRight

namespace Parsar.GoStd

/-- A Go string is a byte sequence; text that came out of a JSON value is a `String`. -/
abbrev Bytes := List UInt8

def utf8 (s : String) : Bytes := s.toList.flatMap String.utf8EncodeChar

/-- `unicode.IsSpace`. -/
def isSpace (c : Char) : Bool :=
  c.toNat ∈ [0x09, 0x0A, 0x0B, 0x0C, 0x0D, 0x20, 0x85, 0xA0, 0x1680, 0x2028, 0x2029, 0x202F,
    0x205F, 0x3000] || (0x2000 ≤ c.toNat && c.toNat ≤ 0x200A)

/-- `strings.TrimSpace`. -/
def trimSpace (s : String) : String :=
  String.ofList ((s.toList.dropWhile isSpace).rdropWhile isSpace)

theorem dropWhile_rdropWhile_dropWhile {α : Type*} (p : α → Bool) (l : List α) :
    ((l.dropWhile p).rdropWhile p).dropWhile p = (l.dropWhile p).rdropWhile p := by
  rw [List.dropWhile_eq_self_iff]
  intro hl
  have hne : l.dropWhile p ≠ [] := by
    intro h
    simp [h] at hl
  have hhead : ((l.dropWhile p).rdropWhile p)[0] = (l.dropWhile p).head hne := by
    have hp := List.rdropWhile_prefix p (l.dropWhile p)
    rw [hp.getElem hl, List.head_eq_getElem]
  rw [hhead]
  simpa using List.head_dropWhile_not p hne

theorem trimSpace_trimSpace (s : String) : trimSpace (trimSpace s) = trimSpace s := by
  simp only [trimSpace, String.toList_ofList]
  rw [dropWhile_rdropWhile_dropWhile, List.rdropWhile_idempotent]

@[simp] theorem trimSpace_empty : trimSpace "" = "" := by decide

/-- The character at the front of a byte sequence, where the bytes encode one. -/
def decodeRune (b : Bytes) : Option Char := b.toByteArray.utf8DecodeChar? 0

/-- How `encoding/json` writes a Go string: a byte that starts no character becomes U+FFFD; the
counter skips the rest of one. -/
def coerceRunes : Bytes → Nat → List Char
  | [], _ => []
  | _ :: bs, k + 1 => coerceRunes bs k
  | b :: bs, 0 =>
    match decodeRune (b :: bs) with
    | some c => c :: coerceRunes bs (c.utf8Size - 1)
    | none => '�' :: coerceRunes bs 0

def toValidUTF8 (b : Bytes) : String := String.ofList (coerceRunes b 0)

theorem coerceRunes_drop (bs rest : Bytes) (k : Nat) (h : bs.length = k) :
    coerceRunes (bs ++ rest) k = coerceRunes rest 0 := by
  induction bs generalizing k with
  | nil =>
    subst h
    rfl
  | cons b bs ih =>
    subst h
    exact ih bs.length rfl

theorem decodeRune_utf8EncodeChar (c : Char) (rest : Bytes) :
    decodeRune (String.utf8EncodeChar c ++ rest) = some c := by
  rw [decodeRune, List.toByteArray_append]
  exact ByteArray.utf8DecodeChar?_utf8EncodeChar_append

theorem coerceRunes_utf8 (cs : List Char) :
    coerceRunes (cs.flatMap String.utf8EncodeChar) 0 = cs := by
  induction cs with
  | nil => rfl
  | cons c cs ih =>
    have hlen := String.length_utf8EncodeChar c
    have hdec := decodeRune_utf8EncodeChar c (cs.flatMap String.utf8EncodeChar)
    cases hc : String.utf8EncodeChar c with
    | nil =>
      have hpos := c.utf8Size_pos
      simp only [hc, List.length_nil] at hlen
      omega
    | cons b bs =>
      rw [hc] at hdec hlen
      rw [List.flatMap_cons, hc, List.cons_append, coerceRunes]
      rw [List.cons_append] at hdec
      rw [hdec]
      have hbs : bs.length = c.utf8Size - 1 := by
        simp only [List.length_cons] at hlen
        omega
      simp only [coerceRunes_drop _ _ _ hbs, ih]

theorem toValidUTF8_utf8 (s : String) : toValidUTF8 (utf8 s) = s := by
  rw [toValidUTF8, utf8, coerceRunes_utf8, String.ofList_toList]

theorem utf8_append (s t : String) : utf8 (s ++ t) = utf8 s ++ utf8 t := by
  simp [utf8, String.toList_append]

def ValidUTF8 (b : Bytes) : Prop := utf8 (toValidUTF8 b) = b

instance (b : Bytes) : Decidable (ValidUTF8 b) := inferInstanceAs (Decidable (_ = _))

theorem validUTF8_utf8 (s : String) : ValidUTF8 (utf8 s) := by
  rw [ValidUTF8, toValidUTF8_utf8]

theorem ValidUTF8.append {a b : Bytes} (ha : ValidUTF8 a) (hb : ValidUTF8 b) :
    ValidUTF8 (a ++ b) := by
  rw [← ha, ← hb, ← utf8_append]
  exact validUTF8_utf8 _

/-- Byte offset `k` of the text falls between two characters. -/
def CharBoundary (s : String) (k : Nat) : Prop := ∃ p q : String, s = p ++ q ∧ (utf8 p).length = k

instance (s : String) (k : Nat) : Decidable (CharBoundary s k) :=
  decidable_of_iff (∃ n < s.toList.length + 1,
      (utf8 (String.ofList (s.toList.take n))).length = k) <| by
    constructor
    · rintro ⟨n, -, hn⟩
      refine ⟨_, String.ofList (s.toList.drop n), ?_, hn⟩
      rw [← String.ofList_append, List.take_append_drop, String.ofList_toList]
    · rintro ⟨p, q, rfl, hk⟩
      refine ⟨p.toList.length, ?_, ?_⟩
      · simp only [String.toList_append, List.length_append]
        omega
      · rwa [String.toList_append, List.take_left, String.ofList_toList]

theorem CharBoundary.validUTF8_take {s : String} {k : Nat} (h : CharBoundary s k) :
    ValidUTF8 ((utf8 s).take k) := by
  obtain ⟨p, q, rfl, rfl⟩ := h
  rw [utf8_append, List.take_left]
  exact validUTF8_utf8 p

theorem CharBoundary.validUTF8_drop {s : String} {k : Nat} (h : CharBoundary s k) :
    ValidUTF8 ((utf8 s).drop k) := by
  obtain ⟨p, q, rfl, rfl⟩ := h
  rw [utf8_append, List.drop_left]
  exact validUTF8_utf8 q

end Parsar.GoStd
