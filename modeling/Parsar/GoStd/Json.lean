import Mathlib.Data.Nat.Log
import Mathlib.Tactic.NormNum

namespace Parsar.GoStd

/-- A decoded JSON value. Numbers that are not integers are read by nothing here. -/
inductive Json where
  | null
  | bool (b : Bool)
  | num (n : Int)
  | str (s : String)
  | arr (vs : List Json)
  | obj (fields : List (String × Json))
  deriving Inhabited

/-- A `map[string]any`; the nil map reads as the empty one. -/
abbrev Object := List (String × Json)

/-! ## `float64` -/

/-- A natural number read into a `float64`: 53 bits of mantissa, ties to even. -/
def float64 (n : Nat) : Nat :=
  let e := Nat.log2 n - 52
  let q := n / 2 ^ e
  let r := n % 2 ^ e
  let half := 2 ^ (e - 1)
  if half < r ∨ (r = half ∧ q % 2 = 1) then (q + 1) * 2 ^ e else q * 2 ^ e

def maxExactInt : Nat := 2 ^ 53

theorem float64_of_le {n : Nat} (h : n ≤ maxExactInt) : float64 n = n := by
  rcases Nat.lt_or_eq_of_le h with hlt | rfl
  · have hlog : Nat.log2 n - 52 = 0 := by
      by_cases hn : n = 0
      · subst hn
        decide
      · have := (Nat.log2_lt hn).mpr hlt
        omega
    simp [float64, hlog, Nat.mod_one]
  · decide

namespace Object

/-- `m[k].(string)`, comma-ok. -/
def string? (o : Object) (k : String) : Option String :=
  match o.lookup k with
  | some (.str s) => some s
  | _ => none

/-- `v, _ := m[k].(string)`. -/
def string (o : Object) (k : String) : String := (o.string? k).getD ""

def bool (o : Object) (k : String) : Bool :=
  match o.lookup k with
  | some (.bool b) => b
  | _ => false

def object? (o : Object) (k : String) : Option Object :=
  match o.lookup k with
  | some (.obj fields) => some fields
  | _ => none

def array? (o : Object) (k : String) : Option (List Json) :=
  match o.lookup k with
  | some (.arr vs) => some vs
  | _ => none

/-- `int64(m[k].(float64))` for a counter, which is never negative. -/
def counter (o : Object) (k : String) : Nat :=
  match o.lookup k with
  | some (.num n) => float64 n.toNat
  | _ => 0

def optional (keep : Bool) (k : String) (v : Json) : Object := if keep then [(k, v)] else []

end Object

end Parsar.GoStd
