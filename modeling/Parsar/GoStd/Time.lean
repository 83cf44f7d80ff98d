import Mathlib.Data.Int.Basic

namespace Parsar.GoStd

/-- An instant, in nanoseconds since 0001-01-01T00:00:00Z; the Go zero time is `⟨0⟩`. -/
structure Time where
  nanos : Int
  deriving DecidableEq, Repr

namespace Time

def zero : Time := ⟨0⟩

def isZero (t : Time) : Bool := t.nanos == 0

def add (t : Time) (d : Int) : Time := ⟨t.nanos + d⟩

end Time

structure Civil where
  year : Int
  month : Int
  day : Int
  deriving DecidableEq, Repr

def isLeap (y : Int) : Bool := y % 4 == 0 && (y % 100 != 0 || y % 400 == 0)

def daysIn (month year : Int) : Int :=
  if month = 2 then (if isLeap year then 29 else 28)
  else if month = 4 ∨ month = 6 ∨ month = 9 ∨ month = 11 then 30
  else 31

/-- Days from 0000-03-01, so that a leap day is the last day of its year. -/
def daysOfCivil (c : Civil) : Int :=
  let y := if c.month ≤ 2 then c.year - 1 else c.year
  let m := if c.month ≤ 2 then c.month + 9 else c.month - 3
  365 * y + y / 4 - y / 100 + y / 400 + (153 * m + 2) / 5 + (c.day - 1)

/-- Cut a day count into 400-, 100-, 4- and 1-year cycles; the last cycle of each kind
carries the extra leap day. -/
def civilOfDays (z : Int) : Civil :=
  let era := z / 146097
  let n := z % 146097
  let century := min 3 (n / 36524)
  let r := n - 36524 * century
  let block := r / 1461
  let s := r % 1461
  let k := min 3 (s / 365)
  let doy := s - 365 * k
  let y := 400 * era + 100 * century + 4 * block + k
  let m := (5 * doy + 2) / 153
  let d := doy - (153 * m + 2) / 5 + 1
  if m < 10 then ⟨y, m + 3, d⟩ else ⟨y + 1, m - 9, d⟩

/-- A day count read through its cycles: the March year `y` that holds it, the day of that
year, and day 365 only before a leap February. -/
theorem civilOfDays_cycles (z : Int) : ∃ y doy m : Int,
    civilOfDays z = (if m < 10 then ⟨y, m + 3, doy - (153 * m + 2) / 5 + 1⟩
      else ⟨y + 1, m - 9, doy - (153 * m + 2) / 5 + 1⟩) ∧
    m = (5 * doy + 2) / 153 ∧ 0 ≤ doy ∧ doy ≤ 365 ∧
    z = 365 * y + y / 4 - y / 100 + y / 400 + doy ∧ (doy = 365 → isLeap (y + 1) = true) := by
  obtain ⟨era, n, hz, h0, h1⟩ : ∃ era n, z = 146097 * era + n ∧ 0 ≤ n ∧ n < 146097 :=
    ⟨z / 146097, z % 146097, by omega, by omega, by omega⟩
  have he : z / 146097 = era := by omega
  have hn : z % 146097 = n := by omega
  obtain ⟨c, hc⟩ : ∃ c, min 3 (n / 36524) = c := ⟨_, rfl⟩
  obtain ⟨b, hb⟩ : ∃ b, (n - 36524 * c) / 1461 = b := ⟨_, rfl⟩
  obtain ⟨s, hs⟩ : ∃ s, (n - 36524 * c) % 1461 = s := ⟨_, rfl⟩
  obtain ⟨k, hk⟩ : ∃ k, min 3 (s / 365) = k := ⟨_, rfl⟩
  obtain ⟨doy, hd⟩ : ∃ doy, s - 365 * k = doy := ⟨_, rfl⟩
  have hsum : n = 36524 * c + 1461 * b + 365 * k + doy := by omega
  have hcr : 0 ≤ c ∧ c ≤ 3 := by omega
  have hbr : 0 ≤ b ∧ b ≤ 24 := by omega
  have hkr : 0 ≤ k ∧ k ≤ 3 := by omega
  have hdr : 0 ≤ doy ∧ doy ≤ 365 := by omega
  refine ⟨400 * era + 100 * c + 4 * b + k, doy, (5 * doy + 2) / 153, ?_, rfl, hdr.1, hdr.2, ?_, ?_⟩
  · simp only [civilOfDays, he, hn, hc, hb, hs, hk, hd]
  · have h4 : (400 * era + 100 * c + 4 * b + k) / 4 = 100 * era + 25 * c + b := by omega
    have h100 : (400 * era + 100 * c + 4 * b + k) / 100 = 4 * era + c := by omega
    have h400 : (400 * era + 100 * c + 4 * b + k) / 400 = era := by omega
    rw [h4, h100, h400]
    omega
  · intro hlast
    have hk3 : k = 3 := by omega
    simp only [isLeap, Bool.and_eq_true, beq_iff_eq, Bool.or_eq_true, bne_iff_ne]
    omega

theorem daysOfCivil_civilOfDays (z : Int) : daysOfCivil (civilOfDays z) = z := by
  obtain ⟨y, doy, m, hciv, hm, h0, h1, hz, -⟩ := civilOfDays_cycles z
  rw [hciv]
  split
  · have hmonth : ¬ m + 3 ≤ 2 := by omega
    simp only [daysOfCivil, hmonth, if_false]
    omega
  · have hmonth : m - 9 ≤ 2 := by omega
    simp only [daysOfCivil, hmonth, if_true, Int.add_sub_cancel]
    omega

theorem civilOfDays_valid (z : Int) :
    1 ≤ (civilOfDays z).month ∧ (civilOfDays z).month ≤ 12 ∧
    1 ≤ (civilOfDays z).day ∧
    (civilOfDays z).day ≤ daysIn (civilOfDays z).month (civilOfDays z).year := by
  obtain ⟨y, doy, m, hciv, hm, h0, h1, -, hlast⟩ := civilOfDays_cycles z
  have hmr : 0 ≤ m ∧ m ≤ 11 := by omega
  rw [hciv]
  split <;> dsimp only [daysIn]
  · refine ⟨by omega, by omega, by omega, ?_⟩
    split_ifs <;> omega
  · refine ⟨by omega, by omega, by omega, ?_⟩
    split_ifs with h2 hleap
    · omega
    · have hnot : doy ≠ 365 := fun h => hleap (hlast h)
      omega
    · omega
    · omega

end Parsar.GoStd
