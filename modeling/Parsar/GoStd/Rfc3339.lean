import Mathlib.Data.List.DropRight
import Mathlib.Tactic.Ring
import Parsar.GoStd.Time

namespace Parsar.GoStd

/-! ## Fixed-width decimal fields -/

def digitChar (n : Nat) : Char := Char.ofNat (48 + n % 10)

def digitValue (c : Char) : Option Nat :=
  if 48 ≤ c.toNat ∧ c.toNat ≤ 57 then some (c.toNat - 48) else none

theorem digitValue_digitChar (n : Nat) : digitValue (digitChar n) = some (n % 10) := by
  have hall : ∀ k < 10, digitValue (Char.ofNat (48 + k)) = some k := by decide
  exact hall (n % 10) (Nat.mod_lt _ (by decide))

/-- The last `w` decimal digits of `n`, most significant first. -/
def padDigits : Nat → Nat → List Char
  | 0, _ => []
  | w + 1, n => digitChar (n / 10 ^ w) :: padDigits w n

def takeDigits : Nat → Nat → List Char → Option (Nat × List Char)
  | 0, acc, cs => some (acc, cs)
  | _ + 1, _, [] => none
  | w + 1, acc, c :: cs =>
    match digitValue c with
    | some d => takeDigits w (10 * acc + d) cs
    | none => none

@[simp] theorem length_padDigits (w n : Nat) : (padDigits w n).length = w := by
  induction w with
  | zero => rfl
  | succ w ih => simp [padDigits, ih]

theorem takeDigits_padDigits (w acc n : Nat) (rest : List Char) :
    takeDigits w acc (padDigits w n ++ rest) = some (10 ^ w * acc + n % 10 ^ w, rest) := by
  induction w generalizing acc with
  | zero => simp [takeDigits, padDigits, Nat.mod_one]
  | succ w ih =>
    simp only [padDigits, List.cons_append, takeDigits, digitValue_digitChar, ih]
    have hsplit : n % 10 ^ (w + 1) = n % 10 ^ w + 10 ^ w * (n / 10 ^ w % 10) := Nat.mod_pow_succ
    rw [hsplit, Nat.pow_succ]
    congr 2
    ring

theorem takeDigits_exact {w n : Nat} (h : n < 10 ^ w) (rest : List Char) :
    takeDigits w 0 (padDigits w n ++ rest) = some (n, rest) := by
  rw [takeDigits_padDigits, Nat.mod_eq_of_lt h]
  simp

theorem padDigits_isDigit {w n : Nat} {c : Char} (hc : c ∈ padDigits w n) :
    (digitValue c).isSome := by
  induction w with
  | zero => simp [padDigits] at hc
  | succ w ih =>
    rcases List.mem_cons.mp hc with rfl | hc
    · simp [digitValue_digitChar]
    · exact ih hc

/-! ## The layout `2006-01-02T15:04:05.999999999Z07:00` -/

def expect (c : Char) : List Char → Option (List Char)
  | d :: cs => if d = c then some cs else none
  | [] => none

@[simp] theorem expect_cons (c : Char) (cs : List Char) : expect c (c :: cs) = some cs := by
  simp [expect]

def isFracDigit (c : Char) : Bool := (digitValue c).isSome

/-- `.999999999`: the fraction without its trailing zeros, and nothing when it is zero. -/
def formatNano (ns : Nat) : List Char :=
  match (padDigits 9 ns).rdropWhile (· == '0') with
  | [] => []
  | ds => '.' :: ds

/-- Nanoseconds of a fraction's digits; those past the ninth are cut off. -/
def parseNanoseconds (ds : List Char) : Option Nat :=
  (takeDigits 9 0 (ds.take 9 ++ List.replicate (9 - ds.length) '0')).map (·.1)

/-- The optional fraction: a point or a comma and at least one digit. -/
def parseFraction (cs : List Char) : Option (Nat × List Char) :=
  match cs with
  | p :: d :: rest =>
    if (p = '.' ∨ p = ',') ∧ isFracDigit d then
      let ds := (d :: rest).takeWhile isFracDigit
      (parseNanoseconds ds).map (·, (d :: rest).dropWhile isFracDigit)
    else some (0, cs)
  | _ => some (0, cs)

theorem parseNanoseconds_rdropWhile {ns : Nat} (h : ns < 10 ^ 9) :
    parseNanoseconds ((padDigits 9 ns).rdropWhile (· == '0')) = some ns := by
  have hsplit := List.rdropWhile_append_rtakeWhile (p := (· == '0')) (l := padDigits 9 ns)
  have hlen := congrArg List.length hsplit
  rw [List.length_append, length_padDigits] at hlen
  have hzeros : (padDigits 9 ns).rtakeWhile (· == '0') =
      List.replicate (9 - ((padDigits 9 ns).rdropWhile (· == '0')).length) '0' := by
    rw [List.eq_replicate_iff]
    refine ⟨by omega, fun c hc => ?_⟩
    simpa using List.mem_rtakeWhile_imp hc
  have htake : ((padDigits 9 ns).rdropWhile (· == '0')).take 9 =
      (padDigits 9 ns).rdropWhile (· == '0') := List.take_of_length_le (by omega)
  rw [parseNanoseconds, htake, ← hzeros, hsplit]
  have hread := takeDigits_exact h []
  rw [List.append_nil] at hread
  simp [hread]

theorem formatNano_zero {ns : Nat} (h : ns < 10 ^ 9)
    (hnil : (padDigits 9 ns).rdropWhile (· == '0') = []) : ns = 0 := by
  have hread := parseNanoseconds_rdropWhile h
  rw [hnil] at hread
  have hzero : parseNanoseconds [] = some 0 := by decide
  rw [hzero] at hread
  exact (Option.some.inj hread).symm

theorem parseFraction_formatNano {ns : Nat} (h : ns < 10 ^ 9) :
    parseFraction (formatNano ns ++ ['Z']) = some (ns, ['Z']) := by
  unfold formatNano
  cases hds : (padDigits 9 ns).rdropWhile (· == '0') with
  | nil =>
    have hns := formatNano_zero h hds
    subst hns
    rfl
  | cons d ds =>
    have hdigits : ∀ c ∈ d :: ds, isFracDigit c = true := by
      intro c hc
      rw [← hds] at hc
      exact padDigits_isDigit ((List.rdropWhile_prefix _ _).subset hc)
    have hstop : isFracDigit 'Z' = false := by decide
    have htake : (d :: (ds ++ ['Z'])).takeWhile isFracDigit = d :: ds := by
      rw [← List.cons_append, List.takeWhile_append_of_pos hdigits]
      simp [hstop]
    have hdrop : (d :: (ds ++ ['Z'])).dropWhile isFracDigit = ['Z'] := by
      rw [← List.cons_append, List.dropWhile_append_of_pos hdigits]
      simp [hstop]
    have hread := parseNanoseconds_rdropWhile h
    rw [hds] at hread
    simp only [List.cons_append, parseFraction, hdigits d (by simp), true_or, and_self, if_true,
      htake, hdrop, hread, Option.map_some]

/-! ## Dates, clocks and zones -/

def formatYear (y : Int) : List Char :=
  let digits := if y.natAbs ≤ 9999 then padDigits 4 y.natAbs else Nat.toDigits 10 y.natAbs
  if y < 0 then '-' :: digits else digits

def formatDate (c : Civil) : List Char :=
  formatYear c.year ++ '-' :: (padDigits 2 c.month.toNat ++ '-' :: padDigits 2 c.day.toNat)

/-- The date part; the day is checked against its month. -/
def parseDate (cs : List Char) : Option (Civil × List Char) := do
  let (year, cs) ← takeDigits 4 0 cs
  let cs ← expect '-' cs
  let (month, cs) ← takeDigits 2 0 cs
  let cs ← expect '-' cs
  let (day, cs) ← takeDigits 2 0 cs
  if 1 ≤ month ∧ month ≤ 12 ∧ 1 ≤ day ∧ (day : Int) ≤ daysIn month year then
    some (⟨year, month, day⟩, cs)
  else none

theorem parseDate_formatDate {c : Civil} (hy : 0 ≤ c.year ∧ c.year ≤ 9999)
    (hm : 1 ≤ c.month ∧ c.month ≤ 12) (hd : 1 ≤ c.day ∧ c.day ≤ daysIn c.month c.year)
    (rest : List Char) : parseDate (formatDate c ++ rest) = some (c, rest) := by
  have hmax : daysIn c.month c.year ≤ 31 := by
    unfold daysIn
    split_ifs <;> omega
  obtain ⟨year, month, day⟩ := c
  dsimp only at hy hm hd hmax
  lift year to Nat using hy.1
  lift month to Nat using by omega
  lift day to Nat using by omega
  have hyear : formatYear year = padDigits 4 year := by
    have hneg : ¬ (year : Int) < 0 := by omega
    have hsmall : year ≤ 9999 := by omega
    simp [formatYear, hneg, hsmall]
  have hyw : year < 10 ^ 4 := by omega
  have hmw : month < 10 ^ 2 := by omega
  have hdw : day < 10 ^ 2 := by omega
  have hvalid : 1 ≤ month ∧ month ≤ 12 ∧ 1 ≤ day ∧ (day : Int) ≤ daysIn month year :=
    ⟨by omega, by omega, by omega, hd.2⟩
  simp only [parseDate, formatDate, hyear, Int.toNat_natCast, List.append_assoc, List.cons_append,
    takeDigits_exact hyw, takeDigits_exact hmw, takeDigits_exact hdw, expect_cons,
    Option.bind_eq_bind, Option.bind_some, if_pos hvalid]

def formatClock (sec : Nat) : List Char :=
  padDigits 2 (sec / 3600) ++ ':' :: (padDigits 2 (sec / 60 % 60) ++ ':' :: padDigits 2 (sec % 60))

/-- The hour may have one digit, the other fields may not. -/
def parseHour : List Char → Option (Nat × List Char)
  | c :: d :: cs => if isFracDigit d then takeDigits 2 0 (c :: d :: cs) else takeDigits 1 0 (c :: d :: cs)
  | cs => takeDigits 1 0 cs

def parseClock (cs : List Char) : Option (Nat × List Char) := do
  let (hour, cs) ← parseHour cs
  let cs ← expect ':' cs
  let (min, cs) ← takeDigits 2 0 cs
  let cs ← expect ':' cs
  let (sec, cs) ← takeDigits 2 0 cs
  if hour < 24 ∧ min < 60 ∧ sec < 60 then some (3600 * hour + 60 * min + sec, cs) else none

theorem parseHour_padDigits {h : Nat} (hh : h < 24) (rest : List Char) :
    parseHour (padDigits 2 h ++ rest) = some (h, rest) := by
  have hdigit : isFracDigit (digitChar (h / 10 ^ 0)) = true := by
    simp [isFracDigit, digitValue_digitChar]
  have hread := takeDigits_exact (w := 2) (n := h) (by omega) rest
  simp only [padDigits, List.cons_append, List.nil_append] at hread ⊢
  rw [parseHour, if_pos hdigit, hread]

theorem parseClock_formatClock {sec : Nat} (h : sec < 86400) (rest : List Char) :
    parseClock (formatClock sec ++ rest) = some (sec, rest) := by
  have hh : sec / 3600 < 24 := by omega
  have hmw : sec / 60 % 60 < 10 ^ 2 := by omega
  have hsw : sec % 60 < 10 ^ 2 := by omega
  have hvalid : sec / 3600 < 24 ∧ sec / 60 % 60 < 60 ∧ sec % 60 < 60 := by omega
  have hsum : 3600 * (sec / 3600) + 60 * (sec / 60 % 60) + sec % 60 = sec := by omega
  simp only [parseClock, formatClock, List.append_assoc, List.cons_append, parseHour_padDigits hh,
    takeDigits_exact hmw, takeDigits_exact hsw, expect_cons, Option.bind_eq_bind, Option.bind_some,
    if_pos hvalid, hsum]

/-- `Z` or an offset in seconds east of UTC; nothing may follow. -/
def parseZone : List Char → Option Int
  | ['Z'] => some 0
  | sign :: cs => do
    let (hh, cs) ← takeDigits 2 0 cs
    let cs ← expect ':' cs
    let (mm, cs) ← takeDigits 2 0 cs
    if cs = [] ∧ hh ≤ 24 ∧ mm ≤ 60 then
      let offset : Int := 3600 * hh + 60 * mm
      if sign = '+' then some offset else if sign = '-' then some (-offset) else none
    else none
  | [] => none

namespace Time

def epochShift : Int := 306

def date (t : Time) : Civil := civilOfDays (t.nanos / (86400 * 10 ^ 9) + epochShift)

/-- `t.UTC().Format(time.RFC3339Nano)`. -/
def formatRFC3339Nano (t : Time) : String :=
  let clock := (t.nanos % (86400 * 10 ^ 9)).toNat
  String.ofList (formatDate t.date ++ 'T' :: (formatClock (clock / 10 ^ 9) ++
    (formatNano (clock % 10 ^ 9) ++ ['Z'])))

def parseRFC3339Nano (s : String) : Option Time := do
  let (date, cs) ← parseDate s.toList
  let cs ← expect 'T' cs
  let (clock, cs) ← parseClock cs
  let (nanos, cs) ← parseFraction cs
  let offset ← parseZone cs
  some ⟨(daysOfCivil date - epochShift) * (86400 * 10 ^ 9) + (clock - offset) * 10 ^ 9 + nanos⟩

def InLayout (t : Time) : Prop := 0 ≤ t.date.year ∧ t.date.year ≤ 9999

instance (t : Time) : Decidable t.InLayout := inferInstanceAs (Decidable (_ ∧ _))

theorem parse_format {t : Time} (h : t.InLayout) :
    parseRFC3339Nano t.formatRFC3339Nano = some t := by
  obtain ⟨hm1, hm2, hd1, hd2⟩ := civilOfDays_valid (t.nanos / (86400 * 10 ^ 9) + epochShift)
  have hclock : (t.nanos % (86400 * 10 ^ 9)).toNat / 10 ^ 9 < 86400 := by omega
  have hnano : (t.nanos % (86400 * 10 ^ 9)).toNat % 10 ^ 9 < 10 ^ 9 := Nat.mod_lt _ (by decide)
  have hzone : parseZone ['Z'] = some 0 := rfl
  have hdays := daysOfCivil_civilOfDays (t.nanos / (86400 * 10 ^ 9) + epochShift)
  simp only [parseRFC3339Nano, formatRFC3339Nano, String.toList_ofList,
    parseDate_formatDate h ⟨hm1, hm2⟩ ⟨hd1, hd2⟩, expect_cons, parseClock_formatClock hclock,
    parseFraction_formatNano hnano, hzone, Option.bind_eq_bind, Option.bind_some]
  rw [Time.date, hdays]
  congr 1
  rcases t with ⟨n⟩
  simp only [Time.mk.injEq]
  omega

theorem formatRFC3339Nano_ne_empty (t : Time) : t.formatRFC3339Nano ≠ "" := by
  intro h
  have hlen := congrArg (fun s : String => s.toList.length) h
  simp [formatRFC3339Nano, formatDate] at hlen

end Time

end Parsar.GoStd
