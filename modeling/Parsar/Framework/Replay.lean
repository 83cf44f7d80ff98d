import Mathlib.Algebra.GroupWithZero.Nat
import Mathlib.Data.List.Basic

namespace Parsar

/-! ## Numbered lists -/

section Numbered

variable {α : Type*}

/-- The elements with consecutive numbers from `k` on. -/
def numbered (k : Nat) : List α → List (Nat × α)
  | [] => []
  | a :: as => (k, a) :: numbered (k + 1) as

@[simp] theorem length_numbered (k : Nat) (as : List α) : (numbered k as).length = as.length := by
  induction as generalizing k with
  | nil => rfl
  | cons a as ih => simp [numbered, ih]

theorem numbered_append (k : Nat) (as bs : List α) :
    numbered k (as ++ bs) = numbered k as ++ numbered (k + as.length) bs := by
  induction as generalizing k with
  | nil => rfl
  | cons a as ih => simp [numbered, ih, Nat.add_assoc, Nat.add_comm 1]

theorem drop_numbered (k n : Nat) (as : List α) :
    (numbered k as).drop n = numbered (k + n) (as.drop n) := by
  induction as generalizing k n with
  | nil => simp [numbered]
  | cons a as ih =>
    cases n with
    | zero => rfl
    | succ n => simp [numbered, ih, Nat.add_assoc, Nat.add_comm 1]

theorem take_numbered (k n : Nat) (as : List α) :
    (numbered k as).take n = numbered k (as.take n) := by
  induction as generalizing k n with
  | nil => simp [numbered]
  | cons a as ih =>
    cases n with
    | zero => rfl
    | succ n => simp [numbered, ih]

theorem map_snd_numbered (k : Nat) (as : List α) : (numbered k as).map Prod.snd = as := by
  induction as generalizing k with
  | nil => rfl
  | cons a as ih => simp [numbered, ih]

theorem exists_mem_numbered {k n : Nat} {as : List α} :
    (∃ row ∈ numbered k as, row.1 = n) ↔ k ≤ n ∧ n < k + as.length := by
  induction as generalizing k with
  | nil => simp [numbered]
  | cons a as ih =>
    simp only [numbered, List.mem_cons, exists_eq_or_imp, ih, List.length_cons]
    omega

theorem filter_numbered (k after : Nat) (as : List α) :
    (numbered k as).filter (fun row => after < row.1) =
      (numbered k as).drop (after + 1 - k) := by
  induction as generalizing k with
  | nil => simp [numbered]
  | cons a as ih =>
    by_cases hk : after < k
    · have hzero : after + 1 - k = 0 := by omega
      have htail : after + 1 - (k + 1) = 0 := by omega
      simp [numbered, hk, ih, hzero, htail]
    · have hsucc : after + 1 - k = (after + 1 - (k + 1)) + 1 := by omega
      simp [numbered, hk, ih, hsucc]

end Numbered

/-! ## Windows by count and size -/

section Window

variable {α : Type*} (cut : Nat → Nat → Bool) (size : α → Nat)

/-- The rows that a window keeps: `cut` decides from the number of rows up to this one and their
total size, both counted with it. -/
def within : Nat → Nat → List (Nat × α) → List (Nat × α)
  | _, _, [] => []
  | n, bytes, row :: rows =>
    if cut (n + 1) (bytes + size row.2) then within (n + 1) (bytes + size row.2) rows
    else row :: within (n + 1) (bytes + size row.2) rows

/-- What is cut stays cut with more rows or larger ones. -/
def Tightens : Prop :=
  ∀ n n' bytes bytes', 1 ≤ n → n ≤ n' → bytes ≤ bytes' → cut n bytes = true → cut n' bytes' = true

def total (rows : List (Nat × α)) : Nat := (rows.map (fun row => size row.2)).sum

variable {cut size}

theorem within_eq_nil (hcut : Tightens cut) {n bytes : Nat} (hn : 1 ≤ n)
    (h : cut n bytes = true) (rows : List (Nat × α)) : within cut size n bytes rows = [] := by
  induction rows generalizing n bytes with
  | nil => rfl
  | cons row rows ih =>
    have hnext : cut (n + 1) (bytes + size row.2) = true :=
      hcut n _ bytes _ hn (Nat.le_succ n) (Nat.le_add_right bytes _) h
    rw [within, if_pos hnext, ih (Nat.le_add_left 1 n) hnext]

theorem within_eq_take (hcut : Tightens cut) (n bytes : Nat) (rows : List (Nat × α)) :
    within cut size n bytes rows = rows.take (within cut size n bytes rows).length := by
  induction rows generalizing n bytes with
  | nil => rfl
  | cons row rows ih =>
    rw [within]
    split
    · rename_i hnext
      rw [within_eq_nil hcut (Nat.le_add_left 1 n) hnext]
      rfl
    · rw [List.length_cons, List.take_succ_cons, ← ih]

theorem le_length_within (hcut : Tightens cut) {n bytes k : Nat} {rows : List (Nat × α)}
    (hk : 0 < k) (hlen : k ≤ rows.length) :
    k ≤ (within cut size n bytes rows).length ↔
      cut (n + k) (bytes + total size (rows.take k)) = false := by
  induction rows generalizing n bytes k with
  | nil =>
    have : k ≤ 0 := hlen
    omega
  | cons row rows ih =>
    obtain ⟨k, rfl⟩ : ∃ j, k = j + 1 := ⟨k - 1, by omega⟩
    have htotal : bytes + total size ((row :: rows).take (k + 1)) =
        bytes + size row.2 + total size (rows.take k) := by
      simp [total, Nat.add_assoc]
    rw [within, htotal]
    split
    · rename_i hnext
      rw [within_eq_nil hcut (Nat.le_add_left 1 n) hnext]
      have hall : cut (n + (k + 1)) (bytes + size row.2 + total size (rows.take k)) = true :=
        hcut _ _ _ _ (Nat.le_add_left 1 n) (by omega) (Nat.le_add_right _ _) hnext
      simp [hall]
    · rename_i hnext
      rcases Nat.eq_zero_or_pos k with rfl | hpos
      · simpa [total] using hnext
      · rw [List.length_cons, Nat.add_le_add_iff_right, ih hpos (by simpa using hlen)]
        rw [show n + (k + 1) = n + 1 + k by omega]

end Window

/-! ## A replay buffer

A log that numbers its events from 1 on and forgets old ones. Readers ask for the events behind a
cursor, page by page, and check themselves that none is missing. -/

/-- `latest` is the last number given, `rows` the events that are still stored, by number. -/
structure Replay (α : Type*) where
  latest : Nat := 0
  rows : List (Nat × α) := []

namespace Replay

variable {α : Type*} (cut : Nat → Nat → Bool) (size : α → Nat)

def append (r : Replay α) (events : List α) : Replay α where
  latest := r.latest + events.length
  rows := r.rows ++ numbered (r.latest + 1) events

/-- Forgets what a window from the newest row on does not keep. -/
def prune (r : Replay α) : Replay α :=
  { r with rows := (within cut size 0 0 r.rows.reverse).reverse }

/-- The first rows behind a cursor, by a window from the oldest on and a limit. -/
def page (limit : Nat) (r : Replay α) (after : Nat) : List (Nat × α) :=
  (within cut size 0 0 (r.rows.filter (fun row => after < row.1))).take limit

/-- Whether the rows follow on the cursor without a gap. -/
def gapless : Nat → List (Nat × α) → Bool
  | _, [] => true
  | after, row :: rows => row.1 == after + 1 && gapless row.1 rows

/-- What a reader makes of a page, given the latest number; `none` is a gap. -/
def read (latest after : Nat) (rows : List (Nat × α)) : Option (List (Nat × α)) :=
  if (rows.isEmpty ∧ after < latest) ∨ gapless after rows = false then none else some rows

def advance : Nat → List (Nat × α) → Nat
  | after, [] => after
  | _, row :: rows => advance row.1 rows

/-- Pages from a cursor on until an empty one, at most `fuel` of them; `none` is a gap. -/
def readAll (next : Nat → Option (List (Nat × α))) : Nat → Nat → Option (List (Nat × α))
  | 0, _ => some []
  | fuel + 1, after =>
    match next after with
    | none => none
    | some [] => some []
    | some rows => (readAll next fuel (advance after rows)).map (rows ++ ·)

/-- The buffer holds the events of a history from the `dropped`-th on, the last one at least. -/
structure Holds (r : Replay α) (history : List α) (dropped : Nat) : Prop where
  latest : r.latest = history.length
  rows : r.rows = numbered (dropped + 1) (history.drop dropped)
  bound : dropped ≤ history.length
  newest : history ≠ [] → dropped < history.length

variable {cut size} {r : Replay α} {history : List α} {dropped : Nat}

theorem holds_empty : Holds ({} : Replay α) [] 0 := ⟨rfl, rfl, Nat.le_refl 0, fun h => absurd rfl h⟩

theorem Holds.append (h : Holds r history dropped) (events : List α) :
    Holds (r.append events) (history ++ events) dropped where
  latest := by simp [Replay.append, h.latest]
  rows := by
    rw [Replay.append, h.rows, List.drop_append_of_le_length h.bound, numbered_append,
      List.length_drop, h.latest]
    have hnext : dropped + 1 + (history.length - dropped) = history.length + 1 := by
      have := h.bound
      omega
    rw [hnext]
  bound := by
    have := h.bound
    rw [List.length_append]
    omega
  newest hne := by
    have := h.bound
    rw [List.length_append]
    by_cases hh : history = []
    · have hd : dropped = 0 := by simpa [hh] using this
      have hpos : 0 < events.length := List.length_pos_iff.2 (by simpa [hh] using hne)
      omega
    · have := h.newest hh
      omega

theorem Holds.prune (h : Holds r history dropped) (hcut : Tightens cut)
    (hfirst : ∀ bytes, cut 1 bytes = false) :
    Holds (r.prune cut size) history
      (history.length - (within cut size 0 0 r.rows.reverse).length) := by
  have hbound := h.bound
  have hlen : r.rows.length = history.length - dropped := by
    rw [h.rows, length_numbered, List.length_drop]
  have hone : history ≠ [] → 1 ≤ (within cut size 0 0 r.rows.reverse).length := fun hne => by
    have hnewest := h.newest hne
    rw [le_length_within hcut Nat.one_pos (by rw [List.length_reverse]; omega)]
    exact hfirst _
  have hrows : (r.prune cut size).rows = (within cut size 0 0 r.rows.reverse).reverse := rfl
  have htake : within cut size 0 0 r.rows.reverse =
      r.rows.reverse.take (within cut size 0 0 r.rows.reverse).length := within_eq_take hcut 0 0 _
  generalize within cut size 0 0 r.rows.reverse = kept at hone hrows htake ⊢
  have hle : kept.length ≤ r.rows.length := by
    have := congrArg List.length htake
    rw [List.length_take, List.length_reverse] at this
    omega
  refine ⟨h.latest, ?_, Nat.sub_le _ _, fun hne => ?_⟩
  · have hkept : kept.reverse = r.rows.drop (r.rows.length - kept.length) := by
      conv_lhs => rw [htake, List.take_reverse, List.reverse_reverse]
    have hfirst' : dropped + 1 + (r.rows.length - kept.length) =
        history.length - kept.length + 1 := by omega
    have hdrop : dropped + (r.rows.length - kept.length) = history.length - kept.length := by
      omega
    rw [hrows, hkept]
    conv_lhs => rw [h.rows]
    rw [drop_numbered, List.drop_drop, ← h.rows, hfirst', hdrop]
  · have := hone hne
    have := h.newest hne
    omega

theorem le_kept (r : Replay α) (hcut : Tightens cut) {events : List α}
    (hne : events ≠ []) :
    events.length ≤ (within cut size 0 0 (r.append events).rows.reverse).length ↔
      cut events.length (events.map size).sum = false := by
  have hpos : 0 < events.length := List.length_pos_iff.2 hne
  have htake : (r.append events).rows.reverse.take events.length =
      (numbered (r.latest + 1) events).reverse := by
    rw [Replay.append, List.reverse_append, List.take_append_of_le_length (by simp),
      List.take_of_length_le (by simp)]
  have htotal : total size (numbered (r.latest + 1) events).reverse = (events.map size).sum := by
    rw [total, List.map_reverse, List.sum_reverse]
    conv_rhs => rw [← map_snd_numbered (r.latest + 1) events, List.map_map]
    rfl
  rw [le_length_within hcut hpos (by simp [Replay.append]), htake, htotal, Nat.zero_add,
    Nat.zero_add]

section Reading

variable {after limit : Nat}

theorem Holds.pending (h : Holds r history dropped) (after : Nat) :
    r.rows.filter (fun row => after < row.1) =
      numbered (max after dropped + 1) (history.drop (max after dropped)) := by
  rw [h.rows, filter_numbered, drop_numbered, List.drop_drop]
  have hmax : dropped + (after + 1 - (dropped + 1)) = max after dropped := by omega
  rw [show dropped + 1 + (after + 1 - (dropped + 1)) = max after dropped + 1 by omega, hmax]

/-- A page is a run of the stored rows behind the cursor, and empty only if there are none. -/
theorem Holds.page (h : Holds r history dropped) (hcut : Tightens cut)
    (hfirst : ∀ bytes, cut 1 bytes = false) (hlimit : 0 < limit) (after : Nat) :
    ∃ n, r.page cut size limit after =
        numbered (max after dropped + 1) ((history.drop (max after dropped)).take n) ∧
      (max after dropped < history.length → 0 < n) := by
  rw [Replay.page, h.pending after]
  refine ⟨min limit (within cut size 0 0
    (numbered (max after dropped + 1) (history.drop (max after dropped)))).length, ?_, ?_⟩
  · conv_lhs => rw [within_eq_take hcut]
    rw [List.take_take, take_numbered]
  · intro hlt
    have hone : 1 ≤ (within cut size 0 0
        (numbered (max after dropped + 1) (history.drop (max after dropped)))).length := by
      rw [le_length_within hcut Nat.one_pos (by rw [length_numbered, List.length_drop]; omega)]
      exact hfirst _
    omega

theorem gapless_numbered (after : Nat) (events : List α) :
    gapless after (numbered (after + 1) events) = true := by
  induction events generalizing after with
  | nil => rfl
  | cons a events ih => simp [numbered, gapless, ih]

theorem exists_cons_take_drop {events : List α} {k n : Nat} (hk : k < events.length) (hn : 0 < n) :
    ∃ event rest, (events.drop k).take n = event :: rest := by
  refine List.exists_cons_of_ne_nil (List.ne_nil_of_length_pos ?_)
  rw [List.length_take, List.length_drop]
  omega

/-- A page read behind a cursor: the next events, or a gap exactly if the next one is gone. The
latest number may have been read earlier. -/
theorem Holds.read (h : Holds r history dropped) (hcut : Tightens cut)
    (hfirst : ∀ bytes, cut 1 bytes = false) (hlimit : 0 < limit) {latest : Nat}
    (hlatest : latest ≤ history.length) (after : Nat) :
    (after < dropped → Replay.read latest after (r.page cut size limit after) = none) ∧
    (dropped ≤ after → ∃ n, Replay.read latest after (r.page cut size limit after) =
        some (numbered (after + 1) ((history.drop after).take n)) ∧
      (after < history.length → 0 < n)) := by
  obtain ⟨n, hpage, hpos⟩ : ∃ n, r.page cut size limit after = _ ∧ _ :=
    h.page hcut hfirst hlimit after
  rw [hpage]
  constructor
  · intro hgone
    have hbound := h.bound
    have hmax : max after dropped = dropped := by omega
    rw [hmax] at hpos ⊢
    have hne : history ≠ [] := by
      rintro rfl
      exact absurd hbound (by simp; omega)
    have hlt := h.newest hne
    obtain ⟨event, rest, hrest⟩ := exists_cons_take_drop hlt (hpos hlt)
    have hgap : gapless after (numbered (dropped + 1) (event :: rest)) = false := by
      have hother : dropped ≠ after := by omega
      simp [numbered, gapless, hother]
    rw [hrest, Replay.read, if_pos (.inr hgap)]
  · intro hthere
    have hmax : max after dropped = after := by omega
    rw [hmax] at hpos ⊢
    refine ⟨n, ?_, hpos⟩
    rw [Replay.read, if_neg]
    rintro (⟨hempty, hlt⟩ | hgap)
    · have := hpos (by omega)
      have hlen : (numbered (after + 1) ((history.drop after).take n)).length = 0 := by
        rw [List.isEmpty_iff.1 hempty]
        rfl
      rw [length_numbered, List.length_take, List.length_drop] at hlen
      omega
    · rw [gapless_numbered] at hgap
      cases hgap

theorem advance_numbered (after : Nat) (events : List α) :
    advance after (numbered (after + 1) events) = after + events.length := by
  induction events generalizing after with
  | nil => rfl
  | cons a events ih =>
    rw [numbered, advance, ih, List.length_cons]
    omega

theorem Holds.readAll (h : Holds r history dropped) (hcut : Tightens cut)
    (hfirst : ∀ bytes, cut 1 bytes = false) (hlimit : 0 < limit) {fuel : Nat} (after : Nat)
    (hthere : dropped ≤ after) (hfuel : history.length - after < fuel) :
    Replay.readAll (fun after => Replay.read r.latest after (r.page cut size limit after)) fuel
      after = some (numbered (after + 1) (history.drop after)) := by
  induction fuel generalizing after with
  | zero => omega
  | succ fuel ih =>
    obtain ⟨n, hread, hpos⟩ : ∃ n, Replay.read r.latest after (r.page cut size limit after) = _ ∧
        _ := (h.read hcut hfirst hlimit (Nat.le_of_eq h.latest) after).2 hthere
    rw [Replay.readAll, hread]
    rcases Nat.lt_or_ge after history.length with hlt | hge
    · obtain ⟨event, rest, hpage⟩ := exists_cons_take_drop hlt (hpos hlt)
      have hsplit : history.drop after =
          event :: rest ++ history.drop (after + (event :: rest).length) := by
        obtain ⟨tail, htail⟩ := hpage ▸ List.take_prefix n (history.drop after)
        rw [← List.drop_drop, ← htail]
        simp
      have htail := ih (after + (event :: rest).length) (by omega)
        (by rw [List.length_cons]; omega)
      have hnext : after + (event :: rest).length + 1 = after + 1 + (event :: rest).length := by
        omega
      rw [hpage]
      simp only [numbered]
      rw [show (after + 1, event) :: numbered (after + 1 + 1) rest =
        numbered (after + 1) (event :: rest) from rfl, advance_numbered, htail, hsplit,
        numbered_append, hnext]
      rfl
    · have hnil : history.drop after = [] := List.drop_eq_nil_of_le hge
      simp [hnil, numbered]

end Reading

end Replay

end Parsar
