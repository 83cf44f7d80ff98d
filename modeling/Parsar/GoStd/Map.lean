import Mathlib.Data.List.Induction
import Parsar.Framework.Trace

namespace Parsar.GoStd

/-- A Go map, by its lookups. -/
abbrev GoMap (κ ν : Type*) := κ → Option ν

namespace GoMap

variable {κ ν : Type*}

def empty : GoMap κ ν := fun _ => none

variable [DecidableEq κ]

def set (m : GoMap κ ν) (k : κ) (v : ν) : GoMap κ ν := Function.update m k (some v)

def erase (m : GoMap κ ν) (k : κ) : GoMap κ ν := Function.update m k none

theorem set_apply (m : GoMap κ ν) (k j : κ) (v : ν) :
    m.set k v j = if j = k then some v else m j :=
  Function.update_apply ..

theorem erase_eq_some {m : GoMap κ ν} {k j : κ} {v : ν} (h : m.erase k j = some v) :
    j ≠ k ∧ m j = some v := by
  simpa [erase, Function.update_apply] using h

theorem set_eq_some {m : GoMap κ ν} {k j : κ} {u v : ν} (h : m.set k u j = some v) :
    (j = k ∧ v = u) ∨ (j ≠ k ∧ m j = some v) := by
  rw [set_apply] at h
  split at h
  case isTrue hj => exact .inl ⟨hj, (Option.some.inj h).symm⟩
  case isFalse hj => exact .inr ⟨hj, h⟩

theorem set_of_none {m : GoMap κ ν} {k j : κ} {u v : ν} (hk : m k = none) (h : m j = some v) :
    m.set k u j = some v := by
  have hj : j ≠ k := by
    rintro rfl
    rw [hk] at h
    cases h
  rw [set, Function.update_of_ne hj]
  exact h

/-- The map after its entries are set one after the other. -/
def ofList (entries : List (κ × ν)) : GoMap κ ν :=
  entries.foldl (fun m e => m.set e.1 e.2) empty

theorem ofList_concat (entries : List (κ × ν)) (e : κ × ν) :
    ofList (entries ++ [e]) = (ofList entries).set e.1 e.2 := by
  rw [ofList, List.foldl_append]
  rfl

theorem ofList_eq_none {entries : List (κ × ν)} {k : κ} :
    ofList entries k = none ↔ ∀ e ∈ entries, e.1 ≠ k := by
  induction entries using List.reverseRecOn with
  | nil => simp [ofList, empty]
  | append_singleton entries e ih =>
    rw [ofList_concat, set]
    by_cases hk : e.1 = k
    · subst hk
      simp only [Function.update_self, reduceCtorEq, false_iff]
      exact fun h => h e (by simp) rfl
    · rw [Function.update_of_ne (Ne.symm hk), ih]
      simp only [List.mem_append, List.mem_singleton]
      constructor
      · rintro h x (hx | rfl)
        · exact h x hx
        · exact hk
      · exact fun h x hx => h x (.inl hx)

theorem ofList_eq_some {entries : List (κ × ν)} {k : κ} {v : ν} :
    ofList entries k = some v ↔
      ∃ before after, entries = before ++ (k, v) :: after ∧ ∀ e ∈ after, e.1 ≠ k := by
  induction entries using List.reverseRecOn with
  | nil => simp [ofList, empty]
  | append_singleton entries e ih =>
    obtain ⟨j, u⟩ := e
    rw [ofList_concat, set]
    by_cases hk : j = k
    · subst hk
      rw [Function.update_self]
      constructor
      · intro h
        cases h
        exact ⟨entries, [], rfl, by simp⟩
      · rintro ⟨before, after, heq, hafter⟩
        rcases append_singleton_split heq with ⟨-, he, -⟩ | ⟨after, rfl, -⟩
        · cases he
          rfl
        · exact absurd rfl (hafter (j, u) (by simp))
    · rw [Function.update_of_ne (Ne.symm hk), ih]
      constructor
      · rintro ⟨before, after, rfl, hafter⟩
        refine ⟨before, after ++ [(j, u)], by simp, ?_⟩
        intro x hx
        rcases List.mem_append.1 hx with hx | hx
        · exact hafter x hx
        · rw [List.mem_singleton.1 hx]
          exact hk
      · rintro ⟨before, after, heq, hafter⟩
        rcases append_singleton_split heq with ⟨-, he, -⟩ | ⟨after, rfl, hold⟩
        · cases he
          exact absurd rfl hk
        · exact ⟨before, after, hold, fun x hx => hafter x (by simp [hx])⟩

end GoMap

end Parsar.GoStd
