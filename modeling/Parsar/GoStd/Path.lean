import Mathlib.Data.List.Basic

namespace Parsar.GoStd

abbrev Path := List Char

def dotDot : Path := ['.', '.']

def cleanStep (out : List Path) (element : Path) : List Path :=
  if element = [] ∨ element = ['.'] then out
  else if element = dotDot then out.dropLast
  else out ++ [element]

/-- `path.Clean` of an absolute path. -/
def clean (p : Path) : Path := '/' :: ['/'].intercalate ((p.splitOn '/').foldl cleanStep [])

/-- `strings.TrimSuffix(p, "/")`. -/
def trimSlash (p : Path) : Path := if p.getLast? = some '/' then p.dropLast else p

def elements (p : Path) : List Path := (p.splitOn '/').filter (· ≠ [])

theorem not_mem_of_mem_splitOn {x : Char} {xs l : List Char} (h : l ∈ xs.splitOn x) : x ∉ l := by
  induction xs generalizing l with
  | nil =>
    have hl : l = [] := by simpa using h
    simp [hl]
  | cons a xs ih =>
    rw [List.splitOn, List.splitOnP_cons_eq_if_modifyHead] at h
    split at h
    · rcases List.mem_cons.mp h with rfl | h
      · exact List.not_mem_nil
      · exact ih h
    next hne =>
      cases hs : xs.splitOnP (· == x) with
      | nil => simp [hs] at h
      | cons b bs =>
        have hih : ∀ l ∈ b :: bs, x ∉ l := fun l hl => ih (by rw [List.splitOn, hs]; exact hl)
        rw [hs, List.modifyHead_cons] at h
        rcases List.mem_cons.mp h with rfl | h
        · have hax : x ≠ a := fun hxa => hne (by simp [hxa])
          simp [hax, hih b List.mem_cons_self]
        · exact hih l (List.mem_cons_of_mem b h)

theorem elements_append (p q : Path) : elements (p ++ '/' :: q) = elements p ++ elements q := by
  simp [elements, List.splitOn, List.splitOnP_append_cons]

theorem elements_trimSlash (p : Path) : elements (trimSlash p) = elements p := by
  unfold trimSlash
  split
  next h =>
    have hp : p.dropLast ++ '/' :: [] = p := List.dropLast_append_getLast? '/' h
    have happ := elements_append p.dropLast []
    rw [hp] at happ
    simpa [elements] using happ.symm
  · rfl

theorem mem_foldl_cleanStep {element : Path} {l out : List Path}
    (h : element ∈ l.foldl cleanStep out) : element ∈ out ∨ element ∈ l ∧ element ≠ dotDot := by
  induction l generalizing out with
  | nil => exact .inl h
  | cons a l ih =>
    rcases ih h with hout | ⟨hl, hne⟩
    · unfold cleanStep at hout
      split at hout
      · exact .inl hout
      split at hout
      · exact .inl (List.dropLast_subset _ hout)
      · rcases List.mem_append.mp hout with hout | hout
        · exact .inl hout
        · exact .inr (by simp_all)
    · exact .inr ⟨List.mem_cons_of_mem a hl, hne⟩

theorem dotDot_not_mem_clean (p : Path) : dotDot ∉ elements (clean p) := by
  intro h
  have hsplit : ∀ element ∈ (p.splitOn '/').foldl cleanStep [],
      element ∈ p.splitOn '/' ∧ element ≠ dotDot := by
    intro element hmem
    rcases mem_foldl_cleanStep hmem with hnil | hmem
    · cases hnil
    · exact hmem
  unfold clean at h
  rw [show ∀ q : Path, '/' :: q = [] ++ '/' :: q from fun _ => rfl, elements_append] at h
  generalize (p.splitOn '/').foldl cleanStep [] = out at h hsplit
  cases out with
  | nil => exact absurd h (by decide)
  | cons a out =>
    have hmem : dotDot ∈ a :: out := by
      have hjoin := List.splitOn_intercalate '/'
        (fun l hl => not_mem_of_mem_splitOn (hsplit l hl).1) (List.cons_ne_nil a out)
      simpa [elements, hjoin, dotDot] using h
    exact (hsplit dotDot hmem).2 rfl

end Parsar.GoStd
