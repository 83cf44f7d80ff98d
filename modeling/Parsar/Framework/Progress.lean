import Mathlib.Order.Basic
import Mathlib.Tactic.Push

namespace Parsar

/-- Progress by a rank: what stays until `Q` comes about cannot stay while the rank descends, from
some time on, at every step without `Q`. -/
theorem exists_of_rank {P Q : Nat → Prop} (rank : Nat → Nat) (start : Nat)
    (hstay : ∀ j, P j → Q j ∨ P (j + 1))
    (hdescend : ∀ j, start ≤ j → P j → Q j ∨ rank (j + 1) < rank j) {k : Nat} (hk : P k) :
    ∃ j, k ≤ j ∧ Q j := by
  by_contra hnever
  push Not at hnever
  have hP (i : Nat) : P (k + i) := by
    induction i with
    | zero => exact hk
    | succ i ih => exact (hstay _ ih).resolve_left (hnever _ (Nat.le_add_right _ _))
  have hrank (i : Nat) : rank (k + start + i) + i ≤ rank (k + start) := by
    induction i with
    | zero => exact Nat.le_refl _
    | succ i ih =>
      have hhere : P (k + start + i) := by
        rw [Nat.add_assoc]
        exact hP _
      have hlt := (hdescend (k + start + i) (by omega) hhere).resolve_left (hnever _ (by omega))
      have hnext : k + start + (i + 1) = k + start + i + 1 := by omega
      rw [hnext]
      omega
  have hend := hrank (rank (k + start) + 1)
  omega

end Parsar
