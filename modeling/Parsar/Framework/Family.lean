import Parsar.Framework.Trace

namespace Parsar

/-! ## One component -/

section Goes

variable {σ α : Type*} {step : σ → α → Option σ}

/-- The component takes some steps, maybe none. -/
def Goes (step : σ → α → Option σ) (s t : σ) : Prop := ∃ as, runTrace step s as = some t

namespace Goes

theorem refl (s : σ) : Goes step s s := ⟨[], rfl⟩

theorem one {s t : σ} {a : α} (h : step s a = some t) : Goes step s t :=
  ⟨[a], by simp [runTrace, h]⟩

theorem head {s t u : σ} {a : α} (h : step s a = some t) (hrest : Goes step t u) :
    Goes step s u := by
  obtain ⟨as, has⟩ := hrest
  exact ⟨a :: as, by simp [runTrace, h, has]⟩

theorem keeps {I : σ → Prop} (hstep : ∀ s a t, step s a = some t → I s → I t) {s t : σ}
    (h : Goes step s t) (hs : I s) : I t := by
  obtain ⟨as, has⟩ := h
  exact runTrace_invariant (fun s a t _ => hstep s a t) (stepsMeet_true s as) has hs

/-- What every step relates to its start, the component does as long as it keeps `I`. -/
theorem relates {I : σ → Prop} {R : σ → σ → Prop} (hrefl : ∀ s, R s s)
    (htrans : ∀ s t u, R s t → R t u → R s u)
    (hstep : ∀ s a t, step s a = some t → I s → I t ∧ R s t) {s t : σ} (h : Goes step s t)
    (hs : I s) : R s t := by
  have hkeeps : ∀ u a v, step u a = some v → I u ∧ R s u → I v ∧ R s v := by
    intro u a v huv hu
    obtain ⟨hv, hR⟩ := hstep u a v huv hu.1
    exact ⟨hv, htrans s u v hu.2 hR⟩
  exact (h.keeps hkeeps ⟨hs, hrefl s⟩).2

end Goes

end Goes

/-! ## A family of components -/

section Grows

variable {σ : Type*} {R : σ → σ → Prop} {N : σ → Prop} {xs ys zs : List σ}

/-- Every member of a list has gone on by `R`, and one that is new by `N` may stand behind them. -/
structure Grows (R : σ → σ → Prop) (N : σ → Prop) (xs ys : List σ) : Prop where
  old : ∀ (i : Nat) (x : σ), xs[i]? = some x → ∃ y, ys[i]? = some y ∧ R x y
  new : ∀ (i : Nat) (y : σ), xs[i]? = none → ys[i]? = some y →
    i = xs.length ∧ N y

namespace Grows

theorem cases (h : Grows R N xs ys) {i : Nat} {y : σ} (hy : ys[i]? = some y) :
    (∃ x, xs[i]? = some x ∧ R x y) ∨ (i = xs.length ∧ N y) := by
  cases hx : xs[i]? with
  | none => exact .inr (h.new i y hx hy)
  | some x =>
    obtain ⟨y', hy', hR⟩ := h.old i x hx
    rw [hy] at hy'
    cases hy'
    exact .inl ⟨x, rfl, hR⟩

theorem of_eq (hrefl : ∀ x, R x x) (heq : ys = xs) : Grows R N xs ys := by
  subst heq
  refine ⟨fun i x hx => ⟨x, hx, hrefl x⟩, fun i y hx hy => ?_⟩
  rw [hx] at hy
  cases hy

theorem set (hrefl : ∀ x, R x x) {i : Nat} {x y : σ} (hx : xs[i]? = some x) (hR : R x y) :
    Grows R N xs (xs.set i y) := by
  constructor
  · intro j z hz
    by_cases hij : i = j
    · subst hij
      rw [hx] at hz
      cases hz
      exact ⟨y, by simp [(List.getElem?_eq_some_iff.mp hx).1], hR⟩
    · exact ⟨z, by simp [hij, hz], hrefl z⟩
  · intro j z hnone hz
    have hlength := List.getElem?_eq_none_iff.mp hnone
    rw [List.getElem?_eq_none (by simpa using hlength)] at hz
    cases hz

theorem map_of_mem {f : σ → σ} (hf : ∀ x ∈ xs, R x (f x)) : Grows R N xs (xs.map f) := by
  refine ⟨fun i x hx => ⟨f x, by simp [hx], hf x (List.mem_of_getElem? hx)⟩, fun i y hx hy => ?_⟩
  simp [hx] at hy

theorem map {f : σ → σ} (hf : ∀ x, R x (f x)) : Grows R N xs (xs.map f) :=
  map_of_mem fun x _ => hf x

theorem modify (hrefl : ∀ x, R x x) {f : σ → σ} (hf : ∀ x, R x (f x)) (i : Nat) :
    Grows R N xs (xs.modify i f) := by
  constructor
  · intro j x hx
    rw [List.getElem?_modify, hx]
    by_cases hij : i = j
    · exact ⟨f x, by simp [hij], hf x⟩
    · exact ⟨x, by simp [hij], hrefl x⟩
  · intro j y hx hy
    rw [List.getElem?_modify, hx] at hy
    cases hy

theorem append (hrefl : ∀ x, R x x) {y : σ} (hy : N y) : Grows R N xs (xs ++ [y]) := by
  constructor
  · intro i x hx
    exact ⟨x, by rw [List.getElem?_append_left (List.getElem?_eq_some_iff.mp hx).1, hx], hrefl x⟩
  · intro i z hnone hz
    have hlength := List.getElem?_eq_none_iff.mp hnone
    rw [List.getElem?_append_right hlength] at hz
    have hindex : i - xs.length = 0 := by
      have := (List.getElem?_eq_some_iff.mp hz).1
      simp only [List.length_singleton] at this
      omega
    simp only [hindex, List.getElem?_cons_zero, Option.some.injEq] at hz
    exact ⟨by omega, hz ▸ hy⟩

theorem length_le (h : Grows R N xs ys) : xs.length ≤ ys.length := by
  apply Nat.le_of_not_lt
  intro hlt
  obtain ⟨y, hy, -⟩ := h.old ys.length _ (List.getElem?_eq_getElem hlt)
  rw [List.getElem?_eq_none (Nat.le_refl _)] at hy
  cases hy

theorem length_eq (h : Grows R N xs ys) (hnew : ∀ y, ¬N y) : ys.length = xs.length := by
  refine Nat.le_antisymm (Nat.le_of_not_lt ?_) h.length_le
  intro hlt
  have hnone : xs[xs.length]? = none := List.getElem?_eq_none (Nat.le_refl _)
  exact hnew _ (h.new xs.length _ hnone (List.getElem?_eq_getElem hlt)).2

theorem forall_mem {I : σ → Prop} (h : Grows R N xs ys) (hold : ∀ x y, I x → R x y → I y)
    (hnew : ∀ y, N y → I y) (hxs : ∀ x ∈ xs, I x) : ∀ y ∈ ys, I y := by
  intro y hy
  obtain ⟨i, hi⟩ := List.getElem?_of_mem hy
  rcases h.cases hi with ⟨x, hx, hR⟩ | ⟨-, hN⟩
  · exact hold x y (hxs x (List.mem_of_getElem? hx)) hR
  · exact hnew y hN

end Grows

def AtMostOne (p : σ → Prop) (xs : List σ) : Prop :=
  ∀ (i j : Nat) (x y : σ), xs[i]? = some x → xs[j]? = some y → p x → p y → i = j

theorem atMostOne_append {p : σ → Prop} (hnone : ∀ x ∈ xs, ¬p x) (y : σ) :
    AtMostOne p (xs ++ [y]) := by
  have hgrows : Grows (fun a b => a = b) (fun _ => True) xs (xs ++ [y]) :=
    .append (fun _ => rfl) trivial
  have hlast : ∀ (i : Nat) (a : σ), (xs ++ [y])[i]? = some a → p a → i = xs.length := by
    intro i a ha hp
    obtain ⟨x, hx, rfl⟩ | ⟨hi, -⟩ := hgrows.cases ha
    · exact absurd hp (hnone x (List.mem_of_getElem? hx))
    · exact hi
  intro i j a b ha hb hpa hpb
  exact (hlast i a ha hpa).trans (hlast j b hb hpb).symm

/-- Members that only lose the property, and new ones without it, leave at most one that has it. -/
theorem AtMostOne.grows {p : σ → Prop} (hxs : AtMostOne p xs) (h : Grows R N xs ys)
    (hp : ∀ x y, R x y → p y → p x) (hnew : ∀ y, N y → ¬p y) : AtMostOne p ys := by
  have hold : ∀ (i : Nat) (y : σ), ys[i]? = some y → p y → ∃ x, xs[i]? = some x ∧ p x := by
    intro i y hy hpy
    obtain ⟨x, hx, hR⟩ | ⟨-, hN⟩ := h.cases hy
    · exact ⟨x, hx, hp x y hR hpy⟩
    · exact absurd hpy (hnew y hN)
  intro i j a b ha hb hpa hpb
  obtain ⟨x, hx, hpx⟩ := hold i a ha hpa
  obtain ⟨y, hy, hpy⟩ := hold j b hb hpb
  exact hxs i j x y hx hy hpx hpy

end Grows

end Parsar
