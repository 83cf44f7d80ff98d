import Mathlib.Logic.Relation

namespace Parsar

/-- A transaction over the rows `σ`: it commits new rows and an answer, or fails with an error of
`ε`, and then nothing it wrote is kept. -/
abbrev Tx (σ ε : Type) : Type → Type := StateT σ (Except ε)

namespace Tx

variable {σ ε α β : Type} {s t : σ} {a : α} {b : β} {e : ε} {m : Tx σ ε α} {f : α → Tx σ ε β}

/-- Fail with `e` unless the condition holds. -/
def require (p : Prop) [Decidable p] (e : ε) : Tx σ ε Unit := if p then pure () else throw e

/-- The row a query has found, or `e`. -/
def fetch (row : Option α) (e : ε) : Tx σ ε α :=
  match row with
  | some a => pure a
  | none => throw e

/-! ## What a transaction that commits has done -/

theorem bind_ok {r : β × σ} :
    (m >>= f) s = .ok r ↔ ∃ a t, m s = .ok (a, t) ∧ f a t = .ok r := by
  show (m s >>= fun r => f r.1 r.2) = .ok r ↔ _
  cases h : m s with
  | error e => simp [bind, Except.bind]
  | ok v =>
    simp only [bind, Except.bind, Except.ok.injEq]
    constructor
    · intro hr
      exact ⟨v.1, v.2, rfl, hr⟩
    · rintro ⟨a, t, rfl, hr⟩
      exact hr

@[simp] theorem pure_ok {a' : α} : (pure a : Tx σ ε α) s = .ok (a', t) ↔ a = a' ∧ s = t := by
  show Except.ok (a, s) = Except.ok (a', t) ↔ _
  simp

@[simp] theorem throw_ok {r : α × σ} : (throw e : Tx σ ε α) s = .ok r ↔ False := by
  show Except.error e = Except.ok r ↔ _
  simp

@[simp] theorem map_ok {f : α → β} :
    (f <$> m) s = .ok (b, t) ↔ ∃ a, m s = .ok (a, t) ∧ f a = b := by
  show (m s >>= fun r => pure (f r.1, r.2)) = .ok (b, t) ↔ _
  cases m s with
  | error e => simp [bind, Except.bind]
  | ok v =>
    obtain ⟨a, u⟩ := v
    simp only [bind, Except.bind, pure, Except.pure, Except.ok.injEq, Prod.mk.injEq]
    constructor
    · rintro ⟨rfl, rfl⟩
      exact ⟨a, ⟨rfl, rfl⟩, rfl⟩
    · rintro ⟨a, ⟨rfl, rfl⟩, rfl⟩
      exact ⟨rfl, rfl⟩

@[simp] theorem get_ok {v : σ × σ} : (get : Tx σ ε σ) s = .ok v ↔ (s, s) = v := by
  show Except.ok (s, s) = Except.ok v ↔ _
  simp

@[simp] theorem get_bind_ok {f : σ → Tx σ ε β} {r : β × σ} :
    (get >>= f) s = .ok r ↔ f s s = .ok r := Iff.rfl

@[simp] theorem set_ok {v : PUnit × σ} : (set t : Tx σ ε PUnit) s = .ok v ↔ v.2 = t := by
  show Except.ok (PUnit.unit, t) = Except.ok v ↔ _
  obtain ⟨v, u⟩ := v
  simp [eq_comm]

@[simp] theorem set_bind_ok {f : PUnit → Tx σ ε β} {r : β × σ} :
    (set t >>= f) s = .ok r ↔ f .unit t = .ok r := Iff.rfl

@[simp] theorem modify_ok {g : σ → σ} {v : PUnit × σ} :
    (modify g : Tx σ ε PUnit) s = .ok v ↔ v.2 = g s := by
  show Except.ok (PUnit.unit, g s) = Except.ok v ↔ _
  obtain ⟨v, u⟩ := v
  simp [eq_comm]

@[simp] theorem modify_bind_ok {g : σ → σ} {f : PUnit → Tx σ ε β} {r : β × σ} :
    (modify g >>= f) s = .ok r ↔ f .unit (g s) = .ok r := Iff.rfl

@[simp] theorem require_ok {p : Prop} [Decidable p] {v : Unit × σ} :
    (require p e : Tx σ ε Unit) s = .ok v ↔ p ∧ v.2 = s := by
  obtain ⟨v, u⟩ := v
  by_cases h : p
  · simp only [require, h, if_true, pure_ok, true_and]
    exact eq_comm
  · simp [require, h]

@[simp] theorem require_bind_ok {p : Prop} [Decidable p] {f : Unit → Tx σ ε β} {r : β × σ} :
    (require p e >>= f) s = .ok r ↔ p ∧ f () s = .ok r := by
  simp only [bind_ok, require_ok]
  constructor
  · rintro ⟨_, _, ⟨hp, rfl⟩, hr⟩
    exact ⟨hp, hr⟩
  · rintro ⟨hp, hr⟩
    exact ⟨(), s, ⟨hp, rfl⟩, hr⟩

@[simp] theorem fetch_bind_ok {row : Option α} {r : β × σ} :
    (fetch row e >>= f) s = .ok r ↔ ∃ a, row = some a ∧ f a s = .ok r := by
  cases row with
  | none =>
    simp only [fetch, bind_ok, throw_ok]
    simp
  | some b =>
    show f b s = .ok r ↔ _
    simp

@[simp] theorem ite_ok {p : Prop} [Decidable p] {m n : Tx σ ε α} {r : α × σ} :
    (if p then m else n) s = .ok r ↔ p ∧ m s = .ok r ∨ ¬ p ∧ n s = .ok r := by
  by_cases h : p <;> simp [h]

/-! ## What a transaction does -/

theorem bind_of_ok (h : m s = .ok (a, t)) : (m >>= f) s = f a t := by
  show (m s >>= fun r => f r.1 r.2) = _
  rw [h]
  rfl

theorem bind_of_error (h : m s = .error e) : (m >>= f) s = .error e := by
  show (m s >>= fun r => f r.1 r.2) = _
  rw [h]
  rfl

theorem get_bind {f : σ → Tx σ ε β} : (get >>= f) s = f s s := rfl

theorem modify_bind {g : σ → σ} {f : PUnit → Tx σ ε β} : (modify g >>= f) s = f .unit (g s) := rfl

theorem require_bind {p : Prop} [Decidable p] {f : Unit → Tx σ ε β} :
    (require p e >>= f) s = if p then f () s else .error e := by
  by_cases h : p
  · rw [require, if_pos h, if_pos h]
    rfl
  · rw [require, if_neg h, if_neg h]
    rfl

theorem require_of (p : Prop) [Decidable p] :
    (require p e : Tx σ ε Unit) s = if p then .ok ((), s) else .error e := by
  unfold require
  split <;> rfl

theorem fetch_bind_some : (fetch (some a) e >>= f) s = f a s := rfl

end Tx

end Parsar
