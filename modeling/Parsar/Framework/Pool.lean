import Mathlib.Data.List.Basic
import Parsar.Framework.Trace

namespace Parsar

/-- Threads, numbered in the order of their start, over a state that they share. -/
structure Pool (σ τ : Type*) where
  shared : σ
  threads : List τ := []

namespace Pool

/-- A thread starts, a thread takes a step, or the shared state changes by itself. -/
inductive Action (ι α ε : Type*) where
  | spawn (x : ι)
  | run (i : Nat) (a : α)
  | env (e : ε)

section Step

variable {σ τ ι α ε : Type*} (start : ι → τ) (thread : Nat → σ → τ → α → Option (σ × τ))
  (env : σ → ε → Option σ)

def step (p : Pool σ τ) : Action ι α ε → Option (Pool σ τ)
  | .spawn x => some { p with threads := p.threads ++ [start x] }
  | .run i a => p.threads[i]?.bind (fun t =>
    (thread i p.shared t a).map (fun r => ⟨r.1, p.threads.set i r.2⟩))
  | .env e => (env p.shared e).map (fun s => { p with shared := s })

/-- An assertion on the shared state and the number of threads, and one on each thread. -/
structure Holds (G : σ → Nat → Prop) (L : σ → Nat → τ → Prop) (p : Pool σ τ) : Prop where
  shared : G p.shared p.threads.length
  threads : ∀ i t, p.threads[i]? = some t → L p.shared i t

/-- A step keeps the assertions of the thread that takes it and does not interfere with those of
the others. -/
structure Keeps (ok : Pool σ τ → Action ι α ε → Prop) (G : σ → Nat → Prop)
    (L : σ → Nat → τ → Prop) : Prop where
  spawn : ∀ p x, ok p (.spawn x) → Holds G L p →
    G p.shared (p.threads.length + 1) ∧ L p.shared p.threads.length (start x)
  run : ∀ p i t a s' t', ok p (.run i a) → Holds G L p → p.threads[i]? = some t →
    thread i p.shared t a = some (s', t') →
    G s' p.threads.length ∧ L s' i t' ∧ ∀ j u, j ≠ i → p.threads[j]? = some u → L s' j u
  env : ∀ p e s', ok p (.env e) → Holds G L p → env p.shared e = some s' →
    G s' p.threads.length ∧ ∀ j u, p.threads[j]? = some u → L s' j u

variable {start thread env} {ok : Pool σ τ → Action ι α ε → Prop} {G : σ → Nat → Prop}
  {L : σ → Nat → τ → Prop} {p q : Pool σ τ}

theorem step_run {i : Nat} {a : α} (h : step start thread env p (.run i a) = some q) :
    ∃ t s' t', p.threads[i]? = some t ∧ thread i p.shared t a = some (s', t') ∧
      q = ⟨s', p.threads.set i t'⟩ := by
  obtain ⟨t, ht, h⟩ := Option.bind_eq_some_iff.1 h
  obtain ⟨⟨s', t'⟩, hrun, rfl⟩ := Option.map_eq_some_iff.1 h
  exact ⟨t, s', t', ht, hrun, rfl⟩

theorem Keeps.step (hk : Keeps start thread env ok G L) {a : Action ι α ε} (hok : ok p a)
    (hstep : step start thread env p a = some q) (hp : Holds G L p) : Holds G L q := by
  cases a with
  | spawn x =>
    cases hstep
    obtain ⟨hG, hL⟩ := hk.spawn p x hok hp
    refine ⟨by simpa using hG, ?_⟩
    intro i t ht
    rcases Nat.lt_trichotomy i p.threads.length with hlt | rfl | hgt
    · rw [List.getElem?_append_left hlt] at ht
      exact hp.threads i t ht
    · rw [List.getElem?_concat_length] at ht
      cases ht
      exact hL
    · rw [List.getElem?_eq_none (by simpa using Nat.succ_le_of_lt hgt)] at ht
      cases ht
  | run i a =>
    obtain ⟨t, s', t', ht, hrun, rfl⟩ := step_run hstep
    obtain ⟨hG, hL, hothers⟩ := hk.run p i t a s' t' hok hp ht hrun
    refine ⟨by simpa using hG, ?_⟩
    intro j u hu
    obtain ⟨rfl, rfl⟩ | ⟨hj, hu⟩ := getElem?_set_cases hu
    · exact hL
    · exact hothers j u hj.symm hu
  | env e =>
    obtain ⟨s', henv, rfl⟩ := Option.map_eq_some_iff.1 hstep
    obtain ⟨hG, hothers⟩ := hk.env p e s' hok hp henv
    exact ⟨hG, hothers⟩

theorem Keeps.run_holds (hk : Keeps start thread env ok G L) {actions : List (Action ι α ε)}
    (hok : StepsMeet (Pool.step start thread env) ok p actions)
    (hrun : runTrace (Pool.step start thread env) p actions = some q) (hp : Holds G L p) :
    Holds G L q :=
  runTrace_invariant (fun _ _ _ hmeet hstep hs => hk.step hmeet hstep hs) hok hrun hp

end Step

end Pool

end Parsar
