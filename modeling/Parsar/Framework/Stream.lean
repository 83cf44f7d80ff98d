import Parsar.Framework.Trace

namespace Parsar

/-- What a bounded stream sees: an item offered, an item taken, an order to stop. -/
inductive StreamEvent (α κ : Type*) where
  | offer (a : α)
  | take
  | stop (cause : κ)

/-- Why a stream ended: after its last item, at an item that found the buffer full, or on order. -/
inductive StreamEnd (κ : Type*) where
  | last
  | overflow
  | stopped (cause : κ)
  deriving DecidableEq

section Carried

variable {α κ : Type*} (cap : Nat) (isLast : α → Bool)

/-- The items a stream carries, each once and in order up to its first ending; `n` items wait in its
buffer. -/
def carried : Nat → List (StreamEvent α κ) → List α × Option (StreamEnd κ)
  | _, [] => ([], none)
  | n, .offer a :: evs =>
    if cap ≤ n then ([], some .overflow)
    else if isLast a then ([a], some .last)
    else (a :: (carried (n + 1) evs).1, (carried (n + 1) evs).2)
  | n, .take :: evs => carried (n - 1) evs
  | _, .stop cause :: _ => ([], some (.stopped cause))

variable {cap isLast} {n : Nat} {a : α} {evs : List (StreamEvent α κ)}

theorem carried_full (h : cap ≤ n) :
    carried cap isLast n (.offer a :: evs) = ([], some .overflow) := if_pos h

theorem carried_last (h : n < cap) (ha : isLast a = true) :
    carried cap isLast n (.offer a :: evs) = ([a], some .last) := by
  have hroom : ¬ cap ≤ n := by omega
  simp [carried, hroom, ha]

theorem carried_offer (h : n < cap) (ha : isLast a = false) :
    carried cap isLast n (.offer a :: evs) =
      (a :: (carried cap isLast (n + 1) evs).1, (carried cap isLast (n + 1) evs).2) := by
  have hroom : ¬ cap ≤ n := by omega
  simp [carried, hroom, ha]

def offers : List (StreamEvent α κ) → List α
  | [] => []
  | .offer a :: evs => a :: offers evs
  | _ :: evs => offers evs

theorem carried_prefix (n : Nat) (evs : List (StreamEvent α κ)) :
    (carried cap isLast n evs).1 <+: offers evs := by
  induction evs generalizing n with
  | nil => exact List.prefix_rfl
  | cons ev evs ih =>
    cases ev with
    | offer a =>
      by_cases hroom : n < cap
      · cases hlast : isLast a with
        | true =>
          rw [carried_last hroom hlast]
          exact List.prefix_append [a] (offers evs)
        | false =>
          rw [carried_offer hroom hlast]
          exact List.prefix_cons_inj a |>.mpr (ih (n + 1))
      · rw [carried_full (by omega)]
        exact List.nil_prefix
    | take => exact ih (n - 1)
    | stop cause => exact List.nil_prefix

end Carried

/-! ## A system that runs a stream -/

section Simulation

variable {σ ι α κ : Type*}

/-- A system simulates a bounded stream: `Live s items n` while it has carried the items and `n`
wait, `Over s items e` once it has ended. -/
structure StreamSimulation (step : σ → ι → Option σ) (event : ι → Option (StreamEvent α κ))
    (cap : Nat) (isLast : α → Bool) (Live : σ → List α → Nat → Prop)
    (Over : σ → List α → StreamEnd κ → Prop) : Prop where
  skip : ∀ {s t i items n}, step s i = some t → event i = none → Live s items n → Live t items n
  take : ∀ {s t i items n}, step s i = some t → event i = some .take → Live s items n →
    Live t items (n - 1)
  stop : ∀ {s t i items n cause}, step s i = some t → event i = some (.stop cause) →
    Live s items n → Over t items (.stopped cause)
  offer : ∀ {s t i items n a}, step s i = some t → event i = some (.offer a) → Live s items n →
    (cap ≤ n ∧ Over t items .overflow) ∨ (n < cap ∧ isLast a = true ∧ Over t (items ++ [a]) .last) ∨
      (n < cap ∧ isLast a = false ∧ Live t (items ++ [a]) (n + 1))
  ended : ∀ {s t i items e}, step s i = some t → Over s items e → Over t items e

namespace StreamSimulation

variable {step : σ → ι → Option σ} {event : ι → Option (StreamEvent α κ)} {cap : Nat}
  {isLast : α → Bool} {Live : σ → List α → Nat → Prop} {Over : σ → List α → StreamEnd κ → Prop}
  (sim : StreamSimulation step event cap isLast Live Over) {s t : σ} {items : List α} {n : Nat}

/-- What a stream that went on, or ended, looks like in the end. -/
def Outcome (Live : σ → List α → Nat → Prop) (Over : σ → List α → StreamEnd κ → Prop) (s : σ)
    (items : List α) : Option (StreamEnd κ) → Prop
  | none => ∃ n, Live s items n
  | some e => Over s items e

include sim

theorem over_run {e : StreamEnd κ} {trace : List ι} (hrun : runTrace step s trace = some t)
    (h : Over s items e) : Over t items e :=
  runTrace_invariant (fun _ _ _ _ hstep hover => sim.ended hstep hover) (stepsMeet_true s trace) hrun h

/-- Over a whole run, the system carries what the stream carries and ends as it does. -/
theorem live_run {trace : List ι} (hrun : runTrace step s trace = some t)
    (h : Live s items n) :
    Outcome Live Over t (items ++ (carried cap isLast n (trace.filterMap event)).1)
      (carried cap isLast n (trace.filterMap event)).2 := by
  -- induction on the trace; `items` and `n` move with the state
  induction trace generalizing s items n with
  | nil =>
    cases hrun
    simpa [carried] using ⟨n, h⟩
  | cons i trace ih =>
    obtain ⟨u, hstep, htail⟩ := runTrace_cons hrun
    rcases hev : event i with _ | ⟨a | _ | cause⟩
    · rw [List.filterMap_cons_none hev]
      exact ih htail (sim.skip hstep hev h)
    · rw [List.filterMap_cons_some hev]
      rcases sim.offer hstep hev h with ⟨hfull, hover⟩ | ⟨hroom, hlast, hover⟩ | ⟨hroom, hlast, hlive⟩
      · rw [carried_full hfull, List.append_nil]
        exact sim.over_run htail hover
      · rw [carried_last hroom hlast]
        exact sim.over_run htail hover
      · rw [carried_offer hroom hlast, ← List.singleton_append, ← List.append_assoc]
        exact ih htail hlive
    · rw [List.filterMap_cons_some hev]
      exact ih htail (sim.take hstep hev h)
    · rw [List.filterMap_cons_some hev]
      simp only [carried, List.append_nil]
      exact sim.over_run htail (sim.stop hstep hev h)

end StreamSimulation

end Simulation

end Parsar
