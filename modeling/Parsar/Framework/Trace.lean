import Mathlib.Logic.Basic

namespace Parsar

theorem mem_concat {α : Type*} {log : List α} {a x : α} (h : x ∈ log ++ [a]) : x ∈ log ∨ x = a := by
  simpa using h

theorem forall_mem_concat {α : Type*} {p : α → Prop} {log : List α} {a : α} (hlog : ∀ x ∈ log, p x)
    (ha : p a) : ∀ x ∈ log ++ [a], p x := by
  intro x hx
  rcases mem_concat hx with hx | rfl
  · exact hlog x hx
  · exact ha

theorem pairwise_concat {α : Type*} {R : α → α → Prop} {log : List α} {a : α} (hlog : log.Pairwise R)
    (ha : ∀ x ∈ log, R x a) : (log ++ [a]).Pairwise R := by
  simpa [List.pairwise_append, hlog] using ha

theorem append_singleton_split {α : Type*} {log a b : List α} {x y : α}
    (h : log ++ [x] = a ++ y :: b) :
    (a = log ∧ y = x ∧ b = []) ∨ ∃ b', b = b' ++ [x] ∧ log = a ++ y :: b' := by
  rcases List.eq_nil_or_concat b with rfl | ⟨b', z, rfl⟩
  · obtain ⟨rfl, hx⟩ := List.append_inj' h rfl
    exact .inl ⟨rfl, (List.singleton_inj.mp hx).symm, rfl⟩
  · rw [List.concat_eq_append, ← List.cons_append, ← List.append_assoc] at h
    obtain ⟨rfl, hx⟩ := List.append_inj' h rfl
    exact .inr ⟨b', by rw [List.concat_eq_append, List.singleton_inj.mp hx], rfl⟩

theorem append_split {α : Type*} {l m a b : List α} {y : α} (h : l ++ m = a ++ y :: b) :
    (∃ b', l = a ++ y :: b' ∧ b = b' ++ m) ∨ ∃ a', m = a' ++ y :: b ∧ a = l ++ a' := by
  obtain ⟨c, rfl, rfl⟩ | ⟨c, rfl, hc⟩ := List.append_eq_append_iff.1 h
  · exact .inr ⟨c, rfl, rfl⟩
  · cases c with
    | nil => exact .inr ⟨[], hc.symm, by simp⟩
    | cons x c =>
      cases hc
      exact .inl ⟨c, rfl, rfl⟩

/-- Of two elements of a list one stands before the other, or they are the same. -/
theorem cons_split {α : Type*} {a b c d : List α} {x y : α} (h : a ++ x :: b = c ++ y :: d) :
    (∃ m, c = a ++ x :: m ∧ b = m ++ y :: d) ∨ (a = c ∧ x = y ∧ b = d) ∨
      ∃ m, a = c ++ y :: m ∧ d = m ++ x :: b := by
  obtain ⟨m, ha, hd⟩ | ⟨m, hm, hc⟩ := append_split h
  · exact .inr (.inr ⟨m, ha, hd⟩)
  · cases m with
    | nil =>
      cases hm
      exact .inr (.inl ⟨by simp [hc], rfl, rfl⟩)
    | cons z m =>
      cases hm
      exact .inl ⟨m, hc, rfl⟩

theorem getElem?_set_cases {α : Type*} {l : List α} {i j : Nat} {a b : α}
    (h : (l.set i a)[j]? = some b) : i = j ∧ b = a ∨ i ≠ j ∧ l[j]? = some b := by
  rw [List.getElem?_set] at h
  split at h
  · next hij =>
    split at h
    · exact .inl ⟨hij, (Option.some.inj h).symm⟩
    · cases h
  · next hij => exact .inr ⟨hij, h⟩

section Trace

variable {σ α : Type*} (step : σ → α → Option σ)

/-- Replay a list of actions; an action that is not enabled refuses the whole trace. -/
def runTrace : σ → List α → Option σ
  | s, [] => some s
  | s, a :: as => (step s a).bind (fun t => runTrace t as)

/-- Every action of the trace meets `ok` in the state it is taken from. -/
def StepsMeet (ok : σ → α → Prop) : σ → List α → Prop
  | _, [] => True
  | s, a :: as => ok s a ∧ ∀ t, step s a = some t → StepsMeet ok t as

variable {step} {ok : σ → α → Prop}

theorem runTrace_cons {s t : σ} {a : α} {as : List α} (h : runTrace step s (a :: as) = some t) :
    ∃ u, step s a = some u ∧ runTrace step u as = some t := by
  simpa [runTrace, Option.bind_eq_some_iff] using h

theorem runTrace_append {s t : σ} {as bs : List α} (h : runTrace step s (as ++ bs) = some t) :
    ∃ u, runTrace step s as = some u ∧ runTrace step u bs = some t := by
  induction as generalizing s with
  | nil => exact ⟨s, rfl, h⟩
  | cons a as ih =>
    obtain ⟨v, hv, htail⟩ := runTrace_cons h
    obtain ⟨u, hu, hrest⟩ := ih htail
    exact ⟨u, by rw [runTrace, hv, Option.bind_some, hu], hrest⟩

theorem runTrace_concat {s t u : σ} {as : List α} {a : α} (h : runTrace step s as = some t)
    (ha : step t a = some u) : runTrace step s (as ++ [a]) = some u := by
  induction as generalizing s with
  | nil =>
    cases h
    simp [runTrace, ha]
  | cons b as ih =>
    obtain ⟨v, hv, htail⟩ := runTrace_cons h
    rw [List.cons_append, runTrace, hv, Option.bind_some, ih htail]

/-- The invariant rule: what every admitted step preserves holds at the end of every
admitted trace that starts from it. -/
theorem runTrace_invariant {I : σ → Prop}
    (hstep : ∀ s a t, ok s a → step s a = some t → I s → I t) {s t : σ} {as : List α}
    (hok : StepsMeet step ok s as) (hrun : runTrace step s as = some t) (hs : I s) : I t := by
  induction as generalizing s with
  | nil =>
    cases hrun
    exact hs
  | cons a as ih =>
    obtain ⟨u, hu, htail⟩ := runTrace_cons hrun
    exact ih (hok.2 u hu) htail (hstep s a u hok.1 hu hs)

theorem runTrace_begins {P : σ → Prop} {s t : σ} {as : List α} (hrun : runTrace step s as = some t)
    (hs : ¬P s) (ht : P t) : ∃ before a after u v, as = before ++ a :: after ∧
      runTrace step s before = some u ∧ step u a = some v ∧ ¬P u ∧ P v ∧
      runTrace step v after = some t := by
  induction as generalizing s with
  | nil =>
    cases hrun
    exact absurd ht hs
  | cons a as ih =>
    obtain ⟨v, hv, htail⟩ := runTrace_cons hrun
    by_cases hP : P v
    · exact ⟨[], a, as, s, v, rfl, rfl, hv, hs, hP, htail⟩
    · obtain ⟨before, b, after, u, w, rfl, hu, hw, hnot, hyes, hrest⟩ := ih htail hP
      exact ⟨a :: before, b, after, u, w, rfl, by rw [runTrace, hv, Option.bind_some, hu], hw, hnot,
        hyes, hrest⟩

theorem StepsMeet.imp {ok' : σ → α → Prop} (himp : ∀ s a, ok s a → ok' s a) {s : σ}
    {as : List α} (h : StepsMeet step ok s as) : StepsMeet step ok' s as := by
  induction as generalizing s with
  | nil => trivial
  | cons a as ih => exact ⟨himp s a h.1, fun t ht => ih (h.2 t ht)⟩

theorem stepsMeet_true (s : σ) (as : List α) : StepsMeet step (fun _ _ => True) s as := by
  induction as generalizing s with
  | nil => trivial
  | cons a as ih => exact ⟨trivial, fun t _ => ih t⟩

theorem stepsMeet_of_forall {p : α → Prop} {as : List α} (h : ∀ a ∈ as, p a) (s : σ) :
    StepsMeet step (fun _ a => p a) s as := by
  induction as generalizing s with
  | nil => trivial
  | cons a as ih =>
    exact ⟨h a List.mem_cons_self, fun t _ => ih (fun b hb => h b (List.mem_cons_of_mem a hb)) t⟩

/-- `StepsMeet` along one replayed trace, as a computation. -/
def meetsCheck (step : σ → α → Option σ) (ok : σ → α → Bool) : σ → List α → Bool
  | _, [] => true
  | s, a :: as => ok s a && match step s a with
    | some t => meetsCheck step ok t as
    | none => true

theorem stepsMeet_of_check [∀ s a, Decidable (ok s a)] {s : σ} {as : List α}
    (h : meetsCheck step (fun s a => decide (ok s a)) s as = true) : StepsMeet step ok s as := by
  induction as generalizing s with
  | nil => trivial
  | cons a as ih =>
    simp only [meetsCheck, Bool.and_eq_true, decide_eq_true_eq] at h
    refine ⟨h.1, fun t ht => ih ?_⟩
    rw [ht] at h
    exact h.2

theorem exists_of_runTrace_map {s : σ} {as : List α} {p : σ → Bool}
    (h : (runTrace step s as).map p = some true) :
    ∃ t, runTrace step s as = some t ∧ p t = true := by
  simpa [Option.map_eq_some_iff] using h

end Trace

end Parsar
