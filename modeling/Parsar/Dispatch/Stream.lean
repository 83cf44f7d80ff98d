import Mathlib.Data.List.Infix
import Mathlib.Data.List.TakeWhile
import Parsar.Framework.Trace
import Parsar.Dispatch.Preparation

namespace Parsar.Dispatch

def beforeDone (fs : List Frame) : List Frame := fs.takeWhile (!·.isDone)

theorem not_isDone_of_mem_beforeDone {fs : List Frame} {f : Frame} (hf : f ∈ beforeDone fs) :
    f.isDone = false := by
  simpa using List.mem_takeWhile_imp hf

theorem beforeDone_append {fs : List Frame} (hfs : ∀ f ∈ fs, f.isDone = false) (gs : List Frame) :
    beforeDone (fs ++ gs) = fs ++ beforeDone gs := by
  apply List.takeWhile_append_of_pos
  simpa using hfs

theorem beforeDone_eq_self {fs : List Frame} (hfs : ∀ f ∈ fs, f.isDone = false) :
    beforeDone fs = fs := by
  simpa [beforeDone] using beforeDone_append hfs []

theorem beforeDone_append_of_done {fs : List Frame} (hfs : ∃ f ∈ fs, f.isDone) (gs : List Frame) :
    beforeDone (fs ++ gs) = beforeDone fs := by
  induction fs with
  | nil => simp at hfs
  | cons g fs ih =>
    cases hg : g.isDone with
    | true => simp [beforeDone, hg]
    | false =>
      have hrest : ∃ f ∈ fs, f.isDone := by simpa [hg] using hfs
      have htail := ih hrest
      unfold beforeDone at htail
      simp [beforeDone, hg, htail]

theorem beforeDone_prefix_append (fs gs : List Frame) :
    beforeDone fs <+: beforeDone (fs ++ gs) := by
  by_cases hfs : ∃ f ∈ fs, f.isDone
  · rw [beforeDone_append_of_done hfs]
  · have hnone : ∀ f ∈ fs, f.isDone = false := by simpa using hfs
    rw [beforeDone_append hnone, beforeDone_eq_self hnone]
    exact List.prefix_append _ _

def PumpPhase.hand : PumpPhase → List Frame
  | received f | forwarding f => [f]
  | _ => []

/-- The consumer has dealt with `processed` and sent `forwarded`: all before the first `done` until
something is lost. -/
structure Stream (closed outputErr interrupted : Bool) (pump : PumpPhase)
    (written out : List Frame) (terminal : Option Frame) (processed forwarded : List Frame) :
    Prop where
  written : written = processed ++ (pump.hand ++ out)
  sent : forwarded <+: beforeDone processed
  steady : outputErr = false → interrupted = false → closed = false → pump ≠ .sendFailed →
    forwarded = beforeDone processed ∧ terminal = processed.find? (·.isDone)
  terminal : ∀ f, terminal = some f → f.isDone
  forwarding : ∀ f, pump = .forwarding f → f.isDone = false ∧ forwarded = processed ∧
    ∀ g ∈ processed, g.isDone = false
  stopped : interrupted ∨ pump = .interrupted → closed
  draining : pump = .draining → outputErr ∨ interrupted

namespace Stream

variable {closed outputErr interrupted : Bool} {pump : PumpPhase} {written out : List Frame}
  {terminal : Option Frame} {processed forwarded : List Frame} {f : Frame}

theorem opening : Stream closed false false .starting [] [] none [] [] := by
  constructor <;> simp [PumpPhase.hand, beforeDone]

theorem still (h : Stream closed outputErr interrupted pump written out terminal
    processed forwarded)
    {pump' : PumpPhase} (hpump : pump' ≠ .interrupted) :
    interrupted ∨ pump' = .interrupted → closed :=
  fun hs => hs.elim (fun hi => h.stopped (.inl hi)) (fun hp => absurd hp hpump)

theorem of_phase (h : Stream closed outputErr interrupted pump written out terminal
    processed forwarded)
    {pump' : PumpPhase} (hhand : pump.hand = []) (hhand' : pump'.hand = [])
    (hfailed : pump ≠ .sendFailed) (hstopped : pump' = .interrupted → closed)
    (hdraining : pump' ≠ .draining) :
    Stream closed outputErr interrupted pump' written out terminal processed forwarded where
  written := by
    rw [hhand', ← hhand]
    exact h.written
  sent := h.sent
  steady := fun h₁ h₂ h₃ _ => h.steady h₁ h₂ h₃ hfailed
  terminal := h.terminal
  forwarding := by
    rintro f rfl
    cases hhand'
  stopped := fun hs => hs.elim (fun hi => h.stopped (.inl hi)) hstopped
  draining := fun hd => absurd hd hdraining

theorem take
    (h : Stream closed outputErr interrupted .selecting written (f :: out) terminal processed
      forwarded) :
    Stream closed outputErr interrupted (.received f) written out terminal processed forwarded where
  written := h.written
  sent := h.sent
  steady := fun h₁ h₂ h₃ _ => h.steady h₁ h₂ h₃ (by simp)
  terminal := h.terminal
  forwarding := by simp
  stopped := h.still nofun
  draining := by simp

theorem skip
    (h : Stream closed outputErr interrupted (.received f) written out terminal processed forwarded)
    (hskip : terminal.isSome ∨ outputErr ∨ interrupted ∨ closed) :
    Stream closed outputErr interrupted .selecting written out terminal (processed ++ [f])
      forwarded where
  written := by simpa [PumpPhase.hand] using h.written
  sent := h.sent.trans (beforeDone_prefix_append _ _)
  steady := by
    intro h₁ h₂ h₃ _
    obtain ⟨hforwarded, hterminal⟩ := h.steady h₁ h₂ h₃ (by simp)
    simp only [h₁, h₂, h₃, Bool.false_eq_true, or_false] at hskip
    obtain ⟨g, hg⟩ := Option.isSome_iff_exists.mp hskip
    have hfind : processed.find? (·.isDone) = some g := hterminal ▸ hg
    have hdone : ∃ g ∈ processed, g.isDone := ⟨g, List.mem_of_find?_eq_some hfind,
      List.find?_some hfind⟩
    exact ⟨by rw [beforeDone_append_of_done hdone, hforwarded], by simp [hterminal, hfind]⟩
  terminal := h.terminal
  forwarding := by simp
  stopped := h.still nofun
  draining := by simp

theorem none_done
    (h : Stream closed outputErr interrupted pump written out none processed forwarded)
    (h₁ : outputErr = false) (h₂ : interrupted = false) (h₃ : closed = false)
    (h₄ : pump ≠ .sendFailed) : forwarded = processed ∧ ∀ g ∈ processed, g.isDone = false := by
  obtain ⟨hforwarded, hterminal⟩ := h.steady h₁ h₂ h₃ h₄
  have hnone : ∀ g ∈ processed, g.isDone = false := by
    simpa [List.find?_eq_none] using hterminal.symm
  exact ⟨hforwarded.trans (beforeDone_eq_self hnone), hnone⟩

theorem keep (h : Stream closed outputErr interrupted (.received f) written out none
    processed forwarded)
    (hf : f.isDone) :
    Stream closed outputErr interrupted .selecting written out (some f) (processed ++ [f])
      forwarded where
  written := by simpa [PumpPhase.hand] using h.written
  sent := h.sent.trans (beforeDone_prefix_append _ _)
  steady := by
    intro h₁ h₂ h₃ _
    obtain ⟨hforwarded, hnone⟩ := h.none_done h₁ h₂ h₃ (by simp)
    have hfind : processed.find? (·.isDone) = none := by simpa [List.find?_eq_none] using hnone
    refine ⟨?_, by simp [hfind, hf]⟩
    rw [beforeDone_append hnone, hforwarded]
    simp [beforeDone, hf]
  terminal := by
    rintro g ⟨⟩
    exact hf
  forwarding := by simp
  stopped := h.still nofun
  draining := by simp

theorem accept (h : Stream closed outputErr interrupted (.received f) written out none
    processed forwarded)
    (hf : f.isDone = false) (h₁ : outputErr = false) (h₂ : interrupted = false)
    (h₃ : closed = false) :
    Stream closed outputErr interrupted (.forwarding f) written out none processed forwarded where
  written := h.written
  sent := h.sent
  steady := fun _ _ _ _ => h.steady h₁ h₂ h₃ (by simp)
  terminal := by simp
  forwarding := by
    rintro g ⟨⟩
    exact ⟨hf, h.none_done h₁ h₂ h₃ (by simp)⟩
  stopped := h.still nofun
  draining := by simp

theorem forward
    (h : Stream closed outputErr interrupted (.forwarding f) written out terminal processed
      forwarded) :
    Stream closed outputErr interrupted .selecting written out terminal (processed ++ [f])
      (forwarded ++ [f]) := by
  obtain ⟨hf, hforwarded, hnone⟩ := h.forwarding f rfl
  have hall : ∀ g ∈ processed ++ [f], g.isDone = false := forall_mem_concat hnone hf
  have heq : forwarded ++ [f] = beforeDone (processed ++ [f]) := by
    rw [beforeDone_eq_self hall, hforwarded]
  refine ⟨by simpa [PumpPhase.hand] using h.written, heq ▸ List.prefix_rfl, ?_, h.terminal, by simp,
    h.still nofun, by simp⟩
  intro h₁ h₂ h₃ _
  obtain ⟨-, hterminal⟩ := h.steady h₁ h₂ h₃ (by simp)
  refine ⟨heq, ?_⟩
  rw [hterminal, List.find?_append]
  simp [hf]

theorem fail
    (h : Stream closed outputErr interrupted (.forwarding f) written out terminal processed
      forwarded) :
    Stream closed outputErr interrupted .sendFailed written out terminal (processed ++ [f])
      forwarded where
  written := by simpa [PumpPhase.hand] using h.written
  sent := h.sent.trans (beforeDone_prefix_append _ _)
  steady := by simp
  terminal := h.terminal
  forwarding := by simp
  stopped := h.still nofun
  draining := by simp

theorem giveUp
    (h : Stream closed outputErr interrupted pump written out terminal processed forwarded)
    {outputErr' interrupted' : Bool} (hhand : pump.hand = []) (hlost : outputErr' ∨ interrupted')
    (hstopped : interrupted' → closed) :
    Stream closed outputErr' interrupted' .draining written out terminal processed forwarded where
  written := by
    have hwritten := h.written
    rwa [hhand] at hwritten
  sent := h.sent
  steady := by
    rintro rfl rfl
    simp at hlost
  terminal := h.terminal
  forwarding := by simp
  stopped := by
    rintro (hi | ⟨⟨⟩⟩)
    exact hstopped hi
  draining := fun _ => hlost

theorem drain
    (h : Stream closed outputErr interrupted .draining written (f :: out) terminal processed
      forwarded) :
    Stream closed outputErr interrupted .draining written out terminal (processed ++ [f])
      forwarded where
  written := by simpa [PumpPhase.hand] using h.written
  sent := h.sent.trans (beforeDone_prefix_append _ _)
  steady := by
    rintro rfl rfl
    simpa using h.draining rfl
  terminal := h.terminal
  forwarding := by simp
  stopped := h.stopped
  draining := h.draining

variable (h : Stream closed outputErr interrupted pump written out terminal processed forwarded)

include h

theorem write : Stream closed outputErr interrupted pump (written ++ [f]) (out ++ [f]) terminal
    processed forwarded :=
  { h with written := by simp [h.written] }

theorem lose (lost : Bool) :
    Stream closed (outputErr || lost) interrupted pump written out terminal processed
      forwarded where
  written := h.written
  sent := h.sent
  steady := by
    intro h₁
    exact h.steady (by simpa using (Bool.or_eq_false_iff.mp h₁).1)
  terminal := h.terminal
  forwarding := h.forwarding
  stopped := h.stopped
  draining := fun hd => (h.draining hd).imp_left (by simp +contextual)

theorem close :
    Stream true outputErr interrupted pump written out terminal processed forwarded :=
  { h with steady := by simp, stopped := by simp }

theorem rest (h₁ : outputErr = false) (h₂ : interrupted = false) (h₃ : closed = false)
    (h₄ : pump ≠ .sendFailed) :
    ∃ rest, written = forwarded ++ rest ∧
      (rest = pump.hand ++ out ∨ ∃ f, rest.head? = some f ∧ f.isDone) := by
  obtain ⟨hforwarded, -⟩ := h.steady h₁ h₂ h₃ h₄
  have hsplit : processed = forwarded ++ processed.dropWhile (!·.isDone) := by
    rw [hforwarded]
    exact List.takeWhile_append_dropWhile.symm
  refine ⟨processed.dropWhile (!·.isDone) ++ (pump.hand ++ out), ?_, ?_⟩
  · rw [← List.append_assoc, ← hsplit]
    exact h.written
  · cases hdrop : processed.dropWhile (!·.isDone) with
    | nil => exact .inl rfl
    | cons f fs =>
      refine .inr ⟨f, rfl, ?_⟩
      have hhead := List.head?_dropWhile_not (fun g : Frame => !g.isDone) processed
      simpa [hdrop] using hhead

end Stream

end Parsar.Dispatch
