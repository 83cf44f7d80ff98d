import Parsar.Resolution.Service

namespace Parsar.Resolution

open GoStd

structure Settled (s : Desk) : Prop where
  row : (s.settlements = [] ∧ s.row.status.terminal = false) ∨
    ∃ x, s.settlements = [x] ∧ s.row.status = x.status ∧ x.status.terminal = true
  open_unreplied : s.settlements = [] → s.replied = []
  replied : s.replied.length ≤ 1

/-- What a call knows of the settlement in its phase. -/
def Phase.Settling (s : Desk) (i : Nat) : Phase → Prop
  | .completing status _ => status.terminal = true
  | .recording status _ => s.settlements = [⟨some i, status⟩] ∧ s.replied = []
  | .begun | .loaded | .claimed | .releasing | .ended => True

variable {s t : Desk} {row : Interaction} {i j n : Nat} {phase : Phase}

theorem Settled.open (h : Settled s) (hrow : s.row.status.terminal = false) :
    s.settlements = [] := by
  rcases h.row with ⟨hnone, -⟩ | ⟨x, -, hstatus, hterminal⟩
  · exact hnone
  · rw [hstatus, hterminal] at hrow
    cases hrow

theorem heldBy_iff :
    row.heldBy i = true ↔ row.status = .resolving ∧ row.claimToken = some i := by
  simp [Interaction.heldBy]

theorem Settled.reopen (h : Settled s)
    (hbefore : s.row.status.terminal = false) (hafter : row.status.terminal = false) :
    Settled { s with row := row } :=
  ⟨.inl ⟨h.open hbefore, hafter⟩, h.open_unreplied, h.replied⟩

theorem Settled.settle (h : Settled s) {x : Settlement}
    (hopen : s.row.status.terminal = false) (hstatus : row.status = x.status)
    (hterminal : x.status.terminal = true) : Settled (s.settle row x) := by
  have hnone := h.open hopen
  refine ⟨.inr ⟨x, by rw [Desk.settle, hnone]; rfl, hstatus, hterminal⟩, ?_, h.replied⟩
  intro hempty
  rw [Desk.settle, hnone] at hempty
  cases hempty

theorem Phase.Settling.of_open (hs : Settled s) (hopen : s.row.status.terminal = false)
    (h : phase.Settling s j) : phase.Settling t j := by
  cases phase with
  | recording status response =>
    rw [Phase.Settling, hs.open hopen] at h
    cases h.1
  | completing status response => exact h
  | begun | loaded | claimed | releasing | ended => trivial

theorem heldBy_open (h : row.heldBy i = true) :
    row.status.terminal = false := by
  rw [(heldBy_iff.1 h).1]
  rfl

theorem heldBy_unique (hi : row.heldBy i = true) (hj : row.heldBy j = true) : i = j :=
  Option.some.inj ((heldBy_iff.1 hi).2.symm.trans (heldBy_iff.1 hj).2)

theorem CallEffect.settled {c : Call}
    (h : CallEffect i s c t phase) (hs : Settled s) (hc : c.phase.Settling s i) :
    Settled t ∧ phase.Settling t i ∧
      ∀ j (d : Phase), j ≠ i → d.Settling s j → d.Settling t j := by
  cases h with
  | load | stop | fail => exact ⟨hs, trivial, fun _ _ _ hd => hd⟩
  | claim hphase hpending hnext =>
    have hopen : s.row.status.terminal = false := by
      rw [hpending]
      rfl
    refine ⟨hs.reopen hopen rfl, ?_, fun _ _ _ hd => hd⟩
    rcases hnext with rfl | rfl <;> trivial
  | accept =>
    exact ⟨⟨hs.row, hs.open_unreplied, hs.replied⟩, due_terminal _ _, fun _ _ _ hd => hd⟩
  | refuse hphase hterminal => exact ⟨hs, hterminal, fun _ _ _ hd => hd⟩
  | complete hphase hheld hnext =>
    rw [hphase] at hc
    have hopen := heldBy_open hheld
    have hnone := hs.open hopen
    refine ⟨hs.settle hopen rfl hc, ?_, fun _ _ _ hd => hd.of_open hs hopen⟩
    rcases hnext with rfl | rfl
    · exact ⟨by rw [Desk.settle, hnone]; rfl, hs.open_unreplied hnone⟩
    · trivial
  | release hphase hheld => exact ⟨hs.reopen (heldBy_open hheld) rfl, trivial, fun _ _ _ hd => hd⟩
  | @record _ _ _ _ fails hphase =>
    rw [hphase] at hc
    obtain ⟨hsettled, hnone⟩ := hc
    refine ⟨⟨hs.row, ?_, ?_⟩, trivial, ?_⟩
    · intro hempty
      rw [show s.settlements = [] from hempty] at hsettled
      cases hsettled
    · cases fails <;> simp [Desk.record, hnone]
    · intro j d hj hd
      cases d with
      | recording status' response' =>
        have hsame := hd.1.symm.trans hsettled
        simp only [List.cons.injEq, Settlement.mk.injEq, Option.some.injEq, and_true] at hsame
        exact absurd hsame.1 hj
      | completing status' response' => exact hd
      | begun | loaded | claimed | releasing | ended => trivial

theorem Desk.change_cases {e : DeskAction} (h : s.change e = some t) : t = s ∨
    (∃ staleBefore, e = .sweep staleBefore ∧ s.row.stale staleBefore = true ∧
      t = { s with row := s.row.release }) ∨
    (∃ reason now, e = .endRun reason now ∧ s.row.status.terminal = false ∧
      t = s.settle (s.row.cancel reason now) ⟨none, .cancelled⟩) := by
  cases e with
  | sweep staleBefore =>
    simp only [Desk.change] at h
    cases h
    by_cases hstale : s.row.stale staleBefore = true
    · exact .inr (.inl ⟨staleBefore, rfl, hstale, by rw [if_pos hstale]⟩)
    · exact .inl (by rw [if_neg hstale])
  | endRun reason now =>
    simp only [Desk.change] at h
    split_ifs at h with hterminal
    · cases h
      exact .inl rfl
    · cases h
      exact .inr (.inr ⟨reason, now, rfl, by simpa using hterminal, rfl⟩)

theorem stale_open {staleBefore : Time} (h : row.stale staleBefore = true) :
    row.status = .resolving := by
  simp only [Interaction.stale, Bool.and_eq_true, beq_iff_eq] at h
  exact h.1

theorem Settled.change (hs : Settled s) {e : DeskAction} (h : s.change e = some t) :
    Settled t ∧ ∀ j (d : Phase), d.Settling s j → d.Settling t j := by
  obtain rfl | ⟨staleBefore, -, hstale, rfl⟩ | ⟨reason, now, -, hopen, rfl⟩ := Desk.change_cases h
  · exact ⟨hs, fun _ _ hd => hd⟩
  · have hopen : s.row.status.terminal = false := by
      rw [stale_open hstale]
      rfl
    exact ⟨hs.reopen hopen rfl, fun _ _ hd => hd⟩
  · exact ⟨hs.settle hopen rfl rfl, fun _ _ hd => hd.of_open hs hopen⟩

theorem office_settled : Pool.Keeps newCall Call.step Desk.change (fun _ _ => True)
    (fun s _ => Settled s) (fun s i c => c.phase.Settling s i) where
  spawn := fun p x _ hp => ⟨hp.shared, trivial⟩
  run := by
    intro p i c a s' c' _ hp hc hstep
    obtain ⟨hself, hphase, hothers⟩ :=
      (callStep_effect hstep).2.settled hp.shared (hp.threads i c hc)
    exact ⟨hself, hphase, fun j d hj hd => hothers j d.phase hj (hp.threads j d hd)⟩
  env := by
    intro p e s' _ hp hchange
    obtain ⟨hself, hothers⟩ := hp.shared.change hchange
    exact ⟨hself, fun j d hd => hothers j d.phase (hp.threads j d hd)⟩

theorem row_of_terminal {p q : Office} {a : OfficeAction} (h : p.step a = some q)
    (hterminal : p.shared.row.status.terminal = true) : q.shared.row = p.shared.row := by
  cases a with
  | spawn x =>
    cases h
    rfl
  | run i a =>
    obtain ⟨c, s', c', -, hstep, rfl⟩ := Pool.step_run h
    have heffect := (callStep_effect hstep).2
    generalize c'.phase = phase at heffect
    cases heffect with
    | load | stop | accept | refuse | fail | record => rfl
    | claim _ hpending =>
      rw [hpending] at hterminal
      cases hterminal
    | complete _ hheld | release _ hheld =>
      rw [heldBy_open hheld] at hterminal
      cases hterminal
  | env e =>
    obtain ⟨s', hchange, rfl⟩ := Option.map_eq_some_iff.1 h
    obtain rfl | ⟨_, -, hstale, rfl⟩ | ⟨_, _, -, hopen, rfl⟩ := Desk.change_cases hchange
    · rfl
    · rw [stale_open hstale] at hterminal
      cases hterminal
    · rw [hopen] at hterminal
      cases hterminal

def Desk.ClosedByRun (s : Desk) : Prop := ∃ x ∈ s.settlements, x.call = none

/-- A sweep releases a claim only after the call that has made it is over, and if the runtime has
not accepted its decision. -/
def Calm (p : Office) : OfficeAction → Prop
  | .env (.sweep staleBefore) => p.shared.row.stale staleBefore = true →
    ∀ i ∈ p.shared.row.claimToken, (∀ c ∈ p.threads[i]?, c.phase = .ended) ∧
      ∀ a ∈ p.shared.accepted, a.call ≠ i
  | .env (.endRun ..) | .spawn _ | .run .. => True

/-- The call has the claim, unless the run has ended. -/
def Desk.Holding (s : Desk) (i : Nat) : Prop := s.ClosedByRun ∨ s.row.heldBy i = true

def Desk.Unaccepted (s : Desk) (i : Nat) : Prop := ∀ a ∈ s.accepted, a.call ≠ i

structure Acceptance.Kept (s : Desk) (a : Acceptance) : Prop where
  terminal : a.due.terminal = true
  kept : s.ClosedByRun ∨ s.row.heldBy a.call = true ∨ s.row.status = a.due

structure Truthful (s : Desk) (n : Nat) : Prop where
  settled : Settled s
  below : ∀ a ∈ s.accepted, a.call < n
  kept : ∀ a ∈ s.accepted, a.Kept s

def Phase.Holding (s : Desk) (i : Nat) : Phase → Prop
  | .begun | .loaded => s.Unaccepted i
  | .claimed | .releasing => s.Unaccepted i ∧ s.Holding i
  | .completing status _ => (∀ a ∈ s.accepted, a.call = i → a.due = status) ∧ s.Holding i
  | .recording .. | .ended => True

theorem Settled.not_closedByRun (hs : Settled s) (hopen : s.row.status.terminal = false) :
    ¬s.ClosedByRun := by
  rintro ⟨x, hx, -⟩
  rw [hs.open hopen] at hx
  cases hx

theorem Truthful.held_of_open (h : Truthful s n) (hopen : s.row.status.terminal = false)
    {a : Acceptance} (ha : a ∈ s.accepted) : s.row.heldBy a.call = true := by
  obtain ⟨hterminal, hclosed | hheld | hdue⟩ := h.kept a ha
  · exact absurd hclosed (h.settled.not_closedByRun hopen)
  · exact hheld
  · rw [← hdue, hopen] at hterminal
    cases hterminal

theorem Phase.Holding.of_held (hs : Settled s) (hj : j ≠ i)
    (hheld : s.row.heldBy i = true) (haccepted : t.accepted = s.accepted)
    (h : phase.Holding s j) : phase.Holding t j := by
  have hnot : ¬s.Holding j := by
    rintro (hclosed | hheld')
    · exact hs.not_closedByRun (heldBy_open hheld) hclosed
    · exact hj (heldBy_unique hheld' hheld)
  cases phase with
  | begun | loaded =>
    intro a ha
    exact h a (haccepted ▸ ha)
  | claimed | releasing | completing => exact absurd h.2 hnot
  | recording | ended => trivial

theorem Truthful.pending (h : Truthful s n) (hpending : s.row.status = .pending) :
    s.accepted = [] ∧ ∀ j, ¬s.Holding j := by
  have hopen : s.row.status.terminal = false := by
    rw [hpending]
    rfl
  have hheld (j : Nat) : ¬s.row.heldBy j = true := by
    intro hheld
    have hresolving := (heldBy_iff.1 hheld).1
    rw [hpending] at hresolving
    cases hresolving
  constructor
  · exact List.eq_nil_iff_forall_not_mem.2 fun a ha => hheld _ (h.held_of_open hopen ha)
  · exact fun j hj => hj.elim (h.settled.not_closedByRun hopen) (hheld j)

theorem CallEffect.truthful {c : Call}
    (h : CallEffect i s c t phase) (hi : i < n) (hs : Truthful s n) (hsettled : Settled t)
    (hc : c.phase.Holding s i) :
    Truthful t n ∧ phase.Holding t i ∧
      ∀ j (d : Phase), j ≠ i → d.Holding s j → d.Holding t j := by
  cases h with
  | load hphase | fail hphase =>
    rw [hphase] at hc
    exact ⟨hs, hc, fun _ _ _ hd => hd⟩
  | stop => exact ⟨hs, trivial, fun _ _ _ hd => hd⟩
  | claim hphase hpending hnext =>
    obtain ⟨hnone, hfree⟩ := hs.pending hpending
    refine ⟨⟨hsettled, hs.below, ?_⟩, ?_, ?_⟩
    · intro a ha
      rw [show s.accepted = [] from hnone] at ha
      cases ha
    · rcases hnext with rfl | rfl
      · refine ⟨?_, .inr (heldBy_iff.2 ⟨rfl, rfl⟩)⟩
        intro a ha
        rw [show s.accepted = [] from hnone] at ha
        cases ha
      · trivial
    · intro j d _ hd
      cases d with
      | begun | loaded => exact hd
      | claimed | releasing | completing => exact absurd hd.2 (hfree j)
      | recording | ended => trivial
  | accept hphase =>
    rw [hphase] at hc
    obtain ⟨hnew, hholding⟩ := hc
    refine ⟨⟨hsettled, ?_, ?_⟩, ⟨?_, hholding⟩, ?_⟩
    · exact forall_mem_concat hs.below hi
    · exact forall_mem_concat (fun a ha => ⟨(hs.kept a ha).terminal, (hs.kept a ha).kept⟩)
        ⟨due_terminal _ _, hholding.imp_right .inl⟩
    · intro a ha hcall
      rcases mem_concat ha with ha | rfl
      · exact absurd hcall (hnew a ha)
      · rfl
    · intro j d hj hd
      have hothers : ∀ a ∈ (s.accept ⟨i, c.request.decision s.row.kind,
          c.request.due s.row.kind⟩).accepted, a.call = j → a ∈ s.accepted := by
        intro a ha hcall
        rcases mem_concat ha with ha | rfl
        · exact ha
        · exact absurd hcall.symm hj
      cases d with
      | begun | loaded => exact fun a ha hcall => hd a (hothers a ha hcall) hcall
      | claimed | releasing | completing =>
        exact ⟨fun a ha hcall => hd.1 a (hothers a ha hcall) hcall, hd.2⟩
      | recording | ended => trivial
  | refuse hphase =>
    rw [hphase] at hc
    exact ⟨hs, ⟨fun a ha hcall => absurd hcall (hc.1 a ha), hc.2⟩, fun _ _ _ hd => hd⟩
  | complete hphase hheld hnext =>
    rw [hphase] at hc
    refine ⟨⟨hsettled, hs.below, ?_⟩, ?_, fun j d hj hd => hd.of_held hs.settled hj hheld (by rfl)⟩
    · -- the accepted decision is the one of this call
      intro a ha
      have hcall := heldBy_unique (hs.held_of_open (heldBy_open hheld) ha) hheld
      exact ⟨(hs.kept a ha).terminal, .inr (.inr (hc.1 a ha hcall).symm)⟩
    · rcases hnext with rfl | rfl <;> trivial
  | release hphase hheld =>
    rw [hphase] at hc
    refine ⟨⟨hsettled, hs.below, ?_⟩, trivial, fun j d hj hd => hd.of_held hs.settled hj hheld (by rfl)⟩
    intro a ha
    have hcall := heldBy_unique (hs.held_of_open (heldBy_open hheld) ha) hheld
    exact absurd hcall (hc.1 a ha)
  | record =>
    exact ⟨⟨hsettled, hs.below, fun a ha => ⟨(hs.kept a ha).terminal, (hs.kept a ha).kept⟩⟩, trivial,
      fun _ _ _ hd => hd⟩

theorem office_truthful : Pool.Keeps newCall Call.step Desk.change Calm Truthful
    (fun s i c => c.phase.Settling s i ∧ c.phase.Holding s i) where
  spawn := by
    intro p x _ hp
    refine ⟨⟨hp.shared.settled, fun a ha => Nat.lt_succ_of_lt (hp.shared.below a ha),
      hp.shared.kept⟩, trivial, ?_⟩
    exact fun a ha hcall => absurd (hp.shared.below a ha) (hcall ▸ Nat.lt_irrefl _)
  run := by
    intro p i c a s' c' _ hp hc hstep
    have heffect := (callStep_effect hstep).2
    have hi : i < p.threads.length := (List.getElem?_eq_some_iff.1 hc).1
    obtain ⟨hsettling, hholding⟩ := hp.threads i c hc
    obtain ⟨hsettled, hphase, hothers⟩ := heffect.settled hp.shared.settled hsettling
    obtain ⟨htruthful, hphase', hothers'⟩ := heffect.truthful hi hp.shared hsettled hholding
    refine ⟨htruthful, ⟨hphase, hphase'⟩, fun j d hj hd => ?_⟩
    exact ⟨hothers j d.phase hj (hp.threads j d hd).1, hothers' j d.phase hj (hp.threads j d hd).2⟩
  env := by
    intro p e s' hcalm hp hchange
    obtain ⟨hsettled, hothers⟩ := hp.shared.settled.change hchange
    obtain rfl | ⟨staleBefore, rfl, hstale, rfl⟩ | ⟨reason, now, -, hopen, rfl⟩ :=
      Desk.change_cases hchange
    · exact ⟨hp.shared, hp.threads⟩
    · -- the claim is of a call that is over and has delivered nothing
      have hopen : p.shared.row.status.terminal = false := by
        rw [stale_open hstale]
        rfl
      have hnotHeld (j : Nat) (hheld : p.shared.row.heldBy j = true) :
          (∀ c ∈ p.threads[j]?, c.phase = .ended) ∧ ∀ a ∈ p.shared.accepted, a.call ≠ j :=
        hcalm hstale j (heldBy_iff.1 hheld).2
      refine ⟨⟨hsettled, hp.shared.below, ?_⟩, fun j d hd => ⟨hothers j d.phase (hp.threads j d hd).1, ?_⟩⟩
      · intro a ha
        exact absurd rfl ((hnotHeld _ (hp.shared.held_of_open hopen ha)).2 a ha)
      · have hholding := (hp.threads j d hd).2
        have hfree (hnot : d.phase ≠ .ended) : ¬p.shared.Holding j := by
          rintro (hclosed | hheld)
          · exact hp.shared.settled.not_closedByRun hopen hclosed
          · exact hnot ((hnotHeld j hheld).1 d hd)
        generalize d.phase = phase at hholding hfree
        cases phase with
        | begun | loaded => exact hholding
        | claimed | releasing | completing => exact absurd hholding.2 (hfree nofun)
        | recording | ended => trivial
    · have hclosed : (p.shared.settle (p.shared.row.cancel reason now) ⟨none, .cancelled⟩).ClosedByRun :=
        ⟨_, List.mem_concat_self, rfl⟩
      refine ⟨⟨hsettled, hp.shared.below, fun a ha => ⟨(hp.shared.kept a ha).terminal, .inl hclosed⟩⟩,
        fun j d hd => ⟨hothers j d.phase (hp.threads j d hd).1, ?_⟩⟩
      have hholding := (hp.threads j d hd).2
      generalize d.phase = phase at hholding
      cases phase with
      | begun | loaded => exact hholding
      | claimed | releasing | completing => exact ⟨hholding.1, .inl hclosed⟩
      | recording | ended => trivial

/-- A terminal status is written at most once and stays, with one event; and if sweeps are calm it
is the one of the accepted decision, unless the run has ended first. -/
theorem interaction_outcomes_true (row : Interaction) (hrow : row.status = .pending)
    (actions : List OfficeAction) (p : Office)
    (hrun : runTrace Office.step ⟨{ row := row }, []⟩ actions = some p) :
    p.shared.settlements.length ≤ 1 ∧
    (∀ before after u, actions = before ++ after →
      runTrace Office.step ⟨{ row := row }, []⟩ before = some u →
      u.shared.row.status.terminal = true → p.shared.row = u.shared.row) ∧
    p.shared.replied.length ≤ 1 ∧
    (StepsMeet Office.step Calm ⟨{ row := row }, []⟩ actions →
      p.shared.row.status.terminal = true → ¬p.shared.ClosedByRun →
      ∀ a ∈ p.shared.accepted, p.shared.row.status = a.due) := by
  have hstart : Settled { row := row } :=
    ⟨.inl ⟨rfl, by rw [hrow]; rfl⟩, fun _ => rfl, Nat.zero_le _⟩
  have hsettled := (office_settled.run_holds (stepsMeet_true _ actions) hrun
    ⟨hstart, fun i c hc => nomatch hc⟩).shared
  refine ⟨?_, ?_, hsettled.replied, ?_⟩
  · rcases hsettled.row with ⟨hnone, -⟩ | ⟨x, hone, -⟩
    · rw [hnone]
      exact Nat.zero_le _
    · rw [hone]
      exact Nat.le_refl _
  · intro before after u hsplit hbefore hterminal
    rw [hsplit] at hrun
    obtain ⟨v, hv, hafter⟩ := runTrace_append hrun
    cases hbefore.symm.trans hv
    refine runTrace_invariant (I := fun q => q.shared.row = u.shared.row) ?_
      (stepsMeet_true u after) hafter rfl
    intro q a q' _ hstep hq
    rw [row_of_terminal hstep (by rw [hq]; exact hterminal), hq]
  · intro hcalm hterminal hopen a ha
    have htruthful := (office_truthful.run_holds hcalm hrun
      ⟨⟨hstart, (fun a ha => nomatch ha), (fun a ha => nomatch ha)⟩,
        (fun i c hc => nomatch hc)⟩).shared
    rcases (htruthful.kept a ha).kept with hkept | hkept | hkept
    · exact absurd hkept hopen
    · rw [heldBy_open hkept] at hterminal
      cases hterminal
    · exact hkept

def permissionRow : Interaction where
  kind := .permission
  workspaceID := "w"
  expiresAt := ⟨100⟩

def answerBy (userID : String) (approved : Bool) : Request :=
  .resolve "w" true { userID := userID, source := "web", actorType := "user" }
    { approved := some approved }

instance : ∀ phase : Phase, Decidable (phase = .ended)
  | .ended => .isTrue rfl
  | .begun | .loaded | .claimed | .completing .. | .releasing | .recording .. => .isFalse nofun

instance : ∀ (p : Office) (a : OfficeAction), Decidable (Calm p a)
  | p, .env (.sweep staleBefore) => inferInstanceAs (Decidable
      (p.shared.row.stale staleBefore = true → ∀ i ∈ p.shared.row.claimToken,
        (∀ c ∈ p.threads[i]?, c.phase = .ended) ∧ ∀ a ∈ p.shared.accepted, a.call ≠ i))
  | _, .env (.endRun ..) | _, .spawn _ | _, .run .. => .isTrue trivial

def approvedAfterCrash : List OfficeAction :=
  [.spawn (answerBy "u" false), .run 0 (.load ⟨1⟩), .run 0 (.claim ⟨1⟩ .ok), .run 0 .crash,
    .env (.sweep ⟨61⟩), .spawn (answerBy "v" true), .run 1 (.load ⟨62⟩), .run 1 (.claim ⟨62⟩ .ok),
    .run 1 (.deliver .accepted), .run 1 (.complete ⟨63⟩ .ok), .run 1 (.record false)]

theorem interaction_outcomes_true_crash : ∃ p,
    runTrace Office.step ⟨{ row := permissionRow }, []⟩ approvedAfterCrash = some p ∧
    p.shared.accepted ≠ [] ∧ p.shared.replied.length = 1 ∧
    ∀ a ∈ p.shared.accepted, p.shared.row.status = a.due := by
  have hrun : (runTrace Office.step ⟨{ row := permissionRow }, []⟩ approvedAfterCrash).map (fun p =>
      p.shared.accepted != [] && p.shared.replied.length == 1 && p.shared.row.status.terminal &&
        p.shared.settlements.all (fun x => x.call != none)) = some true := by
    decide +kernel
  obtain ⟨p, hp, hcheck⟩ := exists_of_runTrace_map hrun
  simp only [Bool.and_eq_true, beq_iff_eq, bne_iff_ne, List.all_eq_true] at hcheck
  obtain ⟨⟨⟨haccepted, hreplied⟩, hterminal⟩, hcalls⟩ := hcheck
  have hcalm : StepsMeet Office.step Calm ⟨{ row := permissionRow }, []⟩ approvedAfterCrash :=
    stepsMeet_of_check (by decide +kernel)
  obtain ⟨-, -, -, hdue⟩ := interaction_outcomes_true permissionRow rfl approvedAfterCrash p hp
  exact ⟨p, hp, haccepted, hreplied, hdue hcalm hterminal
    (fun ⟨x, hx, hnone⟩ => hcalls x hx hnone)⟩

/-- The runtime has approved, and before that is recorded a sweep lets a second call in. -/
def approvedThenSwept : List OfficeAction :=
  [.spawn (answerBy "u" true), .run 0 (.load ⟨1⟩), .run 0 (.claim ⟨1⟩ .ok),
    .run 0 (.deliver .accepted), .env (.sweep ⟨61⟩), .spawn (answerBy "v" false),
    .run 1 (.load ⟨62⟩), .run 1 (.claim ⟨62⟩ .ok), .run 1 (.deliver .gone),
    .run 1 (.complete ⟨63⟩ .ok), .run 1 (.record false), .run 0 (.complete ⟨64⟩ .ok)]

theorem approved_recorded_cancelled : ∃ p,
    runTrace Office.step ⟨{ row := permissionRow }, []⟩ approvedThenSwept = some p ∧
    p.shared.row.status = .cancelled ∧ ¬p.shared.ClosedByRun ∧
    ∃ a ∈ p.shared.accepted, a.due = .approved := by
  have hrun : (runTrace Office.step ⟨{ row := permissionRow }, []⟩ approvedThenSwept).map (fun p =>
      p.shared.row.status == .cancelled && p.shared.settlements.all (fun x => x.call != none) &&
        p.shared.accepted.any (fun a => a.due == .approved)) = some true := by
    decide +kernel
  obtain ⟨p, hp, hcheck⟩ := exists_of_runTrace_map hrun
  simp only [Bool.and_eq_true, beq_iff_eq, bne_iff_ne, List.all_eq_true, List.any_eq_true] at hcheck
  obtain ⟨⟨hstatus, hcalls⟩, haccepted⟩ := hcheck
  exact ⟨p, hp, hstatus, fun ⟨x, hx, hnone⟩ => hcalls x hx hnone, haccepted⟩

end Parsar.Resolution
