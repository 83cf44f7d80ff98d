import Parsar.Gateway.Preparation
import Parsar.Dispatch.Sound

namespace Parsar.Dispatch

open Gateway

def PreparationPhase.observed : PreparationPhase → PreparationState
  | preparing => .preparing
  | ready => .ready
  | starting => .starting
  | started => .started
  | released => .released
  | expired => .expired
  | failed => .failed

def Status.observed (s : Status) : PreparationStatus := ⟨s.handle, s.revision, s.state.observed⟩

def Rejection.observed (_ : Rejection) : PreparationStatus := ⟨"", 0, .rejected⟩

namespace Preparation

variable {p : Preparation}

theorem Lawful.eq_of_revision (hp : p.Lawful) {s t : Status} (hs : s ∈ p.stored)
    (ht : t ∈ p.stored) (hrevision : s.revision = t.revision) : s = t := by
  by_contra hne
  have : Std.Symm fun a b : Status => a.revision ≠ b.revision := ⟨fun _ _ h => h.symm⟩
  have hpairwise : p.stored.Pairwise fun a b => a.revision ≠ b.revision :=
    hp.pairwise.imp fun hbefore => Nat.ne_of_lt hbefore.revision
  exact hpairwise.forall hs ht hne hrevision

theorem Lawful.handle (hp : p.Lawful) {s : Status} (hs : s ∈ p.stored) :
    s.handle = p.status.handle := by
  rcases hp.before_status hs with rfl | hbefore
  · rfl
  · exact hbefore.handle.symm

structure Succeeds (p p' : Preparation) : Prop where
  stored : p.stored <+: p'.stored
  status : p'.status = p.status ∨
    p'.status.handle = p.status.handle ∧ p.status.revision < p'.status.revision
  terminal : p.status.state.isTerminal → p'.status.state.isTerminal

theorem Moves.succeeds {p' : Preparation} (hm : p.Moves p') (hp : p.Lawful) : p.Succeeds p' where
  stored := hm.grows
  status := by
    rcases (hm.lawful hp).before_status (hm.grows.subset hp.status_mem) with heq | hbefore
    · exact .inl heq.symm
    · exact .inr ⟨hbefore.handle, hbefore.revision⟩
  terminal := by
    intro hterminal
    have hrank := hm.rank_le hp
    rw [PreparationPhase.rank_eq_four.mp hterminal] at hrank
    revert hrank
    cases p'.status.state <;> decide

end Preparation

namespace Router

variable {r r' : Router}

theorem moves_of_run {bs : List Label} (hrun : runTrace Router.step r bs = some r') {i : Nat}
    {p : Preparation} (hp : r.preparations[i]? = some p) :
    ∃ p', r'.preparations[i]? = some p' ∧ p.Moves p' := by
  refine runTrace_invariant (I := fun s => ∃ p', s.preparations[i]? = some p' ∧ p.Moves p') ?_
    (stepsMeet_true r bs) hrun ⟨p, hp, .refl p⟩
  intro s l t _ hs hinv
  obtain ⟨q, hq, hmoves⟩ := hinv
  obtain ⟨q', hq', hgoes⟩ := (Stepped.step hs).preparations.old i q hq
  exact ⟨q', hq', hmoves.trans (Preparation.goes_moves hgoes)⟩

theorem Sound.sent_eq (hr : r.Sound) {p q : Preparation} (hp : p ∈ r.preparations)
    (hq : q ∈ r.preparations) {s t : Status} (hs : .status s ∈ p.log) (ht : .status t ∈ q.log)
    (hhandle : s.handle = t.handle) (hrevision : s.revision = t.revision) : s = t := by
  have hplawful := (hr.each p hp).lawful
  have hqlawful := (hr.each q hq).lawful
  have hsmem := hplawful.log s hs
  have htmem := hqlawful.log t ht
  obtain ⟨i, hi⟩ := List.getElem?_of_mem hp
  obtain ⟨j, hj⟩ := List.getElem?_of_mem hq
  have hsame : p.status.handle = q.status.handle := by
    rw [← hplawful.handle hsmem, hhandle, hqlawful.handle htmem]
  have hij := hr.handles i j p q hi hj hsame
  subst hij
  rw [hi] at hj
  cases hj
  exact hplawful.eq_of_revision hsmem htmem hrevision

/-- A stored status changes to a newer revision only, along the states' order, and an end is final;
a subscriber gets the statuses of a handle by increasing revision, and nothing after the one that
closes it. -/
theorem preparation_status_discipline {as bs : List Label} (hreach : Reaches as r)
    (hrun : runTrace Router.step r bs = some r') :
    (∀ p ∈ r.preparations, ∀ q ∈ r.preparations, ∀ s t, .status s ∈ p.log → .status t ∈ q.log →
      s.handle = t.handle → s.revision = t.revision → s = t) ∧
    (∀ (i : Nat) (p : Preparation), r.preparations[i]? = some p →
      p.stored.head?.map (·.state) = some .preparing ∧ p.stored.getLast? = some p.status ∧
      p.stored.IsChain (fun s t => t.revision = s.revision + 1 ∧ s.state.leads t.state) ∧
      ∃ p', r'.preparations[i]? = some p' ∧ p.Succeeds p') ∧
    ∀ (id : SessionID) (cs : List PreparationLabel) (s : PreparationSession),
      PreparationSession.Reaches id cs s → ∀ sub ∈ s.subscriptions,
        (∀ t ∈ sub.statuses, t.handle = sub.handle) ∧
        sub.statuses.Pairwise (·.revision < ·.revision) ∧
        ∀ a t b, sub.delivered = a ++ t :: b → t.state.closes → b = [] := by
  have hsound := sound_of_reaches hreach
  refine ⟨fun p hp q hq s t hs ht => hsound.sent_eq hp hq hs ht, ?_, ?_⟩
  · intro i p hp
    have hlawful := (hsound.each p (List.mem_of_getElem? hp)).lawful
    obtain ⟨p', hp', hmoves⟩ := moves_of_run hrun hp
    refine ⟨by simp [hlawful.first, Preparation.announced], hlawful.last, ?_, p', hp',
      hmoves.succeeds hlawful⟩
    exact hlawful.chain.imp fun _ _ hlegal => ⟨hlegal.revision, hlegal.state⟩
  · intro id cs s hs sub hsub
    have hok := PreparationSession.ok_of_reaches hs sub hsub
    refine ⟨fun t ht => (hok.own t ht).1, hok.ordered, ?_⟩
    intro a t b hsplit hcloses
    by_contra hnonempty
    have hearlier : t ∈ sub.delivered.dropLast := by
      rw [hsplit, List.dropLast_append_cons, List.dropLast_cons_of_ne_nil hnonempty]
      simp
    have := hok.closing t hearlier
    simp [hcloses] at this

def readyTrace : List Label :=
  .executionPrepare "request" "handle" false true 100 ::
  List.replicate 4 (.preparation 0 (.preparer {}))

def releaseTrace : List Label :=
  [.executionRelease "request" "handle", .preparation 0 (.task 0 true),
    .preparation 0 (.closer 0 true), .preparation 0 (.closer 0 true),
    .preparation 0 (.task 0 true), .preparation 0 (.task 0 true)]

def envelope : Envelope := { type := .preparationStatus, id := "request" }

def overtakenTrace : List PreparationLabel :=
  [.subscribe "request", .dispatch envelope (some ⟨"handle", 2, .ready⟩),
    .dispatch envelope (some ⟨"handle", 1, .preparing⟩),
    .dispatch envelope (some ⟨"handle", 3, .released⟩)]

theorem preparation_status_discipline_released :
    ∃ r r' p p' s sub, Reaches readyTrace r ∧ runTrace Router.step r releaseTrace = some r' ∧
      r.preparations[0]? = some p ∧ p.status.state = .ready ∧ r'.preparations[0]? = some p' ∧
      p'.status.state = .released ∧ p.Succeeds p' ∧
      PreparationSession.Reaches 0 overtakenTrace s ∧ s.subscriptions[0]? = some sub ∧
      sub.delivered.map (·.revision) = [2, 3] ∧
      sub.statuses.Pairwise (·.revision < ·.revision) := by
  have hcheck : (runTrace Router.step {} readyTrace).any (fun r =>
      r.preparations[0]?.any (·.status.state = .ready) &&
      (runTrace Router.step r releaseTrace).any fun r' =>
        r'.preparations[0]?.any (·.status.state = .released)) = true := by
    decide +kernel
  have hgateway : (runTrace PreparationSession.step { id := 0 } overtakenTrace).any (fun s =>
      s.subscriptions[0]?.any fun sub => sub.delivered.map (·.revision) = [2, 3]) = true := by
    decide +kernel
  simp only [Option.any_eq_true, Bool.and_eq_true, decide_eq_true_eq] at hcheck hgateway
  obtain ⟨r, hreach, ⟨p, hp, hready⟩, r', hrun, q, hq, hreleased⟩ := hcheck
  obtain ⟨s, hs, sub, hsub, hrevisions⟩ := hgateway
  obtain ⟨-, hstored, hstreams⟩ := preparation_status_discipline hreach hrun
  obtain ⟨-, -, -, p', hp', hsucceeds⟩ := hstored 0 p hp
  rw [hq] at hp'
  cases hp'
  exact ⟨r, r', p, q, s, sub, hreach, hrun, hp, hready, hq, hreleased, hsucceeds, hs, hsub,
    hrevisions, (hstreams 0 _ s hs sub (List.mem_of_getElem? hsub)).2.1⟩

def rejectTrace : List Label :=
  [.executionPrepare "request" "handle" false true 100, .preparation 0 (.preparer {}),
    .reject "request" .executionStart .invalidStart, .sendRejection 0 true]

/-- The gateway delivers both of its frames, of which the second has no handle and revision zero. -/
theorem rejection_delivered_after_status :
    ∃ r p announced rejection s sub, Reaches rejectTrace r ∧ r.preparations[0]? = some p ∧
      p.log = [.status announced] ∧ p.requestID = "request" ∧ r.rejected = [rejection] ∧
      rejection.requestID = "request" ∧
      PreparationSession.Reaches 0 [.subscribe "request",
        .dispatch envelope (some announced.observed), .dispatch envelope (some rejection.observed)]
        s ∧
      s.subscriptions[0]? = some sub ∧ sub.delivered = [⟨"handle", 1, .preparing⟩, ⟨"", 0, .rejected⟩] ∧
      (¬ ∃ handle, ∀ t ∈ sub.delivered, t.handle = handle) ∧
      ¬ sub.delivered.Pairwise (·.revision < ·.revision) := by
  have hcheck : (runTrace Router.step {} rejectTrace).any (fun r =>
      (r.rejected = [⟨"request", .invalidStart, .executionStart⟩] : Bool) &&
      r.preparations[0]?.any fun p => p.log = [.status
        { handle := "handle", revision := 1, state := .preparing, expiresAt := 100 }] &&
        p.requestID = "request") = true := by
    decide +kernel
  have hgateway : (runTrace PreparationSession.step { id := 0 } [.subscribe "request",
      .dispatch envelope (some ⟨"handle", 1, .preparing⟩),
      .dispatch envelope (some ⟨"", 0, .rejected⟩)]).any (fun s => s.subscriptions[0]?.any fun sub =>
        sub.delivered = [⟨"handle", 1, .preparing⟩, ⟨"", 0, .rejected⟩]) = true := by
    decide +kernel
  simp only [Option.any_eq_true, Bool.and_eq_true, decide_eq_true_eq] at hcheck hgateway
  obtain ⟨r, hreach, hrejected, p, hp, hlog, hrequest⟩ := hcheck
  obtain ⟨s, hs, sub, hsub, hdelivered⟩ := hgateway
  refine ⟨r, p, _, _, s, sub, hreach, hp, hlog, hrequest, hrejected, rfl, hs, hsub, hdelivered,
    ?_, ?_⟩
  · rintro ⟨handle, hall⟩
    rw [hdelivered] at hall
    have hfirst := hall ⟨"handle", 1, .preparing⟩ (by simp)
    have hsecond := hall ⟨"", 0, .rejected⟩ (by simp)
    simp only at hfirst hsecond
    rw [← hsecond] at hfirst
    exact absurd hfirst (by decide)
  · simp [hdelivered]

end Router

end Parsar.Dispatch
