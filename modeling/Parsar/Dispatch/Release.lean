import Parsar.Dispatch.Status

namespace Parsar.Dispatch

namespace Attempt

@[simp] def unrecorded (a : Attempt) : Bool :=
  match a.phase with
  | .waiting | .locking | .cancelling | .cancelled _ => true
  | _ => false

def hasFailed (a : Attempt) : Bool := a.phase = .over && a.err

@[simp] def hasCancelled (a : Attempt) : Bool :=
  match a.phase with
  | .waiting | .locking | .cancelling | .cancelled true => false
  | .over => !a.err
  | _ => true

@[simp] def hasJoined (a : Attempt) : Bool :=
  match a.phase with
  | .collecting | .reportingError _ _ | .reportingDone _ | .cleaning _ | .settling _ => true
  | .over => !a.err
  | _ => false

theorem hasCancelled_of_hasJoined {a : Attempt} (ha : a.hasJoined) : a.hasCancelled := by
  revert ha
  cases hphase : a.phase <;> simp [hasJoined, hasCancelled, hphase]

@[simp] def hasLocked (a : Attempt) : Bool :=
  match a.phase with
  | .waiting | .locking => false
  | _ => true

structure Ok (a : Attempt) (succeeded : Bool) (settledCloses : Nat) : Prop where
  unrecorded : a.unrecorded → a.doneCloses = 0 ∧ a.err = false ∧ succeeded = false
  recorded : a.unrecorded = false → a.doneCloses = 1 ∧ succeeded = !a.err
  failed : a.err → a.phase = .over
  settled : settledCloses = if a.phase = .over ∧ a.err = false then 1 else 0

theorem Ok.of_phase {a : Attempt} {phase : AttemptPhase} {succeeded : Bool}
    {settledCloses : Nat} (hok : a.Ok succeeded settledCloses)
    (hrecorded : Attempt.unrecorded { a with phase := phase } = a.unrecorded)
    (hbefore : a.phase ≠ .over) (hafter : phase ≠ .over) :
    Ok { a with phase := phase } succeeded settledCloses where
  unrecorded := by
    rw [hrecorded]
    exact hok.unrecorded
  recorded := by
    rw [hrecorded]
    exact hok.recorded
  failed := fun herr => absurd (hok.failed herr) hbefore
  settled := by
    rw [hok.settled]
    simp [hbefore, hafter]

end Attempt

structure Release.Ok (r : Release) (earlier : List Attempt) (current : Attempt) : Prop where
  attempts : r.attempts = earlier ++ [current]
  failed : ∀ a ∈ earlier, a.hasFailed ∧ a.doneCloses = 1
  retried : ∀ a ∈ r.attempts.tail, a.retry
  current : current.Ok r.succeeded r.settledCloses

/-- The start holds `operations` until its status is out. -/
@[simp] def StartPhase.reads : StartPhase → Bool
  | closingOut _ started _ | sendingStatus _ started _ | publishing started _ _ => started
  | unlocking => true
  | _ => false

/-- Its release is one chain of attempts, admission is closed with it, and the session stays until
the last attempt has seen everything stop. -/
structure Handoff.ReleaseOk (h : Handoff) : Prop where
  chain : ∀ r, h.release = some r → ∃ earlier current, r.Ok earlier current ∧
    (current.phase = .locking → h.startDone ∨ r.aborted) ∧
    (current.hasJoined → h.start = .over ∧ h.pump = .over) ∧
    (h.registered = false → current.hasJoined)
  locked : ∀ r, h.release = some r → (∃ a ∈ r.attempts, a.hasLocked) →
    h.startReads = false ∧ (r.aborted ∨ h.start = .over)
  closes : h.release.isSome → h.session = false ∧ h.steeringClosed = true
  unreleased : h.release = none → h.registered = true
  started : h.startDone ↔ h.start = .unlocking ∨ h.start = .over
  reads : h.start.reads → h.startReads

def Handoff.Keeps (h h' : Handoff) : Prop :=
  ∀ r, h.release = some r → ∃ r', h'.release = some r' ∧
    ∀ (i : Nat) (a : Attempt), r.attempts[i]? = some a → ∃ a', r'.attempts[i]? = some a' ∧
      (a.hasCancelled → a'.hasCancelled)

namespace Release

variable {r : Release} {earlier : List Attempt} {current : Attempt}

theorem ok_first (failure : String) (abort retry : Bool) :
    Ok { failure := failure, aborted := abort, attempts := [{ retry := retry }] } []
      { retry := retry } where
  attempts := rfl
  failed := by simp
  retried := by simp
  current := ⟨by simp, by simp, by simp, by simp⟩

variable (hr : r.Ok earlier current)

include hr

theorem Ok.getLast : r.attempts.getLast? = some current := by
  rw [hr.attempts]
  simp

theorem Ok.abort (aborted : Bool) : Ok { r with aborted := aborted } earlier current :=
  { hr with }

theorem Ok.of_needsAttempt {retry : Bool} (hneeds : r.needsAttempt retry = true) :
    current.hasFailed ∧ current.doneCloses = 1 ∧ retry ∧ r.succeeded = false ∧
      r.settledCloses = 0 := by
  unfold Release.needsAttempt at hneeds
  rw [hr.getLast] at hneeds
  split at hneeds
  · cases hneeds
  · rename_i hsucceeded
    simp only [Bool.and_eq_true] at hneeds
    obtain ⟨⟨hdone, herr⟩, hretry⟩ := hneeds
    have hover := hr.current.failed herr
    have hrecorded : current.unrecorded = false := by simp [hover]
    refine ⟨by simp [Attempt.hasFailed, hover, herr], (hr.current.recorded hrecorded).1, hretry,
      by simpa using hsucceeded, ?_⟩
    rw [hr.current.settled]
    simp [herr]

theorem Ok.add {retry : Bool} (hneeds : r.needsAttempt retry = true) :
    Ok { r with attempts := r.attempts ++ [{ retry := retry }] } (earlier ++ [current])
      { retry := retry } := by
  obtain ⟨hfailed, hcloses, hretry, hsucceeded, hsettled⟩ := hr.of_needsAttempt hneeds
  refine ⟨by simp [hr.attempts], ?_, ?_, ?_⟩
  · exact forall_mem_concat hr.failed ⟨hfailed, hcloses⟩
  · intro a ha
    have htail : (r.attempts ++ [({ retry := retry } : Attempt)]).tail =
        r.attempts.tail ++ [{ retry := retry }] := by
      rw [hr.attempts]
      cases earlier <;> simp
    rw [htail] at ha
    rcases mem_concat ha with hold | rfl
    · exact hr.retried a hold
    · exact hretry
  · exact ⟨fun _ => ⟨rfl, rfl, hsucceeded⟩, by simp, by simp, by simp [hsettled]⟩

theorem Ok.is_current {i : Nat} {a : Attempt} (ha : r.attempts[i]? = some a)
    (hphase : a.phase ≠ .over) : i = earlier.length ∧ a = current := by
  rw [hr.attempts] at ha
  rcases Nat.lt_trichotomy i earlier.length with hlt | heq | hgt
  · rw [List.getElem?_append_left hlt] at ha
    have hfailed := (hr.failed a (List.mem_of_getElem? ha)).1
    simp only [Attempt.hasFailed, Bool.and_eq_true, decide_eq_true_eq] at hfailed
    exact absurd hfailed.1 hphase
  · subst heq
    simp only [List.getElem?_concat_length, Option.some.injEq] at ha
    exact ⟨rfl, ha.symm⟩
  · rw [List.getElem?_eq_none (by simp; omega)] at ha
    cases ha

theorem Ok.set {a : Attempt} {succeeded : Bool} {settledCloses : Nat}
    (hretry : a.retry = current.retry) (ha : a.Ok succeeded settledCloses) :
    Ok { r with
      attempts := r.attempts.set earlier.length a
      succeeded := succeeded
      settledCloses := settledCloses } earlier a := by
  refine ⟨by simp [hr.attempts], hr.failed, ?_, ha⟩
  have hretried := hr.retried
  rw [hr.attempts] at hretried
  simp only [hr.attempts, List.set_append_right earlier.length a (Nat.le_refl _), Nat.sub_self,
    List.set_cons_zero]
  cases earlier with
  | nil => simp
  | cons first rest =>
    simp only [List.cons_append, List.tail_cons, List.mem_append, List.mem_singleton] at hretried ⊢
    intro b hb
    rcases hb with hold | rfl
    · exact hretried b (.inl hold)
    · rw [hretry]
      exact hretried current (.inr rfl)

end Release

namespace Handoff

variable {h h' h'' : Handoff}

theorem Keeps.of_release (hr : h'.release = h.release) : h.Keeps h' :=
  fun r hrel => ⟨r, hr.trans hrel, fun _ a ha => ⟨a, ha, id⟩⟩

theorem Keeps.trans (h₁ : h.Keeps h') (h₂ : h'.Keeps h'') : h.Keeps h'' := by
  intro r hr
  obtain ⟨r', hr', hattempts'⟩ := h₁ r hr
  obtain ⟨r'', hr'', hattempts''⟩ := h₂ r' hr'
  refine ⟨r'', hr'', ?_⟩
  intro i a ha
  obtain ⟨a', ha', hkeep'⟩ := hattempts' i a ha
  obtain ⟨a'', ha'', hkeep''⟩ := hattempts'' i a' ha'
  exact ⟨a'', ha'', hkeep'' ∘ hkeep'⟩

structure Follows (h h' : Handoff) : Prop where
  ok : h.ReleaseOk → h'.ReleaseOk
  keeps : h.ReleaseOk → h.Keeps h'
  leaves : h'.registered → h.registered
  stops : h.pump = .over → h'.pump = .over

theorem Follows.refl (h : Handoff) : h.Follows h := ⟨id, fun _ => .of_release rfl, id, id⟩

theorem Follows.trans (h₁ : h.Follows h') (h₂ : h'.Follows h'') : h.Follows h'' :=
  ⟨h₂.ok ∘ h₁.ok, fun hok => (h₁.keeps hok).trans (h₂.keeps (h₁.ok hok)), h₁.leaves ∘ h₂.leaves,
    h₂.stops ∘ h₁.stops⟩

theorem Follows.of_threads (hrelease : h'.release = h.release)
    (hregistered : h'.registered = h.registered) (hsteering : h'.steeringClosed = h.steeringClosed)
    (hsession : h.release.isSome → h'.session = h.session)
    (hpump : h.pump = .over → h'.pump = .over) (hover : h.start = .over → h'.start = .over)
    (hdone : h.startDone → h'.startDone)
    (hlocked : ∀ r, h.release = some r → h.startReads = false → r.aborted ∨ h.start = .over →
      h'.startReads = false)
    (hstarted : h.ReleaseOk → (h'.startDone ↔ h'.start = .unlocking ∨ h'.start = .over))
    (hreads : h.ReleaseOk → h'.start.reads → h'.startReads) : h.Follows h' := by
  refine ⟨fun hok => ⟨?_, ?_, ?_, ?_, hstarted hok, hreads hok⟩, fun _ => .of_release hrelease,
    hregistered ▸ id, hpump⟩
  · intro r hr
    obtain ⟨earlier, current, hchain, hlocking, hjoined, hleft⟩ := hok.chain r (hrelease ▸ hr)
    refine ⟨earlier, current, hchain, fun hphase => (hlocking hphase).imp_left hdone, ?_,
      hregistered ▸ hleft⟩
    intro hj
    exact ⟨hover (hjoined hj).1, hpump (hjoined hj).2⟩
  · intro r hr hl
    rw [hrelease] at hr
    obtain ⟨hr0, haborted⟩ := hok.locked r hr hl
    exact ⟨hlocked r hr hr0 haborted, haborted.imp_right hover⟩
  · intro hsome
    rw [hrelease] at hsome
    rw [hsession hsome, hsteering]
    exact hok.closes hsome
  · rw [hrelease, hregistered]
    exact hok.unreleased

theorem Follows.of_frame (hframe : h'.frame = h.frame) (hpump : h.pump = .over → h'.pump = .over)
    (hover : h.start = .over → h'.start = .over)
    (hstarted : h.ReleaseOk → (h.startDone ↔ h'.start = .unlocking ∨ h'.start = .over))
    (hreads : h'.start.reads → h.start.reads) : h.Follows h' := by
  simp only [frame, Prod.mk.injEq] at hframe
  obtain ⟨hrelease, hstartDone, hstartReads, hregistered, hsession, hsteering⟩ := hframe
  refine .of_threads hrelease hregistered hsteering (fun _ => hsession) hpump hover ?_ ?_ ?_ ?_
  · rw [hstartDone]
    exact id
  · rw [hstartReads]
    exact fun _ _ hreads _ => hreads
  · rw [hstartDone]
    exact hstarted
  · rw [hstartReads]
    exact fun hok hr => hok.reads (hreads hr)

theorem Follows.of_same (hframe : h'.frame = h.frame) (hstart : h'.start = h.start)
    (hpump : h.pump = .over → h'.pump = .over) : h.Follows h' := by
  refine .of_frame hframe hpump ?_ ?_ ?_ <;> rw [hstart]
  · exact id
  · exact fun hok => hok.started
  · exact id

theorem Follows.of_start (hbefore : h.start ≠ .unlocking ∧ h.start ≠ .over)
    (hafter : h'.start ≠ .unlocking ∧ h'.start ≠ .over)
    (hreads : h'.start.reads → h.start.reads) (hframe : h'.frame = h.frame)
    (hpump : h'.pump = h.pump) : h.Follows h' := by
  refine .of_frame hframe (fun hover => hpump.trans hover) ?_ ?_ hreads
  · exact fun hover => absurd hover hbefore.2
  · intro hok
    have hnot : h.startDone = false := by simpa [hbefore] using hok.started
    rw [hnot]
    simpa using hafter

theorem ReleaseOk.opening (s : Status) : ReleaseOk { start := .opening s } := by
  refine ⟨?_, ?_, ?_, ?_, ?_, ?_⟩ <;> simp

theorem claim_first (hrelease : h.release = none) (abort : Bool) (failure : String) (retry : Bool) :
    (h.claim abort failure retry).1 = { h with
      session := false
      steeringClosed := true
      release := some { failure := failure, aborted := abort, attempts := [{ retry := retry }] } } := by
  simp [Handoff.claim, Handoff.claimed, hrelease, Release.needsAttempt]

theorem claim_again {r : Release} (hrelease : h.release = some r) (abort : Bool) (failure : String)
    (retry : Bool) :
    (h.claim abort failure retry).1 = { h with release := some { r with
      aborted := r.aborted || abort
      attempts := if r.needsAttempt retry then r.attempts ++ [{ retry := retry }]
        else r.attempts } } := by
  have hneeds : Release.needsAttempt { r with aborted := r.aborted || abort } retry =
      r.needsAttempt retry := rfl
  simp only [Handoff.claim, Handoff.claimed, hrelease, hneeds]
  split <;> rfl

theorem Follows.claim (h : Handoff) (abort : Bool) (failure : String) (retry : Bool) :
    h.Follows (h.claim abort failure retry).1 := by
  cases hrelease : h.release with
  | none =>
    rw [claim_first hrelease]
    refine ⟨fun hok => ⟨?_, ?_, ?_, ?_, hok.started, hok.reads⟩, ?_, id, id⟩
    · intro r hr
      cases hr
      have hregistered := hok.unreleased hrelease
      exact ⟨[], _, Release.ok_first failure abort retry, by simp, by simp,
        by simp [hregistered]⟩
    · intro r hr hlocked
      cases hr
      simp at hlocked
    · exact fun _ => ⟨rfl, rfl⟩
    · intro hnone
      cases hnone
    · intro _ r hr
      rw [hrelease] at hr
      cases hr
  | some r =>
    rw [claim_again hrelease]
    refine ⟨fun hok => ⟨?_, ?_, fun _ => hok.closes (by simp [hrelease]), ?_, hok.started,
      hok.reads⟩, ?_, id, id⟩
    · intro r' hr'
      cases hr'
      obtain ⟨earlier, current, hchain, hlocking, hjoined, hleft⟩ := hok.chain r hrelease
      cases hneeds : r.needsAttempt retry with
      | false =>
        refine ⟨earlier, current, hchain.abort _, ?_, hjoined, hleft⟩
        intro hphase
        simp only [Bool.or_eq_true]
        exact (hlocking hphase).imp_right .inl
      | true =>
        have hfailed := (hchain.of_needsAttempt hneeds).1
        have hnot : current.hasJoined = false := by
          simp only [Attempt.hasFailed, Bool.and_eq_true, decide_eq_true_eq] at hfailed
          simp [hfailed]
        refine ⟨earlier ++ [current], _, (hchain.add hneeds).abort _, by simp,
          by simp, ?_⟩
        intro hregistered
        exact absurd (hleft hregistered) (Bool.eq_false_iff.mp hnot)
    · intro r' hr' hlocked
      cases hr'
      obtain ⟨a, ha, halocked⟩ := hlocked
      have hold : a ∈ r.attempts := by
        simp only at ha
        split at ha
        · rcases mem_concat ha with hold | rfl
          · exact hold
          · simp at halocked
        · exact ha
      obtain ⟨hreads, haborted⟩ := hok.locked r hrelease ⟨a, hold, halocked⟩
      refine ⟨hreads, haborted.imp_left ?_⟩
      intro hab
      simp [hab]
    · intro hnone
      cases hnone
    · intro _ r' hr'
      rw [hrelease] at hr'
      cases hr'
      refine ⟨_, rfl, ?_⟩
      intro i a ha
      refine ⟨a, ?_, id⟩
      simp only
      split
      · rw [List.getElem?_append_left (List.getElem?_eq_some_iff.mp ha).1]
        exact ha
      · exact ha

def threads (h : Handoff) : StartPhase × Bool × Bool × PumpPhase × Bool × Bool :=
  (h.start, h.startDone, h.startReads, h.pump, h.session, h.steeringClosed)

theorem Follows.of_attempt {r : Release} (hrelease : h.release = some r) {i : Nat} {a b : Attempt}
    (ha : r.attempts[i]? = some a) (hphase : a.phase ≠ .over) {succeeded : Bool}
    {settledCloses : Nat}
    (hrelease' : h'.release = some { r with
      attempts := r.attempts.set i b
      succeeded := succeeded
      settledCloses := settledCloses })
    (hretry : b.retry = a.retry)
    (hok : a.Ok r.succeeded r.settledCloses → b.Ok succeeded settledCloses ∧
      (a.hasCancelled → b.hasCancelled) ∧ (a.hasJoined → b.hasJoined))
    (hlocks : b.hasLocked → a.hasLocked ∨ h.startReads = false ∧ a.phase = .locking)
    (hwaits : b.phase = .locking → h.startDone ∨ r.aborted)
    (hjoins : b.hasJoined → a.hasJoined ∨ h.startDone ∧ h.pump = .over ∧ a.hasLocked)
    (hregistered : h'.registered = false → b.hasJoined ∨ h.registered = false)
    (hleaves : h'.registered → h.registered) (hthreads : h'.threads = h.threads) :
    h.Follows h' := by
  simp only [threads, Prod.mk.injEq] at hthreads
  obtain ⟨hstart, hstartDone, hstartReads, hpump, hsession, hsteering⟩ := hthreads
  refine ⟨fun hinv => ?_, fun hinv => ?_, hleaves, fun hover => hpump.trans hover⟩
  · obtain ⟨earlier, current, hchain, hlocking, hjoined, hleft⟩ := hinv.chain r hrelease
    obtain ⟨rfl, rfl⟩ := hchain.is_current ha hphase
    obtain ⟨hb, hcancels, hstays⟩ := hok hchain.current
    have hlockedOf : a.hasLocked → h.startReads = false ∧ (r.aborted ∨ h.start = .over) :=
      fun hl => hinv.locked r hrelease ⟨a, List.mem_of_getElem? ha, hl⟩
    refine ⟨?_, ?_, ?_, ?_, ?_, ?_⟩
    · intro r' hr'
      rw [hrelease'] at hr'
      cases hr'
      refine ⟨earlier, b, hchain.set hretry hb, ?_, ?_,
        fun hnot => (hregistered hnot).elim id fun hgone => hstays (hleft hgone)⟩
      · rw [hstartDone]
        exact hwaits
      · intro hj
        rw [hstart, hpump]
        rcases hjoins hj with hold | ⟨hdone, hover, hl⟩
        · exact hjoined hold
        · -- the start has let go of `operations`, so it is over
          refine ⟨(hinv.started.mp hdone).resolve_left ?_, hover⟩
          intro hunlocking
          have := hinv.reads (by simp [hunlocking])
          simp [(hlockedOf hl).1] at this
    · intro r' hr' hlocked
      rw [hrelease'] at hr'
      cases hr'
      rw [hstartReads, hstart]
      obtain ⟨c, hc, hcl⟩ := hlocked
      rcases List.mem_or_eq_of_mem_set hc with hold | rfl
      · exact hinv.locked r hrelease ⟨c, hold, hcl⟩
      · rcases hlocks hcl with hold | ⟨hreads, hphase'⟩
        · exact hlockedOf hold
        · refine ⟨hreads, ?_⟩
          rcases hlocking hphase' with hdone | haborted
          · refine .inr ((hinv.started.mp hdone).resolve_left ?_)
            intro hunlocking
            have := hinv.reads (by simp [hunlocking])
            simp [hreads] at this
          · exact .inl haborted
    · rw [hsession, hsteering]
      exact fun _ => hinv.closes (by simp [hrelease])
    · intro hnone
      rw [hrelease'] at hnone
      cases hnone
    · rw [hstartDone, hstart]
      exact hinv.started
    · rw [hstart, hstartReads]
      exact hinv.reads
  · intro r' hr'
    rw [hrelease] at hr'
    cases hr'
    obtain ⟨earlier, current, hchain, -, -, -⟩ := hinv.chain r hrelease
    obtain ⟨rfl, rfl⟩ := hchain.is_current ha hphase
    refine ⟨_, hrelease', ?_⟩
    intro j c hc
    by_cases hij : earlier.length = j
    · subst hij
      rw [ha] at hc
      cases hc
      exact ⟨b, by simp [(List.getElem?_eq_some_iff.mp ha).1], (hok hchain.current).2.1⟩
    · exact ⟨c, by simp [hij, hc], id⟩

theorem Follows.closeStartDone {started session delivered : Bool}
    (hstart : h.start = .publishing started session delivered) :
    h.Follows { h with startDone := true, start := if started then .unlocking else .over } := by
  refine .of_threads rfl rfl rfl (fun _ => rfl) id ?_ (fun _ => rfl) (fun _ _ hreads _ => hreads)
    ?_ ?_
  · simp [hstart]
  · cases started <;> simp
  · intro hok hreads
    cases started with
    | true => exact hok.reads (by simp [hstart])
    | false => simp at hreads

theorem Follows.transferred (session : Bool) :
    h.Follows { h with
      published := true
      session := if h.release.isNone then session else h.session } := by
  refine .of_threads rfl rfl rfl ?_ id id id (fun _ _ hreads _ => hreads) (·.started) (·.reads)
  intro hsome
  simp [Option.isSome_iff_ne_none.mp hsome]

theorem Follows.of_pump (hpump : h.pump ≠ .over) (hframe : h'.frame = h.frame)
    (hstart : h'.start = h.start) : h.Follows h' :=
  .of_same hframe hstart fun hover => absurd hover hpump

theorem Follows.of_phase {r : Release} (hr : h.release = some r) {i : Nat} {a : Attempt}
    (ha : r.attempts[i]? = some a) {phase : AttemptPhase} {g : Handoff}
    (hg : h' = g.setAttempt r i { a with phase := phase }) (hbefore : a.phase ≠ .over)
    (hafter : phase ≠ .over)
    (hrecorded : Attempt.unrecorded { a with phase := phase } = a.unrecorded)
    (hcancels : a.hasCancelled → Attempt.hasCancelled { a with phase := phase })
    (hstays : a.hasJoined → Attempt.hasJoined { a with phase := phase })
    (hlocks : Attempt.hasLocked { a with phase := phase } →
      a.hasLocked ∨ h.startReads = false ∧ a.phase = .locking)
    (hwaits : phase = .locking → h.startDone ∨ r.aborted)
    (hjoins : Attempt.hasJoined { a with phase := phase } →
      a.hasJoined ∨ h.startDone ∧ h.pump = .over ∧ a.hasLocked)
    (hregistered : g.registered = false →
      Attempt.hasJoined { a with phase := phase } ∨ h.registered = false)
    (hleaves : g.registered → h.registered) (hthreads : g.threads = h.threads) :
    h.Follows h' := by
  subst hg
  exact .of_attempt hr ha hbefore rfl rfl
    (fun hok => ⟨hok.of_phase hrecorded hbefore hafter, hcancels, hstays⟩) hlocks hwaits hjoins
    hregistered hleaves hthreads

end Handoff

namespace Preparation

def startable (p : Preparation) : Bool := p.status.state = .ready && !p.workspaceReadOnly

structure Follows (p p' : Preparation) : Prop where
  old : ∀ h, p.handoff = some h → ∃ h', p'.handoff = some h' ∧ h.Follows h'
  new : p.handoff = none → ∀ h', p'.handoff = some h' → h'.ReleaseOk ∧ p.startable

variable {p p' p'' : Preparation} {h h' : Handoff}

theorem Follows.of_same (hsame : p'.handoff = p.handoff) : p.Follows p' where
  old := fun h hh => ⟨h, hsame.trans hh, .refl h⟩
  new := by
    intro hnone h' hh'
    rw [hsame, hnone] at hh'
    cases hh'

theorem Follows.of_none (hnone : p.handoff = none) (hstartable : p.startable)
    (hh' : p'.handoff = some h') (hok : h'.ReleaseOk) : p.Follows p' where
  old := by simp [hnone]
  new := by
    intro _ g hg
    rw [hh'] at hg
    cases hg
    exact ⟨hok, hstartable⟩

theorem Follows.of_handoff (hh : p.handoff = some h) (hh' : p'.handoff = some h')
    (hf : h.Follows h') : p.Follows p' where
  old := by
    intro g hg
    rw [hh] at hg
    cases hg
    exact ⟨h', hh', hf⟩
  new := by
    intro hnone
    rw [hh] at hnone
    cases hnone

@[simp] theorem store_handoff (s : Status) : (p.store s).handoff = p.handoff := rfl

theorem Follows.claim (hh : p.handoff = some h) {abort : Bool} {failure : String} {retry : Bool}
    (hp : p'.handoff = some (h'.claim abort failure retry).1) (hf : h.Follows h') : p.Follows p' :=
  .of_handoff hh hp (hf.trans (.claim h' abort failure retry))

theorem Follows.releaseActive (hh : p.handoff = some h) (s : PreparationPhase)
    (c : PreparationError) (publishes retry : Bool) :
    p.Follows (p.releaseActive h s c publishes retry) := by
  unfold Preparation.releaseActive
  split
  · exact .of_same rfl
  · simp only
    split
    · exact .claim hh rfl (.refl h)
    · exact .claim hh rfl (.refl h)

theorem Follows.releasePreparation (closed : Bool) (s : PreparationPhase) (c : PreparationError)
    (publishes retry : Bool) : p.Follows (p.releasePreparation closed s c publishes retry) := by
  unfold Preparation.releasePreparation
  split
  · exact .of_same rfl
  · split
    · rename_i h hh
      exact .releaseActive (activeHandoff_eq hh).1 s c publishes retry
    · exact .of_same (by simp)

theorem Follows.congr (hf : p.Follows p') {q q' : Preparation} (hq : q.handoff = p.handoff)
    (hq' : q'.handoff = p'.handoff) (hkept : q.handoff = none → q.startable = p.startable) :
    q.Follows q' where
  old := by
    rw [hq, hq']
    exact hf.old
  new := by
    intro hnone
    rw [hkept hnone, hq']
    exact hf.new (hq.symm.trans hnone)

variable {closed err failed ok session : Bool}

theorem Follows.stepTask {i : Nat} (hs : p.stepTask closed i ok = some p') : p.Follows p' := by
  unfold Preparation.stepTask at hs
  split at hs
  · cases hs
    exact (Follows.releasePreparation closed _ _ _ _).congr (p := p.dropTask i) rfl rfl fun _ => rfl
  · cases hs
    exact (Follows.releasePreparation closed _ _ _ _).congr (p := p.dropTask i) rfl rfl fun _ => rfl
  · split at hs <;> cases hs <;> exact .of_same rfl
  · split at hs <;> cases hs <;> exact .of_same rfl
  · cases hs
    exact (Follows.releasePreparation closed _ _ _ _).congr (p := p.dropTask i) rfl rfl fun _ => rfl
  · cases hs

theorem Follows.stepPreparer {a : Answer} (hs : p.stepPreparer closed a = some p') :
    p.Follows p' := by
  unfold Preparation.stepPreparer at hs
  split at hs <;> cases hs
  · exact .of_same rfl
  · exact (Follows.releasePreparation closed _ _ _ _).congr rfl rfl fun _ => rfl
  · exact .of_same rfl
  · refine .of_same ?_
    unfold decidePrepared
    simp only
    split <;> simp
  · exact .of_same rfl
  · exact .of_same (by simp)
  · exact .of_same rfl
  · exact .of_same rfl
  · exact (Follows.releasePreparation closed _ _ _ _).congr rfl rfl fun _ => rfl

theorem Follows.undeliveredStart (hh : p.handoff = some h) (hstart : h.start = .startingFailed) :
    p.Follows (p.undeliveredStart h) := by
  refine .claim hh rfl (.of_start ?_ ?_ ?_ rfl rfl)
  · simp [hstart]
  · simp
  · simp

theorem Follows.startedSession (hh : p.handoff = some h)
    (hstart : h.start = .returned session err) (hnot : h.aborted = false) :
    p.Follows (p.startedSession h) := by
  refine .of_handoff hh rfl (.of_threads rfl rfl rfl (fun _ => rfl) id ?_ id ?_ ?_ ?_)
  · simp [hstart]
  · intro r hr _ haborted
    simp only [Handoff.aborted, hr, Option.any_some] at hnot
    simp [hnot, hstart] at haborted
  · intro hok
    have hbefore : h.startDone = false := by simpa [hstart] using hok.started
    simp [hbefore]
  · simp

theorem Follows.failedStart (hh : p.handoff = some h)
    (hstart : h.start = .returned session err) (session' : Bool) :
    p.Follows (p.failedStart h session') := by
  refine .claim hh rfl (.of_start ?_ ?_ ?_ rfl rfl)
  · simp [hstart]
  · cases session' <;> simp
  · cases session' <;> simp

theorem Follows.returnedStart (hh : p.handoff = some h) (hstart : h.start = .returned session err) :
    p.Follows (p.returnedStart h session err) := by
  unfold Preparation.returnedStart
  split
  · rename_i hwanted
    refine .startedSession hh hstart ?_
    simpa using hwanted.2.2.2.2
  · exact .failedStart hh hstart session

theorem Follows.settleStart (hh : p.handoff = some h) (started session delivered : Bool) :
    p.Follows (p.settleStart h started session delivered) := by
  unfold Preparation.settleStart
  split
  · exact .claim hh rfl (.of_same rfl rfl id)
  · split
    · exact .of_handoff hh rfl (Handoff.Follows.transferred session)
    · exact .of_handoff hh rfl (.refl h)

theorem Follows.trans (h₁ : p.Follows p') (h₂ : p'.Follows p'') (hsome : p.handoff.isSome) :
    p.Follows p'' where
  old := by
    intro h hh
    obtain ⟨h', hh', hf'⟩ := h₁.old h hh
    obtain ⟨h'', hh'', hf''⟩ := h₂.old h' hh'
    exact ⟨h'', hh'', hf'.trans hf''⟩
  new := by
    intro hnone
    simp [hnone] at hsome

theorem Follows.publishedStart (hh : p.handoff = some h) {started delivered : Bool}
    (hstart : h.start = .publishing started session delivered) :
    p.Follows (p.publishedStart h started session delivered) := by
  have hclosed := Handoff.Follows.closeStartDone hstart
  have hexpired : p.Follows (p.expireStart { h with
      startDone := true
      start := if started then .unlocking else .over } started) := by
    unfold expireStart
    split
    · exact .claim hh rfl hclosed
    · exact .of_handoff hh rfl hclosed
  unfold Preparation.publishedStart
  simp only
  split
  · rename_i g hg
    refine hexpired.trans ?_ (by simp [hh])
    have hsettled := Follows.settleStart ((abortStart_handoff g started).trans hg) started session
      delivered
    exact hsettled.congr (abortStart_handoff g started).symm rfl (by simp [hg])
  · exact hexpired

theorem Follows.stepStart (hh : p.handoff = some h) {a : Answer}
    (hs : p.stepStart h a = some p') : p.Follows p' := by
  unfold Preparation.stepStart at hs
  split at hs
  case h_1 hstart | h_8 hstart =>
    split at hs
    · cases hs
    · cases hs
      refine .of_handoff hh rfl (.of_start ?_ ?_ ?_ rfl rfl) <;>
        simp [hstart]
  case h_2 status hstart =>
    cases hs
    refine .of_handoff hh rfl (.of_start ?_ ?_ ?_ rfl rfl) <;>
      cases a.ok <;> simp [hstart]
  case h_3 hstart =>
    cases hs
    exact .undeliveredStart hh hstart
  case h_4 hstart | h_6 hstart | h_7 hstart | h_10 hstart | h_11 hstart =>
    cases hs
    refine .of_handoff hh rfl (.of_start ?_ ?_ ?_ rfl rfl) <;>
      simp [hstart]
  case h_5 hstart =>
    cases hs
    refine .of_handoff hh rfl (.of_threads rfl rfl rfl (fun _ => rfl) id (fun _ => rfl)
      (fun _ => rfl) (fun _ _ hreads _ => hreads) ?_ ?_) <;> simp
  case h_9 session err hstart =>
    cases hs
    exact .returnedStart hh hstart
  case h_12 started session delivered hstart =>
    cases hs
    exact .publishedStart hh hstart
  case h_13 hstart =>
    cases hs
    refine .of_handoff hh rfl (.of_threads rfl rfl rfl (fun _ => rfl) id (fun _ => rfl) id
      (fun _ _ _ _ => rfl) ?_ ?_)
    · intro hok
      have hdone : h.startDone = true := hok.started.mpr (.inl hstart)
      simp [hdone]
    · simp
  case h_14 => cases hs

theorem Follows.stepPump (hh : p.handoff = some h) {a : Answer}
    (hs : p.stepPump closed h a = some p') : p.Follows p' := by
  obtain ⟨hpump, g, hcases, hframe, hstart⟩ := stepPump_cases hs
  have hfollows : h.Follows g := .of_pump hpump hframe hstart
  rcases hcases with rfl | ⟨f, rfl⟩ | ⟨abort, rfl⟩
  · exact .of_handoff hh rfl hfollows
  · exact .of_handoff hh rfl hfollows
  · exact .claim hh rfl hfollows

theorem collectOutcome_phase (closed : Bool) (h : Handoff) (r : Release) (a : Attempt) :
    collectOutcome closed h r ≠ .over ∧ collectOutcome closed h r ≠ .locking ∧
      Attempt.hasJoined { a with phase := collectOutcome closed h r } ∧
      Attempt.hasCancelled { a with phase := collectOutcome closed h r } ∧
      Attempt.unrecorded { a with phase := collectOutcome closed h r } = false := by
  unfold collectOutcome
  split
  · simp
  · split
    · simp
    · split <;> simp

theorem Follows.endedCancel {r : Release} {i : Nat} {a : Attempt}
    (hh : p.handoff = some h) (hr : h.release = some r) (ha : r.attempts[i]? = some a)
    (hphase : a.phase = .cancelled failed) : p.Follows (p.endedCancel h r i a failed) := by
  have hbefore : a.phase ≠ .over := by simp [hphase]
  have hlocks : a.hasLocked := by simp [hphase]
  have hrecord : a.Ok r.succeeded r.settledCloses → a.doneCloses = 0 ∧ a.err = false ∧
      r.succeeded = false ∧ r.settledCloses = 0 := by
    intro hok
    obtain ⟨hcloses, herr, hsucceeded⟩ := hok.unrecorded (by simp [hphase])
    exact ⟨hcloses, herr, hsucceeded, by simp [hok.settled, hphase]⟩
  unfold Preparation.endedCancel
  split
  · rename_i hfailed
    refine .of_handoff hh rfl (.of_attempt hr ha hbefore rfl rfl ?_ (fun _ => .inl hlocks) ?_ ?_ .inr id rfl)
    · intro hok
      obtain ⟨hcloses, herr, hsucceeded, hsettled⟩ := hrecord hok
      refine ⟨⟨by simp, ?_, fun _ => rfl, by simp [hsettled]⟩, ?_, ?_⟩
      · exact fun _ => ⟨by simp [hcloses], by simp [hsucceeded]⟩
      · simp [hphase, hfailed]
      · simp [hphase]
    · simp
    · simp
  · refine .of_handoff hh rfl (.of_attempt hr ha hbefore rfl rfl ?_ (fun _ => .inl hlocks) ?_ ?_ .inr id rfl)
    · intro hok
      obtain ⟨hcloses, herr, hsucceeded, hsettled⟩ := hrecord hok
      refine ⟨⟨by simp, ?_, by simp [herr], by simp [hsettled]⟩, ?_, ?_⟩
      · exact fun _ => ⟨by simp [hcloses], by simp [herr]⟩
      · simp
      · simp [hphase]
    · simp
    · simp

theorem Follows.settledRelease {r : Release} {i : Nat} {a : Attempt}
    (hh : p.handoff = some h) (hr : h.release = some r) (ha : r.attempts[i]? = some a)
    (hphase : a.phase = .settling failed) : p.Follows (p.settledRelease h r i a failed) := by
  have hbefore : a.phase ≠ .over := by simp [hphase]
  have hlocks : a.hasLocked := by simp [hphase]
  have hjoined : a.hasJoined := by simp [hphase]
  refine .of_handoff hh rfl (.of_attempt hr ha hbefore rfl rfl ?_ (fun _ => .inl hlocks) ?_
    (fun _ => .inl hjoined) .inr id rfl)
  · intro hok
    have herr : a.err = false := by
      cases herr : a.err with
      | false => rfl
      | true => exact absurd (hok.failed herr) hbefore
    have hrecorded := hok.recorded (by simp [hphase])
    have hsettled : r.settledCloses = 0 := by simp [hok.settled, hphase]
    refine ⟨⟨by simp, fun _ => hrecorded, fun _ => rfl, ?_⟩, ?_, ?_⟩
    · simp [hsettled, herr]
    · simp [herr]
    · simp [herr]
  · simp

theorem Follows.runAttempt {i : Nat} (hs : p.runAttempt closed i ok = some p') : p.Follows p' := by
  simp only [Preparation.runAttempt, Option.bind_eq_bind, Option.bind_eq_some_iff] at hs
  obtain ⟨h, hh, r, hr, a, ha, hs⟩ := hs
  unfold stepAttempt at hs
  simp only at hs
  split at hs
  case h_1 hphase =>
    split at hs
    · rename_i hready
      cases hs
      refine .of_handoff hh rfl (.of_phase hr ha rfl (by simp [hphase]) (by simp) ?_ ?_ ?_ ?_
        (fun _ => by simpa using hready) ?_ .inr id rfl) <;>
        simp [hphase]
    · cases hs
  case h_2 hphase =>
    split at hs
    · rename_i hfree
      cases hs
      have hreads : h.startReads = false := by simpa using hfree.2.1
      refine .of_handoff hh rfl (.of_phase hr ha rfl (by simp [hphase]) (by simp) ?_ ?_ ?_
        (fun _ => .inr ⟨hreads, hphase⟩) ?_ ?_ .inr id rfl) <;>
        simp [hphase]
    · cases hs
  case h_3 hphase | h_8 hphase =>
    cases hs
    refine .of_handoff hh rfl (.of_phase hr ha rfl (by simp [hphase]) (by simp) ?_ ?_ ?_ ?_ ?_ ?_
      .inr id rfl) <;>
      simp [hphase]
  case h_4 failed hphase =>
    cases hs
    exact .endedCancel hh hr ha hphase
  case h_5 hphase =>
    split at hs
    · rename_i hready
      cases hs
      simp only [Handoff.outputDone, Bool.and_eq_true, decide_eq_true_eq] at hready
      have hlocks : a.hasLocked := by simp [hphase]
      refine .of_handoff hh rfl (.of_phase hr ha rfl (by simp [hphase]) (by simp) ?_ ?_ ?_
        (fun _ => .inl hlocks) ?_ (fun _ => .inr ⟨hready.1, hready.2, hlocks⟩) .inr id rfl) <;>
        simp [hphase]
    · cases hs
  case h_6 hphase =>
    cases hs
    obtain ⟨hover, hlocking, hjoins, hcancels, hrecorded⟩ := collectOutcome_phase closed h r a
    refine .of_handoff hh rfl (.of_phase hr ha rfl (by simp [hphase]) hover ?_ (fun _ => hcancels)
      (fun _ => hjoins) ?_ (fun hphase' => absurd hphase' hlocking) ?_ .inr id rfl)
    · rw [hrecorded]
      simp [hphase]
    · simp [hphase]
    · simp [hphase]
  case h_7 failure terminal hphase =>
    cases hs
    refine .of_handoff hh rfl (.of_phase hr ha rfl (by simp [hphase]) ?_ ?_ ?_ ?_ ?_ ?_ ?_ .inr id rfl) <;> cases ok <;>
      simp [hphase]
  case h_9 failed hphase =>
    cases hs
    refine .of_handoff hh rfl (.of_phase hr ha rfl (by simp [hphase]) (by simp) ?_ ?_ ?_ ?_ ?_ ?_ ?_
      ?_ rfl) <;>
      simp [hphase]
  case h_10 failed hphase =>
    cases hs
    exact .settledRelease hh hr ha hphase
  case h_11 => cases hs

theorem Follows.handleExecutionStart (hp : p.Lawful) (runID : String) (known free : Bool) :
    p.Follows (p.handleExecutionStart runID known free).1 := by
  rcases handleExecutionStart_cases p runID known free with hsame | hpublish | hexpire | hstart
  · rw [hsame]
    exact .of_same rfl
  · rw [hpublish]
    exact .of_same rfl
  · rw [hexpire]
    exact .of_same rfl
  · rw [hstart.2.2]
    have hnone := hp.handoff_eq_none (by simp [hstart.1, PreparationPhase.rank])
    exact .of_none hnone (by simp [startable, hstart.1, hstart.2.1]) rfl (.opening _)

theorem Follows.step {l : Label} (hp : p.Lawful)
    (hs : p.step closed l = some p') : p.Follows p' := by
  cases effect hs with
  | preparer hs => exact .stepPreparer hs
  | closer hs =>
    simp only [Preparation.stepCloser] at hs
    split at hs <;> cases hs <;> exact .of_same (by simp)
  | task hs => exact .stepTask hs
  | start => exact .handleExecutionStart hp _ _ _
  | cancelRun hh => exact .claim hh rfl (.refl _)
  | closePending => exact .of_same (by simp)
  | starter hh hs => exact .stepStart hh hs
  | pump hh hs => exact .stepPump hh hs
  | attempt hs => exact .runAttempt hs
  | handoff hh hg =>
    obtain ⟨hframe, hstart, hpump⟩ := onHandoff_same hg
    exact .of_handoff hh rfl (.of_same hframe hstart fun hover => hpump.trans hover)
  | passDeadline | fireTimer | prepare | release | prune => exact .of_same rfl

end Preparation

end Parsar.Dispatch
