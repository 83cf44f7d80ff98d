import Parsar.Dispatch.Sound

namespace Parsar.Dispatch

theorem Attempt.not_hasFailed {a : Attempt} (ha : a.hasCancelled) : a.hasFailed = false := by
  unfold Attempt.hasFailed
  cases hphase : a.phase <;> simp [hphase] at ha ⊢
  exact ha

/-- The attempts of a release, in the order in which they were made. -/
structure Release.Serial (r : Release) : Prop where
  /-- No two calls of the native `Cancel` overlap. -/
  alone : ∀ (j k : Nat) (a b : Attempt), r.attempts[j]? = some a → r.attempts[k]? = some b →
    a.phase = .cancelling → b.phase = .cancelling → j = k
  /-- The attempt that has succeeded is the last one, and no call is under way with it. -/
  last : ∀ (j k : Nat) (a b : Attempt), r.attempts[j]? = some a → r.attempts[k]? = some b →
    a.hasCancelled → k ≤ j ∧ b.phase ≠ .cancelling
  /-- Another attempt follows a failed one, for a caller that asked for a retry. -/
  retried : ∀ (j : Nat) (a b : Attempt), r.attempts[j]? = some a → r.attempts[j + 1]? = some b →
    a.hasFailed ∧ b.retry
  /-- `done` is closed once, when the outcome is recorded. -/
  done : ∀ a ∈ r.attempts, a.doneCloses = if a.unrecorded then 0 else 1
  /-- `settled` is closed once, by the attempt that has succeeded and is over. -/
  settled : r.settledCloses = if ∃ a ∈ r.attempts, a.phase = .over ∧ a.err = false then 1 else 0

namespace Release

variable {r : Release} {earlier : List Attempt} {current : Attempt}

theorem Ok.eq_current (hr : r.Ok earlier current) {j : Nat} {a : Attempt}
    (ha : r.attempts[j]? = some a) (hnot : a.hasFailed = false) :
    j = earlier.length ∧ a = current := by
  rw [hr.attempts] at ha
  by_cases hlt : j < earlier.length
  · rw [List.getElem?_append_left hlt] at ha
    have hfailed := (hr.failed a (List.mem_of_getElem? ha)).1
    rw [hnot] at hfailed
    cases hfailed
  · have hlength := (List.getElem?_eq_some_iff.mp ha).1
    simp only [List.length_append, List.length_singleton] at hlength
    have hj : j = earlier.length := by omega
    subst hj
    simp only [List.getElem?_concat_length, Option.some.injEq] at ha
    exact ⟨rfl, ha.symm⟩

theorem Ok.length (hr : r.Ok earlier current) : r.attempts.length = earlier.length + 1 := by
  rw [hr.attempts]
  simp

theorem Ok.doneCloses (hr : r.Ok earlier current) {a : Attempt} (ha : a ∈ r.attempts) :
    a.doneCloses = if a.unrecorded then 0 else 1 := by
  rw [hr.attempts] at ha
  rcases mem_concat ha with hold | rfl
  · obtain ⟨hfailed, hcloses⟩ := hr.failed a hold
    simp only [Attempt.hasFailed, Bool.and_eq_true, decide_eq_true_eq] at hfailed
    simp [hfailed.1, hcloses]
  · cases hrecorded : a.unrecorded with
    | true => exact (hr.current.unrecorded hrecorded).1
    | false => exact (hr.current.recorded hrecorded).1

theorem Ok.settledCloses (hr : r.Ok earlier current) :
    r.settledCloses = if ∃ a ∈ r.attempts, a.phase = .over ∧ a.err = false then 1 else 0 := by
  rw [hr.current.settled]
  have hiff : (∃ a ∈ r.attempts, a.phase = .over ∧ a.err = false) ↔
      current.phase = .over ∧ current.err = false := by
    constructor
    · intro hexists
      obtain ⟨a, ha, hover, herr⟩ := hexists
      obtain ⟨j, hj⟩ := List.getElem?_of_mem ha
      obtain ⟨-, rfl⟩ := hr.eq_current hj (by simp [Attempt.hasFailed, herr])
      exact ⟨hover, herr⟩
    · intro hcurrent
      exact ⟨current, by simp [hr.attempts], hcurrent⟩
  simp only [hiff]

theorem Ok.serial (hr : r.Ok earlier current) : r.Serial where
  alone := by
    intro j k a b ha hb hacall hbcall
    have haj := (hr.is_current ha (by simp [hacall])).1
    have hbk := (hr.is_current hb (by simp [hbcall])).1
    omega
  last := by
    intro j k a b ha hb hcancelled
    obtain ⟨hj, rfl⟩ := hr.eq_current ha (Attempt.not_hasFailed hcancelled)
    have hk := (List.getElem?_eq_some_iff.mp hb).1
    have hlength := hr.length
    refine ⟨by omega, ?_⟩
    intro hcall
    obtain ⟨-, rfl⟩ := hr.is_current hb (by simp [hcall])
    simp [hcall] at hcancelled
  retried := by
    intro j a b ha hb
    have hlength := hr.length
    have hj := (List.getElem?_eq_some_iff.mp hb).1
    have hearlier : earlier[j]? = some a := by
      rw [hr.attempts, List.getElem?_append_left (by omega)] at ha
      exact ha
    have hbtail : b ∈ r.attempts.tail := by
      refine List.mem_of_getElem? (i := j) ?_
      rw [List.getElem?_tail]
      exact hb
    exact ⟨(hr.failed a (List.mem_of_getElem? hearlier)).1, hr.retried b hbtail⟩
  done := fun _ ha => hr.doneCloses ha
  settled := hr.settledCloses

end Release

structure Handoff.Protocol (h : Handoff) : Prop where
  serial : ∀ r, h.release = some r → r.Serial
  /-- From the first claim on no operation is admitted. -/
  refuses : h.release.isSome → h.admitOperation = none
  /-- The session leaves after a `Cancel` that succeeded, and after the start and the output
  consumer. -/
  leaves : h.registered = false →
    (∃ r, h.release = some r ∧ ∃ a ∈ r.attempts, a.hasCancelled) ∧ h.start = .over ∧ h.pump = .over

theorem Handoff.ReleaseOk.protocol {h : Handoff} (hok : h.ReleaseOk) : h.Protocol where
  serial := by
    intro r hr
    obtain ⟨earlier, current, hchain, -⟩ := hok.chain r hr
    exact hchain.serial
  refuses := by
    intro hsome
    simp [Handoff.admitOperation, Handoff.admits, Option.isSome_iff_ne_none.mp hsome]
  leaves := by
    intro hgone
    cases hr : h.release with
    | none =>
      have := hok.unreleased hr
      simp [hgone] at this
    | some r =>
      obtain ⟨earlier, current, hchain, -, hjoined, hleft⟩ := hok.chain r hr
      have hj := hleft hgone
      exact ⟨⟨r, rfl, current, by simp [hchain.attempts],
        Attempt.hasCancelled_of_hasJoined hj⟩, hjoined hj⟩

namespace Router

variable {r r' : Router}

def handoffAt (r : Router) (i : Nat) : Option Handoff := r.preparations[i]?.bind (·.handoff)

variable {i : Nat} {h : Handoff}

theorem Sound.releaseOk (hr : r.Sound) (hh : r.handoffAt i = some h) : h.ReleaseOk := by
  obtain ⟨p, hp, hph⟩ := Option.bind_eq_some_iff.mp hh
  exact (hr.each p (List.mem_of_getElem? hp)).release h hph

theorem handoff_of_run {bs : List Label} (hr : r.Sound)
    (hrun : runTrace Router.step r bs = some r') (hh : r.handoffAt i = some h) :
    ∃ h', r'.handoffAt i = some h' ∧ h.Keeps h' := by
  refine (runTrace_invariant (I := fun s => s.Sound ∧ ∃ h', s.handoffAt i = some h' ∧ h.Keeps h') ?_
    (stepsMeet_true r bs) hrun ⟨hr, h, hh, .of_release rfl⟩).2
  intro s l t _ hs hinv
  obtain ⟨hsound, g, hg, hkeeps⟩ := hinv
  obtain ⟨q, hq, hqg⟩ := Option.bind_eq_some_iff.mp hg
  obtain ⟨q', hq', hgoes⟩ := (Stepped.step hs).preparations.old i q hq
  have hstep := (hsound.each q (List.mem_of_getElem? hq)).goes_handoff hgoes
  obtain ⟨g', hg', hkeeps', -⟩ := hstep g hqg
  exact ⟨hsound.step hs, g', by simp [handoffAt, hq', hg'], hkeeps.trans hkeeps'⟩

/-- Calls of the native `Cancel` are serial and none follows one that succeeded, a retry follows a
failure and was asked for, `done` and `settled` are closed once, no operation is admitted from the
first claim on, and the session leaves last. -/
theorem prepared_release_protocol {as bs : List Label} (hreach : Reaches as r)
    (hrun : runTrace Router.step r bs = some r') (hh : r.handoffAt i = some h) :
    h.Protocol ∧ ∃ h', r'.handoffAt i = some h' ∧ h'.Protocol ∧
      ∀ release, h.release = some release → ∃ release', h'.release = some release' ∧
        ((∃ a ∈ release.attempts, a.hasCancelled) →
          ∀ b ∈ release'.attempts, b.phase ≠ .cancelling) := by
  have hsound := sound_of_reaches hreach
  obtain ⟨h', hh', hkept⟩ := handoff_of_run hsound hrun hh
  have hprotocol := ((sound_of_run hsound hrun).releaseOk hh').protocol
  refine ⟨(hsound.releaseOk hh).protocol, h', hh', hprotocol, ?_⟩
  intro release hrelease
  obtain ⟨release', hrelease', hattempts⟩ := hkept release hrelease
  refine ⟨release', hrelease', ?_⟩
  intro hcancelled b hb
  obtain ⟨a, ha, hacancelled⟩ := hcancelled
  obtain ⟨j, hj⟩ := List.getElem?_of_mem ha
  obtain ⟨k, hk⟩ := List.getElem?_of_mem hb
  obtain ⟨a', ha', hstays⟩ := hattempts j a hj
  exact ((hprotocol.serial release' hrelease').last j k a' b ha' hk (hstays hacancelled)).2

def startTrace (outcome : Answer) : List Label :=
  .executionPrepare "request" "handle" false true 100 ::
  List.replicate 4 (.preparation 0 (.preparer {})) ++
  [.executionStart "request" "handle" "run" true, .preparation 0 (.pump {})] ++
  List.replicate 3 (.preparation 0 (.starter {})) ++
  .preparation 0 (.starter outcome) :: List.replicate 4 (.preparation 0 (.starter {}))

def naturalTrace : List Label :=
  startTrace {} ++
  [.preparation 0 (.write ⟨.other, "run", "text"⟩), .preparation 0 (.write ⟨.done, "run", "end"⟩)] ++
  List.replicate 5 (.preparation 0 (.pump {}))

def retryTrace : List Label :=
  naturalTrace ++
  [.preparation 0 (.attempt 0 true), .preparation 0 (.attempt 0 true),
    .preparation 0 (.attempt 0 false), .preparation 0 (.attempt 0 true), .promptCancel "run"] ++
  List.replicate 4 (.preparation 0 (.attempt 1 true))

def settleTrace : List Label :=
  [.preparation 0 .closeOut, .preparation 0 (.pump {}), .preparation 0 (.pump {})] ++
  List.replicate 5 (.preparation 0 (.attempt 1 true))

theorem prepared_release_protocol_retried :
    ∃ r r' h release h', Reaches retryTrace r ∧ runTrace Router.step r settleTrace = some r' ∧
      r.handoffAt 0 = some h ∧ h.Protocol ∧ h.release = some release ∧
      release.attempts.map (·.hasCancelled) = [false, true] ∧
      r'.handoffAt 0 = some h' ∧ h'.Protocol ∧ h'.registered = false ∧
      ∃ release', h'.release = some release' ∧ ∀ b ∈ release'.attempts, b.phase ≠ .cancelling := by
  have hcheck : (runTrace Router.step {} retryTrace).any (fun r =>
      (r.handoffAt 0).any (fun h => h.release.any fun release =>
        release.attempts.map (·.hasCancelled) = [false, true]) &&
      (runTrace Router.step r settleTrace).any fun r' =>
        (r'.handoffAt 0).any (!·.registered)) = true := by
    decide +kernel
  simp only [Option.any_eq_true, Bool.and_eq_true, decide_eq_true_eq, Bool.not_eq_true'] at hcheck
  obtain ⟨r, hreach, ⟨h, hh, release, hrelease, hattempts⟩, r', hrun, g, hg, hgone⟩ := hcheck
  obtain ⟨hprotocol, h', hh', hprotocol', hafter⟩ := prepared_release_protocol hreach hrun hh
  rw [hg] at hh'
  cases hh'
  obtain ⟨release', hrelease', hnone⟩ := hafter release hrelease
  have hcancelled : ∃ a ∈ release.attempts, a.hasCancelled := by
    have hmem : true ∈ release.attempts.map (·.hasCancelled) := hattempts ▸ by simp
    exact List.mem_map.mp hmem
  exact ⟨r, r', h, release, g, hreach, hrun, hh, hprotocol, hrelease, hattempts, hg, hprotocol',
    hgone, release', hrelease', hnone hcancelled⟩

end Router

end Parsar.Dispatch
