import Parsar.Dispatch.Calm
import Parsar.Dispatch.Output
import Parsar.Dispatch.ReleaseProtocol

namespace Parsar.Dispatch

namespace Preparation

variable {p p' p'' : Preparation} {h h' : Handoff} {closed : Bool}

structure OutputOk (closed : Bool) (p : Preparation) : Prop where
  before : p.handoff = none → sentFrames p.log = [] ∧ p.hasStarted = false
  during : ∀ h, p.handoff = some h → h.OutputOk closed p.hasStarted p.log

theorem OutputOk.of_handoff (hp : p.handoff = some h) (hO : h.OutputOk closed p.hasStarted p.log) :
    p.OutputOk closed where
  before := by simp [hp]
  during := by
    intro g hg
    rw [hp] at hg
    cases hg
    exact hO

theorem OutputOk.calm (hp : p.OutputOk closed) (hok : ∀ h, p.handoff = some h → h.ReleaseOk)
    (hcalm : p.Calm p') : p'.OutputOk closed := by
  have hlog : ∀ {h : Handoff}, h.OutputOk closed p.hasStarted p.log →
      h.OutputOk closed p'.hasStarted p'.log := by
    rintro h ⟨processed, forwarded, report, hO⟩
    refine ⟨processed, forwarded, report, ?_⟩
    rcases hcalm.frames with hsame | ⟨s, hstatus⟩
    · rw [hsame]
      exact hO.unstart hcalm.started
    · rw [hstatus]
      exact (hO.status s).unstart hcalm.started
  rcases hcalm.handoff with hsame | ⟨h, abort, retry, hh, hclaim⟩
  · constructor
    · intro hnone
      obtain ⟨hframes, hstarted⟩ := hp.before (hsame ▸ hnone)
      constructor
      · rcases hcalm.frames with hlog | ⟨s, hlog⟩ <;> simpa [hlog] using hframes
      · have := hcalm.started
        rw [hstarted] at this
        simpa using this
    · intro h hh
      exact hlog (hp.during h (hsame ▸ hh))
  · refine .of_handoff hclaim ?_
    obtain ⟨processed, forwarded, report, hO⟩ := hlog (hp.during h hh)
    exact ⟨processed, forwarded, report, hO.claim (hok h hh) (.inl rfl) abort retry⟩

variable {processed forwarded report : List Dispatch.Frame}

theorem OutputOk.claim {abort retry : Bool} (hok : h.ReleaseOk) (hfollows : h.Follows h')
    (hO : Output closed p.hasStarted p.log h' processed forwarded report) :
    (p.claim h' abort "" retry).OutputOk closed :=
  .of_handoff rfl ⟨_, _, _, hO.claim (hfollows.ok hok) (.inl rfl) abort retry⟩

theorem OutputOk.stepPump (hO : h.OutputOk closed p.hasStarted p.log) (hok : h.ReleaseOk)
    {a : Answer} (hs : p.stepPump closed h a = some p') : p'.OutputOk closed := by
  obtain ⟨processed, forwarded, report, hO⟩ := hO
  have hstream := hO.stream
  have hchannel := hO.channel
  have hfailures := hO.failures
  unfold Preparation.stepPump at hs
  split at hs
  case h_1 hpump =>
    cases hs
    rw [hpump] at hstream
    exact .of_handoff rfl
      ⟨_, _, _, hO.of_pump (hstream.of_phase rfl rfl (by simp) (by simp) (by simp)) (by simp)⟩
  case h_2 hpump =>
    rw [hpump] at hstream
    unfold selectOutput at hs
    split at hs
    · split at hs <;> cases hs
      rename_i hclosed
      exact .of_handoff rfl ⟨_, _, _,
        hO.of_pump (hstream.of_phase rfl rfl (by simp) (fun _ => hclosed) (by simp)) (by simp)⟩
    · split at hs
      · rename_i f rest hout
        cases hs
        rw [hout] at hstream
        exact .of_handoff rfl ⟨_, _, _, hO.of_pump hstream.take (by simp)⟩
      · rename_i hout
        split at hs <;> cases hs
        rename_i hclosed
        exact .of_handoff rfl ⟨_, _, _, hO.ended hout hclosed
          (hstream.of_phase rfl rfl (by simp) (by simp) (by simp)) (by simp)⟩
  case h_3 f hpump =>
    rw [hpump] at hstream
    cases hs
    unfold receivedOutput
    split
    · rename_i hterminal
      exact .of_handoff rfl ⟨_, _, _, hO.of_pump (hstream.skip (.inl hterminal)) (by simp)⟩
    · rename_i hterminal
      have hnone : h.terminal = none := by simpa using hterminal
      split
      · rename_i hdone
        rw [hnone] at hstream
        exact .claim hok (.of_pump (by simp [hpump]) rfl rfl)
          (hO.of_pump (hstream.keep hdone) (by simp))
      · rename_i hdone
        split
        · rename_i hlost
          simp only [Bool.or_eq_true] at hlost
          exact .of_handoff rfl
            ⟨_, _, _, hO.of_pump (hstream.skip (.inr (or_assoc.mp hlost))) (by simp)⟩
        · rename_i hkeeps
          simp only [Bool.or_eq_true, not_or, Bool.not_eq_true] at hkeeps
          refine .of_handoff rfl ⟨processed, forwarded, report, hO.of_pump ?_ (by simp)⟩
          rw [hnone] at hstream
          simpa [hnone] using hstream.accept (by simpa using hdone) hkeeps.1.1 hkeeps.1.2 hkeeps.2
  case h_4 f hpump =>
    cases hs
    rw [hpump] at hstream
    have hmono : Failures _ _ _ (h.sendFailed || !a.ok) _ := hfailures.mono (by simp +contextual)
    cases hok' : a.ok with
    | true =>
      have hnot := (hstream.forwarding f rfl).1
      have hnil : report = [] := hO.reports.eq_nil (hok.none_joined (.inr (by simp [hpump])))
      refine .of_handoff rfl ⟨processed ++ [f], forwarded ++ [f], [], ?_, hstream.forward,
        hchannel.of_pump (by simp) _, (hok' ▸ hmono).of_pump (by simp), hnil ▸ hO.reports, ?_⟩
      · simp [sent, setHandoff, hO.frames, hnil]
      · refine hO.announces.append ?_
        rintro g ⟨⟩ hdone
        rw [hnot] at hdone
        cases hdone
    | false =>
      rw [hok'] at hmono
      exact .of_handoff rfl ⟨processed ++ [f], forwarded, report, hO.frames, hstream.fail,
        hchannel.of_pump (by simp) _, ⟨hmono.outputErr, by simp, hmono.start, hmono.attempts⟩,
        hO.reports, hO.announces⟩
  case h_5 hpump =>
    cases hs
    rw [hpump] at hstream
    have hfailed : h.sendFailed = true := hfailures.pump hpump
    refine .claim hok (.of_pump (by simp [hpump]) rfl rfl) ⟨hO.frames, hstream.giveUp rfl ?_ ?_,
      hchannel.of_pump (by simp) _,
      ⟨fun _ => hfailed, by simp, fun _ => hfailed, hfailures.attempts⟩, hO.reports,
      hO.announces.lose _⟩
    · cases closed <;> simp
    · intro hi
      rcases (Bool.or_eq_true _ _).mp hi with hi | hclosed
      · exact hstream.stopped (.inl hi)
      · exact hclosed
  case h_6 hpump =>
    cases hs
    rw [hpump] at hstream
    obtain ⟨hout, hclosed⟩ := hchannel.ended (.inl hpump)
    have hover : Output closed p.hasStarted p.log { h with pump := .over } processed forwarded
        report :=
      hO.ended hout hclosed (hstream.of_phase rfl rfl (by simp) (by simp) (by simp)) (by simp)
    unfold closedOutput
    split
    · exact .claim hok (.of_pump (by simp [hpump]) rfl rfl) hover
    · exact .of_handoff rfl ⟨_, _, _, hover⟩
  case h_7 hpump =>
    cases hs
    rw [hpump] at hstream
    have hclosed : closed = true := hstream.stopped (.inr rfl)
    exact .claim hok (.of_pump (by simp [hpump]) rfl rfl) ⟨hO.frames,
      hstream.giveUp rfl (.inr rfl) (fun _ => hclosed), hchannel.of_pump (by simp) _,
      hfailures.of_pump (by simp), hO.reports, hO.announces⟩
  case h_8 hpump =>
    rw [hpump] at hstream
    unfold drainOutput at hs
    split at hs
    · rename_i f rest hout
      cases hs
      rw [hout] at hstream
      refine .of_handoff rfl ⟨processed ++ [f], forwarded, report, hO.of_pump ?_ (by simp [hpump])⟩
      simpa [hpump] using hstream.drain
    · rename_i hout
      split at hs <;> cases hs
      rename_i hclosed
      exact .of_handoff rfl ⟨_, _, _, hO.ended hout hclosed
        (hstream.of_phase rfl rfl (by simp) (by simp) (by simp)) (by simp)⟩
  case h_9 => cases hs

theorem OutputOk.undeliveredStart (hO : h.OutputOk closed p.hasStarted p.log) (hok : h.ReleaseOk)
    (hstart : h.start = .startingFailed) : (p.undeliveredStart h).OutputOk closed := by
  obtain ⟨processed, forwarded, report, hO⟩ := hO
  have hfailed : h.sendFailed = true := hO.failures.start (by simp [hstart])
  have hgone : Output closed p.hasStarted p.log
      { h with outputErr := true, start := .abandoningOut } processed forwarded report := by
    have hlost := hO.stream.lose true
    have hannounces := hO.announces.lose true
    rw [Bool.or_true] at hlost hannounces
    refine ⟨hO.frames, hlost, hO.channel.of_start ?_ ?_,
      ⟨fun _ => hfailed, fun _ => hfailed, fun _ => hfailed, fun _ _ _ => hfailed⟩,
      hO.reports.of_start ?_, hannounces.of_start ?_⟩
    · simp [hstart]
    · simp
    · simp [hstart]
    · simp [hstart]
  have hfollows : h.Follows { h with outputErr := true, start := .abandoningOut } := by
    refine .of_start ?_ ?_ ?_ rfl rfl <;> simp [hstart]
  have hclaimed := hgone.claim (hfollows.ok hok) (.inl rfl) true false
  have hlog : (p.undeliveredStart h).log = p.log := moveFrom_log ..
  refine .of_handoff rfl ⟨processed, forwarded, report, ?_⟩
  rw [hlog]
  exact hclaimed.unstart (hasStarted_moveFrom (by simp) _ _)

variable {delivered err ok session started : Bool}

section

variable (hO : h.OutputOk closed p.hasStarted p.log) (hok : h.ReleaseOk)
  (hstart : h.start = .returned session err)

include hO hok hstart

theorem OutputOk.startedSession : (p.startedSession h).OutputOk closed := by
  obtain ⟨processed, forwarded, report, hO⟩ := hO
  -- nothing of the run's end was sent before its start is over
  have hnone := hok.none_joined (.inl (by simp [hstart]))
  have hnil := hO.reports.eq_nil hnone
  have hquiet : ∀ a ∈ h.attempts, a.phase.reports = false := by
    intro a ha
    apply Bool.eq_false_iff.mpr
    intro hreports
    have hjoined := a.hasJoined_of_reports hreports
    rw [hnone a ha] at hjoined
    cases hjoined
  have hfailure : h.failure = "" := by
    refine hO.reports.failure.resolve_right ?_
    simp [hstart]
  refine .of_handoff rfl ⟨processed, forwarded, report, hO.frames, hO.stream,
    hO.channel.of_start (by simp) (by simp),
    hO.failures.of_start rfl, ?_, ?_⟩
  · subst hnil
    refine ⟨.nil, by simp, fun _ _ _ => rfl, ?_, ?_, .inl hfailure⟩
    · intro a ha f t hphase
      have := hquiet a ha
      simp [hphase] at this
    · intro a ha f hphase
      have := hquiet a ha
      simp [hphase] at this
  · refine ⟨fun _ => rfl, ?_, ?_⟩
    · intro _ a ha hphase
      rw [hquiet a ha] at hphase
      cases hphase
    · intro _ a f b hsplit hdone
      have hmem : f ∈ sentFrames p.log := by
        have hlog : p.log = a ++ .frame f :: b := hsplit
        simp [hlog, sentFrames, Sent.frame?]
      rw [hO.frames, hnil, List.append_nil] at hmem
      have := not_isDone_of_mem_beforeDone (hO.stream.sent.subset hmem)
      simp [hdone] at this

theorem OutputOk.failedStart : (p.failedStart h session).OutputOk closed := by
  have hbefore : Announced p.log h.outputErr h.start → False := by simp [hstart]
  have hnot := hO.not_started hbefore
  generalize hphase : (if session then StartPhase.sendingStatus
      (p.stopTimer.moveFrom [.starting] .failed .startFailed).status false true
    else .closingOut (p.stopTimer.moveFrom [.starting] .failed .startFailed).status false false) =
    start
  have hgone : Handoff.OutputOk closed p.hasStarted p.log { h with start := start } := by
    refine hO.of_unanswered _ hbefore (by simp [hstart]) ?_ ?_ ?_ <;>
      subst hphase <;> cases session <;>
      simp [hstart]
  have hanswered : start.answered := by
    subst hphase
    cases session <;> simp
  have hfollows : h.Follows { h with start := start } := by
    refine .of_start ?_ ?_ ?_ rfl rfl <;> subst hphase <;> cases session <;>
      simp [hstart]
  obtain ⟨processed, forwarded, report, hgone⟩ := hgone
  have hclaimed := hgone.claim (hfollows.ok hok) (.inr ⟨rfl, hnot, hanswered⟩) true false
  have hlog : (p.failedStart h session).log = p.log := moveFrom_log ..
  subst hphase
  refine .of_handoff rfl ⟨processed, forwarded, report, ?_⟩
  rw [hlog]
  exact hclaimed.unstart (hasStarted_moveFrom (p := p.stopTimer) (by simp) _ _)

theorem OutputOk.returnedStart : (p.returnedStart h session err).OutputOk closed := by
  unfold Preparation.returnedStart
  split
  · exact .startedSession hO hok hstart
  · exact .failedStart hO hok hstart

end

theorem claim_outputErr (h : Handoff) (abort : Bool) (failure : String) (retry lost : Bool) :
    { (h.claim abort failure retry).1 with
      outputErr := (h.claim abort failure retry).1.outputErr || lost } =
      (Handoff.claim { h with outputErr := h.outputErr || lost } abort failure retry).1 := by
  unfold Handoff.claim Handoff.claimed
  cases h.release <;> simp only <;> split <;> rfl

theorem closedStart (hO : h.OutputOk closed p.hasStarted p.log)
    (hstart : h.start = .publishing started session delivered) :
    Handoff.OutputOk closed p.hasStarted p.log { h with
      startDone := true
      start := if started then .unlocking else .over
      outputErr := h.outputErr || !delivered } := by
  obtain ⟨processed, forwarded, report, hO⟩ := hO
  have hlost : (!delivered) = true → h.sendFailed = true := by
    intro hnot
    have hfalse : delivered = false := by simpa using hnot
    exact hO.failures.start (by simp [hstart, hfalse])
  refine ⟨processed, forwarded, report, hO.frames, hO.stream.lose _, ?_, ?_, ?_, ?_⟩
  · refine hO.channel.of_start ?_ ?_ <;> cases started <;>
      simp
  · refine ⟨?_, hO.failures.pump, ?_, hO.failures.attempts⟩
    · intro herr
      exact ((Bool.or_eq_true _ _).mp herr).elim hO.failures.outputErr hlost
    · cases started <;> simp
  · refine hO.reports.of_start ?_
    cases started <;> simp
  · refine ⟨?_, hO.announces.reporting, hO.announces.ordered⟩
    intro hstarted
    have hannounced := hO.announces.start hstarted
    rw [hstart] at hannounced
    cases started with
    | false => exact hannounced.elim
    | true =>
      cases delivered with
      | true => exact .inl (hannounced rfl)
      | false => exact .inr (by simp)

theorem expireStart_cases (h : Handoff) (started : Bool) :
    (p.expireStart h started).log = p.log ∧
    ((p.expireStart h started).hasStarted → p.hasStarted) ∧
    ((p.expireStart h started).handoff = some h ∨
      (p.expireStart h started).handoff = some (h.claim true "" false).1) := by
  unfold expireStart
  split
  · exact ⟨moveFrom_log .., hasStarted_moveFrom (by simp) _ _, .inr rfl⟩
  · exact ⟨rfl, id, .inl rfl⟩

theorem OutputOk.settleStart (hlog : p'.log = p.log) (hstarted : p'.hasStarted → p.hasStarted)
    (started session delivered : Bool)
    (hO : Handoff.OutputOk closed p.hasStarted p.log
      { h with outputErr := h.outputErr || !delivered })
    (hok : Handoff.ReleaseOk { h with outputErr := h.outputErr || !delivered }) :
    (p'.settleStart h started session delivered).OutputOk closed := by
  unfold Preparation.settleStart
  cases delivered with
  | false =>
    simp only [Bool.not_false, Bool.or_true] at hO hok
    have hmoved : ∀ q : Preparation, q.log = p'.log → (q.hasStarted → p'.hasStarted) →
        (q.claim { h with outputErr := true } true "" false).OutputOk closed := by
      intro q hq hqstarted
      refine .of_handoff rfl ?_
      have hclaimed := hO.claim hok true false
      rw [← hlog, ← hq] at hclaimed
      exact hclaimed.unstart (hstarted ∘ hqstarted)
    simp only [Bool.not_false, if_true]
    apply hmoved
    · split
      · exact moveFrom_log ..
      · rfl
    · split
      · exact hasStarted_moveFrom (by simp) _ _
      · exact id
  | true =>
    simp only [Bool.not_true, Bool.or_false] at hO
    rw [← hlog] at hO
    have hO' := hO.unstart hstarted
    simp only [Bool.not_true, Bool.false_eq_true, if_false]
    split
    · exact .of_handoff rfl (hO'.of_same rfl rfl rfl rfl rfl rfl rfl rfl rfl rfl rfl)
    · exact .of_handoff rfl hO'

theorem OutputOk.publishedStart (hO : h.OutputOk closed p.hasStarted p.log) (hok : h.ReleaseOk)
    (hstart : h.start = .publishing started session delivered) :
    (p.publishedStart h started session delivered).OutputOk closed := by
  have hclosed := closedStart hO hstart
  have hfollows := Handoff.Follows.closeStartDone hstart
  generalize hg : ({ h with startDone := true, start := if started then .unlocking else .over } :
    Handoff) = g at hfollows
  obtain ⟨hlog, hstarted, hhandoff⟩ := expireStart_cases (p := p) g started
  have hsettles : ∀ g' : Handoff, (p.expireStart g started).handoff = some g' →
      Handoff.OutputOk closed p.hasStarted p.log { g' with outputErr := g'.outputErr || !delivered } →
      Handoff.ReleaseOk { g' with outputErr := g'.outputErr || !delivered } →
      (p.publishedStart h started session delivered).OutputOk closed := by
    intro g' hg' hO' hok'
    unfold Preparation.publishedStart
    simp only [hg, hg']
    refine .settleStart (p := p) ?_ ?_ started session delivered hO' hok'
    · unfold abortStart
      split
      · exact (moveFrom_log ..).trans hlog
      · exact hlog
    · unfold abortStart
      split
      · exact hstarted ∘ hasStarted_moveFrom (by simp) _ _
      · exact hstarted
  have hlost : ∀ k : Handoff, k.Follows { k with outputErr := k.outputErr || !delivered } :=
    fun k => .of_same rfl rfl id
  subst hg
  rcases hhandoff with hsame | hclaim
  · exact hsettles _ hsame hclosed ((hlost _).ok (hfollows.ok hok))
  · refine hsettles _ hclaim ?_ ?_
    · rw [claim_outputErr]
      exact hclosed.claim ((hlost _).ok (hfollows.ok hok)) true false
    · exact (hlost _).ok ((Handoff.Follows.claim _ _ _ _).ok (hfollows.ok hok))

theorem OutputOk.stepStart (hO : h.OutputOk closed p.hasStarted p.log) (hok : h.ReleaseOk)
    {a : Answer} (hs : p.stepStart h a = some p') : p'.OutputOk closed := by
  unfold Preparation.stepStart at hs
  split at hs
  case h_1 status hstart =>
    split at hs <;> cases hs
    refine .of_handoff rfl (hO.of_unanswered _ ?_ ?_ rfl ?_ ?_) <;>
      simp [hstart]
  case h_2 status hstart =>
    cases hs
    obtain ⟨processed, forwarded, report, hO⟩ := hO.sent_status a.ok status
    refine .of_handoff rfl ⟨_, _, _, hO.of_start ?_ ?_ ?_ ?_ ?_ ?_⟩
    · simp +contextual
    · cases a.ok <;> simp
    · simp [hstart]
    · cases a.ok <;> simp
    · simp [hstart]
    · simp [hstart]
  case h_3 hstart =>
    cases hs
    exact .undeliveredStart hO hok hstart
  case h_4 hstart =>
    cases hs
    refine .of_handoff rfl (hO.of_channel (fun hc => ?_) rfl ?_ ?_)
    · exact hc.close (hc.uncalled (by simp [hstart])).2 rfl
    · simp [hstart]
    · simp [hstart]
  case h_5 hstart =>
    cases hs
    refine .of_handoff rfl ((hO.of_unanswered .over ?_ ?_ rfl ?_ ?_).of_same
      rfl rfl rfl rfl rfl rfl rfl rfl rfl rfl rfl) <;>
      simp [hstart]
  case h_6 hstart =>
    cases hs
    refine .of_handoff rfl (hO.of_channel (fun hc => ?_) rfl ?_ ?_)
    · obtain ⟨hopen, -⟩ := hc.uncalled (by simp [hstart])
      refine ⟨hc.ended, by simp [hopen], ?_, by simp⟩
      cases h.aborted <;> simp [hopen]
    · simp [hstart]
    · simp [hstart]
  case h_7 hstart =>
    cases hs
    refine .of_handoff rfl (hO.of_unanswered _ ?_ ?_ rfl ?_ ?_) <;>
      simp [hstart]
  case h_8 hstart =>
    split at hs
    · cases hs
    · cases hs
      refine .of_handoff rfl (hO.of_channel (fun hc => ?_) rfl ?_ ?_)
      · refine ⟨hc.ended, ?_, by simp, ?_⟩
        · intro hclosed
          simp [hc.closed hclosed]
        · cases a.value <;> simp
      · simp [hstart]
      · simp [hstart]
  case h_9 session err hstart =>
    cases hs
    exact .returnedStart hO hok hstart
  case h_10 status started session hstart =>
    cases hs
    refine .of_handoff rfl (hO.of_channel (fun hc => ?_) rfl (fun _ => rfl) ?_)
    · exact hc.close (hc.sessionless (by simp [hstart])) rfl
    · simp [hstart]
  case h_11 status started session hstart =>
    cases hs
    obtain ⟨processed, forwarded, report, hO⟩ := hO.sent_status a.ok status
    refine .of_handoff rfl ⟨_, _, _, hO.of_start ?_ ?_ ?_ ?_ (fun _ => rfl) ?_⟩
    · simp +contextual
    · cases a.ok <;> simp
    · simp
    · simp
    · rw [hstart]
      cases started with
      | false => exact id
      | true =>
        intro hstate hsent
        exact ⟨status, by simp [hsent], hstate⟩
  case h_12 started session delivered hstart =>
    cases hs
    exact .publishedStart hO hok hstart
  case h_13 hstart =>
    cases hs
    obtain ⟨processed, forwarded, report, hO⟩ := hO
    refine .of_handoff rfl ⟨processed, forwarded, report, hO.frames, hO.stream,
      hO.channel.of_start ?_ ?_, hO.failures.of_start rfl, hO.reports.of_start (fun _ => rfl),
      hO.announces.of_start ?_⟩
    · simp
    · simp
    · rw [hstart]
      exact id
  case h_14 => cases hs

theorem collectOutcome_cases (closed : Bool) (h : Handoff) (r : Release) :
    collectOutcome closed h r = .cleaning false ∨
    (h.outputErr = false ∧ r.failure ≠ "" ∧
      collectOutcome closed h r = .reportingError r.failure h.terminal) ∨
    (h.outputErr = false ∧ ∃ f, h.terminal = some f ∧
      collectOutcome closed h r = .reportingDone f) := by
  unfold collectOutcome
  split
  · exact .inl rfl
  · rename_i hlost
    simp only [Bool.or_eq_true, not_or, Bool.not_eq_true] at hlost
    split
    · rename_i hfailure
      exact .inr (.inl ⟨hlost.1, hfailure, rfl⟩)
    · split
      · rename_i f hf
        exact .inr (.inr ⟨hlost.1, f, hf, rfl⟩)
      · exact .inl rfl

theorem OutputOk.stepAttempt (hO : h.OutputOk closed p.hasStarted p.log) (hok : h.ReleaseOk)
    {r : Release} (hr : h.release = some r) {i : Nat} {a : Attempt} (ha : r.attempts[i]? = some a)
    (hs : p.stepAttempt closed h r i a ok = some p') : p'.OutputOk closed := by
  have hrunning : a.phase ≠ .over := by
    intro hover
    simp [Preparation.stepAttempt, hover] at hs
  obtain ⟨earlier, current, hchain, -, hstopped, -⟩ := hok.chain r hr
  obtain ⟨rfl, rfl⟩ := hchain.is_current ha hrunning
  obtain ⟨processed, forwarded, report, hO⟩ := hO
  have hearlier : ∀ c ∈ earlier, c.phase = .over := by
    intro c hc
    have hfailed := (hchain.failed c hc).1
    simp only [Attempt.hasFailed, Bool.and_eq_true, decide_eq_true_eq] at hfailed
    exact hfailed.1
  have hc : Output.Current h r earlier a := ⟨hr, hchain.attempts, hearlier⟩
  unfold Preparation.stepAttempt at hs
  simp only at hs
  split at hs
  case h_1 hphase | h_2 hphase | h_5 hphase =>
    split at hs <;> cases hs
    exact .of_handoff rfl ⟨_, _, _, hO.advance hc id rfl (by simp)
      (.inl (by simp [hphase])) rfl rfl⟩
  case h_3 hphase =>
    cases hs
    exact .of_handoff rfl ⟨_, _, _, hO.advance hc id rfl (by simp)
      (.inl (by simp [hphase])) rfl rfl⟩
  case h_4 failed hphase =>
    cases hs
    unfold Preparation.endedCancel
    split
    all_goals exact .of_handoff rfl ⟨_, _, _, hO.advance hc id rfl
      (by simp) (.inl (by simp [hphase])) rfl rfl⟩
  case h_6 hphase =>
    cases hs
    have hsilent : a.phase.silent := by simp [hphase]
    have hover := (hstopped (by simp [hphase])).1
    refine .of_handoff rfl ⟨processed, forwarded, report, ?_⟩
    rcases collectOutcome_cases closed h r with hnothing | ⟨hkept, hfailure, herror⟩ |
      ⟨hkept, f, hf, hdone⟩
    · exact hO.advance hc id (by simp [hnothing])
        (by simp [hnothing]) (.inl hsilent) rfl rfl
    · exact hO.collect hc hsilent hover hkept (.inl ⟨herror, hfailure⟩)
    · exact hO.collect hc hsilent hover hkept (.inr ⟨f, hf, hdone⟩)
  case h_7 failure terminal hphase =>
    cases hs
    have hterminal := (hO.reports.error a (by simp [hc.eq]) failure terminal hphase).2.2
    have hlast : (terminal.getD p.doneFrame).isDone := by
      cases terminal with
      | none => simp [doneFrame, Frame.isDone]
      | some f => exact hterminal f rfl
    cases ok with
    | true =>
      have hsent := hO.reportError hc hphase (f := p.errorFrame failure)
        (b := { a with phase := .reportingDone (terminal.getD p.doneFrame) }) rfl rfl rfl hlast
      refine .of_handoff rfl ⟨processed, forwarded, [p.errorFrame failure], ?_⟩
      simp only [Bool.not_true, Bool.or_false]
      exact hsent
    | false =>
      refine .of_handoff rfl ⟨processed, forwarded, report, ?_⟩
      simp only [Bool.not_false, Bool.or_true, Bool.false_eq_true, if_false]
      exact hO.advance hc (fun _ => rfl) rfl (fun _ => rfl)
        (.inl (by simp [hphase])) rfl rfl
  case h_8 f hphase =>
    cases hs
    cases ok with
    | true =>
      have hsent := hO.reportDone hc hphase (b := { a with phase := .cleaning false }) rfl
      refine .of_handoff rfl ⟨processed, forwarded, report ++ [f], ?_⟩
      simp only [Bool.not_true, Bool.or_false]
      exact hsent
    | false =>
      refine .of_handoff rfl ⟨processed, forwarded, report, ?_⟩
      simp only [Bool.not_false, Bool.or_true]
      exact hO.advance hc (fun _ => rfl) rfl (fun _ => rfl) (.inr ⟨rfl, rfl⟩) rfl rfl
  case h_9 failed hphase =>
    cases hs
    refine .of_handoff rfl ⟨_, _, _, hO.advance hc id rfl ?_ (.inr ⟨rfl, rfl⟩) rfl rfl⟩
    intro hlost
    refine hO.failures.attempts a (by simp [hc.eq]) ?_
    cases failed <;> simp_all
  case h_10 failed hphase =>
    cases hs
    have herr : a.err = false := by
      apply Bool.eq_false_iff.mpr
      exact fun herr => hrunning (hchain.current.failed herr)
    have hlost : failed = true → h.sendFailed = true := by
      rintro rfl
      exact hO.failures.attempts a (by simp [hc.eq]) (by simp [hphase])
    have hsettled : Output closed p.hasStarted p.log { h with outputErr := h.outputErr || failed }
        processed forwarded report := by
      refine ⟨hO.frames, hO.stream.lose _, hO.channel, ⟨?_, hO.failures.pump, hO.failures.start,
        hO.failures.attempts⟩, hO.reports, hO.announces.lose _⟩
      exact fun hfailed => ((Bool.or_eq_true _ _).mp hfailed).elim hO.failures.outputErr hlost
    exact .of_handoff rfl ⟨_, _, _, hsettled.advance ⟨hr, hchain.attempts, hearlier⟩ id rfl
      (by simp) (.inr ⟨rfl, by simp [herr]⟩) rfl rfl⟩
  case h_11 => cases hs

theorem OutputOk.runAttempt (hp : p.OutputOk closed) (hok : ∀ h, p.handoff = some h → h.ReleaseOk)
    {i : Nat} (hs : p.runAttempt closed i ok = some p') : p'.OutputOk closed := by
  simp only [Preparation.runAttempt, Option.bind_eq_bind, Option.bind_eq_some_iff] at hs
  obtain ⟨h, hh, r, hr, a, ha, hs⟩ := hs
  exact .stepAttempt (hp.during h hh) (hok h hh) hr ha hs

theorem OutputOk.handleExecutionStart (hp : p.OutputOk closed) (hlawful : p.Lawful)
    (hok : ∀ h, p.handoff = some h → h.ReleaseOk) (runID : String) (known free : Bool) :
    (p.handleExecutionStart runID known free).1.OutputOk closed := by
  rcases handleExecutionStart_cases p runID known free with hsame | hpublish | hexpire | hstart
  · rw [hsame]
    exact hp
  · rw [hpublish]
    exact hp.calm hok (.of_same rfl rfl rfl rfl)
  · rw [hexpire]
    exact hp.calm hok (.of_same rfl rfl rfl rfl)
  · rw [hstart.2.2]
    have hnone := hlawful.handoff_eq_none (by simp [hstart.1, PreparationPhase.rank])
    obtain ⟨hframes, hnot⟩ := hp.before hnone
    have hstarted : (p.startExecution runID).hasStarted = false := by
      simp only [hasStarted, Bool.or_eq_false_iff] at hnot
      simp [hasStarted, startExecution, store, hnot.2]
    refine .of_handoff rfl ?_
    rw [hstarted]
    exact .opening closed hframes _

theorem OutputOk.step (hp : p.OutputOk closed) (hsound : p.Sound) {l : Label}
    (hs : p.step closed l = some p') : p'.OutputOk closed := by
  have hok := hsound.release
  cases l with
  | start runID known free =>
    cases effect hs with
    | start => exact hp.handleExecutionStart hsound.lawful hok runID known free
    | handoff hh hg => cases hg
  | starter a =>
    cases effect hs with
    | starter hh hs => exact .stepStart (hp.during _ hh) (hok _ hh) hs
    | handoff hh hg => cases hg
  | pump a =>
    cases effect hs with
    | pump hh hs => exact .stepPump (hp.during _ hh) (hok _ hh) hs
    | handoff hh hg => cases hg
  | attempt i ok => exact hp.runAttempt hok hs
  | write f =>
    cases effect hs with
    | handoff hh hw =>
      rename_i h _
      simp only [Label.onHandoff, Handoff.write] at hw
      split at hw <;> cases hw
      rename_i hengine
      obtain ⟨processed, forwarded, report, hO⟩ := hp.during h hh
      refine .of_handoff rfl ⟨processed, forwarded, report, hO.frames, hO.stream.write,
        ⟨?_, hO.channel.closed, hO.channel.uncalled, hO.channel.sessionless⟩, hO.failures,
        hO.reports, hO.announces⟩
      intro hended
      have hidle := hO.channel.closed (hO.channel.ended hended).2
      simp [hengine.1] at hidle
  | closeOut =>
    cases effect hs with
    | handoff hh hw =>
      rename_i h _
      simp only [Label.onHandoff, Handoff.closeOut] at hw
      split at hw <;> cases hw
      rename_i hengine
      obtain ⟨processed, forwarded, report, hO⟩ := hp.during h hh
      refine .of_handoff rfl ⟨processed, forwarded, report, hO.frames, hO.stream,
        ⟨fun hended => ⟨(hO.channel.ended hended).1, rfl⟩, fun _ => rfl, ?_, fun _ => rfl⟩,
        hO.failures, hO.reports, hO.announces⟩
      intro huncalled
      have hidle := (hO.channel.uncalled huncalled).2
      simp [hengine] at hidle
  | admitOperation | finishOperation =>
    cases effect hs with
    | handoff hh hw =>
      simp only [Label.onHandoff, Handoff.admitOperation, Handoff.finishOperation] at hw
      split at hw <;> cases hw
      exact .of_handoff rfl
        ((hp.during _ hh).of_same rfl rfl rfl rfl rfl rfl rfl rfl rfl rfl rfl)
  | _ => exact hp.calm hok (.step rfl hs)

theorem OutputOk.goes (hp : p.OutputOk closed) (hsound : p.Sound)
    (hgoes : Goes (Preparation.step closed) p p') : p'.OutputOk closed :=
  (hgoes.keeps (I := fun p => p.Sound ∧ p.OutputOk closed)
    (fun _ _ _ hs h => ⟨h.1.step hs, h.2.step h.1 hs⟩) ⟨hsound, hp⟩).2

theorem OutputOk.new (requestID handle : String) (readOnly : Bool) (expiresAt : Int) :
    (Preparation.new requestID handle readOnly expiresAt).OutputOk closed :=
  ⟨fun _ => ⟨rfl, rfl⟩, by simp [Preparation.new]⟩

theorem OutputOk.close (hp : p.OutputOk closed) : p.OutputOk true := by
  refine ⟨hp.before, ?_⟩
  intro h hh
  obtain ⟨processed, forwarded, report, hO⟩ := hp.during h hh
  exact ⟨processed, forwarded, report, hO.close⟩

end Preparation

namespace Router

variable {r r' : Router}

theorem outputs_of_reaches {as : List Label} (hreach : Reaches as r) :
    r.Sound ∧ ∀ p ∈ r.preparations, p.OutputOk r.closed := by
  refine runTrace_invariant (I := fun r => r.Sound ∧ ∀ p ∈ r.preparations, p.OutputOk r.closed)
    ?_ (stepsMeet_true _ as) hreach ⟨⟨by simp, by simp, by simp⟩, by simp⟩
  rintro s l s' - hs ⟨hsound, hall⟩
  refine ⟨hsound.step hs, ?_⟩
  have hstepped := Stepped.step hs
  have hkept : ∀ p ∈ s'.preparations, p.Sound ∧ p.OutputOk s.closed := by
    refine hstepped.preparations.forall_mem (I := fun p => p.Sound ∧ p.OutputOk s.closed) ?_ ?_
      fun p hp => ⟨hsound.each p hp, hall p hp⟩
    · exact fun p p' h hgoes => ⟨h.1.goes hgoes, h.2.goes h.1 hgoes⟩
    · rintro p ⟨requestID, handle, readOnly, expiresAt, rfl, -⟩
      exact ⟨.new .., .new ..⟩
  intro p hp
  have houtput := (hkept p hp).2
  cases hclosed : s'.closed with
  | true => exact houtput.close
  | false =>
    have hopen : s.closed = false := by
      apply Bool.eq_false_iff.mpr
      intro hc
      rw [hstepped.control.closed_le hc] at hclosed
      cases hclosed
    rwa [hopen] at houtput

/-- Of every prepared run at most one `done` was sent, behind the status `started` if any, and no
frame after it; the others are the engine's up to its first `done`, without a gap until a send fails
or the router is shut down, and an error frame of the daemon if the run could not be started. -/
theorem prepared_output_discipline {as : List Label} {r : Router} (hreach : Reaches as r)
    {p : Preparation} (hp : p ∈ r.preparations) {h : Handoff} (hh : p.handoff = some h) :
    (∀ a f b, p.log = a ++ .frame f :: b → f.isDone →
      (∀ g, .frame g ∈ a → g.isDone = false) ∧ (∀ g, .frame g ∉ b) ∧
      ((∃ s ∈ p.stored, s.state = .started) → ∃ s, .status s ∈ a ∧ s.state = .started)) ∧
    ∃ forwarded own, (sentFrames p.log).filter (!·.isDone) = forwarded ++ own ∧
      forwarded <+: beforeDone h.written ∧
      (h.sendFailed = false → r.closed = false →
        ∃ rest, h.written = forwarded ++ rest ∧
          (rest = h.pump.hand ++ h.out ∨ ∃ f, rest.head? = some f ∧ f.isDone)) ∧
      (h.pump = .over → h.pump.hand ++ h.out = []) ∧
      (own = [] ∨ ∃ f, own = [f] ∧ f.type = .error ∧
        f.payload = Preparation.errorPayload Preparation.couldNotStart ∧
        ∀ s ∈ p.stored, s.state ≠ .started) := by
  obtain ⟨-, houtputs⟩ := outputs_of_reaches hreach
  obtain ⟨processed, forwarded, report, hO⟩ := (houtputs p hp).during h hh
  obtain ⟨own, last, hreport, hown, hlast⟩ := hO.reports.shape
  have hstored : (∃ s ∈ p.stored, s.state = .started) → p.hasStarted = true := by
    rintro ⟨s, hs, hstate⟩
    simp only [Preparation.hasStarted, Bool.or_eq_true, List.any_eq_true]
    exact .inr ⟨s, hs, by simpa using hstate⟩
  have hforwarded : ∀ g ∈ forwarded, g.isDone = false :=
    fun g hg => not_isDone_of_mem_beforeDone (hO.stream.sent.subset hg)
  have hownDone : ∀ g ∈ own, g.isDone = false := by
    rcases hown with rfl | ⟨e, rfl, htype, -⟩
    · simp
    · simp [Frame.isDone, htype]
  have hframes : sentFrames p.log = (forwarded ++ own) ++ last := by
    rw [hO.frames, hreport, List.append_assoc]
  have hbefore : ∀ g ∈ forwarded ++ own, g.isDone = false := by
    simp only [List.mem_append]
    rintro g (hg | hg)
    · exact hforwarded g hg
    · exact hownDone g hg
  refine ⟨?_, forwarded, own, ?_, ?_, ?_, ?_, ?_⟩
  · intro a f b hsplit hdone
    have hsent : (forwarded ++ own) ++ last = sentFrames a ++ f :: sentFrames b := by
      rw [← hframes, hsplit]
      simp [sentFrames, Sent.frame?]
    obtain ⟨ha, hb⟩ := Report.split_last hsent hlast hbefore hdone
    refine ⟨?_, ?_, fun hstarted => hO.announces.ordered (hstored hstarted) a f b hsplit hdone⟩
    · exact fun g hg => hbefore g (ha ▸ mem_sentFrames.mpr hg)
    · intro g hg
      have hmem := mem_sentFrames.mpr hg
      simp [hb] at hmem
  · have hall : (forwarded ++ own).filter (!·.isDone) = forwarded ++ own := by
      apply List.filter_eq_self.mpr
      simpa using hbefore
    rw [hframes, List.filter_append, hall]
    rcases hlast with rfl | ⟨f, rfl, hf⟩
    · simp
    · simp [hf]
  · rw [hO.stream.written]
    exact hO.stream.sent.trans (beforeDone_prefix_append _ _)
  · intro hsend hclosed
    refine hO.stream.rest ?_ ?_ hclosed ?_
    · apply Bool.eq_false_iff.mpr
      intro herr
      rw [hO.failures.outputErr herr] at hsend
      cases hsend
    · apply Bool.eq_false_iff.mpr
      intro hinterrupted
      rw [hO.stream.stopped (.inl hinterrupted)] at hclosed
      cases hclosed
    · intro hpump
      rw [hO.failures.pump hpump] at hsend
      cases hsend
  · intro hover
    rw [(hO.channel.ended (.inr hover)).1, hover]
    rfl
  · refine hown.imp_right ?_
    rintro ⟨f, hf, htype, hpayload, hnot⟩
    refine ⟨f, hf, htype, hpayload, ?_⟩
    intro s hs hstate
    rw [hstored ⟨s, hs, hstate⟩] at hnot
    cases hnot

def doneTrace : List Label :=
  startTrace {} ++
  [.preparation 0 (.write ⟨.other, "run", "text"⟩), .preparation 0 (.write ⟨.done, "run", "end"⟩),
    .preparation 0 (.write ⟨.done, "run", "again"⟩), .preparation 0 .closeOut] ++
  List.replicate 9 (.preparation 0 (.pump {})) ++ List.replicate 7 (.preparation 0 (.attempt 0 true))

theorem prepared_output_discipline_done :
    ∃ r p h a b, Reaches doneTrace r ∧ p ∈ r.preparations ∧ p.handoff = some h ∧
      h.written.length = 3 ∧ sentFrames p.log = [⟨.other, "run", "text"⟩, ⟨.done, "run", "end"⟩] ∧
      p.log = a ++ .frame ⟨.done, "run", "end"⟩ :: b ∧ (∀ g, .frame g ∉ b) ∧
      ∃ s, .status s ∈ a ∧ s.state = .started := by
  have hcheck : (runTrace Router.step {} doneTrace).any (fun r => r.preparations.any fun p =>
      p.stored.any (·.state = .started) &&
      (sentFrames p.log = [⟨.other, "run", "text"⟩, ⟨.done, "run", "end"⟩] : Bool) &&
      p.handoff.any (·.written.length = 3)) = true := by
    decide +kernel
  simp only [Option.any_eq_true, List.any_eq_true, Bool.and_eq_true, decide_eq_true_eq] at hcheck
  obtain ⟨r, hreach, p, hp, ⟨⟨s, hs, hstate⟩, hframes⟩, h, hh, hwritten⟩ := hcheck
  have hmem : .frame ⟨.done, "run", "end"⟩ ∈ p.log := by
    rw [← mem_sentFrames, hframes]
    simp
  obtain ⟨a, b, hsplit⟩ := List.append_of_mem hmem
  obtain ⟨-, hafter, hstarted⟩ := (prepared_output_discipline hreach hp hh).1 a _ b hsplit rfl
  exact ⟨r, p, h, a, b, hreach, hp, hh, hwritten, hframes, hsplit, hafter,
    hstarted ⟨s, hs, hstate⟩⟩

def failedTrace : List Label :=
  startTrace { ok := false, value := false } ++
  List.replicate 2 (.preparation 0 (.pump {})) ++ List.replicate 8 (.preparation 0 (.attempt 0 true))

/-- The daemon sends an error frame for a run whose engine has written nothing. -/
theorem error_frame_not_written :
    ∃ r p h, Reaches failedTrace r ∧ p ∈ r.preparations ∧ p.handoff = some h ∧ h.written = [] ∧
      h.sendFailed = false ∧ r.closed = false ∧
      sentFrames p.log =
        [⟨.error, "run", "\x7b\"error\":\"prepared execution could not start\"\x7d"⟩,
          ⟨.done, "run", "\x7b\"content\":\"\"\x7d"⟩] ∧
      ¬ (sentFrames p.log).filter (!·.isDone) <+: beforeDone h.written := by
  have hcheck : (runTrace Router.step {} failedTrace).any (fun r => r.closed = false &&
      r.preparations.any fun p =>
        (sentFrames p.log =
          [⟨.error, "run", "\x7b\"error\":\"prepared execution could not start\"\x7d"⟩,
            ⟨.done, "run", "\x7b\"content\":\"\"\x7d"⟩] : Bool) &&
        p.handoff.any fun h => h.written = [] && !h.sendFailed) = true := by
    decide +kernel
  simp only [Option.any_eq_true, List.any_eq_true, Bool.and_eq_true, decide_eq_true_eq,
    Bool.not_eq_true'] at hcheck
  obtain ⟨r, hreach, hopen, p, hp, hframes, h, hh, hwritten, hsend⟩ := hcheck
  refine ⟨r, p, h, hreach, hp, hh, hwritten, hsend, hopen, hframes, ?_⟩
  rw [hframes, hwritten]
  decide

end Router

end Parsar.Dispatch
