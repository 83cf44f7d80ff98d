import Parsar.Dispatch.Sound
import Parsar.Dispatch.Stream

namespace Parsar.Dispatch

def Sent.frame? : Sent → Option Frame
  | frame f => some f
  | status _ => none

def sentFrames (log : List Sent) : List Frame := log.filterMap Sent.frame?

@[simp] theorem sentFrames_status (log : List Sent) (s : Status) :
    sentFrames (log ++ [.status s]) = sentFrames log := by
  rw [sentFrames, List.filterMap_append]
  exact List.append_nil _

@[simp] theorem sentFrames_frame (log : List Sent) (f : Frame) :
    sentFrames (log ++ [.frame f]) = sentFrames log ++ [f] := by
  rw [sentFrames, List.filterMap_append]
  rfl

variable {log : List Sent}

theorem mem_sentFrames {f : Frame} : f ∈ sentFrames log ↔ .frame f ∈ log := by
  simp only [sentFrames, List.mem_filterMap]
  constructor
  · rintro ⟨s, hs, hf⟩
    cases s <;> cases hf
    exact hs
  · exact fun hf => ⟨_, hf, rfl⟩

def StartedSent (log : List Sent) : Prop := ∃ s, .status s ∈ log ∧ s.state = .started

/-- Every `done` was sent after the status of a started run. -/
def DoneAfterStarted (log : List Sent) : Prop :=
  ∀ a f b, log = a ++ .frame f :: b → f.isDone → StartedSent a

theorem StartedSent.append (h : StartedSent log) (more : List Sent) :
    StartedSent (log ++ more) := by
  obtain ⟨s, hs, hstate⟩ := h
  exact ⟨s, List.mem_append_left _ hs, hstate⟩

theorem DoneAfterStarted.append (h : DoneAfterStarted log) {x : Sent}
    (hx : ∀ f, x = .frame f → f.isDone → StartedSent log) : DoneAfterStarted (log ++ [x]) := by
  intro a f b hsplit hdone
  rcases append_singleton_split hsplit with ⟨rfl, hf, -⟩ | ⟨b', -, hlog⟩
  · exact hx f hf.symm hdone
  · exact h a f b' hlog hdone

@[simp] def StartPhase.uncalled : StartPhase → Bool
  | opening _ | sendingStarting _ | startingFailed | abandoningOut | checking | calling true => true
  | _ => false

@[simp] def StartPhase.sessionless : StartPhase → Bool
  | returned false _ | closingOut _ _ _ => true
  | _ => false

@[simp] def StartPhase.answered : StartPhase → Bool
  | closingOut _ _ _ | sendingStatus _ _ _ | publishing _ _ _ | unlocking | .over => true
  | _ => false

/-- A status was not delivered, and `outputErr` not set for it yet. -/
@[simp] def StartPhase.undelivered : StartPhase → Bool
  | startingFailed | publishing _ _ false => true
  | _ => false

@[simp] def AttemptPhase.silent : AttemptPhase → Bool
  | reportingDone _ | cleaning _ | settling _ | .over => false
  | _ => true

@[simp] def AttemptPhase.reports : AttemptPhase → Bool
  | reportingError _ _ | reportingDone _ => true
  | _ => false

@[simp] def AttemptPhase.undelivered : AttemptPhase → Bool
  | cleaning true | settling true => true
  | _ => false

namespace Handoff

def attempts (h : Handoff) : List Attempt := (h.release.map (·.attempts)).getD []

def failure (h : Handoff) : String := (h.release.map (·.failure)).getD ""

end Handoff

structure Channel (start : StartPhase) (pump : PumpPhase) (out : List Frame)
    (outClosed engine : Bool) : Prop where
  ended : pump = .outClosed ∨ pump = .over → out = [] ∧ outClosed
  closed : outClosed → engine = false
  uncalled : start.uncalled → outClosed = false ∧ engine = false
  sessionless : start.sessionless → engine = false

structure Failures (start : StartPhase) (pump : PumpPhase) (outputErr sendFailed : Bool)
    (attempts : List Attempt) : Prop where
  outputErr : outputErr → sendFailed
  pump : pump = .sendFailed → sendFailed
  start : start.undelivered → sendFailed
  attempts : ∀ a ∈ attempts, a.phase.undelivered → sendFailed

/-- What the daemon sends of its own when the run has ended: an error for a start that failed, and
`done`. -/
def Report (started : Bool) (report : List Frame) : Prop :=
  ∃ own last, report = own ++ last ∧
    (own = [] ∨ ∃ f, own = [f] ∧ f.type = .error ∧
      f.payload = Preparation.errorPayload Preparation.couldNotStart ∧ started = false) ∧
    (last = [] ∨ ∃ f, last = [f] ∧ f.isDone)

structure Reports (started : Bool) (start : StartPhase) (failure : String)
    (attempts : List Attempt) (report : List Frame) : Prop where
  shape : Report started report
  reported : report ≠ [] → ∃ a ∈ attempts, a.hasJoined
  silent : ∀ a ∈ attempts, a.phase.silent → report = []
  error : ∀ a ∈ attempts, ∀ failure terminal, a.phase = .reportingError failure terminal →
    failure = Preparation.couldNotStart ∧ started = false ∧ ∀ f, terminal = some f → f.isDone
  done : ∀ a ∈ attempts, ∀ f, a.phase = .reportingDone f →
    f.isDone ∧ ∀ g ∈ report, g.isDone = false
  failure : failure = "" ∨
    failure = Preparation.couldNotStart ∧ started = false ∧ start.answered

@[simp] def Announced (log : List Sent) (outputErr : Bool) : StartPhase → Prop
  | .sendingStatus s true _ => s.state = .started
  | .publishing true _ delivered => delivered → StartedSent log
  | .unlocking | .over => StartedSent log ∨ outputErr
  | _ => False

structure Announces (started : Bool) (log : List Sent) (start : StartPhase) (outputErr : Bool)
    (attempts : List Attempt) : Prop where
  start : started → Announced log outputErr start
  reporting : started → ∀ a ∈ attempts, a.phase.reports → StartedSent log
  ordered : started → DoneAfterStarted log

structure Output (closed started : Bool) (log : List Sent) (h : Handoff)
    (processed forwarded report : List Frame) : Prop where
  frames : sentFrames log = forwarded ++ report
  stream : Stream closed h.outputErr h.shutdownInterrupted h.pump h.written h.out h.terminal
    processed forwarded
  channel : Channel h.start h.pump h.out h.outClosed h.engine
  failures : Failures h.start h.pump h.outputErr h.sendFailed h.attempts
  reports : Reports started h.start h.failure h.attempts report
  announces : Announces started log h.start h.outputErr h.attempts

def Handoff.OutputOk (closed started : Bool) (log : List Sent) (h : Handoff) : Prop :=
  ∃ processed forwarded report, Output closed started log h processed forwarded report

namespace Failures

variable {start : StartPhase} {pump : PumpPhase} {outputErr sendFailed : Bool}
  {attempts earlier : List Attempt} {a b : Attempt}

theorem set (h : Failures start pump outputErr sendFailed (earlier ++ [a]))
    (hb : b.phase.undelivered → sendFailed) :
    Failures start pump outputErr sendFailed (earlier ++ [b]) := by
  refine ⟨h.outputErr, h.pump, h.start, forall_mem_concat (fun c hc => ?_) hb⟩
  exact h.attempts c (List.mem_append_left _ hc)

variable (h : Failures start pump outputErr sendFailed attempts)

include h

theorem of_start {start' : StartPhase}
    (hstart : start'.undelivered = false) : Failures start' pump outputErr sendFailed attempts :=
  ⟨h.outputErr, h.pump, by rw [hstart]; simp, h.attempts⟩

theorem of_pump {pump' : PumpPhase}
    (hpump : pump' ≠ .sendFailed) : Failures start pump' outputErr sendFailed attempts :=
  ⟨h.outputErr, fun hp => absurd hp hpump, h.start, h.attempts⟩

theorem mono {failed : Bool}
    (hle : sendFailed → failed) : Failures start pump outputErr failed attempts :=
  ⟨hle ∘ h.outputErr, hle ∘ h.pump, hle ∘ h.start, fun a ha hphase => hle (h.attempts a ha hphase)⟩

theorem add (retry : Bool) :
    Failures start pump outputErr sendFailed (attempts ++ [{ retry := retry }]) := by
  exact ⟨h.outputErr, h.pump, h.start, forall_mem_concat h.attempts fun hphase => nomatch hphase⟩

end Failures

namespace Report

variable {started : Bool} {report : List Frame}

theorem nil : Report started [] := ⟨[], [], rfl, .inl rfl, .inl rfl⟩

theorem error {f : Frame} (htype : f.type = .error)
    (hpayload : f.payload = Preparation.errorPayload Preparation.couldNotStart)
    (hstarted : started = false) : Report started [f] :=
  ⟨[f], [], rfl, .inr ⟨f, rfl, htype, hpayload, hstarted⟩, .inl rfl⟩

theorem done (h : Report started report) (hnone : ∀ g ∈ report, g.isDone = false) {f : Frame}
    (hf : f.isDone) : Report started (report ++ [f]) := by
  obtain ⟨own, last, rfl, hown, hlast⟩ := h
  rcases hlast with rfl | ⟨g, rfl, hg⟩
  · exact ⟨own, [f], by simp, hown, .inr ⟨f, rfl, hf⟩⟩
  · have := hnone g (by simp)
    simp [hg] at this

theorem split_last {xs last ys zs : List Frame} {f : Frame} (h : xs ++ last = ys ++ f :: zs)
    (hlast : last = [] ∨ ∃ g, last = [g] ∧ g.isDone) (hxs : ∀ g ∈ xs, g.isDone = false)
    (hf : f.isDone) : ys = xs ∧ zs = [] := by
  have hnot : f ∉ xs := by
    intro hmem
    have := hxs f hmem
    simp [hf] at this
  rcases hlast with rfl | ⟨g, rfl, -⟩
  · rw [List.append_nil] at h
    exact absurd (h ▸ by simp) hnot
  · rcases append_singleton_split h with ⟨hys, -, hzs⟩ | ⟨zs', -, hxs'⟩
    · exact ⟨hys, hzs⟩
    · exact absurd (hxs' ▸ by simp) hnot

theorem unstart (h : Report started report) {started' : Bool} (hle : started' → started) :
    Report started' report := by
  obtain ⟨own, last, heq, hown, hlast⟩ := h
  refine ⟨own, last, heq, hown.imp_right ?_, hlast⟩
  rintro ⟨f, hf, htype, hpayload, rfl⟩
  exact ⟨f, hf, htype, hpayload, by simpa using hle⟩

end Report

namespace Reports

variable {started : Bool} {start : StartPhase} {failure : String} {attempts earlier : List Attempt}
  {report : List Frame} {a b : Attempt}

theorem set (h : Reports started start failure (earlier ++ [a]) report)
    (hearlier : ∀ c ∈ earlier, c.phase = .over) {report' : List Frame}
    (hreport : Report started report') (hjoined : report' ≠ [] → b.hasJoined)
    (hsilent : b.phase.silent → report' = [])
    (herror : ∀ f t, b.phase = .reportingError f t →
      f = Preparation.couldNotStart ∧ started = false ∧ ∀ g, t = some g → g.isDone)
    (hdone : ∀ f, b.phase = .reportingDone f → f.isDone ∧ ∀ g ∈ report', g.isDone = false) :
    Reports started start failure (earlier ++ [b]) report' := by
  have hcases : ∀ c ∈ earlier ++ [b], c.phase = .over ∨ c = b :=
    forall_mem_concat (fun c hc => .inl (hearlier c hc)) (.inr rfl)
  refine ⟨hreport, fun hne => ⟨b, by simp, hjoined hne⟩, ?_, ?_, ?_, h.failure⟩
  · intro c hc hphase
    rcases hcases c hc with hover | rfl
    · simp [hover] at hphase
    · exact hsilent hphase
  · intro c hc f t hphase
    rcases hcases c hc with hover | rfl
    · simp [hover] at hphase
    · exact herror f t hphase
  · intro c hc f hphase
    rcases hcases c hc with hover | rfl
    · simp [hover] at hphase
    · exact hdone f hphase

variable (h : Reports started start failure attempts report)

include h

theorem of_start {start' : StartPhase}
    (hanswered : start.answered → start'.answered) :
    Reports started start' failure attempts report :=
  ⟨h.shape, h.reported, h.silent, h.error, h.done,
    h.failure.imp_right fun hf => ⟨hf.1, hf.2.1, hanswered hf.2.2⟩⟩

theorem unstart {started' : Bool}
    (hle : started' → started) : Reports started' start failure attempts report := by
  have hfalse : started = false → started' = false := by
    rintro rfl
    simpa using hle
  exact ⟨h.shape.unstart hle, h.reported, h.silent,
    fun a ha f t hphase => ⟨(h.error a ha f t hphase).1, hfalse (h.error a ha f t hphase).2.1,
      (h.error a ha f t hphase).2.2⟩,
    h.done, h.failure.imp_right fun hf => ⟨hf.1, hfalse hf.2.1, hf.2.2⟩⟩

theorem eq_nil
    (hnone : ∀ a ∈ attempts, a.hasJoined = false) : report = [] := by
  by_contra hne
  obtain ⟨a, ha, hjoined⟩ := h.reported hne
  rw [hnone a ha] at hjoined
  cases hjoined

theorem add
    (hnone : ∀ a ∈ attempts, a.hasJoined = false) (retry : Bool) :
    Reports started start failure (attempts ++ [{ retry := retry }]) report := by
  have hnil := h.eq_nil hnone
  exact ⟨h.shape, fun hne => absurd hnil hne, fun _ _ _ => hnil,
    forall_mem_concat h.error (fun _ _ hphase => nomatch hphase),
    forall_mem_concat h.done (fun _ hphase => nomatch hphase), h.failure⟩

end Reports

namespace Announces

variable {started : Bool} {log : List Sent} {start : StartPhase} {outputErr : Bool}
  {attempts earlier : List Attempt} {a b : Attempt}

theorem set (h : Announces started log start outputErr (earlier ++ [a]))
    (hb : b.phase.reports → started → StartedSent log) :
    Announces started log start outputErr (earlier ++ [b]) := by
  refine ⟨h.start, fun hstarted => forall_mem_concat (fun c hc => ?_) (hb · hstarted), h.ordered⟩
  exact h.reporting hstarted c (List.mem_append_left _ hc)

variable (h : Announces started log start outputErr attempts)

include h

theorem of_start {start' : StartPhase}
    (hstart : Announced log outputErr start → Announced log outputErr start') :
    Announces started log start' outputErr attempts :=
  ⟨hstart ∘ h.start, h.reporting, h.ordered⟩

theorem unstart {started' : Bool}
    (hle : started' → started) : Announces started' log start outputErr attempts :=
  ⟨h.start ∘ hle, h.reporting ∘ hle, h.ordered ∘ hle⟩

theorem lose (lost : Bool) :
    Announces started log start (outputErr || lost) attempts := by
  refine ⟨?_, h.reporting, h.ordered⟩
  intro hstarted
  have hbefore := h.start hstarted
  cases start with
  | sendingStatus s flag session => cases flag <;> exact hbefore
  | publishing flag session delivered => cases flag <;> exact hbefore
  | _ => first | exact hbefore | exact hbefore.imp_right (by simp +contextual)

theorem append {x : Sent}
    (hx : ∀ f, x = .frame f → f.isDone → started → StartedSent log) :
    Announces started (log ++ [x]) start outputErr attempts := by
  refine ⟨?_, ?_, ?_⟩
  · intro hstarted
    have hbefore := h.start hstarted
    cases start with
    | sendingStatus s flag session => cases flag <;> exact hbefore
    | publishing flag session delivered =>
      cases flag with
      | true => exact fun hd => (hbefore hd).append _
      | false => exact hbefore
    | _ => first | exact hbefore | exact hbefore.imp_left (·.append _)
  · exact fun hstarted a ha hphase => (h.reporting hstarted a ha hphase).append _
  · exact fun hstarted => (h.ordered hstarted).append fun f hf hdone => hx f hf hdone hstarted

theorem add (retry : Bool) :
    Announces started log start outputErr (attempts ++ [{ retry := retry }]) := by
  refine ⟨h.start, fun hstarted => forall_mem_concat (h.reporting hstarted) ?_, h.ordered⟩
  exact fun hphase => nomatch hphase

end Announces

namespace Channel

variable {start : StartPhase} {pump : PumpPhase} {out : List Frame} {outClosed engine : Bool}

theorem of_end (h : Channel start pump [] true engine) (pump' : PumpPhase) :
    Channel start pump' [] true engine :=
  ⟨fun _ => ⟨rfl, rfl⟩, h.closed, h.uncalled, h.sessionless⟩

variable (h : Channel start pump out outClosed engine)

include h

theorem of_pump {pump' : PumpPhase}
    (hpump : pump' ≠ .outClosed ∧ pump' ≠ .over) (out' : List Frame) :
    Channel start pump' out' outClosed engine :=
  ⟨by simp [hpump], h.closed, h.uncalled, h.sessionless⟩

theorem of_start {start' : StartPhase}
    (huncalled : start'.uncalled → start.uncalled)
    (hsessionless : start'.sessionless → start.uncalled ∨ start.sessionless) :
    Channel start' pump out outClosed engine :=
  ⟨h.ended, h.closed, h.uncalled ∘ huncalled,
    fun hs => (hsessionless hs).elim (fun hu => (h.uncalled hu).2) h.sessionless⟩

theorem close {start' : StartPhase}
    (hidle : engine = false) (huncalled : start'.uncalled = false) :
    Channel start' pump out true engine :=
  ⟨fun hp => ⟨(h.ended hp).1, rfl⟩, fun _ => hidle, by rw [huncalled]; simp, fun _ => hidle⟩

end Channel

theorem Attempt.not_hasJoined_of_hasFailed {a : Attempt} (h : a.hasFailed) :
    a.hasJoined = false := by
  simp only [hasFailed, Bool.and_eq_true, decide_eq_true_eq] at h
  simp [hasJoined, h]

theorem Attempt.hasJoined_of_reports (a : Attempt) (h : a.phase.reports) : a.hasJoined := by
  unfold AttemptPhase.reports at h
  unfold hasJoined
  split at h <;> simp_all

namespace Handoff

variable {h : Handoff} {r : Release}

theorem attempts_eq (hr : h.release = some r) : h.attempts = r.attempts := by simp [attempts, hr]

theorem failure_eq (hr : h.release = some r) : h.failure = r.failure := by simp [failure, hr]

theorem ReleaseOk.stopped (hok : h.ReleaseOk) {a : Attempt} (ha : a ∈ h.attempts)
    (hjoined : a.hasJoined) : h.start = .over ∧ h.pump = .over := by
  cases hr : h.release with
  | none => simp [attempts, hr] at ha
  | some r =>
    rw [attempts_eq hr] at ha
    obtain ⟨earlier, current, hchain, -, hstopped, -⟩ := hok.chain r hr
    rw [hchain.attempts, List.mem_append, List.mem_singleton] at ha
    rcases ha with hearlier | rfl
    · rw [Attempt.not_hasJoined_of_hasFailed (hchain.failed a hearlier).1] at hjoined
      cases hjoined
    · exact hstopped hjoined

theorem ReleaseOk.none_joined (hok : h.ReleaseOk) (hrunning : h.start ≠ .over ∨ h.pump ≠ .over) :
    ∀ a ∈ h.attempts, a.hasJoined = false := by
  intro a ha
  apply Bool.eq_false_iff.mpr
  intro hjoined
  obtain ⟨hstart, hpump⟩ := hok.stopped ha hjoined
  rcases hrunning with hrunning | hrunning
  · exact hrunning hstart
  · exact hrunning hpump

end Handoff

namespace Output

variable {closed started : Bool} {log : List Sent} {h : Handoff}
  {processed forwarded report : List Frame}

section

variable (hO : Output closed started log h processed forwarded report)

include hO

theorem unstart {started' : Bool}
    (hle : started' → started) : Output closed started' log h processed forwarded report :=
  ⟨hO.frames, hO.stream, hO.channel, hO.failures, hO.reports.unstart hle, hO.announces.unstart hle⟩

theorem close : Output true started log h processed forwarded report :=
  ⟨hO.frames, hO.stream.close, hO.channel, hO.failures, hO.reports, hO.announces⟩

theorem status (s : Status) :
    Output closed started (log ++ [.status s]) h processed forwarded report :=
  ⟨by simpa using hO.frames, hO.stream, hO.channel, hO.failures,
    hO.reports, hO.announces.append (by simp)⟩

theorem of_pump {pump : PumpPhase} {out processed' : List Frame} {terminal : Option Frame}
    (hstream : Stream closed h.outputErr h.shutdownInterrupted pump h.written out terminal
      processed' forwarded) (hpump : (pump ≠ .outClosed ∧ pump ≠ .over) ∧ pump ≠ .sendFailed) :
    Output closed started log { h with pump := pump, out := out, terminal := terminal } processed'
      forwarded report :=
  ⟨hO.frames, hstream, hO.channel.of_pump hpump.1 _, hO.failures.of_pump hpump.2, hO.reports,
    hO.announces⟩

theorem ended {pump : PumpPhase} (hout : h.out = []) (hclosed : h.outClosed = true)
    (hstream : Stream closed h.outputErr h.shutdownInterrupted pump h.written h.out h.terminal
      processed forwarded) (hpump : pump ≠ .sendFailed) :
    Output closed started log { h with pump := pump } processed forwarded report := by
  have hchannel := hO.channel
  rw [hout, hclosed] at hchannel
  refine ⟨hO.frames, hstream, ?_, hO.failures.of_pump hpump, hO.reports, hO.announces⟩
  rw [hout, hclosed]
  exact hchannel.of_end pump

theorem of_start {start : StartPhase} {failed : Bool} (hfailed : h.sendFailed → failed)
    (hundelivered : start.undelivered → failed) (huncalled : start.uncalled → h.start.uncalled)
    (hsessionless : start.sessionless → h.start.uncalled ∨ h.start.sessionless)
    (hanswered : h.start.answered → start.answered)
    (hannounced : Announced log h.outputErr h.start → Announced log h.outputErr start) :
    Output closed started log { h with start := start, sendFailed := failed } processed forwarded
      report :=
  ⟨hO.frames, hO.stream, hO.channel.of_start huncalled hsessionless,
    { hO.failures.mono hfailed with start := hundelivered }, hO.reports.of_start hanswered,
    hO.announces.of_start hannounced⟩

theorem claim (hok : h.ReleaseOk)
    {failure : String} (hfailure : failure = "" ∨
      failure = Preparation.couldNotStart ∧ started = false ∧ h.start.answered)
    (abort retry : Bool) :
    Output closed started log (h.claim abort failure retry).1 processed forwarded report := by
  cases hr : h.release with
  | none =>
    rw [Handoff.claim_first hr]
    have hattempts : h.attempts = [] := by simp [Handoff.attempts, hr]
    have hfailures := hO.failures.add retry
    have hreports := hO.reports.add (by simp [hattempts]) retry
    have hannounces := hO.announces.add retry
    rw [hattempts] at hfailures hreports hannounces
    exact ⟨hO.frames, hO.stream, hO.channel, hfailures, { hreports with failure := hfailure },
      hannounces⟩
  | some r =>
    rw [Handoff.claim_again hr]
    have hattempts := Handoff.attempts_eq hr
    have hfailures := hO.failures
    have hreports := hO.reports
    have hannounces := hO.announces
    rw [hattempts] at hfailures hreports hannounces
    rw [Handoff.failure_eq hr] at hreports
    cases hneeds : r.needsAttempt retry with
    | false => exact ⟨hO.frames, hO.stream, hO.channel, hfailures, hreports, hannounces⟩
    | true =>
      obtain ⟨earlier, current, hchain, -⟩ := hok.chain r hr
      have hnone : ∀ a ∈ r.attempts, a.hasJoined = false := by
        rw [hchain.attempts]
        exact forall_mem_concat (fun a ha => Attempt.not_hasJoined_of_hasFailed (hchain.failed a ha).1)
          (Attempt.not_hasJoined_of_hasFailed (hchain.of_needsAttempt hneeds).1)
      exact ⟨hO.frames, hO.stream, hO.channel, hfailures.add retry, hreports.add hnone retry,
        hannounces.add retry⟩

end

variable {r : Release} {a b : Attempt} {earlier : List Attempt}

theorem of_attempt {g : Handoff} {i : Nat}
    (hset : r.attempts.set i b = earlier ++ [b]) (hframes : sentFrames log = forwarded ++ report)
    (hstream : Stream closed g.outputErr g.shutdownInterrupted g.pump g.written g.out g.terminal
      processed forwarded)
    (hchannel : Channel g.start g.pump g.out g.outClosed g.engine)
    (hfailures : Failures g.start g.pump g.outputErr g.sendFailed (earlier ++ [b]))
    (hreports : Reports started g.start r.failure (earlier ++ [b]) report)
    (hannounces : Announces started log g.start g.outputErr (earlier ++ [b])) :
    Output closed started log (g.setAttempt r i b) processed forwarded report := by
  have hattempts : (g.setAttempt r i b).attempts = earlier ++ [b] := hset
  refine ⟨hframes, hstream, hchannel, ?_, ?_, ?_⟩
  · rw [hattempts]
    exact hfailures
  · rw [hattempts]
    exact hreports
  · rw [hattempts]
    exact hannounces

structure Current (h : Handoff) (r : Release) (earlier : List Attempt) (a : Attempt) : Prop where
  release : h.release = some r
  attempts : r.attempts = earlier ++ [a]
  earlier : ∀ c ∈ earlier, c.phase = .over

theorem Current.set (hc : Current h r earlier a) (b : Attempt) :
    r.attempts.set earlier.length b = earlier ++ [b] := by
  simp [hc.attempts]

theorem Current.eq (hc : Current h r earlier a) : h.attempts = earlier ++ [a] :=
  (Handoff.attempts_eq hc.release).trans hc.attempts

theorem Current.parts (hc : Current h r earlier a)
    (hO : Output closed started log h processed forwarded report) : a ∈ h.attempts ∧
      Failures h.start h.pump h.outputErr h.sendFailed (earlier ++ [a]) ∧
      Reports started h.start r.failure (earlier ++ [a]) report ∧
      Announces started log h.start h.outputErr (earlier ++ [a]) := by
  rw [← hc.eq, ← Handoff.failure_eq hc.release]
  exact ⟨by simp [hc.eq], hO.failures, hO.reports, hO.announces⟩

variable (hO : Output closed started log h processed forwarded report)

include hO

theorem advance {r' : Release} (hc : Current h r earlier a) {writing registered failed : Bool}
    (hfailed : h.sendFailed → failed) (hb : b.phase.reports = false)
    (hundelivered : b.phase.undelivered → failed)
    (hphase : a.phase.silent ∨ b.phase.silent = false ∧ b.hasJoined)
    (hattempts : r'.attempts = r.attempts) (hfailure : r'.failure = r.failure) :
    Output closed started log ({ h with
      writing := writing
      registered := registered
      sendFailed := failed }.setAttempt r' earlier.length b) processed forwarded report := by
  obtain ⟨hmem, hfailures, hreports, hannounces⟩ := hc.parts hO
  rw [← hfailure] at hreports
  refine .of_attempt (by rw [hattempts, hc.set]) hO.frames hO.stream hO.channel
    ((hfailures.mono hfailed).set hundelivered)
    (hreports.set hc.earlier hO.reports.shape ?_ ?_ ?_ ?_) (hannounces.set (by rw [hb]; simp))
  · intro hne
    rcases hphase with hsilent | ⟨-, hjoined⟩
    · exact absurd (hO.reports.silent a hmem hsilent) hne
    · exact hjoined
  · intro hsilent
    rcases hphase with hquiet | ⟨hloud, -⟩
    · exact hO.reports.silent a hmem hquiet
    · rw [hloud] at hsilent
      cases hsilent
  · intro f t hphase
    simp [hphase] at hb
  · intro f hphase
    simp [hphase] at hb

theorem collect (hc : Current h r earlier a) (hquiet : a.phase.silent) (hover : h.start = .over)
    (hkept : h.outputErr = false)
    (hb : b.phase = .reportingError r.failure h.terminal ∧ r.failure ≠ "" ∨
      ∃ f, h.terminal = some f ∧ b.phase = .reportingDone f) :
    Output closed started log (h.setAttempt r earlier.length b) processed forwarded report := by
  obtain ⟨hmem, hfailures, hreports, hannounces⟩ := hc.parts hO
  have hnil := hO.reports.silent a hmem hquiet
  refine .of_attempt (hc.set b) hO.frames hO.stream hO.channel (hfailures.set ?_)
    (hreports.set hc.earlier hO.reports.shape (fun hne => absurd hnil hne) (fun _ => hnil) ?_ ?_)
    (hannounces.set ?_)
  · rcases hb with ⟨hphase, -⟩ | ⟨f, -, hphase⟩ <;> simp [hphase]
  · intro f t hphase
    rcases hb with ⟨herror, hfailure⟩ | ⟨f, -, hdone⟩
    · rw [herror] at hphase
      cases hphase
      obtain ⟨hcould, hstarted, -⟩ := hreports.failure.resolve_left hfailure
      exact ⟨hcould, hstarted, hO.stream.terminal⟩
    · simp [hdone] at hphase
  · intro f hphase
    rcases hb with ⟨herror, -⟩ | ⟨g, hg, hdone⟩
    · simp [herror] at hphase
    · rw [hdone] at hphase
      cases hphase
      exact ⟨hO.stream.terminal f hg, by simp [hnil]⟩
  · intro _ hstarted
    have hannounced := hannounces.start hstarted
    rw [hover] at hannounced
    exact hannounced.resolve_right (by simp [hkept])

theorem reportError (hc : Current h r earlier a) {failure : String} {terminal : Option Frame}
    (hphase : a.phase = .reportingError failure terminal) {f last : Frame} (htype : f.type = .error)
    (hpayload : f.payload = Preparation.errorPayload failure) (hb : b.phase = .reportingDone last)
    (hlast : last.isDone) :
    Output closed started (log ++ [.frame f]) (h.setAttempt r earlier.length b) processed forwarded
      [f] := by
  obtain ⟨hmem, hfailures, hreports, hannounces⟩ := hc.parts hO
  have hnil := hO.reports.silent a hmem (by simp [hphase])
  obtain ⟨hcould, hstarted, -⟩ := hO.reports.error a hmem failure terminal hphase
  have hnot : f.isDone = false := by simp [Frame.isDone, htype]
  refine .of_attempt (hc.set b) ?_ hO.stream hO.channel (hfailures.set ?_)
    (hreports.set hc.earlier (.error htype (hcould ▸ hpayload) hstarted) ?_ ?_ ?_ ?_)
    ((hannounces.append ?_).set ?_)
  · simp [hO.frames, hnil]
  · simp [hb]
  · simp [hb]
  · simp [hb]
  · simp [hb]
  · intro g hg
    rw [hb] at hg
    cases hg
    exact ⟨hlast, by simp [hnot]⟩
  · rintro g ⟨⟩ hdone
    rw [hnot] at hdone
    cases hdone
  · intro _ hs
    rw [hstarted] at hs
    cases hs

theorem reportDone (hc : Current h r earlier a) {f : Frame} (hphase : a.phase = .reportingDone f)
    (hb : b.phase = .cleaning false) :
    Output closed started (log ++ [.frame f]) (h.setAttempt r earlier.length b) processed forwarded
      (report ++ [f]) := by
  obtain ⟨hmem, hfailures, hreports, hannounces⟩ := hc.parts hO
  obtain ⟨hdone, hnone⟩ := hO.reports.done a hmem f hphase
  refine .of_attempt (hc.set b) ?_ hO.stream hO.channel (hfailures.set ?_)
    (hreports.set hc.earlier (hO.reports.shape.done hnone hdone) ?_ ?_ ?_ ?_)
    ((hannounces.append ?_).set ?_)
  · simp [hO.frames]
  · simp [hb]
  · simp [hb]
  · simp [hb]
  · simp [hb]
  · simp [hb]
  · rintro g ⟨⟩ - hstarted
    exact hO.announces.reporting hstarted a hmem (by simp [hphase])
  · simp [hb]

end Output

theorem Handoff.OutputOk.opening (closed : Bool) (hlog : sentFrames log = [])
    (s : Status) : Handoff.OutputOk closed false log { start := .opening s } := by
  refine ⟨[], [], [], hlog, .opening, ?_, ?_, ?_, ?_⟩
  · constructor <;> simp
  · constructor <;> simp [Handoff.attempts]
  · exact ⟨.nil, by simp, by simp, by simp [Handoff.attempts], by simp [Handoff.attempts], .inl rfl⟩
  · constructor <;> simp

namespace Handoff.OutputOk

variable {closed started : Bool} {log : List Sent} {h : Handoff}

variable (hO : h.OutputOk closed started log)

include hO

theorem of_unanswered (start : StartPhase) (hbefore : Announced log h.outputErr h.start → False)
    (hnot : h.start.answered = false) (hundelivered : start.undelivered = false)
    (huncalled : start.uncalled → h.start.uncalled)
    (hsessionless : start.sessionless → h.start.uncalled ∨ h.start.sessionless) :
    Handoff.OutputOk closed started log { h with start := start } := by
  obtain ⟨processed, forwarded, report, hO⟩ := hO
  exact ⟨processed, forwarded, report, hO.of_start id (by rw [hundelivered]; simp)
    huncalled hsessionless (by rw [hnot]; simp) fun h => (hbefore h).elim⟩

theorem of_channel {start : StartPhase} {outClosed engine : Bool}
    (hchannel : Channel h.start h.pump h.out h.outClosed h.engine →
      Channel start h.pump h.out outClosed engine) (hundelivered : start.undelivered = false)
    (hanswered : h.start.answered → start.answered)
    (hannounced : Announced log h.outputErr h.start → Announced log h.outputErr start) :
    Handoff.OutputOk closed started log
      { h with start := start, outClosed := outClosed, engine := engine } := by
  obtain ⟨processed, forwarded, report, hO⟩ := hO
  exact ⟨processed, forwarded, report, hO.frames, hO.stream, hchannel hO.channel,
    hO.failures.of_start hundelivered, hO.reports.of_start hanswered,
    hO.announces.of_start hannounced⟩

theorem not_started (hbefore : Announced log h.outputErr h.start → False) : started = false := by
  obtain ⟨processed, forwarded, report, hO⟩ := hO
  apply Bool.eq_false_iff.mpr
  exact fun hstarted => hbefore (hO.announces.start hstarted)

theorem of_same {h' : Handoff} (hstart : h'.start = h.start) (hpump : h'.pump = h.pump)
    (hrelease : h'.release = h.release) (hterminal : h'.terminal = h.terminal)
    (houtputErr : h'.outputErr = h.outputErr)
    (hinterrupted : h'.shutdownInterrupted = h.shutdownInterrupted) (hout : h'.out = h.out)
    (houtClosed : h'.outClosed = h.outClosed) (hengine : h'.engine = h.engine)
    (hwritten : h'.written = h.written) (hsendFailed : h'.sendFailed = h.sendFailed) :
    h'.OutputOk closed started log := by
  obtain ⟨processed, forwarded, report, hO⟩ := hO
  have hattempts : h'.attempts = h.attempts := by simp [attempts, hrelease]
  have hfailure : h'.failure = h.failure := by simp [failure, hrelease]
  refine ⟨processed, forwarded, report, hO.frames, ?_, ?_, ?_, ?_, ?_⟩
  · rw [houtputErr, hinterrupted, hpump, hwritten, hout, hterminal]
    exact hO.stream
  · rw [hstart, hpump, hout, houtClosed, hengine]
    exact hO.channel
  · rw [hstart, hpump, houtputErr, hsendFailed, hattempts]
    exact hO.failures
  · rw [hstart, hfailure, hattempts]
    exact hO.reports
  · rw [hstart, houtputErr, hattempts]
    exact hO.announces

theorem claim (hok : h.ReleaseOk) (abort retry : Bool) :
    (h.claim abort "" retry).1.OutputOk closed started log := by
  obtain ⟨processed, forwarded, report, hO⟩ := hO
  exact ⟨processed, forwarded, report, hO.claim hok (.inl rfl) abort retry⟩

theorem unstart {started' : Bool} (hle : started' → started) : h.OutputOk closed started' log := by
  obtain ⟨processed, forwarded, report, hO⟩ := hO
  exact ⟨processed, forwarded, report, hO.unstart hle⟩

theorem sent_status (ok : Bool) (s : Status) :
    h.OutputOk closed started (if ok then log ++ [.status s] else log) := by
  obtain ⟨processed, forwarded, report, hO⟩ := hO
  cases ok with
  | true => exact ⟨processed, forwarded, report, hO.status s⟩
  | false => exact ⟨processed, forwarded, report, hO⟩

end Handoff.OutputOk

end Parsar.Dispatch
