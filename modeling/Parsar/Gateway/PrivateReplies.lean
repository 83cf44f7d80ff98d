import Parsar.Gateway.Invariants

namespace Parsar.Gateway

def FrameType.isPrivate : FrameType → Bool
  | .workspaceWriteResult | .workspaceReadResult | .workspaceExportResult | .preparationStatus
  | .heartbeat | .interactionDecisionAck => true
  | _ => false

namespace System

def closeLabels (s : SessionID) (order : List String) (reason : String) : List Label :=
  .closeBegin s :: .closeSwap s ::
    (order.flatMap (fun run => [.closeSubscription s run reason, .closeDetach s]) ++
      [.closeDeregister s])

def fanCall (st : System) (s : SessionID) (env : Envelope) : Option System := do
  let st ← st.step (.dispatchToSubscriber s env)
  let sess ← st.sessions s
  if sess.call.isSome then st.step (.runCall s) else some st

/-- `dispatch` up to its return while no other goroutine moves; nothing comes back where it waits
for one. -/
def dispatchCall (st : System) (s : SessionID) (retired : Bool) (order : List String) :
    Option System := do
  let st ← st.step (.dispatch s retired)
  let sess ← st.sessions s
  match sess.reader with
  | .fanning env => st.fanCall s env
  | .waiting _ =>
    -- `closeOnce` runs the body for the first caller only
    let labels := if sess.isClosed then [] else closeLabels s order "runtime retired"
    runTrace step st (labels ++ [.awaitClose s])
  | _ => some st

structure SameStreams (st t : System) : Prop where
  subs : ∀ s, (t.sessions s).map (·.subs) = (st.sessions s).map (·.subs)
  chans : t.chans = st.chans
  byRun : t.reg.byRun = st.reg.byRun

/-- A write result under the id of a run whose stream takes the frame or overflows with it. -/
def WriteReachesRun (st : System) (sess : Session) (env : Envelope) : Prop :=
  env.type = .workspaceWriteResult ∧ env.id ≠ "" ∧
    ∃ u sub, sess.subs.lookup env.id = some u ∧ st.chans u = some sub ∧
      (sub.durable = true ∨ sub.ch.buf.length < sub.capacity)

/-- A heartbeat that ends an open session which still has a run. -/
def RetiresRun (st : System) (s : SessionID) (sess : Session) (env : Envelope) (retired : Bool) :
    Prop :=
  env.type = .heartbeat ∧ retired = true ∧ sess.closing = .idle ∧
    (sess.subs ≠ ∅ ∨ ∃ run, st.reg.byRun run = some s)

namespace SameStreams

variable {st t u : System} {s : SessionID} {sess sess' : Session}

theorem trans (h : SameStreams st t) (h' : SameStreams t u) : SameStreams st u :=
  ⟨fun s => (h'.subs s).trans (h.subs s), h'.chans.trans h.chans, h'.byRun.trans h.byRun⟩

theorem symm (h : SameStreams st t) : SameStreams t st :=
  ⟨fun s => (h.subs s).symm, h.chans.symm, h.byRun.symm⟩

theorem after (h : SameStreams st t) : SameStreams st u ↔ SameStreams t u :=
  ⟨h.symm.trans, h.trans⟩

theorem subs_put (hs : st.sessions s = some sess) (hsubs : sess'.subs = sess.subs) (r : SessionID) :
    ((st.put s sess').sessions r).map (·.subs) = (st.sessions r).map (·.subs) := by
  by_cases hr : r = s
  · subst hr
    simp [put, hs, hsubs]
  · simp [put, hr]

theorem of_put (hs : st.sessions s = some sess) (hsubs : sess'.subs = sess.subs) :
    SameStreams st (st.put s sess') :=
  ⟨subs_put hs hsubs, rfl, rfl⟩

end SameStreams

variable {st t : System} {s : SessionID} {sess : Session} {env : Envelope} {retired : Bool}

theorem offer_eq_self {sub : Subscription} (h : sub.Open) (hdone : env.type ≠ .done) :
    sub.offer env = some sub ↔ ¬ (sub.durable = true ∨ sub.ch.buf.length < sub.capacity) := by
  obtain ⟨sub', hoffer, -, -, hcases⟩ := Subscription.offer_cases h env
  rcases Subscription.trySend_cases h.closes sub.capacity env with ⟨hroom, hsend⟩ | ⟨hfull, hsend⟩
  · have hne : sub.offer env ≠ some sub := by
      intro heq
      rw [Subscription.offer, hsend] at heq
      simp only [hdone, if_false, Option.some.injEq] at heq
      have hbuf := congrArg (fun sub => sub.ch.buf.length) heq
      simp at hbuf
    simp [hne, hroom]
  · by_cases hdurable : sub.durable = true
    · have hne : sub.offer env ≠ some sub := by
        intro heq
        rcases hcases with ⟨hroom, -⟩ | ⟨-, -, ⟨-, hshut⟩ | ⟨hbest, -⟩⟩
        · omega
        · rw [heq, Option.some.injEq] at hoffer
          rw [← hoffer] at hshut
          have := hshut.closed
          rw [h.closed] at this
          cases this
        · rw [hdurable] at hbest
          cases hbest
      simp [hne, hdurable]
    · have heq : sub.offer env = some sub := by
        rw [Subscription.offer, hsend]
        simp [hdurable, hdone]
      simp [heq, hdurable, Nat.not_lt.mpr hfull]

theorem runCall_chans (h : st.step (.runCall s) = some t) (hsane : Sane st) :
    t.chans = st.chans := by
  cases hsane.effect h <;> rfl

theorem call_of_fan (h : st.step (.dispatchToSubscriber s env) = some t)
    (hs : st.sessions s = some sess) : sess.call = none := by
  simp only [step, dispatchToSubscriber, Option.bind_eq_bind] at h
  split_ifs at h with hpanicked
  simp only [hs, Option.bind_some] at h
  split_ifs at h with hwait
  push Not at hwait
  simpa using hwait.2

theorem fanCall_same (hsane : Sane st) (hs : st.sessions s = some sess) (hdone : env.type ≠ .done)
    (hfan : st.fanCall s env = some t) :
    SameStreams st t ↔ ¬ ∃ u sub, sess.subs.lookup env.id = some u ∧ st.chans u = some sub ∧
      (sub.durable = true ∨ sub.ch.buf.length < sub.capacity) := by
  simp only [fanCall, Option.bind_eq_bind, Option.bind_eq_some_iff] at hfan
  obtain ⟨mid, hoffered, midSess, hmid, hrest⟩ := hfan
  have hfree := call_of_fan hoffered hs
  have hchans : t.chans = mid.chans := by
    split_ifs at hrest with hcall
    · exact runCall_chans hrest (hsane.step hoffered)
    · cases hrest
      rfl
  have hopen {u : SubID} {sub : Subscription} (hsub : sess.subs.lookup env.id = some u)
      (hu : st.chans u = some sub) : sub.Open := by
    obtain ⟨sub₁, hu₁, hopen, -⟩ := hsane.owned s sess env.id u hs (.inl hsub)
    rw [hu] at hu₁
    cases hu₁
    exact hopen
  have hchanged {u : SubID} {sub sub' : Subscription} (hu : st.chans u = some sub)
      (hmid : mid.chans = Function.update st.chans u (some sub')) (hsame : SameStreams st t) :
      sub' = sub := by
    have hat := congrFun (hmid.symm.trans (hchans.symm.trans hsame.chans)) u
    rwa [Function.update_self, hu, Option.some.injEq] at hat
  have hstays (hsessions : mid.sessions = (st.put s { sess with reader := .reading }).sessions)
      (hreg : mid.reg = st.reg) (hsame : mid.chans = st.chans) : SameStreams st t := by
    have hsess : midSess = { sess with reader := .reading } := by
      rw [hsessions] at hmid
      simpa [put] using hmid.symm
    rw [hsess] at hrest
    simp only [hfree, Option.isSome_none, Bool.false_eq_true, if_false, Option.some.injEq] at hrest
    subst hrest
    have hsubs : ({ sess with reader := .reading } : Session).subs = sess.subs := rfl
    refine ⟨fun r => ?_, hsame, by rw [hreg]⟩
    rw [hsessions]
    exact SameStreams.subs_put hs hsubs r
  cases hsane.effect hoffered with
  | miss hs' hnone =>
    rw [hs] at hs'
    cases hs'
    refine iff_of_true (hstays rfl rfl rfl) ?_
    rintro ⟨u, sub, hsub, -⟩
    rw [hnone] at hsub
    cases hsub
  | @offer _ _ _ u sub sub' hs' hcall hsub hu hoffer =>
    rw [hs] at hs'
    cases hs'
    have hself := offer_eq_self (hopen hsub hu) hdone
    rw [hoffer, Option.some.injEq] at hself
    constructor
    · rintro hsame ⟨v, other, hv, hother, hreach⟩
      rw [hsub, Option.some.injEq] at hv
      subst hv
      rw [hu, Option.some.injEq] at hother
      subst hother
      exact hself.mp (hchanged hu rfl hsame) hreach
    · intro hdropped
      have heq : sub' = sub := hself.mpr fun hreach => hdropped ⟨u, sub, hsub, hu, hreach⟩
      refine hstays rfl rfl ?_
      rw [heq, ← hu]
      exact Function.update_eq_self u st.chans
  | @finish _ _ _ u sub sub' hs' hcall hsub hu hoffer hclosed =>
    rw [hs] at hs'
    cases hs'
    have hself := offer_eq_self (hopen hsub hu) hdone
    rw [hoffer, Option.some.injEq] at hself
    have hne : sub' ≠ sub := by
      rintro rfl
      rw [(hopen hsub hu).closed] at hclosed
      cases hclosed
    refine iff_of_false ?_ ?_
    · intro hsame
      exact hne (hchanged hu rfl hsame)
    · intro hdropped
      exact hne (hself.mpr fun hreach => hdropped ⟨u, sub, hsub, hu, hreach⟩)

theorem sane_of_run {trace : List Label} (hsane : Sane st) (h : runTrace step st trace = some t) :
    Sane t :=
  runTrace_invariant (fun _ _ _ _ hstep hst => hst.step hstep) (stepsMeet_true _ _) h hsane

theorem awaitClose_subs (hsane : Sane st) (h : st.step (.awaitClose s) = some t) :
    (t.sessions s).map (·.subs) = some ∅ := by
  simp only [step, hsane.calm, Bool.false_eq_true, if_false, advance, Option.bind_eq_bind,
    Option.bind_eq_some_iff, Option.some.injEq] at h
  obtain ⟨sess, hs, reader, hnext, rfl⟩ := h
  split at hnext
  · rename_i hclosing
    have hsubs := (hsane.ok s sess hs).swapped (by simp [Session.swapped, hclosing])
    simp [put, hsubs]
  · cases hnext

theorem closed_without_subs {order : List String} {reason : String} (hsane : Sane st)
    (hs : st.sessions s = some sess) (hsubs : sess.subs = ∅)
    (hrun : runTrace step st (closeLabels s order reason ++ [.awaitClose s]) = some t) :
    t.chans = st.chans ∧ t.reg.byRun = st.reg.byRun.evict s ∧
      ∀ r, (t.sessions r).map (·.subs) = (st.sessions r).map (·.subs) := by
  obtain ⟨begun, hbegin, hrun⟩ := runTrace_cons hrun
  obtain ⟨swapped, hswap, hrun⟩ := runTrace_cons hrun
  have hbegun := hsane.step hbegin
  have hswapped := hbegun.step hswap
  obtain ⟨beginSess, hbeginSess, hsame₁, hsubs₁⟩ : ∃ sess', begun.sessions s = some sess' ∧
      SameStreams st begun ∧ sess'.subs = ∅ := by
    cases hsane.effect hbegin with
    | closeBegin hs' =>
      rw [hs] at hs'
      cases hs'
      exact ⟨_, Function.update_self .., .of_put hs rfl, hsubs⟩
  obtain ⟨hsame₂, hdrain⟩ : SameStreams begun swapped ∧ ∃ sess',
      swapped.sessions s = some sess' ∧ sess'.closing = .draining ∅ none := by
    cases hbegun.effect hswap with
    | closeSwap hs' =>
      rw [hbeginSess] at hs'
      cases hs'
      refine ⟨.of_put hbeginSess hsubs₁.symm, _, Function.update_self .., ?_⟩
      rw [hsubs₁]
  obtain ⟨drainSess, hdrainSess, hdraining⟩ := hdrain
  -- there is nothing to close, so the loop makes no round
  cases order with
  | cons run order =>
    obtain ⟨closed, hclose, -⟩ := runTrace_cons hrun
    cases hswapped.effect hclose with
    | closeSubscription hs' hdrain' hsub =>
      rw [hdrainSess] at hs'
      cases hs'
      rw [hdraining] at hdrain'
      cases hdrain'
      cases hsub
  | nil =>
    obtain ⟨gone, hgone, hrun⟩ := runTrace_cons hrun
    obtain ⟨back, hback, hrun⟩ := runTrace_cons hrun
    cases hrun
    have hsame : SameStreams st swapped := hsame₁.trans hsame₂
    have hgoneSane := hswapped.step hgone
    cases hswapped.effect hgone with
    | closeDeregister hs' =>
      cases hgoneSane.effect hback with
      | awaitClose hs'' =>
        refine ⟨hsame.chans, ?_, fun r => ?_⟩
        · rw [← hsame.byRun]
          exact (Registry.deregister_routes _ s _).1
        · refine (SameStreams.subs_put hs'' ?_ r).trans
            ((SameStreams.subs_put hs' ?_ r).trans (hsame.subs r)) <;> rfl

theorem closeCall_same {order : List String} {reason : String} (hsane : Sane st)
    (hs : st.sessions s = some sess)
    (hrun : runTrace step st (closeLabels s order reason ++ [.awaitClose s]) = some t) :
    SameStreams st t ↔ ¬ (sess.subs ≠ ∅ ∨ ∃ run, st.reg.byRun run = some s) := by
  by_cases hsubs : sess.subs = ∅
  · obtain ⟨hchans, hbyRun, hsessions⟩ := closed_without_subs hsane hs hsubs hrun
    constructor
    · rintro hsame (hne | ⟨run, hroute⟩)
      · exact hne hsubs
      · rw [← hsame.byRun, hbyRun] at hroute
        exact (Index.evict_eq_some.mp hroute).2 rfl
    · intro hnone
      refine ⟨hsessions, hchans, hbyRun.trans (funext fun run => ?_)⟩
      have hroute : st.reg.byRun run ≠ some s := fun h => hnone (.inr ⟨run, h⟩)
      simp [Index.evict, hroute]
  · refine iff_of_false ?_ (not_not.mpr (.inl hsubs))
    intro hsame
    obtain ⟨closed, hclosed, hlast⟩ := runTrace_append hrun
    obtain ⟨back, hback, hnil⟩ := runTrace_cons hlast
    cases hnil
    have hempty := awaitClose_subs (sane_of_run hsane hclosed) hback
    rw [hsame.subs s, hs] at hempty
    exact hsubs (Option.some.inj hempty)

theorem awaitClose_same (hsane : Sane st) (h : st.step (.awaitClose s) = some t) :
    SameStreams st t := by
  cases hsane.effect h with
  | awaitClose hs => exact .of_put hs rfl

/-- A private frame leaves the run streams alone, except for a write result under a run's id and a
heartbeat that ends a session with runs. -/
theorem private_reply_leaves_streams (trace : List Label) (st t : System) (s : SessionID)
    (sess : Session) (env : Envelope) (retired : Bool) (order : List String)
    (hreach : Reaches trace st) (hs : st.sessions s = some sess)
    (hreader : sess.reader = .renewed env) (hprivate : env.type.isPrivate = true)
    (hcall : st.dispatchCall s retired order = some t) :
    SameStreams st t ↔
      ¬ (st.WriteReachesRun sess env ∨ st.RetiresRun s sess env retired) := by
  have hsane := sane_of_run .init hreach
  simp only [dispatchCall, Option.bind_eq_bind, Option.bind_eq_some_iff] at hcall
  obtain ⟨mid, hdispatch, midSess, hmid, hrest⟩ := hcall
  have hmidSane := hsane.step hdispatch
  obtain ⟨hsess, hsame⟩ : midSess = { sess with reader := env.next retired } ∧
      SameStreams st mid := by
    cases hsane.effect hdispatch with
    | dispatch hs' hreader' =>
      rw [hs] at hs'
      cases hs'
      rw [hreader] at hreader'
      cases hreader'
      refine ⟨?_, SameStreams.subs_put hs ?_, rfl, (route_frame env s st.reg).1⟩
      · simpa [put] using hmid.symm
      · rfl
  subst hsess
  have hquiet (htype : env.type ≠ .workspaceWriteResult) (hbeat : env.type ≠ .heartbeat)
      (hnext : env.next retired = .reading) : SameStreams st t ↔
        ¬ (st.WriteReachesRun sess env ∨ st.RetiresRun s sess env retired) := by
    rw [hnext] at hrest
    cases hrest
    refine iff_of_true hsame ?_
    rintro (⟨hwrite, -⟩ | ⟨hheart, -⟩)
    · exact htype hwrite
    · exact hbeat hheart
  cases htype : env.type with
  | workspaceExportResult | workspaceReadResult | preparationStatus | interactionDecisionAck =>
    exact hquiet (by simp [htype]) (by simp [htype]) (by simp [Envelope.next, htype])
  | heartbeat =>
    have hwrite : ¬ st.WriteReachesRun sess env := by
      rintro ⟨hwrite, -⟩
      rw [htype] at hwrite
      cases hwrite
    cases retired with
    | false =>
      simp only [Envelope.next, htype, Bool.false_eq_true, if_false] at hrest
      cases hrest
      exact iff_of_true hsame fun h => h.elim hwrite fun h => by cases h.2.1
    | true =>
      simp only [Envelope.next, htype, if_true] at hrest hmid
      have hsameClosed : ({ sess with reader := .waiting true } : Session).isClosed = sess.isClosed :=
        rfl
      rw [hsameClosed] at hrest
      cases hclosed : sess.isClosed with
      | true =>
        simp only [hclosed, if_true, List.nil_append] at hrest
        obtain ⟨back, hback, hnil⟩ := runTrace_cons hrest
        cases hnil
        refine iff_of_true (hsame.trans (awaitClose_same hmidSane hback)) ?_
        rintro (hreaches | ⟨-, -, hidle, -⟩)
        · exact hwrite hreaches
        · simp [Session.isClosed, hidle] at hclosed
      | false =>
        have hidle := Session.idle_of_not_closed hclosed
        simp only [hclosed, Bool.false_eq_true, if_false] at hrest
        rw [hsame.after, closeCall_same hmidSane hmid hrest, hsame.byRun]
        simp [RetiresRun, htype, hidle, hwrite]
  | workspaceWriteResult =>
    have hbeat : ¬ st.RetiresRun s sess env retired := by
      rintro ⟨hbeat, -⟩
      rw [htype] at hbeat
      cases hbeat
    by_cases hid : env.id = ""
    · simp only [Envelope.next, htype, hid, if_true] at hrest
      cases hrest
      exact iff_of_true hsame fun h => h.elim (fun h => h.2.1 hid) hbeat
    · simp only [Envelope.next, htype, hid, if_false] at hrest
      rw [hsame.after, fanCall_same hmidSane hmid (by simp [htype]) hrest, hsame.chans]
      simp [WriteReachesRun, htype, hid, hbeat]
  | permissionRequest | permissionCancel | promptForUserChoice | error | done | other =>
    simp [FrameType.isPrivate, htype] at hprivate

def writeResultFrame : Envelope := { type := .workspaceWriteResult, id := "r" }

def writeResultTrace : List Label :=
  [.connect 0 "d", .subscribe 0 "r" true 0, .runCall 0, .readMessage 0 (some writeResultFrame),
    .renewOwnerLease 0 true]

def waiting (st : System) (u : SubID) : List Envelope := ((st.chans u).map (·.ch.buf)).getD []

theorem write_result_reaches_run :
    ∃ st t sess, Reaches writeResultTrace st ∧ st.sessions 0 = some sess ∧
      sess.reader = .renewed writeResultFrame ∧ st.dispatchCall 0 false [] = some t ∧
      st.waiting 0 = [] ∧ t.waiting 0 = [writeResultFrame] := by
  have hrun : (runTrace step {} writeResultTrace).map (fun st =>
      (st.sessions 0).any (·.reader = .renewed writeResultFrame) && st.waiting 0 == [] &&
        (st.dispatchCall 0 false []).any (·.waiting 0 == [writeResultFrame])) = some true := by
    decide
  obtain ⟨st, hreach, hcheck⟩ := exists_of_runTrace_map hrun
  simp only [Bool.and_eq_true, Option.any_eq_true, decide_eq_true_eq, beq_iff_eq] at hcheck
  obtain ⟨⟨⟨sess, hs, hreader⟩, hempty⟩, t, ht, hfull⟩ := hcheck
  exact ⟨st, t, sess, hreach, hs, hreader, ht, hempty, hfull⟩

def ownResultFrame : Envelope := { type := .workspaceWriteResult, id := "w" }

def ownResultTrace : List Label :=
  [.connect 0 "d", .subscribe 0 "r" true 0, .runCall 0, .readMessage 0 (some ownResultFrame),
    .renewOwnerLease 0 true]

theorem private_reply_leaves_streams_own :
    ∃ st t, Reaches ownResultTrace st ∧ st.dispatchCall 0 false [] = some t ∧ SameStreams st t := by
  have hrun : (runTrace step {} ownResultTrace).map (fun st =>
      (st.sessions 0).any (fun sess => sess.reader = .renewed ownResultFrame &&
        (sess.subs.lookup "w").isNone) && (st.dispatchCall 0 false []).isSome) = some true := by
    decide
  obtain ⟨st, hreach, hcheck⟩ := exists_of_runTrace_map hrun
  simp only [Bool.and_eq_true, Option.any_eq_true, decide_eq_true_eq, Option.isNone_iff_eq_none,
    Option.isSome_iff_exists] at hcheck
  obtain ⟨⟨sess, hs, hreader, hnone⟩, t, ht⟩ := hcheck
  refine ⟨st, t, hreach, ht, (private_reply_leaves_streams ownResultTrace st t 0 sess ownResultFrame
    false [] hreach hs hreader rfl ht).mpr ?_⟩
  rintro (⟨-, -, u, sub, hsub, -⟩ | ⟨hbeat, -⟩)
  · rw [show ownResultFrame.id = "w" from rfl, hnone] at hsub
    cases hsub
  · cases hbeat

end System

end Parsar.Gateway
