import Parsar.Framework.Stream
import Parsar.Gateway.Invariants

namespace Parsar.Gateway

inductive StopCause where
  | replaced
  | unsubscribed
  | closed
  deriving DecidableEq, Repr

/-- What `Err` reports after each ending. -/
def endError : StreamEnd StopCause → Option SubError
  | .last => none
  | .overflow => some .subscriberOverflow
  | .stopped .replaced => some .sessionClosed
  | .stopped .unsubscribed => none
  | .stopped .closed => some .sessionClosed

def lifeEvent (s : SessionID) (run : String) (u : SubID) :
    Label → Option (StreamEvent Envelope StopCause)
  | .dispatchToSubscriber s' env => if s' = s ∧ env.id = run then some (.offer env) else none
  | .receive u' => if u' = u then some .take else none
  | .subscribe s' run' _ _ => if s' = s ∧ run' = run then some (.stop .replaced) else none
  | .unsubscribe s' run' => if s' = s ∧ run' = run then some (.stop .unsubscribed) else none
  | .closeSwap s' => if s' = s then some (.stop .closed) else none
  | _ => none

/-- The session and the run whose channel a step may close or feed. -/
def Label.channelOf : Label → Option (SessionID × String)
  | .subscribe s run _ _ => some (s, run)
  | .unsubscribe s run => some (s, run)
  | .dispatchToSubscriber s env => some (s, env.id)
  | .closeSubscription s run _ => some (s, run)
  | _ => none

section Step

variable {st t : System} {a : Label} {s : SessionID} {run : String} {u : SubID}
  {sub : Subscription}

theorem update_chan_ne {chans : Chans} {v : SubID} {x : Option Subscription}
    (hu : chans u = some sub) (hne : v ≠ u) : Function.update chans v x u = some sub := by
  rw [Function.update_of_ne hne.symm, hu]

variable {s' : SessionID} {sess sess' : Session}

theorem Sane.chan_ne (h : Sane st) {r : String} {v : SubID}
    (hs : st.sessions s' = some sess) (hhas : sess.Has r v) (hu : st.chans u = some sub)
    (hne : sub.owner ≠ (s', r) ∨ sub.closed = true) : v ≠ u := by
  intro heq
  subst heq
  obtain ⟨sub', hv, hopen, howner⟩ := h.owned s' sess r v hs hhas
  obtain rfl : sub = sub' := Option.some.inj (hu.symm.trans hv)
  rcases hne with hne | hclosed
  · exact hne howner
  · rw [hopen.closed] at hclosed
    cases hclosed

theorem Sane.closeCurrent_ne (h : Sane st) {r : String}
    {err : Option SubError} {chans : Chans} (hs : st.sessions s' = some sess)
    (hclosed : st.chans.closeCurrent sess.subs r err = some chans) (hu : st.chans u = some sub)
    (hne : sub.owner ≠ (s', r) ∨ sub.closed = true) : chans u = some sub := by
  unfold Chans.closeCurrent at hclosed
  split at hclosed
  · rename_i v hsub
    obtain ⟨sub₁, sub₂, -, -, rfl⟩ := System.modify_eq_some hclosed
    exact update_chan_ne hu (h.chan_ne hs (.inl hsub) hu hne)
  · cases hclosed
    exact hu

theorem chan_untouched (h : Sane st) (hstep : st.step a = some t) (hu : st.chans u = some sub)
    (hne : a.channelOf ≠ some sub.owner ∨ sub.closed = true) (hreceive : a ≠ .receive u) :
    t.chans u = some sub := by
  have howner : ∀ s' r, a.channelOf = some (s', r) → sub.owner ≠ (s', r) ∨ sub.closed = true := by
    intro s' r hchannel
    refine hne.imp_left ?_
    intro hother heq
    exact hother (hchannel.trans (congrArg some heq.symm))
  cases h.effect hstep with
  | @subscribe s' sess r durable v chans hs hrun hcall hopen hfresh hclosed =>
    have hv : v ≠ u := by
      intro heq
      subst heq
      rw [hu] at hfresh
      cases hfresh
    exact update_chan_ne (h.closeCurrent_ne hs hclosed hu (howner s' r rfl)) hv
  | @unsubscribe s' sess r chans hs hcall hclosed =>
    exact h.closeCurrent_ne hs hclosed hu (howner s' r rfl)
  | @receive v sub₁ ch =>
    have hvu : v ≠ u := by
      intro heq
      subst heq
      exact hreceive rfl
    exact update_chan_ne hu hvu
  | @offer s' sess env v sub₁ sub₂ hs hcall hsub =>
    exact update_chan_ne hu (h.chan_ne hs (.inl hsub) hu (howner s' env.id rfl))
  | @finish s' sess env v sub₁ sub₂ hs hcall hsub =>
    exact update_chan_ne hu (h.chan_ne hs (.inl hsub) hu (howner s' env.id rfl))
  | @closeSubscription s' sess rest r reason v sub₁ sub₂ hs hdrain hsub =>
    exact update_chan_ne hu
      (h.chan_ne hs (.inr ⟨rest, none, hdrain, hsub⟩) hu (howner s' r rfl))
  | connect => exact hu
  | attachRun hs | detachRun hs | readMessage hs | readError hs | renewOwnerLease hs | awaitClose hs
  | dispatch hs | miss hs | closeBegin hs | closeSwap hs | closeDetach hs | closeDeregister hs =>
    exact hu

theorem receive_spec {ch ch' : Chan} (h : ch.receive = some ch') :
    ch'.carries = ch.carries ∧ ch'.buf.length = ch.buf.length - 1 ∧ ch'.closes = ch.closes := by
  unfold Chan.receive at h
  split at h
  · cases h
  · rename_i env rest hbuf
    cases h
    simp [Chan.carries, hbuf]

theorem chan_receive (h : Sane st) (hstep : st.step (.receive u) = some t)
    (hu : st.chans u = some sub) :
    t.sessions = st.sessions ∧ ∃ ch, t.chans u = some { sub with ch := ch } ∧
      ch.carries = sub.ch.carries ∧ ch.buf.length = sub.ch.buf.length - 1 ∧
      ch.closes = sub.ch.closes := by
  cases h.effect hstep with
  | @receive v sub₁ ch hv hch =>
    obtain rfl : sub = sub₁ := Option.some.inj (hu.symm.trans hv)
    exact ⟨rfl, ch, Function.update_self .., receive_spec hch⟩

def Listed (st : System) (s : SessionID) (run : String) (u : SubID) : Prop :=
  ∃ sess, st.sessions s = some sess ∧ sess.subs.lookup run = some u

/-- `Close` has taken the subscription and is still to close it. -/
def Drained (st : System) (s : SessionID) (run : String) (u : SubID) : Prop :=
  ∃ sess rest detach, st.sessions s = some sess ∧ sess.closing = .draining rest detach ∧
    rest.lookup run = some u

theorem listed_put (h : Listed st s run u) (hs : st.sessions s' = some sess)
    (hsessions : t.sessions = Function.update st.sessions s' (some sess'))
    (hsubs : s' = s → sess.subs.lookup run = some u → sess'.subs.lookup run = some u) :
    Listed t s run u := by
  obtain ⟨sess₁, hs₁, hsub⟩ := h
  by_cases heq : s = s'
  · subst heq
    obtain rfl : sess = sess₁ := Option.some.inj (hs.symm.trans hs₁)
    exact ⟨sess', by rw [hsessions, Function.update_self], hsubs rfl hsub⟩
  · exact ⟨sess₁, by rw [hsessions, Function.update_of_ne heq, hs₁], hsub⟩

theorem drained_put (h : Drained st s run u) (hs : st.sessions s' = some sess)
    (hsessions : t.sessions = Function.update st.sessions s' (some sess'))
    (hrest : s' = s → ∀ rest detach, sess.closing = .draining rest detach →
      rest.lookup run = some u → ∃ rest' detach', sess'.closing = .draining rest' detach' ∧
        rest'.lookup run = some u) : Drained t s run u := by
  obtain ⟨sess₁, rest, detach, hs₁, hdrain, hsub⟩ := h
  by_cases heq : s = s'
  · subst heq
    obtain rfl : sess = sess₁ := Option.some.inj (hs.symm.trans hs₁)
    obtain ⟨rest', detach', hdrain', hsub'⟩ := hrest rfl rest detach hdrain hsub
    exact ⟨sess', rest', detach', by rw [hsessions, Function.update_self], hdrain', hsub'⟩
  · exact ⟨sess₁, rest, detach, by rw [hsessions, Function.update_of_ne heq, hs₁], hdrain, hsub⟩

theorem listed_step (h : Sane st) (hstep : st.step a = some t) (hlisted : Listed st s run u)
    (hne : a.channelOf ≠ some (s, run)) (hswap : a ≠ .closeSwap s) : Listed t s run u := by
  have hother : ∀ s' r, a.channelOf = some (s', r) → s' = s → run ≠ r := by
    intro s' r hchannel hs heq
    rw [hchannel, hs, heq] at hne
    exact hne rfl
  cases h.effect hstep with
  | @connect s' device hnew =>
    obtain ⟨sess, hs, hsub⟩ := hlisted
    have hne' : s ≠ s' := by
      intro heq
      subst heq
      rw [hnew] at hs
      cases hs
    exact ⟨sess, (Function.update_of_ne hne' ..).trans hs, hsub⟩
  | @subscribe s' sess r durable v chans hs =>
    refine listed_put hlisted hs rfl ?_
    intro hsame hsub
    exact (AList.lookup_insert_ne (hother s' r rfl hsame)).trans hsub
  | @unsubscribe s' sess r chans hs =>
    refine listed_put hlisted hs rfl ?_
    intro hsame hsub
    exact (AList.lookup_erase_ne (hother s' r rfl hsame)).trans hsub
  | @finish s' sess env v sub₁ sub₂ hs =>
    refine listed_put hlisted hs rfl ?_
    intro hsame hsub'
    exact (AList.lookup_erase_ne (hother s' env.id rfl hsame)).trans hsub'
  | @closeSwap s' sess hs =>
    refine listed_put hlisted hs rfl ?_
    intro hsame
    exact absurd (congrArg Label.closeSwap hsame) hswap
  | receive => exact hlisted
  | attachRun hs | detachRun hs | readMessage hs | readError hs | renewOwnerLease hs | awaitClose hs
  | dispatch hs | miss hs | offer hs | closeBegin hs | closeSubscription hs | closeDetach hs
  | closeDeregister hs =>
    exact listed_put hlisted hs rfl fun _ hsub => hsub

theorem drained_step (h : Sane st) (hstep : st.step a = some t) (hdrained : Drained st s run u)
    (hne : ∀ reason, a ≠ .closeSubscription s run reason) : Drained t s run u := by
  cases h.effect hstep with
  | @connect s' device hnew =>
    obtain ⟨sess, rest, detach, hs, hdrain, hsub⟩ := hdrained
    have hne' : s ≠ s' := by
      intro heq
      subst heq
      rw [hnew] at hs
      cases hs
    exact ⟨sess, rest, detach, (Function.update_of_ne hne' ..).trans hs, hdrain, hsub⟩
  | @closeBegin s' sess hs hidle =>
    refine drained_put hdrained hs rfl ?_
    intro _ rest detach hdrain
    rw [hidle] at hdrain
    cases hdrain
  | @closeSwap s' sess hs hbegun =>
    refine drained_put hdrained hs rfl ?_
    intro _ rest detach hdrain
    rw [hbegun] at hdrain
    cases hdrain
  | @closeSubscription s' sess rest r reason v sub₁ sub₂ hs hdrain =>
    refine drained_put hdrained hs rfl ?_
    intro hsame rest' detach hdrain' hsub'
    rw [hdrain] at hdrain'
    cases hdrain'
    have hr : run ≠ r := by
      intro heq
      rw [hsame, ← heq] at hne
      exact hne reason rfl
    exact ⟨rest.erase r, some r, rfl, (AList.lookup_erase_ne hr).trans hsub'⟩
  | @closeDetach s' sess rest r hs hdrain =>
    refine drained_put hdrained hs rfl ?_
    intro _ rest' detach hdrain' hsub'
    rw [hdrain] at hdrain'
    cases hdrain'
    exact ⟨rest, none, rfl, hsub'⟩
  | @closeDeregister s' sess rest hs hdrain hempty =>
    refine drained_put hdrained hs rfl ?_
    intro _ rest' detach hdrain' hsub'
    rw [hdrain] at hdrain'
    cases hdrain'
    -- the loop is over, so nothing was left to close
    have hnil : rest = ∅ := AList.ext hempty
    rw [hnil, AList.lookup_empty] at hsub'
    cases hsub'
  | receive => exact hdrained
  | subscribe hs | unsubscribe hs | attachRun hs | detachRun hs | readMessage hs | readError hs
  | renewOwnerLease hs | awaitClose hs | dispatch hs | miss hs | offer hs | finish hs =>
    exact drained_put hdrained hs rfl fun _ rest detach hdrain hsub => ⟨rest, detach, hdrain, hsub⟩

end Step

/-- The subscription is listed and open: it has carried these frames, and `n` of them wait for the
consumer. -/
structure Carrying (st : System) (s : SessionID) (run : String) (u : SubID)
    (frames : List Envelope) (n : Nat) : Prop where
  listed : Listed st s run u
  chan : ∃ sub, st.chans u = some sub ∧ sub.durable = true ∧ sub.ch.carries = frames ∧
    sub.ch.buf.length = n

/-- It was closed once, with the error of its ending, or `Close` has taken it and is about to. -/
def Ended (st : System) (s : SessionID) (run : String) (u : SubID) (frames : List Envelope)
    (e : StreamEnd StopCause) : Prop :=
  ∃ sub, st.chans u = some sub ∧ sub.durable = true ∧ sub.ch.carries = frames ∧
    (sub.Shut (endError e) ∨
      e = .stopped .closed ∧ sub.Open ∧ sub.owner = (s, run) ∧ Drained st s run u)

section Durable

variable {st t : System} {a : Label} {s : SessionID} {run : String} {u : SubID}
  {frames : List Envelope} {n : Nat}

theorem Sane.listed_open (h : Sane st) (hlisted : Listed st s run u) {sub : Subscription}
    (hu : st.chans u = some sub) : sub.Open ∧ sub.owner = (s, run) := by
  obtain ⟨sess, hs, hsub⟩ := hlisted
  obtain ⟨sub', hu', hopen, howner⟩ := h.owned s sess run u hs (.inl hsub)
  obtain rfl : sub = sub' := Option.some.inj (hu.symm.trans hu')
  exact ⟨hopen, howner⟩

theorem Sane.not_draining (h : Sane st) (hlisted : Listed st s run u) {r reason : String} :
    st.step (.closeSubscription s r reason) ≠ some t := by
  intro hstep
  obtain ⟨sess, hs, hsub⟩ := hlisted
  have hopen := (h.ok s sess hs).not_swapped hsub
  cases h.effect hstep with
  | closeSubscription hs' hdrain =>
    cases hs.symm.trans hs'
    rw [Session.swapped_of_draining hdrain] at hopen
    cases hopen

theorem lifeEvent_none (h : Sane st) (hstep : st.step a = some t) (hlisted : Listed st s run u)
    (hnone : lifeEvent s run u a = none) :
    a.channelOf ≠ some (s, run) ∧ a ≠ .receive u ∧ a ≠ .closeSwap s := by
  refine ⟨?_, ?_, ?_⟩
  · intro hchannel
    cases a with
    | closeSubscription s' r reason =>
      obtain ⟨rfl, rfl⟩ : s' = s ∧ r = run := by simpa [Label.channelOf] using hchannel
      exact h.not_draining hlisted hstep
    | subscribe | unsubscribe | dispatchToSubscriber =>
      simp_all [Label.channelOf, lifeEvent]
    | _ => simp [Label.channelOf] at hchannel
  · intro heq
    simp [heq, lifeEvent] at hnone
  · intro heq
    simp [heq, lifeEvent] at hnone

section

variable (hcarry : Carrying st s run u frames n) (h : Sane st)

include hcarry h

theorem Carrying.skip (hstep : st.step a = some t) (hnone : lifeEvent s run u a = none) :
    Carrying t s run u frames n := by
  obtain ⟨sub, hu, hrest⟩ := hcarry.chan
  obtain ⟨hchannel, hreceive, hswap⟩ := lifeEvent_none h hstep hcarry.listed hnone
  have howner := (h.listed_open hcarry.listed hu).2
  refine ⟨listed_step h hstep hcarry.listed hchannel hswap, sub, ?_, hrest⟩
  exact chan_untouched h hstep hu (.inl (howner ▸ hchannel)) hreceive

theorem Carrying.take (hstep : st.step (.receive u) = some t) :
    Carrying t s run u frames (n - 1) := by
  obtain ⟨sub, hu, hdurable, hframes, hn⟩ := hcarry.chan
  obtain ⟨hsessions, ch, hu', hcarries, hlength, -⟩ := chan_receive h hstep hu
  obtain ⟨sess, hs, hsub⟩ := hcarry.listed
  refine ⟨⟨sess, by rw [hsessions, hs], hsub⟩, _, hu', hdurable, hcarries.trans hframes, ?_⟩
  rw [hlength, hn]

theorem Carrying.offer {env : Envelope} (hstep : st.step (.dispatchToSubscriber s env) = some t)
    (henv : env.id = run) :
    (256 ≤ n ∧ Ended t s run u frames .overflow) ∨
      (n < 256 ∧ env.isDone = true ∧ Ended t s run u (frames ++ [env]) .last) ∨
      (n < 256 ∧ env.isDone = false ∧ Carrying t s run u (frames ++ [env]) (n + 1)) := by
  obtain ⟨sub, hu, hdurable, hframes, hn⟩ := hcarry.chan
  obtain ⟨sess, hs, hsub⟩ := hcarry.listed
  obtain ⟨hopen, -⟩ := h.listed_open hcarry.listed hu
  obtain ⟨sub', hoffer, -, hdurable', hcases⟩ := Subscription.offer_cases hopen env
  have hcap : sub.capacity = 256 := by simp [Subscription.capacity, hdurable]
  rw [hcap, hn, hframes] at hcases
  -- the step changed this very channel
  have hkey : t.chans u = some sub' ∧ (sub'.closed = false → Listed t s run u) := by
    cases h.effect hstep with
    | miss hs' hnone =>
      cases hs.symm.trans hs'
      rw [henv, hsub] at hnone
      cases hnone
    | offer hs' hcall hsub' hu' hoffer' =>
      cases hs.symm.trans hs'
      rw [henv, hsub] at hsub'
      cases hsub'
      cases hu.symm.trans hu'
      cases hoffer.symm.trans hoffer'
      exact ⟨Function.update_self .., fun _ => ⟨_, Function.update_self .., hsub⟩⟩
    | finish hs' hcall hsub' hu' hoffer' hclosed =>
      cases hs.symm.trans hs'
      rw [henv, hsub] at hsub'
      cases hsub'
      cases hu.symm.trans hu'
      cases hoffer.symm.trans hoffer'
      refine ⟨Function.update_self .., ?_⟩
      intro hstill
      rw [hclosed] at hstill
      cases hstill
  have hdur := hdurable'.trans hdurable
  rcases hcases with ⟨hroom, hcarries, ⟨hdone, hshut⟩ | ⟨hdone, hstill, hlength⟩⟩ |
    ⟨hfull, hcarries, ⟨-, hshut⟩ | ⟨hbest, -⟩⟩
  · exact .inr (.inl ⟨hroom, hdone, sub', hkey.1, hdur, hcarries, .inl hshut⟩)
  · refine .inr (.inr ⟨hroom, hdone, hkey.2 hstill.closed, sub', hkey.1, hdur, hcarries, ?_⟩)
    exact hlength
  · exact .inl ⟨hfull, sub', hkey.1, hdur, hcarries, .inl hshut⟩
  · rw [hdurable] at hbest
    cases hbest

theorem Carrying.closeCurrent {sess : Session} {err : Option SubError} {chans : Chans}
    (hs : st.sessions s = some sess)
    (hclosed : st.chans.closeCurrent sess.subs run err = some chans) :
    ∃ sub, chans u = some sub ∧ sub.durable = true ∧ sub.ch.carries = frames ∧ sub.Shut err := by
  obtain ⟨sub, hu, hdurable, hframes, -⟩ := hcarry.chan
  obtain ⟨hopen, -⟩ := h.listed_open hcarry.listed hu
  obtain ⟨sess', hs', hsub⟩ := hcarry.listed
  obtain rfl : sess = sess' := Option.some.inj (hs.symm.trans hs')
  obtain ⟨sub', hclose, hshut, hsame⟩ := Subscription.closeLocked_open hopen err
  simp only [Chans.closeCurrent, hsub] at hclosed
  obtain ⟨sub₁, sub₂, hu₁, hclose₂, rfl⟩ := System.modify_eq_some hclosed
  obtain rfl : sub = sub₁ := Option.some.inj (hu.symm.trans hu₁)
  obtain rfl : sub' = sub₂ := Option.some.inj (hclose.symm.trans hclose₂)
  exact ⟨sub', Function.update_self .., hsame.durable.trans hdurable, hsame.carries.trans hframes,
    hshut⟩

theorem Carrying.replace {durable : Bool} {v : SubID}
    (hstep : st.step (.subscribe s run durable v) = some t) :
    Ended t s run u frames (.stopped .replaced) := by
  cases h.effect hstep with
  | subscribe hs hrun hcall hopen hfresh hclosed =>
    obtain ⟨sub, hu, hdurable, hframes, hshut⟩ := hcarry.closeCurrent h hs hclosed
    have hne : v ≠ u := by
      intro heq
      subst heq
      obtain ⟨sub₁, hu₁, -⟩ := hcarry.chan
      rw [hu₁] at hfresh
      cases hfresh
    exact ⟨sub, update_chan_ne hu hne, hdurable, hframes, .inl hshut⟩

theorem Carrying.unsubscribe (hstep : st.step (.unsubscribe s run) = some t) :
    Ended t s run u frames (.stopped .unsubscribed) := by
  cases h.effect hstep with
  | unsubscribe hs hcall hclosed =>
    obtain ⟨sub, hu, hdurable, hframes, hshut⟩ := hcarry.closeCurrent h hs hclosed
    exact ⟨sub, hu, hdurable, hframes, .inl hshut⟩

theorem Carrying.swap (hstep : st.step (.closeSwap s) = some t) :
    Ended t s run u frames (.stopped .closed) := by
  obtain ⟨sub, hu, hdurable, hframes, -⟩ := hcarry.chan
  obtain ⟨hopen, howner⟩ := h.listed_open hcarry.listed hu
  obtain ⟨sess, hs, hsub⟩ := hcarry.listed
  cases h.effect hstep with
  | closeSwap hs' =>
    cases hs.symm.trans hs'
    refine ⟨sub, hu, hdurable, hframes, .inr ⟨rfl, hopen, howner, ?_⟩⟩
    exact ⟨_, sess.subs, none, Function.update_self .., rfl, hsub⟩

end

theorem drained_chan (h : Sane st) (hstep : st.step a = some t) (hdrained : Drained st s run u)
    {sub : Subscription} (hu : st.chans u = some sub) (howner : sub.owner = (s, run))
    (hne : ∀ reason, a ≠ .closeSubscription s run reason) (hreceive : a ≠ .receive u) :
    t.chans u = some sub := by
  by_cases hchannel : a.channelOf = some (s, run)
  · obtain ⟨sess, rest, detach, hs, hdrain, -⟩ := hdrained
    have hempty := (h.ok s sess hs).swapped (Session.swapped_of_draining hdrain)
    cases a with
    | closeSubscription s' r reason =>
      obtain ⟨rfl, rfl⟩ : s' = s ∧ r = run := by simpa [Label.channelOf] using hchannel
      exact absurd rfl (hne reason)
    | subscribe s' r durable v =>
      obtain ⟨rfl, rfl⟩ : s' = s ∧ r = run := by simpa [Label.channelOf] using hchannel
      cases h.effect hstep with
      | subscribe hs' hrun hcall hopen =>
        cases hs.symm.trans hs'
        simp [Session.isClosed, hdrain] at hopen
    | unsubscribe s' r =>
      obtain ⟨rfl, rfl⟩ : s' = s ∧ r = run := by simpa [Label.channelOf] using hchannel
      cases h.effect hstep with
      | unsubscribe hs' hcall hclosed =>
        cases hs.symm.trans hs'
        simp only [Chans.closeCurrent, hempty, AList.lookup_empty] at hclosed
        exact Option.some.inj hclosed ▸ hu
    | dispatchToSubscriber s' env =>
      obtain ⟨rfl, rfl⟩ : s' = s ∧ env.id = run := by simpa [Label.channelOf] using hchannel
      cases h.effect hstep with
      | miss => exact hu
      | offer hs' hcall hsub hu' hoffer hclosed | finish hs' hcall hsub hu' hoffer hclosed =>
        cases hs.symm.trans hs'
        rw [hempty, AList.lookup_empty] at hsub
        cases hsub
    | _ => simp [Label.channelOf] at hchannel
  · exact chan_untouched h hstep hu (.inl (howner ▸ hchannel)) hreceive

theorem drained_close (h : Sane st) {reason : String}
    (hstep : st.step (.closeSubscription s run reason) = some t) (hdrained : Drained st s run u)
    {sub : Subscription} (hu : st.chans u = some sub) (hopen : sub.Open)
    (hdurable : sub.durable = true) :
    ∃ sub', t.chans u = some sub' ∧ Subscription.SameStream sub sub' ∧
      sub'.Shut (some .sessionClosed) := by
  obtain ⟨sess, rest, detach, hs, hdrain, hsub⟩ := hdrained
  obtain ⟨sub', hclose, -, hshut, hsame⟩ := Subscription.closeSubscription_open hopen reason
  cases h.effect hstep with
  | closeSubscription hs' hdrain' hsub' hu' hclose' =>
    cases hs.symm.trans hs'
    rw [hdrain] at hdrain'
    cases hdrain'
    cases hsub.symm.trans hsub'
    cases hu.symm.trans hu'
    cases hclose.symm.trans hclose'
    exact ⟨sub', Function.update_self .., hsame hdurable, hshut⟩

theorem Ended.step {e : StreamEnd StopCause} (hended : Ended st s run u frames e) (h : Sane st)
    (hstep : st.step a = some t) : Ended t s run u frames e := by
  obtain ⟨sub, hu, hdurable, hframes, hend⟩ := hended
  by_cases hreceive : a = .receive u
  · subst hreceive
    obtain ⟨hsessions, ch, hu', hcarries, -, hcloses⟩ := chan_receive h hstep hu
    refine ⟨_, hu', hdurable, hcarries.trans hframes, ?_⟩
    rcases hend with hshut | ⟨he, hopen, howner, sess, rest, detach, hs, hdrain⟩
    · exact .inl ⟨hshut.closed, hcloses.trans hshut.closes, hshut.err⟩
    · refine .inr ⟨he, ⟨hopen.closed, hcloses.trans hopen.closes, hopen.err⟩, howner, ?_⟩
      exact ⟨sess, rest, detach, by rw [hsessions, hs], hdrain⟩
  · rcases hend with hshut | ⟨he, hopen, howner, hdrained⟩
    · exact ⟨sub, chan_untouched h hstep hu (.inr hshut.closed) hreceive, hdurable, hframes,
        .inl hshut⟩
    · by_cases hclose : ∃ reason, a = .closeSubscription s run reason
      · obtain ⟨reason, rfl⟩ := hclose
        obtain ⟨sub', hu', hsame, hshut⟩ := drained_close h hstep hdrained hu hopen hdurable
        subst he
        exact ⟨sub', hu', hsame.durable.trans hdurable, hsame.carries.trans hframes, .inl hshut⟩
      · have hne : ∀ reason, a ≠ .closeSubscription s run reason := not_exists.mp hclose
        exact ⟨sub, drained_chan h hstep hdrained hu howner hne hreceive, hdurable, hframes,
          .inr ⟨he, hopen, howner, drained_step h hstep hdrained hne⟩⟩

end Durable

section Life

variable {st t : System} {a : Label} {s : SessionID} {run : String} {u : SubID}

theorem lifeEvent_take (h : lifeEvent s run u a = some .take) : a = .receive u := by
  cases a <;> simp_all [lifeEvent]

theorem lifeEvent_offer {env : Envelope} (h : lifeEvent s run u a = some (.offer env)) :
    a = .dispatchToSubscriber s env ∧ env.id = run := by
  cases a <;> simp_all [lifeEvent]
  exact h.2 ▸ h.1.2

theorem lifeEvent_stop {cause : StopCause} (h : lifeEvent s run u a = some (.stop cause)) :
    (∃ durable v, a = .subscribe s run durable v ∧ cause = .replaced) ∨
      a = .unsubscribe s run ∧ cause = .unsubscribed ∨ a = .closeSwap s ∧ cause = .closed := by
  cases a <;> simp_all [lifeEvent]

/-- A durable subscription is a bounded stream of 256 slots that a done frame ends. -/
theorem durable_simulation (s : SessionID) (run : String) (u : SubID) :
    StreamSimulation System.step (lifeEvent s run u) 256 Envelope.isDone
      (fun st frames n => Carrying st s run u frames n ∧ Sane st)
      (fun st frames e => Ended st s run u frames e ∧ Sane st) where
  skip hstep hnone h := ⟨h.1.skip h.2 hstep hnone, h.2.step hstep⟩
  take hstep hev h := by
    obtain rfl := lifeEvent_take hev
    exact ⟨h.1.take h.2 hstep, h.2.step hstep⟩
  stop hstep hev h := by
    refine ⟨?_, h.2.step hstep⟩
    rcases lifeEvent_stop hev with ⟨durable, v, rfl, rfl⟩ | ⟨rfl, rfl⟩ | ⟨rfl, rfl⟩
    · exact h.1.replace h.2 hstep
    · exact h.1.unsubscribe h.2 hstep
    · exact h.1.swap h.2 hstep
  offer hstep hev h := by
    obtain ⟨rfl, henv⟩ := lifeEvent_offer hev
    have hsane := h.2.step hstep
    rcases h.1.offer h.2 hstep henv with ⟨hfull, hover⟩ | ⟨hroom, hdone, hover⟩ | ⟨hroom, hdone, hlive⟩
    · exact .inl ⟨hfull, hover, hsane⟩
    · exact .inr (.inl ⟨hroom, hdone, hover, hsane⟩)
    · exact .inr (.inr ⟨hroom, hdone, hlive, hsane⟩)
  ended hstep h := ⟨h.1.step h.2 hstep, h.2.step hstep⟩

theorem carrying_new (h : Sane st) (hstep : st.step (.subscribe s run true u) = some t) :
    Carrying t s run u [] 0 := by
  cases h.effect hstep with
  | subscribe =>
    exact ⟨⟨_, Function.update_self .., AList.lookup_insert _⟩, _, Function.update_self .., rfl, rfl,
      rfl⟩

theorem Ended.not_listed {frames : List Envelope} {e : StreamEnd StopCause}
    (hended : Ended st s run u frames e) (h : Sane st) (s' : SessionID) (run' : String) :
    ¬ Listed st s' run' u := by
  intro hlisted
  obtain ⟨sub, hu, -, -, hend⟩ := hended
  obtain ⟨hopen, howner⟩ := h.listed_open hlisted hu
  rcases hend with hshut | ⟨-, -, hdrained, sess, rest, detach, hs, hdrain, -⟩
  · have hclosed := hshut.closed
    rw [hopen.closed] at hclosed
    cases hclosed
  · obtain ⟨rfl, rfl⟩ : s' = s ∧ run' = run := by simpa using howner.symm.trans hdrained
    obtain ⟨sess', hs', hsub⟩ := hlisted
    cases hs.symm.trans hs'
    have hswapped := (h.ok s' sess hs).not_swapped hsub
    rw [Session.swapped_of_draining hdrain] at hswapped
    cases hswapped

end Life

/-- A durable subscription carries the frames of its run, in order and once, up to its first ending;
then it is listed nowhere and its channel is closed once, with the error of the ending. -/
theorem durable_stream_exact (pre post : List Label) (s : SessionID) (run : String) (u : SubID)
    (t : System) (hreach : System.Reaches (pre ++ .subscribe s run true u :: post) t) :
    let life := post.filterMap (lifeEvent s run u)
    let stream := carried 256 Envelope.isDone 0 life
    t.panicked = false ∧ stream.1 <+: offers life ∧ ∃ sub, t.chans u = some sub ∧
      sub.ch.carries = stream.1 ∧
      match stream.2 with
      | none => sub.Open ∧ Listed t s run u
      | some e => (∀ s' run', ¬ Listed t s' run' u) ∧
          (sub.Shut (endError e) ∨ e = .stopped .closed ∧ sub.Open ∧ Drained t s run u) := by
  obtain ⟨st₀, hpre, hrun⟩ := runTrace_append hreach
  obtain ⟨st₁, hstep, hpost⟩ := runTrace_cons hrun
  have hsane₀ : Sane st₀ := runTrace_invariant (fun _ _ _ _ hstep h => h.step hstep)
    (stepsMeet_true {} pre) hpre Sane.init
  have houtcome := (durable_simulation s run u).live_run hpost
    ⟨carrying_new hsane₀ hstep, hsane₀.step hstep⟩
  rw [List.nil_append] at houtcome
  intro life stream
  change StreamSimulation.Outcome _ _ t stream.1 stream.2 at houtcome
  have hprefix : stream.1 <+: offers life := carried_prefix 0 life
  cases hend : stream.2 with
  | none =>
    rw [hend] at houtcome
    obtain ⟨n, hcarry, hsane⟩ := houtcome
    obtain ⟨sub, hu, -, hcarries, -⟩ := hcarry.chan
    exact ⟨hsane.calm, hprefix, sub, hu, hcarries, (hsane.listed_open hcarry.listed hu).1,
      hcarry.listed⟩
  | some e =>
    rw [hend] at houtcome
    obtain ⟨hended, hsane⟩ := houtcome
    have hnot := hended.not_listed hsane
    obtain ⟨sub, hu, -, hcarries, hshut⟩ := hended
    refine ⟨hsane.calm, hprefix, sub, hu, hcarries, hnot, hshut.imp_right ?_⟩
    intro hclosing
    exact ⟨hclosing.1, hclosing.2.1, hclosing.2.2.2⟩

def errorFrame : Envelope := { type := .error, id := "r", payload := "tool failed" }

def doneFrame : Envelope := { type := .done, id := "r" }

def frameSteps (env : Envelope) : List Label :=
  [.readMessage 0 (some env), .renewOwnerLease 0 true, .dispatch 0 false,
    .dispatchToSubscriber 0 env]

def doneLife : List Label :=
  .runCall 0 :: frameSteps errorFrame ++ .receive 0 :: frameSteps doneFrame ++
    .runCall 0 :: frameSteps errorFrame

theorem durable_stream_exact_done :
    ∃ t sub, System.Reaches ([.connect 0 "d"] ++ .subscribe 0 "r" true 0 :: doneLife) t ∧
      t.chans 0 = some sub ∧ sub.ch.carries = [errorFrame, doneFrame] ∧ sub.Shut none := by
  have hrun : (runTrace System.step {} ([.connect 0 "d"] ++ .subscribe 0 "r" true 0 :: doneLife)).map
      (fun _ => true) = some true := by decide
  obtain ⟨t, hreach, -⟩ := exists_of_runTrace_map hrun
  obtain ⟨-, -, sub, hu, hcarries, -, hshut | ⟨hcause, -⟩⟩ :=
    durable_stream_exact [.connect 0 "d"] doneLife 0 "r" 0 t hreach
  · exact ⟨t, sub, hreach, hu, hcarries, hshut⟩
  · cases hcause

end Parsar.Gateway
