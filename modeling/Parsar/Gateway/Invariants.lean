import Parsar.Gateway.System

namespace Parsar.Gateway

structure Session.Ok (sess : Session) : Prop where
  swapped : sess.swapped = true → sess.subs = ∅
  attach : ∀ run, sess.call = some (.attach run) → sess.swapped = false ∧ run ≠ ""
  detach : ∀ run, sess.call = some (.detach run) → sess.subs.lookup run = none

namespace Session

variable {sess : Session} {run : String} {u : SubID}

theorem ok_of_no_call (h : sess.call = none) (hswapped : sess.swapped = true → sess.subs = ∅) :
    sess.Ok := by
  refine ⟨hswapped, ?_, ?_⟩
  · intro run hcall
    rw [h] at hcall
    cases hcall
  · intro run hcall
    rw [h] at hcall
    cases hcall

theorem idle_of_not_closed (h : sess.isClosed = false) : sess.closing = .idle := by
  unfold isClosed at h
  split at h
  · assumption
  · cases h

theorem swapped_of_draining {rest : Subs} {detach : Option String}
    (h : sess.closing = .draining rest detach) : sess.swapped = true := by
  simp [swapped, h]

namespace Ok

theorem not_swapped (h : sess.Ok) (hsub : sess.subs.lookup run = some u) :
    sess.swapped = false := by
  by_contra hswapped
  rw [h.swapped (by simpa using hswapped), AList.lookup_empty] at hsub
  cases hsub

theorem has_iff (hswapped : sess.swapped = false) :
    sess.Has run u ↔ sess.subs.lookup run = some u := by
  refine ⟨?_, .inl⟩
  rintro (hsub | ⟨rest, detach, hdrain, -⟩)
  · exact hsub
  · rw [swapped_of_draining hdrain] at hswapped
    cases hswapped

theorem drain (h : sess.Ok) {closing : Closing} (hswapped : sess.swapped = true) :
    Ok { sess with closing := closing } := by
  refine ⟨fun _ => h.swapped hswapped, ?_, h.detach⟩
  intro run hcall
  have hnot := (h.attach run hcall).1
  rw [hswapped] at hnot
  cases hnot

theorem erase (h : sess.Ok) (run : String) {reader : Reader} :
    Ok { sess with
      reader := reader
      subs := sess.subs.erase run
      call := some (.detach run) } := by
  refine ⟨?_, ?_, ?_⟩
  · intro hswapped
    show sess.subs.erase run = ∅
    rw [h.swapped hswapped]
    rfl
  · intro r hcall
    cases hcall
  · intro r hcall
    obtain rfl : run = r := by simpa using hcall
    exact AList.lookup_erase run sess.subs

end Ok

theorem has_of_erase {reader : Reader} {call : Option RunCall} {r : String}
    (h : Has { sess with reader := reader, subs := sess.subs.erase r, call := call } run u) :
    sess.Has run u := by
  rcases h with hsub | hdrain
  · by_cases heq : run = r
    · subst heq
      rw [AList.lookup_erase] at hsub
      cases hsub
    · rw [AList.lookup_erase_ne heq] at hsub
      exact .inl hsub
  · exact .inr hdrain

end Session

def Chans.Owned (chans : Chans) (u : SubID) (s : SessionID) (run : String) : Prop :=
  ∃ sub, chans u = some sub ∧ sub.Open ∧ sub.owner = (s, run)

structure Sane (st : System) : Prop where
  calm : st.panicked = false
  ok : ∀ s sess, st.sessions s = some sess → sess.Ok
  owned : ∀ s sess run u, st.sessions s = some sess → sess.Has run u → st.chans.Owned u s run
  settled : ∀ u sub, st.chans u = some sub → sub.Open ∨ ∃ err, sub.Shut err

theorem Sane.init : Sane {} := by
  refine ⟨rfl, ?_, ?_, ?_⟩
  · intro s sess hs
    cases hs
  · intro s sess run u hs
    cases hs
  · intro u sub hu
    cases hu

namespace Sane

variable {st t : System} {s : SessionID} {sess sess' : Session}

theorem of_step (h : Sane st) (hcalm : t.panicked = st.panicked)
    (hsessions : t.sessions = Function.update st.sessions s (some sess')) (hok : sess'.Ok)
    (howned : ∀ run u, sess'.Has run u → t.chans.Owned u s run)
    (hframe : ∀ s' run u, s' ≠ s → st.chans.Owned u s' run → t.chans.Owned u s' run)
    (hsettled : ∀ u sub, t.chans u = some sub → sub.Open ∨ ∃ err, sub.Shut err) : Sane t := by
  refine ⟨hcalm.trans h.calm, ?_, ?_, hsettled⟩
  · intro s' sess'' hs'
    rw [hsessions] at hs'
    rcases GoStd.GoMap.set_eq_some hs' with ⟨rfl, rfl⟩ | ⟨-, hs'⟩
    · exact hok
    · exact h.ok s' sess'' hs'
  · intro s' sess'' run u hs' hhas
    rw [hsessions] at hs'
    rcases GoStd.GoMap.set_eq_some hs' with ⟨rfl, rfl⟩ | ⟨heq, hs'⟩
    · exact howned run u hhas
    · exact hframe s' run u heq (h.owned s' sess'' run u hs' hhas)

theorem of_session (h : Sane st) (hs : st.sessions s = some sess)
    (hcalm : t.panicked = st.panicked) (hchans : t.chans = st.chans)
    (hsessions : t.sessions = Function.update st.sessions s (some sess')) (hok : sess'.Ok)
    (hhas : ∀ run u, sess'.Has run u → sess.Has run u) : Sane t := by
  refine h.of_step hcalm hsessions hok ?_ ?_ ?_
  · intro run u hu
    rw [hchans]
    exact h.owned s sess run u hs (hhas run u hu)
  · rw [hchans]
    exact fun _ _ _ _ hu => hu
  · rw [hchans]
    exact h.settled

end Sane

theorem owned_update_ne {chans : Chans} {u v : SubID} {sub : Option Subscription} {s : SessionID}
    {run : String} (h : chans.Owned u s run) (hne : u ≠ v) :
    Chans.Owned (Function.update chans v sub) u s run := by
  obtain ⟨sub', hu, hrest⟩ := h
  exact ⟨sub', by rw [Function.update_of_ne hne, hu], hrest⟩

theorem owned_unique {chans : Chans} {u : SubID} {s s' : SessionID} {run run' : String}
    (h : chans.Owned u s run) (h' : chans.Owned u s' run') : s = s' ∧ run = run' := by
  obtain ⟨sub, hu, -, howner⟩ := h
  obtain ⟨sub', hu', -, howner'⟩ := h'
  rw [hu] at hu'
  cases hu'
  exact Prod.mk.inj (howner.symm.trans howner')

theorem settled_update {chans : Chans} {v : SubID} {sub' : Subscription}
    (h : ∀ u sub, chans u = some sub → sub.Open ∨ ∃ err, sub.Shut err)
    (hsub : sub'.Open ∨ ∃ err, sub'.Shut err) (u : SubID) (sub : Subscription)
    (hu : Function.update chans v (some sub') u = some sub) : sub.Open ∨ ∃ err, sub.Shut err := by
  rcases GoStd.GoMap.set_eq_some hu with ⟨rfl, rfl⟩ | ⟨-, hu⟩
  · exact hsub
  · exact h u sub hu

namespace Sane

variable {st t : System} {s : SessionID} {sess : Session} {run : String} {u : SubID}

variable (h : Sane st)

include h

theorem owned_frame (hs : st.sessions s = some sess) (hhas : sess.Has run u)
    {sub : Option Subscription} {s' : SessionID} {r : String} {v : SubID}
    (hne : ¬ (s' = s ∧ r = run)) (hv : st.chans.Owned v s' r) :
    Chans.Owned (Function.update st.chans u sub) v s' r := by
  apply owned_update_ne hv
  rintro rfl
  exact hne (owned_unique hv (h.owned s sess run v hs hhas))

theorem of_channel {sess' : Session} {sub' : Subscription} (hs : st.sessions s = some sess)
    (hhas : sess.Has run u) (hok : sess'.Ok) (hsub' : sub'.owner = (s, run))
    (hstate : sub'.Open ∨ ∃ err, sub'.Shut err)
    (hkeep : ∀ r v, sess'.Has r v → sess.Has r v ∧ (r = run → v = u ∧ sub'.Open))
    (hcalm : t.panicked = st.panicked) (hchans : t.chans = Function.update st.chans u (some sub'))
    (hsessions : t.sessions = Function.update st.sessions s (some sess')) : Sane t := by
  refine h.of_step hcalm hsessions hok ?_ ?_ ?_
  · intro r v hv
    obtain ⟨hold, hrun⟩ := hkeep r v hv
    rw [hchans]
    by_cases heq : r = run
    · obtain ⟨rfl, hopen⟩ := hrun heq
      exact ⟨sub', Function.update_self .., hopen, heq ▸ hsub'⟩
    · exact h.owned_frame hs hhas (fun hne => heq hne.2) (h.owned s sess r v hs hold)
  · intro s' r v hne hv
    rw [hchans]
    exact h.owned_frame hs hhas (fun heq => hne heq.1) hv
  · rw [hchans]
    exact settled_update h.settled hstate

theorem effect {a : Label} (hstep : st.step a = some t) : System.Effect st a t := by
  apply (System.step_effect hstep).resolve_left
  rintro ⟨s, sess, run, u, f, hs, hhas, hsafe, hpanic⟩
  obtain ⟨sub, hu, hopen, -⟩ := h.owned s sess run u hs hhas
  obtain ⟨sub', hf⟩ := Option.isSome_iff_exists.mp (hsafe sub hopen)
  simp [Chans.modify, hu, hf] at hpanic

theorem closeCurrent_spec (hs : st.sessions s = some sess) {err : Option SubError} {chans : Chans}
    (hclosed : st.chans.closeCurrent sess.subs run err = some chans) :
    (∀ s' r v, ¬ (s' = s ∧ r = run) → st.chans.Owned v s' r → chans.Owned v s' r) ∧
      (∀ v sub, chans v = some sub → sub.Open ∨ ∃ err, sub.Shut err) := by
  unfold Chans.closeCurrent at hclosed
  split at hclosed
  · rename_i u hsub
    obtain ⟨sub, sub', hu, hclose, rfl⟩ := System.modify_eq_some hclosed
    obtain ⟨sub₀, hu₀, hopen, -⟩ := h.owned s sess run u hs (.inl hsub)
    obtain rfl : sub₀ = sub := Option.some.inj (hu₀.symm.trans hu)
    obtain ⟨sub₁, hclose₁, hshut, -⟩ := Subscription.closeLocked_open hopen err
    obtain rfl : sub₁ = sub' := Option.some.inj (hclose₁.symm.trans hclose)
    refine ⟨fun s' r v hne hv => h.owned_frame hs (.inl hsub) hne hv, ?_⟩
    exact settled_update h.settled (.inr ⟨err, hshut⟩)
  · cases hclosed
    exact ⟨fun _ _ _ _ hv => hv, h.settled⟩

theorem subscribe {durable : Bool} {chans : Chans} (hs : st.sessions s = some sess)
    (hrun : run ≠ "") (hopen : sess.isClosed = false) (hfresh : st.chans u = none)
    (hclosed : st.chans.closeCurrent sess.subs run (some .sessionClosed) = some chans) :
    Sane { st.put s { sess with subs := sess.subs.insert run u, call := some (.attach run) } with
      chans := Function.update chans u (some { owner := (s, run), durable := durable }) } := by
  have hidle := Session.idle_of_not_closed hopen
  obtain ⟨hframe, hsettled⟩ := h.closeCurrent_spec hs hclosed
  have hne : ∀ s' r v, st.chans.Owned v s' r → v ≠ u := by
    rintro s' r v ⟨sub, hv, -⟩ rfl
    rw [hfresh] at hv
    cases hv
  refine h.of_step rfl rfl ?_ ?_ ?_ ?_
  · refine ⟨?_, ?_, ?_⟩
    · intro hswapped
      simp [Session.swapped, hidle] at hswapped
    · intro r hcall
      obtain rfl : run = r := by simpa using hcall
      exact ⟨by simp [Session.swapped, hidle], hrun⟩
    · intro r hcall
      cases hcall
  · intro r v hv
    have hv : (sess.subs.insert run u).lookup r = some v := by
      rcases hv with hv | ⟨rest, detach, hdrain, -⟩
      · exact hv
      · rw [hidle] at hdrain
        cases hdrain
    by_cases heq : r = run
    · subst heq
      rw [AList.lookup_insert] at hv
      cases hv
      exact ⟨_, Function.update_self .., Subscription.open_new _ _, rfl⟩
    · rw [AList.lookup_insert_ne heq] at hv
      have hold := h.owned s sess r v hs (.inl hv)
      exact owned_update_ne (hframe s r v (fun hsame => heq hsame.2) hold) (hne s r v hold)
  · intro s' r v hs' hv
    exact owned_update_ne (hframe s' r v (fun hsame => hs' hsame.1) hv) (hne s' r v hv)
  · exact settled_update hsettled (.inl (Subscription.open_new _ _))

theorem unsubscribe {chans : Chans} (hs : st.sessions s = some sess)
    (hclosed : st.chans.closeCurrent sess.subs run none = some chans) :
    Sane { st.put s { sess with subs := sess.subs.erase run, call := some (.detach run) } with
      chans := chans } := by
  have hok := h.ok s sess hs
  obtain ⟨hframe, hsettled⟩ := h.closeCurrent_spec hs hclosed
  refine h.of_step rfl rfl (hok.erase run) ?_ ?_ hsettled
  · intro r v hv
    have hold := h.owned s sess r v hs (Session.has_of_erase hv)
    by_cases heq : r = run
    · -- only `Close` can still have a subscription of this run, and then `subs` is empty
      subst heq
      have hnone : sess.subs.lookup r = none := by
        rcases hv with hv | ⟨rest, detach, hdrain, -⟩
        · rw [AList.lookup_erase] at hv
          cases hv
        · rw [hok.swapped (Session.swapped_of_draining hdrain), AList.lookup_empty]
      unfold Chans.closeCurrent at hclosed
      rw [hnone] at hclosed
      cases hclosed
      exact hold
    · exact hframe s r v (fun hsame => heq hsame.2) hold
  · intro s' r v hs' hv
    exact hframe s' r v (fun hsame => hs' hsame.1) hv

theorem receive {sub : Subscription} {ch : Chan} (hu : st.chans u = some sub)
    (hch : sub.ch.receive = some ch) :
    Sane { st with chans := Function.update st.chans u (some { sub with ch := ch }) } := by
  have hcloses : ch.closes = sub.ch.closes := by
    unfold Chan.receive at hch
    split at hch
    · cases hch
    · cases hch
      rfl
  have hopen : sub.Open → Subscription.Open { sub with ch := ch } := by
    intro hsub
    exact ⟨hsub.closed, hcloses.trans hsub.closes, hsub.err⟩
  refine ⟨h.calm, h.ok, ?_, ?_⟩
  · intro s sess run v hs hhas
    obtain ⟨sub', hv, hopen', howner⟩ := h.owned s sess run v hs hhas
    by_cases heq : v = u
    · subst heq
      obtain rfl : sub = sub' := Option.some.inj (hu.symm.trans hv)
      exact ⟨_, Function.update_self .., hopen hopen', howner⟩
    · exact owned_update_ne ⟨sub', hv, hopen', howner⟩ heq
  · apply settled_update h.settled
    rcases h.settled u sub hu with hsub | ⟨err, hsub⟩
    · exact .inl (hopen hsub)
    · exact .inr ⟨err, hsub.closed, hcloses.trans hsub.closes, hsub.err⟩

theorem offered {env : Envelope} {sub sub' : Subscription} (hs : st.sessions s = some sess)
    (hsub : sess.subs.lookup env.id = some u) (hu : st.chans u = some sub)
    (hoffer : sub.offer env = some sub') :
    sub'.owner = (s, env.id) ∧ (sub'.Open ∨ ∃ err, sub'.Shut err) := by
  obtain ⟨sub₀, hu₀, hopen, howner⟩ := h.owned s sess env.id u hs (.inl hsub)
  obtain rfl : sub₀ = sub := Option.some.inj (hu₀.symm.trans hu)
  obtain ⟨sub₁, hoffer₁, howner₁, hstate⟩ := Subscription.offer_open hopen env
  obtain rfl : sub₁ = sub' := Option.some.inj (hoffer₁.symm.trans hoffer)
  exact ⟨howner₁.trans howner, hstate⟩

theorem closeSubscription {rest : Subs} {reason : String} {sub sub' : Subscription}
    (hs : st.sessions s = some sess) (hdrain : sess.closing = .draining rest none)
    (hsub : rest.lookup run = some u) (hu : st.chans u = some sub)
    (hclose : sub.closeSubscription reason = some sub') :
    Sane { st.put s { sess with closing := .draining (rest.erase run) (some run) } with
      chans := Function.update st.chans u (some sub') } := by
  have hok := h.ok s sess hs
  have hhas : sess.Has run u := .inr ⟨rest, none, hdrain, hsub⟩
  have hswapped := Session.swapped_of_draining hdrain
  obtain ⟨sub₀, hu₀, hopen, howner⟩ := h.owned s sess run u hs hhas
  obtain rfl : sub₀ = sub := Option.some.inj (hu₀.symm.trans hu)
  obtain ⟨sub₁, hclose₁, howner₁, hshut, -⟩ := Subscription.closeSubscription_open hopen reason
  obtain rfl : sub₁ = sub' := Option.some.inj (hclose₁.symm.trans hclose)
  refine h.of_channel hs hhas (hok.drain hswapped) (howner₁.trans howner) (.inr ⟨_, hshut⟩) ?_
    rfl rfl rfl
  intro r v hv
  rcases hv with hv | ⟨rest', detach, hdrain', hv⟩
  · rw [hok.swapped hswapped, AList.lookup_empty] at hv
    cases hv
  · cases hdrain'
    by_cases heq : r = run
    · subst heq
      rw [AList.lookup_erase] at hv
      cases hv
    · rw [AList.lookup_erase_ne heq] at hv
      exact ⟨.inr ⟨rest, none, hdrain, hv⟩, fun hsame => absurd hsame heq⟩

theorem closeSwap (hs : st.sessions s = some sess) (hcall : sess.call = none) :
    Sane (st.put s { sess with subs := ∅, closing := .draining sess.subs none }) := by
  refine h.of_session hs rfl rfl rfl (Session.ok_of_no_call hcall fun _ => rfl) ?_
  rintro r v (hv | ⟨rest, detach, hdrain, hv⟩)
  · rw [AList.lookup_empty] at hv
    cases hv
  · cases hdrain
    exact .inl hv

theorem drain (hs : st.sessions s = some sess) {rest : Subs} {detach : Option String}
    {closing : Closing} (hdrain : sess.closing = .draining rest detach)
    (hclosing : closing = .draining rest none ∨ closing = .returned)
    (hcalm : t.panicked = st.panicked) (hchans : t.chans = st.chans) (hsessions : t.sessions =
      Function.update st.sessions s (some { sess with closing := closing })) : Sane t := by
  refine h.of_session hs hcalm hchans hsessions
    ((h.ok s sess hs).drain (Session.swapped_of_draining hdrain)) ?_
  rintro r v (hv | ⟨rest', detach', hdrain', hv⟩)
  · exact .inl hv
  · rcases hclosing with rfl | rfl
    · cases hdrain'
      exact .inr ⟨rest, detach, hdrain, hv⟩
    · cases hdrain'

theorem of_quiet (hs : st.sessions s = some sess) {reader : Reader}
    (hcalm : t.panicked = st.panicked) (hchans : t.chans = st.chans) (hsessions : t.sessions =
      Function.update st.sessions s (some { sess with reader := reader })) : Sane t := by
  have hok := h.ok s sess hs
  exact h.of_session hs hcalm hchans hsessions ⟨hok.swapped, hok.attach, hok.detach⟩
    fun _ _ hv => hv

theorem step {a : Label} (hstep : st.step a = some t) : Sane t := by
  cases h.effect hstep with
  | @connect s device =>
    refine h.of_step rfl rfl (Session.ok_of_no_call rfl fun _ => rfl) ?_ (fun _ _ _ _ hv => hv)
      h.settled
    rintro r v (hv | ⟨rest, detach, hdrain, -⟩)
    · cases hv
    · cases hdrain
  | subscribe hs hrun hcall hopen hfresh hclosed => exact h.subscribe hs hrun hopen hfresh hclosed
  | unsubscribe hs hcall hclosed => exact h.unsubscribe hs hclosed
  | attachRun hs hcall | detachRun hs hcall =>
    exact h.of_session hs rfl rfl rfl (Session.ok_of_no_call rfl (h.ok _ _ hs).swapped)
      fun _ _ hv => hv
  | receive hu hch => exact h.receive hu hch
  | readMessage hs | readError hs | renewOwnerLease hs | awaitClose hs | dispatch hs | miss hs =>
    exact h.of_quiet hs rfl rfl rfl
  | @offer s sess env u sub sub' hs hcall hsub hu hoffer hopen =>
    have hok := h.ok _ _ hs
    obtain ⟨howner, hstate⟩ := h.offered hs hsub hu hoffer
    have hstill : sub'.Open := by
      rcases hstate with hstill | ⟨err, hshut⟩
      · exact hstill
      · rw [hshut.closed] at hopen
        cases hopen
    have hok' : Session.Ok { sess with reader := .reading } := ⟨hok.swapped, hok.attach, hok.detach⟩
    refine h.of_channel hs (.inl hsub) hok' howner hstate ?_ rfl rfl rfl
    intro r v hv
    refine ⟨hv, ?_⟩
    rintro rfl
    have hlookup := (Session.Ok.has_iff (hok.not_swapped hsub)).mp hv
    exact ⟨Option.some.inj (hlookup.symm.trans hsub), hstill⟩
  | @finish s sess env u sub sub' hs hcall hsub hu hoffer =>
    have hok := h.ok _ _ hs
    obtain ⟨howner, hstate⟩ := h.offered hs hsub hu hoffer
    refine h.of_channel hs (.inl hsub) (hok.erase env.id) howner hstate ?_ rfl rfl rfl
    intro r v hv
    refine ⟨Session.has_of_erase hv, ?_⟩
    rintro rfl
    -- the subscription was taken out of `subs`, and `Close` has not come by
    rcases hv with hv | ⟨rest, detach, hdrain, -⟩
    · rw [AList.lookup_erase] at hv
      cases hv
    · have hswapped : sess.swapped = true := Session.swapped_of_draining hdrain
      rw [hok.not_swapped hsub] at hswapped
      cases hswapped
  | @closeBegin s sess hs =>
    have hok := h.ok _ _ hs
    refine h.of_session hs rfl rfl rfl ⟨?_, fun run hcall => ⟨rfl, (hok.attach run hcall).2⟩, hok.detach⟩ ?_
    · intro hswapped
      cases hswapped
    · rintro r v (hv | ⟨rest, detach, hdrain, -⟩)
      · exact .inl hv
      · cases hdrain
  | closeSwap hs hbegun hcall => exact h.closeSwap hs hcall
  | closeSubscription hs hdrain hsub hu hclose => exact h.closeSubscription hs hdrain hsub hu hclose
  | closeDetach hs hdrain => exact h.drain hs hdrain (.inl rfl) rfl rfl rfl
  | closeDeregister hs hdrain => exact h.drain hs hdrain (.inr rfl) rfl rfl rfl

end Sane

theorem route_frame (env : Envelope) (s : SessionID) (reg : Registry) :
    (env.route s reg).byRun = reg.byRun ∧ (env.route s reg).byDevice = reg.byDevice := by
  unfold Envelope.route
  split <;> simp [Registry.attachPermission, Registry.detachPermission,
    Registry.attachPromptForUserChoice]

def Filed (st : System) : Prop :=
  ∀ device s, st.reg.byDevice device = some s → ∃ sess, st.sessions s = some sess ∧ sess.device = device

namespace Filed

variable {st t : System} {s : SessionID} {sess sess' : Session}

theorem device_eq (h : Filed st) (hs : st.sessions s = some sess) {device : String}
    (hdevice : st.reg.byDevice device = some s) : sess.device = device := by
  obtain ⟨sess₁, hs₁, hsame⟩ := h device s hdevice
  obtain rfl : sess = sess₁ := Option.some.inj (hs.symm.trans hs₁)
  exact hsame

theorem of_step (h : Filed st) (hs : st.sessions s = some sess)
    (hsessions : t.sessions = Function.update st.sessions s (some sess'))
    (hdevice : sess'.device = sess.device)
    (hdevices : ∀ device s', t.reg.byDevice device = some s' → st.reg.byDevice device = some s') :
    Filed t := by
  intro device s' hfiled
  have hold := hdevices device s' hfiled
  rw [hsessions]
  by_cases heq : s' = s
  · subst heq
    exact ⟨sess', Function.update_self .., hdevice.trans (h.device_eq hs hold)⟩
  · rw [Function.update_of_ne heq]
    exact h device s' hold

theorem step {a : Label} (h : Filed st) (hsane : Sane st) (hstep : st.step a = some t) :
    Filed t := by
  cases hsane.effect hstep with
  | @connect s device hnew =>
    intro key s' hfiled
    show ∃ sess, Function.update st.sessions s (some { device := device }) s' = some sess ∧ _
    rcases Registry.register_byDevice hfiled with ⟨rfl, rfl⟩ | ⟨-, hold⟩
    · exact ⟨_, Function.update_self .., rfl⟩
    · obtain ⟨sess, hs, hsame⟩ := h key s' hold
      have hne : s' ≠ s := by
        intro heq
        rw [heq, hnew] at hs
        cases hs
      exact ⟨sess, by rw [Function.update_of_ne hne, hs], hsame⟩
  | dispatch hs =>
    refine h.of_step hs rfl rfl ?_
    intro device s' hfiled
    exact (congrFun (route_frame ..).2 device).symm.trans hfiled
  | closeDeregister hs =>
    refine h.of_step hs rfl rfl ?_
    intro device s' hfiled
    exact (Registry.deregister_byDevice hfiled).1
  | receive => exact h
  | subscribe hs | unsubscribe hs | attachRun hs | detachRun hs | readMessage hs | readError hs
  | renewOwnerLease hs | awaitClose hs | miss hs | offer hs | finish hs | closeBegin hs
  | closeSwap hs | closeSubscription hs | closeDetach hs =>
    exact h.of_step hs rfl rfl fun _ _ hold => hold

end Filed

theorem filed_init : Filed {} := by
  intro device s hdevice
  cases hdevice

end Parsar.Gateway
