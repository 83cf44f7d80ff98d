import Parsar.Gateway.Invariants

namespace Parsar.Gateway

/-- A subscription of the run that `subscribe` has returned. -/
def Session.Holds (sess : Session) (run : String) : Prop :=
  (sess.subs.lookup run).isSome = true ∧ sess.call ≠ some (.attach run)

instance (sess : Session) (run : String) : Decidable (sess.Holds run) :=
  inferInstanceAs (Decidable (_ ∧ _))

/-- The session has a subscription of the run, a pending `DetachRun` for it, or an entry of it that
`Close` has not detached. -/
def Session.Uses (sess : Session) (run : String) : Prop :=
  (sess.subs.lookup run).isSome = true ∨ sess.call = some (.detach run) ∨
    match sess.closing with
    | .draining rest detach => (rest.lookup run).isSome = true ∨ detach = some run
    | _ => False

instance (sess : Session) (run : String) : Decidable (sess.Uses run) := by
  unfold Session.Uses
  cases sess.closing <;> infer_instance

/-- No other session uses the run. -/
def System.SoleUser (st : System) (s : SessionID) (run : String) : Prop :=
  ∀ s' sess, s' ≠ s → st.sessions s' = some sess → ¬ sess.Uses run

/-- A session subscribes to a run, or unsubscribes from it, while no other session uses it. -/
def OwnRun (st : System) : Label → Prop
  | .subscribe s run _ _ | .unsubscribe s run => st.SoleUser s run
  | _ => True

def Exclusive (st : System) : Prop :=
  ∀ s sess run, st.sessions s = some sess → sess.Uses run → st.SoleUser s run

theorem exclusive_init : Exclusive {} := by
  intro s sess run hs
  cases hs

namespace Exclusive

variable {st t : System} {s : SessionID} {sess sess' : Session}

theorem of_step (h : Exclusive st)
    (hsessions : t.sessions = Function.update st.sessions s (some sess'))
    (huses : ∀ run, sess'.Uses run → st.SoleUser s run) : Exclusive t := by
  intro s₁ sess₁ run hs₁ huse₁ s₂ sess₂ hne hs₂ huse₂
  rw [hsessions] at hs₁ hs₂
  rcases GoStd.GoMap.set_eq_some hs₁ with ⟨rfl, rfl⟩ | ⟨hne₁, hold₁⟩
  · rcases GoStd.GoMap.set_eq_some hs₂ with ⟨heq, -⟩ | ⟨-, hold₂⟩
    · exact hne heq
    · exact huses run huse₁ s₂ sess₂ hne hold₂ huse₂
  · rcases GoStd.GoMap.set_eq_some hs₂ with ⟨rfl, rfl⟩ | ⟨-, hold₂⟩
    · exact huses run huse₂ s₁ sess₁ hne₁ hold₁ huse₁
    · exact h s₁ sess₁ run hold₁ huse₁ s₂ sess₂ hne hold₂ huse₂

theorem of_session (h : Exclusive st) (hs : st.sessions s = some sess)
    (hsessions : t.sessions = Function.update st.sessions s (some sess'))
    (huses : ∀ run, sess'.Uses run → sess.Uses run) : Exclusive t :=
  h.of_step hsessions fun run huse => h s sess run hs (huses run huse)

theorem step {a : Label} (h : Exclusive st) (hsane : Sane st) (hok : OwnRun st a)
    (hstep : st.step a = some t) : Exclusive t := by
  cases hsane.effect hstep with
  | connect => exact h.of_step rfl fun run huse => by simp [Session.Uses] at huse
  | @subscribe s sess run durable u chans hs hrun hcall =>
    refine h.of_step rfl fun r huse => ?_
    by_cases heq : r = run
    · exact heq ▸ hok
    · refine h s sess r hs ?_
      simpa [Session.Uses, AList.lookup_insert_ne heq, hcall] using huse
  | @unsubscribe s sess run chans hs hcall =>
    refine h.of_step rfl fun r huse => ?_
    by_cases heq : r = run
    · exact heq ▸ hok
    · refine h s sess r hs ?_
      simpa [Session.Uses, AList.lookup_erase_ne heq, hcall, Ne.symm heq] using huse
  | attachRun hs | detachRun hs =>
    refine h.of_session hs rfl fun run huse => ?_
    rcases huse with huse | huse | huse
    · exact .inl huse
    · cases huse
    · exact .inr (.inr huse)
  | receive => exact h
  | readMessage hs | readError hs | renewOwnerLease hs | awaitClose hs | miss hs | offer hs
  | dispatch hs => exact h.of_session hs rfl fun _ huse => huse
  | @finish s sess env u sub sub' hs hcall hsub =>
    refine h.of_session hs rfl fun r huse => ?_
    by_cases heq : r = env.id
    · exact .inl (by rw [heq, hsub]; rfl)
    · simpa [Session.Uses, AList.lookup_erase_ne heq, hcall, Ne.symm heq] using huse
  | closeBegin hs | closeDeregister hs =>
    refine h.of_session hs rfl fun run huse => ?_
    rcases huse with huse | huse | huse
    · exact .inl huse
    · exact .inr (.inl huse)
    · exact huse.elim
  | closeSwap hs _ hcall =>
    refine h.of_session hs rfl fun run huse => .inl ?_
    simpa [Session.Uses, hcall] using huse
  | @closeSubscription s sess rest run reason u sub sub' hs hdrain hsub =>
    refine h.of_session hs rfl fun r huse => ?_
    by_cases heq : r = run
    · subst heq
      simp [Session.Uses, hdrain, hsub]
    · simpa [Session.Uses, hdrain, AList.lookup_erase_ne heq, Ne.symm heq] using huse
  | closeDetach hs hdrain =>
    refine h.of_session hs rfl fun run huse => ?_
    simp only [Session.Uses, hdrain, reduceCtorEq, or_false] at huse ⊢
    exact huse.imp_right (.imp_right .inl)

end Exclusive

def Routed (st : System) : Prop :=
  ∀ s sess run, st.sessions s = some sess → sess.Holds run → st.lastAttach run = some s →
    st.reg.byDevice sess.device = some s → st.reg.byRun run = some s

theorem routed_init : Routed {} := by
  intro s sess run hs
  cases hs

namespace Routed

variable {st t : System} {s : SessionID} {sess sess' : Session}

theorem of_step (h : Routed st)
    (hsessions : t.sessions = Function.update st.sessions s (some sess'))
    (hdevices : ∀ s' device, s' ≠ s → t.reg.byDevice device = some s' →
      st.reg.byDevice device = some s')
    (hlast : ∀ s' run, s' ≠ s → t.lastAttach run = some s' → st.lastAttach run = some s')
    (hother : ∀ s' sess₁ run, s' ≠ s → st.sessions s' = some sess₁ → sess₁.Holds run →
      t.reg.byDevice sess₁.device = some s' → t.lastAttach run = some s' →
      st.reg.byRun run = some s' → t.reg.byRun run = some s')
    (hown : ∀ run, sess'.Holds run → t.lastAttach run = some s →
      t.reg.byDevice sess'.device = some s → t.reg.byRun run = some s) : Routed t := by
  intro s' sess₁ run hs' hholds hattach hdevice
  rw [hsessions] at hs'
  rcases GoStd.GoMap.set_eq_some hs' with ⟨rfl, rfl⟩ | ⟨heq, hs'⟩
  · exact hown run hholds hattach hdevice
  · apply hother s' sess₁ run heq hs' hholds hdevice hattach
    exact h s' sess₁ run hs' hholds (hlast s' run heq hattach) (hdevices s' _ heq hdevice)

theorem of_session (h : Routed st) (hs : st.sessions s = some sess)
    (hsessions : t.sessions = Function.update st.sessions s (some sess'))
    (hdevice : sess'.device = sess.device) (hdevices : t.reg.byDevice = st.reg.byDevice)
    (hruns : t.reg.byRun = st.reg.byRun) (hattach : t.lastAttach = st.lastAttach)
    (hholds : ∀ run, sess'.Holds run → sess.Holds run) : Routed t := by
  refine h.of_step hsessions ?_ ?_ ?_ ?_
  · rw [hdevices]
    exact fun _ _ _ hold => hold
  · rw [hattach]
    exact fun _ _ _ hlast => hlast
  · rw [hruns]
    exact fun _ _ _ _ _ _ _ _ hrun => hrun
  · intro run hrun hlast hregistered
    rw [hattach] at hlast
    rw [hdevice, hdevices] at hregistered
    rw [hruns]
    exact h s sess run hs (hholds run hrun) hlast hregistered

theorem detach (h : Routed st) (hs : st.sessions s = some sess)
    (hsessions : t.sessions = Function.update st.sessions s (some sess'))
    (hdevice : sess'.device = sess.device) {run : String} (hreg : t.reg = st.reg.detachRun run)
    (hattach : t.lastAttach = st.lastAttach) (hsole : st.SoleUser s run)
    (hgone : ¬ sess'.Holds run) (hholds : ∀ r, sess'.Holds r → sess.Holds r) : Routed t := by
  have hruns : ∀ r, r ≠ run → t.reg.byRun r = st.reg.byRun r := by
    intro r hne
    rw [hreg]
    exact Index.remove_ne hne
  have hdevices : t.reg.byDevice = st.reg.byDevice := by
    rw [hreg]
    rfl
  refine h.of_step hsessions ?_ ?_ ?_ ?_
  · rw [hdevices]
    exact fun _ _ _ hold => hold
  · rw [hattach]
    exact fun _ _ _ hlast => hlast
  · intro s' sess₁ r hne hs' hholds _ _ hrun
    have hother : r ≠ run := by
      rintro rfl
      exact hsole s' sess₁ hne hs' (.inl hholds.1)
    rw [hruns r hother]
    exact hrun
  · intro r hr hlast hregistered
    have hne : r ≠ run := by
      rintro rfl
      exact hgone hr
    rw [hattach] at hlast
    rw [hdevice, hdevices] at hregistered
    rw [hruns r hne]
    exact h s sess r hs (hholds r hr) hlast hregistered

theorem connect (h : Routed st) (hfiled : Filed st) {device : String} :
    Routed { st.put s { device := device } with reg := st.reg.register s device } := by
  refine h.of_step rfl ?_ (fun _ _ _ hlast => hlast) ?_ ?_
  · intro s' key hne hkey
    exact (Registry.register_byDevice hkey).elim (fun hsame => absurd hsame.2 hne)
      fun hold => hold.2
  · intro s' sess₁ run hne hs' _ hdevice _ hrun
    apply Registry.register_byRun hrun
    -- the displaced session is filed under the device that is taken over
    intro hdisplaced
    have hsame := hfiled.device_eq hs' hdisplaced
    rcases Registry.register_byDevice hdevice with ⟨-, heq⟩ | ⟨hother, -⟩
    · exact hne heq
    · exact hother hsame
  · intro run hholds
    simp [Session.Holds] at hholds

theorem attach (h : Routed st) (hs : st.sessions s = some sess) {run : String} (hrun : run ≠ "")
    (hcall : sess.call = some (.attach run)) :
    Routed { st.put s { sess with call := none } with
      reg := st.reg.attachRun run s
      lastAttach := st.lastAttach.put run s } := by
  refine h.of_step rfl (fun _ _ _ hold => hold) ?_ ?_ ?_
  · intro s' r hne hlast
    rcases Index.put_eq_some hlast with ⟨-, heq⟩ | hold
    · exact absurd heq hne
    · exact hold
  · intro s' _ r hne _ _ _ hlast hr
    have hother : r ≠ run := by
      rintro rfl
      have hself : st.lastAttach.put r s r = some s' := hlast
      rw [Index.put_same hrun] at hself
      exact hne (Option.some.inj hself).symm
    exact (Index.put_ne hother).trans hr
  · intro r hholds hlast hregistered
    by_cases heq : r = run
    · subst heq
      exact Index.put_same hrun
    · refine (Index.put_ne heq).trans (h s sess r hs ⟨hholds.1, ?_⟩ ?_ hregistered)
      · rw [hcall]
        simpa using fun hsame => heq hsame.symm
      · exact (Index.put_ne heq).symm.trans hlast

theorem deregister (h : Routed st) {closing : Closing} :
    Routed { st.put s { sess with closing := closing } with
      reg := st.reg.deregister s sess.device } := by
  obtain ⟨hruns, -, -⟩ := st.reg.deregister_routes s sess.device
  refine h.of_step rfl ?_ (fun _ _ _ hlast => hlast) ?_ ?_
  · intro s' key _ hkey
    exact (Registry.deregister_byDevice hkey).1
  · intro s' sess₁ run hne hs' _ _ _ hrun
    show (st.reg.deregister s sess.device).byRun run = some s'
    rw [hruns]
    exact Index.evict_eq_some.mpr ⟨hrun, hne⟩
  · intro run _ _ hregistered
    exact absurd ⟨rfl, rfl⟩ (Registry.deregister_byDevice hregistered).2

theorem step {a : Label} (h : Routed st) (hsane : Sane st) (hfiled : Filed st)
    (hexcl : Exclusive st) (hstep : st.step a = some t) : Routed t := by
  cases hsane.effect hstep with
  | connect => exact h.connect hfiled
  | @subscribe s sess run durable u chans hs hrun hcall =>
    refine h.of_session hs rfl rfl rfl rfl rfl ?_
    intro r hholds
    have hne : r ≠ run := by
      rintro rfl
      exact hholds.2 rfl
    refine ⟨?_, by simp [hcall]⟩
    have hsub := hholds.1
    rwa [AList.lookup_insert_ne hne] at hsub
  | @unsubscribe s sess run chans hs hcall =>
    refine h.of_session hs rfl rfl rfl rfl rfl ?_
    intro r hholds
    have hne : r ≠ run := by
      rintro rfl
      simp [Session.Holds] at hholds
    refine ⟨?_, by simp [hcall]⟩
    have hsub := hholds.1
    rwa [AList.lookup_erase_ne hne] at hsub
  | attachRun hs hcall => exact h.attach hs ((hsane.ok _ _ hs).attach _ hcall).2 hcall
  | @detachRun s sess run hs hcall =>
    have hgone := (hsane.ok _ _ hs).detach run hcall
    refine h.detach hs rfl rfl rfl rfl (hexcl s sess run hs (.inr (.inl hcall))) ?_ ?_
    · simp [Session.Holds, hgone]
    · intro r hholds
      exact ⟨hholds.1, by simp [hcall]⟩
  | receive => exact h
  | readMessage hs | readError hs | renewOwnerLease hs | awaitClose hs | miss hs | offer hs
  | closeBegin hs | closeSubscription hs =>
    exact h.of_session hs rfl rfl rfl rfl rfl fun _ hholds => hholds
  | dispatch hs =>
    exact h.of_session hs rfl rfl (route_frame ..).2 (route_frame ..).1 rfl fun _ hholds => hholds
  | @finish s sess env u sub sub' hs hcall hsub =>
    refine h.of_session hs rfl rfl rfl rfl rfl ?_
    intro r hholds
    have hne : r ≠ env.id := by
      rintro rfl
      simp [Session.Holds] at hholds
    refine ⟨?_, by simp [hcall]⟩
    have hsub := hholds.1
    rwa [AList.lookup_erase_ne hne] at hsub
  | closeSwap hs =>
    refine h.of_session hs rfl rfl rfl rfl rfl ?_
    intro r hholds
    simp [Session.Holds] at hholds
  | @closeDetach s sess rest run hs hdrain =>
    have hempty := (hsane.ok _ _ hs).swapped (Session.swapped_of_draining hdrain)
    have huse : sess.Uses run := by simp [Session.Uses, hdrain]
    refine h.detach hs rfl rfl rfl rfl (hexcl s sess run hs huse) ?_ fun _ hholds => hholds
    simp [Session.Holds, hempty]
  | closeDeregister => exact h.deregister

end Routed

/-- If a run is subscribed and unsubscribed by one session at a time, its route belongs to the
session that holds its subscription and attached it last, until that session is displaced or
deregistered. -/
theorem run_route_kept (trace : List Label) (st : System)
    (hok : StepsMeet System.step OwnRun {} trace) (hreach : System.Reaches trace st)
    (s : SessionID) (sess : Session) (run : String) (hs : st.sessions s = some sess)
    (hholds : sess.Holds run) (hlast : st.lastAttach run = some s)
    (hregistered : st.reg.byDevice sess.device = some s) : st.reg.lookupRun run = some s := by
  have hinv : Sane st ∧ Filed st ∧ Exclusive st ∧ Routed st := by
    refine runTrace_invariant (I := fun st => Sane st ∧ Filed st ∧ Exclusive st ∧ Routed st) ?_
      hok hreach ⟨Sane.init, filed_init, exclusive_init, routed_init⟩
    rintro st a t hok hstep ⟨hsane, hfiled, hexcl, hrouted⟩
    exact ⟨hsane.step hstep, hfiled.step hsane hstep, hexcl.step hsane hok hstep,
      hrouted.step hsane hfiled hexcl hstep⟩
  exact hinv.2.2.2 s sess run hs hholds hlast hregistered

/-- The daemon of device `d` dials in again and the run is subscribed on the new session, then the
handler closes the displaced one. -/
def reconnectTrace : List Label :=
  [.connect 0 "d", .subscribe 0 "r" true 0, .runCall 0,
    .connect 1 "d", .subscribe 1 "r" true 1, .runCall 1,
    .closeBegin 0, .closeSwap 0, .closeSubscription 0 "r" "preempted", .closeDetach 0]

def holdsRoute (st : System) (s : SessionID) (run : String) : Bool :=
  match st.sessions s with
  | some sess => decide (sess.Holds run) && st.lastAttach run == some s &&
      st.reg.byDevice sess.device == some s
  | none => false

theorem of_holdsRoute {st : System} {s : SessionID} {run : String}
    (h : holdsRoute st s run = true) : ∃ sess, st.sessions s = some sess ∧ sess.Holds run ∧
      st.lastAttach run = some s ∧ st.reg.byDevice sess.device = some s := by
  unfold holdsRoute at h
  split at h
  · rename_i sess hs
    simp only [Bool.and_eq_true, decide_eq_true_eq, beq_iff_eq] at h
    exact ⟨sess, hs, h.1.1, h.1.2, h.2⟩
  · cases h

theorem run_route_lost :
    ∃ st sess, System.Reaches reconnectTrace st ∧ st.sessions 1 = some sess ∧ sess.Holds "r" ∧
      st.lastAttach "r" = some 1 ∧ st.reg.byDevice sess.device = some 1 ∧
      st.reg.lookupRun "r" = none := by
  have hrun : (runTrace System.step {} reconnectTrace).map
      (fun st => holdsRoute st 1 "r" && st.reg.lookupRun "r" == none) = some true := by decide
  obtain ⟨st, hreach, hcheck⟩ := exists_of_runTrace_map hrun
  simp only [Bool.and_eq_true, beq_iff_eq] at hcheck
  obtain ⟨sess, hs, hholds, hlast, hregistered⟩ := of_holdsRoute hcheck.1
  exact ⟨st, sess, hreach, hs, hholds, hlast, hregistered, hcheck.2⟩

def orderlyReconnectTrace : List Label :=
  [.connect 0 "d", .subscribe 0 "r" true 0, .runCall 0, .connect 1 "d",
    .closeBegin 0, .closeSwap 0, .closeSubscription 0 "r" "preempted", .closeDetach 0,
    .closeDeregister 0, .subscribe 1 "r" true 1, .runCall 1]

/-- As `OwnRun`, with session ids below `n`. -/
def OwnRunBelow (n : Nat) (st : System) : Label → Prop
  | .connect s _ => s < n
  | .subscribe s run _ _ | .unsubscribe s run =>
    ∀ s' < n, s' ≠ s → ∀ sess ∈ st.sessions s', ¬ sess.Uses run
  | _ => True

instance (n : Nat) (st : System) : ∀ a, Decidable (OwnRunBelow n st a)
  | .connect s _ => inferInstanceAs (Decidable (s < n))
  | .subscribe .. | .unsubscribe .. => inferInstanceAs (Decidable (∀ s' < n, _ → _))
  | .runCall _ | .receive _ | .readMessage .. | .readError _ | .renewOwnerLease .. | .awaitClose _
  | .dispatch .. | .dispatchToSubscriber .. | .closeBegin _ | .closeSwap _ | .closeSubscription ..
  | .closeDetach _ | .closeDeregister _ => instDecidableTrue

theorem stepsMeet_ownRun {n : Nat} {trace : List Label} {st : System} (hsane : Sane st)
    (hbelow : ∀ s sess, st.sessions s = some sess → s < n)
    (h : StepsMeet System.step (OwnRunBelow n) st trace) :
    StepsMeet System.step OwnRun st trace := by
  induction trace generalizing st with
  | nil => trivial
  | cons a as ih =>
    refine ⟨?_, fun t hstep => ih (hsane.step hstep) ?_ (h.2 t hstep)⟩
    · have hhead := h.1
      cases a with
      | subscribe s run | unsubscribe s run =>
        exact fun s' sess hne hs' => hhead s' (hbelow s' sess hs') hne sess hs'
      | _ => trivial
    · have hput : ∀ s sess', s < n → ∀ s₁ sess₁,
          Function.update st.sessions s (some sess') s₁ = some sess₁ → s₁ < n := by
        intro s sess' hlt s₁ sess₁ hs₁
        rcases GoStd.GoMap.set_eq_some hs₁ with ⟨rfl, -⟩ | ⟨-, hs₁⟩
        · exact hlt
        · exact hbelow s₁ sess₁ hs₁
      cases hsane.effect hstep with
      | connect => exact hput _ _ h.1
      | receive => exact hbelow
      | subscribe hs | unsubscribe hs | attachRun hs | detachRun hs | readMessage hs
      | readError hs | renewOwnerLease hs | awaitClose hs | dispatch hs | miss hs | offer hs
      | finish hs | closeBegin hs | closeSwap hs | closeSubscription hs | closeDetach hs
      | closeDeregister hs => exact hput _ _ (hbelow _ _ hs)

theorem run_route_kept_reconnect :
    ∃ st, System.Reaches orderlyReconnectTrace st ∧ holdsRoute st 1 "r" = true ∧
      st.reg.lookupRun "r" = some 1 := by
  have hrun : (runTrace System.step {} orderlyReconnectTrace).map
      (fun st => holdsRoute st 1 "r") = some true := by decide
  obtain ⟨st, hreach, hcheck⟩ := exists_of_runTrace_map hrun
  obtain ⟨sess, hs, hholds, hlast, hregistered⟩ := of_holdsRoute hcheck
  have hbelow : StepsMeet System.step (OwnRunBelow 2) {} orderlyReconnectTrace :=
    stepsMeet_of_check (by decide +kernel)
  have hok := stepsMeet_ownRun Sane.init (fun _ _ hs => by cases hs) hbelow
  exact ⟨st, hreach, hcheck, run_route_kept orderlyReconnectTrace st hok hreach 1 sess "r" hs hholds
    hlast hregistered⟩

/-- Whatever the sessions do, no send or close panics: a channel is closed once at most, a session's
subscriptions are open and its own, and a device leads to a session that dialed in for it. -/
theorem channels_never_panic {trace : List Label} {st : System} (hreach : System.Reaches trace st) :
    st.panicked = false ∧ (∀ u sub, st.chans u = some sub → sub.ch.closes ≤ 1) ∧
    (∀ s sess run u, st.sessions s = some sess → sess.subs.lookup run = some u →
      ∃ sub, st.chans u = some sub ∧ sub.ch.closes = 0 ∧ sub.owner = (s, run)) ∧
    ∀ device s, st.reg.byDevice device = some s →
      ∃ sess, st.sessions s = some sess ∧ sess.device = device := by
  obtain ⟨hsane, hfiled⟩ : Sane st ∧ Filed st :=
    runTrace_invariant (I := fun st => Sane st ∧ Filed st)
      (fun _ _ _ _ hstep h => ⟨h.1.step hstep, h.2.step h.1 hstep⟩) (stepsMeet_true _ trace) hreach
      ⟨.init, filed_init⟩
  refine ⟨hsane.calm, fun u sub hu => ?_, fun s sess run u hs hsub => ?_, hfiled⟩
  · rcases hsane.settled u sub hu with hopen | ⟨err, hshut⟩
    · rw [hopen.closes]
      exact Nat.zero_le 1
    · exact hshut.closes.le
  · obtain ⟨sub, hu, hopen, howner⟩ := hsane.owned s sess run u hs (.inl hsub)
    exact ⟨sub, hu, hopen.closes, howner⟩

theorem reconnect_never_panics : ∃ st, System.Reaches reconnectTrace st ∧ st.panicked = false := by
  have hrun : (runTrace System.step {} reconnectTrace).isSome = true := by decide
  obtain ⟨st, hreach⟩ := Option.isSome_iff_exists.mp hrun
  exact ⟨st, hreach, (channels_never_panic hreach).1⟩

end Parsar.Gateway
