import Parsar.Gateway.Invariants

namespace Parsar.Gateway

structure Registry.Within (P : SessionID → Prop) (r r' : Registry) : Prop where
  device : ∀ key t, r'.byDevice key = some t → r.byDevice key = some t ∨ P t
  run : ∀ key t, r'.byRun key = some t → r.byRun key = some t ∨ P t
  perm : ∀ key t, r'.byPerm key = some t → r.byPerm key = some t ∨ P t
  ask : ∀ key t, r'.byAsk key = some t → r.byAsk key = some t ∨ P t

structure Registry.Clear (r : Registry) (s : SessionID) : Prop where
  device : ∀ key, r.byDevice key ≠ some s
  run : ∀ key, r.byRun key ≠ some s
  perm : ∀ key, r.byPerm key ≠ some s
  ask : ∀ key, r.byAsk key ≠ some s

def Envelope.files (env : Envelope) : Bool :=
  match env.type with
  | .permissionRequest => env.permissionID ≠ ""
  | .promptForUserChoice => env.interactionID.getD "" ≠ ""
  | _ => false

namespace Registry

variable {P : SessionID → Prop} {r r' : Registry} {s : SessionID}

theorem Clear.within (h : r.Clear s) (hw : Within P r r') (hs : ¬ P s) : r'.Clear s := by
  refine ⟨?_, ?_, ?_, ?_⟩
  · intro key hkey
    exact (hw.device key s hkey).elim (h.device key) hs
  · intro key hkey
    exact (hw.run key s hkey).elim (h.run key) hs
  · intro key hkey
    exact (hw.perm key s hkey).elim (h.perm key) hs
  · intro key hkey
    exact (hw.ask key s hkey).elim (h.ask key) hs

theorem within_register (r : Registry) (s : SessionID) (device : String) :
    Within (· = s) r (r.register s device) := by
  have hroutes : ∀ p : SessionID, ∀ m : Index, ∀ key t, m.evict p key = some t → m key = some t :=
    fun p m key t h => (Index.evict_eq_some.mp h).1
  refine ⟨?_, ?_, ?_, ?_⟩
  · intro key t hkey
    exact (register_byDevice hkey).elim (fun hnew => .inr hnew.2) fun hold => .inl hold.2
  all_goals
    intro key t hkey
    left
    unfold register at hkey
    split at hkey
    · split at hkey
      · exact hroutes _ _ key t hkey
      · exact hkey
    · exact hkey

theorem within_attachRun (r : Registry) (run : String) (s : SessionID) :
    Within (· = s) r (r.attachRun run s) := by
  refine ⟨fun _ _ h => .inl h, ?_, fun _ _ h => .inl h, fun _ _ h => .inl h⟩
  intro key t hkey
  exact (Index.put_eq_some hkey).elim (fun hnew => .inr hnew.2) .inl

theorem within_detachRun (r : Registry) (run : String) : Within P r (r.detachRun run) :=
  ⟨fun _ _ h => .inl h, fun _ _ h => .inl (Index.remove_eq_some h), fun _ _ h => .inl h,
    fun _ _ h => .inl h⟩

theorem within_deregister (r : Registry) (s : SessionID) (device : String) :
    Within P r (r.deregister s device) := by
  obtain ⟨hrun, hperm, hask⟩ := r.deregister_routes s device
  refine ⟨fun key t h => .inl (deregister_byDevice h).1, ?_, ?_, ?_⟩
  · rw [hrun]
    exact fun key t h => .inl (Index.evict_eq_some.mp h).1
  · rw [hperm]
    exact fun key t h => .inl (Index.evict_eq_some.mp h).1
  · rw [hask]
    exact fun key t h => .inl (Index.evict_eq_some.mp h).1

theorem within_route (env : Envelope) (s : SessionID) (r : Registry) :
    Within (fun t => t = s ∧ env.files = true) r (env.route s r) := by
  have hput : ∀ (m : Index) (key : String), (key ≠ "" → env.files = true) →
      ∀ k t, m.put key s k = some t → m k = some t ∨ t = s ∧ env.files = true := by
    intro m key hfiles k t h
    by_cases hblank : key = ""
    · left
      simpa [Index.put, hblank] using h
    · exact (Index.put_eq_some h).elim (fun hnew => .inr ⟨hnew.2, hfiles hblank⟩) .inl
  have hperm : env.type = .permissionRequest → env.permissionID ≠ "" → env.files = true := by
    intro htype
    simp [Envelope.files, htype]
  have hask : env.type = .promptForUserChoice → env.interactionID.getD "" ≠ "" →
      env.files = true := by
    intro htype
    simp [Envelope.files, htype]
  -- named ids, so that nothing below computes them
  generalize hpermID : env.permissionID = perm at hperm
  generalize hroute : env.route s r = r'
  unfold Envelope.route at hroute
  rw [hpermID] at hroute
  split at hroute
  · rename_i htype
    subst hroute
    exact ⟨fun _ _ h => .inl h, fun _ _ h => .inl h, hput r.byPerm perm (hperm htype),
      fun _ _ h => .inl h⟩
  · subst hroute
    exact ⟨fun _ _ h => .inl h, fun _ _ h => .inl h, fun _ _ h => .inl (Index.remove_eq_some h),
      fun _ _ h => .inl h⟩
  · rename_i htype
    subst hroute
    exact ⟨fun _ _ h => .inl h, fun _ _ h => .inl h, fun _ _ h => .inl h,
      hput r.byAsk _ (hask htype)⟩
  · subst hroute
    exact ⟨fun _ _ h => .inl h, fun _ _ h => .inl h, fun _ _ h => .inl h, fun _ _ h => .inl h⟩

theorem clear_deregister {device : String} (h : ∀ key, r.byDevice key = some s → key = device) :
    (r.deregister s device).Clear s := by
  obtain ⟨hrun, hperm, hask⟩ := r.deregister_routes s device
  have hevict : ∀ (m : Index) (key : String), m.evict s key ≠ some s := by
    intro m key hkey
    exact (Index.evict_eq_some.mp hkey).2 rfl
  refine ⟨?_, ?_, ?_, ?_⟩
  · intro key hkey
    obtain ⟨hold, hne⟩ := deregister_byDevice hkey
    exact hne ⟨h key hold, rfl⟩
  · rw [hrun]
    exact hevict r.byRun
  · rw [hperm]
    exact hevict r.byPerm
  · rw [hask]
    exact hevict r.byAsk

end Registry

def FiledInTime (st : System) : Label → Prop
  | .dispatch s _ =>
    match st.sessions s with
    | some ⟨_, _, _, .returned, .renewed env⟩ => env.files = false
    | _ => True
  | _ => True

instance (st : System) (a : Label) : Decidable (FiledInTime st a) := by
  unfold FiledInTime
  split
  · split <;> infer_instance
  · infer_instance

def Cleared (st : System) : Prop :=
  ∀ s sess, st.sessions s = some sess → sess.closing = .returned → st.reg.Clear s

theorem cleared_init : Cleared {} := by
  intro s sess hs
  cases hs

namespace Cleared

variable {st t : System} {s : SessionID} {sess sess' : Session}

theorem of_step (h : Cleared st)
    (hsessions : t.sessions = Function.update st.sessions s (some sess'))
    (hreg : Registry.Within (· = s) st.reg t.reg)
    (hown : sess'.closing = .returned → t.reg.Clear s) : Cleared t := by
  intro s' sess₁ hs' hreturned
  rw [hsessions] at hs'
  rcases GoStd.GoMap.set_eq_some hs' with ⟨rfl, rfl⟩ | ⟨heq, hs'⟩
  · exact hown hreturned
  · exact (h s' sess₁ hs' hreturned).within hreg heq

theorem of_session (h : Cleared st) (hs : st.sessions s = some sess)
    (hsessions : t.sessions = Function.update st.sessions s (some sess')) (hreg : t.reg = st.reg)
    (hclosing : sess'.closing = .returned → sess.closing = .returned) : Cleared t := by
  refine h.of_step hsessions ?_ ?_
  · rw [hreg]
    exact ⟨fun _ _ hk => .inl hk, fun _ _ hk => .inl hk, fun _ _ hk => .inl hk,
      fun _ _ hk => .inl hk⟩
  · intro hreturned
    rw [hreg]
    exact h s sess hs (hclosing hreturned)

theorem step {a : Label} (h : Cleared st) (hsane : Sane st) (hfiled : Filed st)
    (hok : FiledInTime st a) (hstep : st.step a = some t) : Cleared t := by
  cases hsane.effect hstep with
  | connect =>
    refine h.of_step rfl (Registry.within_register ..) ?_
    intro hreturned
    cases hreturned
  | @attachRun s sess run hs hcall =>
    refine h.of_step rfl (Registry.within_attachRun ..) ?_
    intro hreturned
    have hreturned : sess.closing = .returned := hreturned
    have hopen := ((hsane.ok _ _ hs).attach run hcall).1
    simp [Session.swapped, hreturned] at hopen
  | detachRun hs =>
    refine h.of_step rfl (Registry.within_detachRun ..) ?_
    intro hreturned
    exact (h _ _ hs hreturned).within (Registry.within_detachRun (P := fun _ => False) ..) not_false
  | @dispatch s sess env retired hs hreader =>
    have hroute := Registry.within_route env s st.reg
    have hlate : sess.closing = .returned → env.files = false := by
      intro hreturned
      obtain ⟨device, subs, call, closing, reader⟩ := sess
      subst hreturned hreader
      simpa only [FiledInTime, hs] using hok
    refine h.of_step rfl ⟨?_, ?_, ?_, ?_⟩ ?_
    · exact fun key t hk => (hroute.device key t hk).imp_right And.left
    · exact fun key t hk => (hroute.run key t hk).imp_right And.left
    · exact fun key t hk => (hroute.perm key t hk).imp_right And.left
    · exact fun key t hk => (hroute.ask key t hk).imp_right And.left
    · intro hreturned
      apply (h s sess hs hreturned).within hroute
      simp [hlate hreturned]
  | @closeDetach s sess rest run =>
    refine h.of_step rfl (Registry.within_detachRun ..) ?_
    intro hreturned
    cases hreturned
  | @closeDeregister s sess rest hs =>
    refine h.of_step rfl (Registry.within_deregister ..) ?_
    intro _
    apply Registry.clear_deregister
    intro key hkey
    exact (hfiled.device_eq hs hkey).symm
  | receive => exact h
  | subscribe hs | unsubscribe hs | readMessage hs | readError hs | renewOwnerLease hs
  | awaitClose hs | miss hs | offer hs | finish hs =>
    exact h.of_session hs rfl rfl fun hreturned => hreturned
  | closeBegin hs | closeSwap hs | closeSubscription hs =>
    refine h.of_session hs rfl rfl ?_
    intro hreturned
    cases hreturned

end Cleared

/-- If permission and choice frames are dispatched in time, a session whose `Close` has returned has
no entry in the registry. -/
theorem closed_session_unregistered (trace : List Label) (st : System)
    (hok : StepsMeet System.step FiledInTime {} trace) (hreach : System.Reaches trace st)
    (s : SessionID) (sess : Session) (hs : st.sessions s = some sess)
    (hreturned : sess.closing = .returned) : st.reg.Clear s := by
  have hinv : Sane st ∧ Filed st ∧ Cleared st := by
    refine runTrace_invariant (I := fun st => Sane st ∧ Filed st ∧ Cleared st) ?_ hok hreach
      ⟨Sane.init, filed_init, cleared_init⟩
    rintro st a t hok hstep ⟨hsane, hfiled, hcleared⟩
    exact ⟨hsane.step hstep, hfiled.step hsane hstep, hcleared.step hsane hfiled hok hstep⟩
  exact hinv.2.2 s sess hs hreturned

def permissionFrame : Envelope := { type := .permissionRequest, id := "r", interactionID := some "p" }

/-- The read loop holds a permission request while the session is closed, and dispatches it then. -/
def lateFrameTrace : List Label :=
  [.connect 0 "d", .readMessage 0 (some permissionFrame), .renewOwnerLease 0 true,
    .closeBegin 0, .closeSwap 0, .closeDeregister 0, .dispatch 0 false,
    .dispatchToSubscriber 0 permissionFrame, .readError 0, .awaitClose 0]

def finished (st : System) (s : SessionID) : Bool :=
  match st.sessions s with
  | some ⟨_, _, _, .returned, .exited⟩ => true
  | _ => false

theorem of_finished {st : System} {s : SessionID} (h : finished st s = true) :
    ∃ sess, st.sessions s = some sess ∧ sess.closing = .returned ∧ sess.reader = .exited := by
  unfold finished at h
  split at h
  · rename_i device subs call hs
    exact ⟨_, hs, rfl, rfl⟩
  · cases h

theorem late_frame_filed :
    ∃ st sess, System.Reaches lateFrameTrace st ∧ st.sessions 0 = some sess ∧
      sess.closing = .returned ∧ sess.reader = .exited ∧ st.reg.byPerm "p" = some 0 := by
  have hrun : (runTrace System.step {} lateFrameTrace).map
      (fun st => finished st 0 && st.reg.byPerm "p" == some 0) = some true := by decide
  obtain ⟨st, hreach, hcheck⟩ := exists_of_runTrace_map hrun
  simp only [Bool.and_eq_true, beq_iff_eq] at hcheck
  obtain ⟨sess, hs, hreturned, hexited⟩ := of_finished hcheck.1
  exact ⟨st, sess, hreach, hs, hreturned, hexited, hcheck.2⟩

def timelyFrameTrace : List Label :=
  [.connect 0 "d", .readMessage 0 (some permissionFrame), .renewOwnerLease 0 true, .dispatch 0 false,
    .closeBegin 0, .closeSwap 0, .closeDeregister 0,
    .dispatchToSubscriber 0 permissionFrame, .readError 0, .awaitClose 0]

theorem closed_session_unregistered_timely :
    ∃ st, System.Reaches timelyFrameTrace st ∧ finished st 0 = true ∧ st.reg.Clear 0 := by
  have hrun : (runTrace System.step {} timelyFrameTrace).map (fun st => finished st 0) =
      some true := by decide
  obtain ⟨st, hreach, hcheck⟩ := exists_of_runTrace_map hrun
  obtain ⟨sess, hs, hreturned, -⟩ := of_finished hcheck
  exact ⟨st, hreach, hcheck, closed_session_unregistered timelyFrameTrace st
    (stepsMeet_of_check (by decide)) hreach 0 sess hs hreturned⟩

end Parsar.Gateway
