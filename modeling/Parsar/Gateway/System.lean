import Mathlib.Data.List.AList
import Parsar.GoStd.Text
import Parsar.Gateway.Subscription

namespace Parsar.Gateway

open GoStd

abbrev Subs := AList (fun _ : String => SubID)

/-- The registry call that an operation on `subs` still has to make before it gives `subsMu` back. -/
inductive RunCall where
  | attach (run : String)
  | detach (run : String)
  deriving DecidableEq

/-- How far `Close` has come: `closed` is closed, the subscriptions are closed and detached one by
one, the session is deregistered. -/
inductive Closing where
  | idle
  | begun
  | draining (rest : Subs) (detach : Option String)
  | returned

/-- Where the read loop is. `waiting` is a call of `Close`, from a heartbeat or on the way out. -/
inductive Reader where
  | reading
  | read (frame : Option Envelope)
  | renewed (env : Envelope)
  | fanning (env : Envelope)
  | waiting (resume : Bool)
  | exited
  deriving DecidableEq

structure Session where
  device : String
  subs : Subs := ∅
  call : Option RunCall := none
  closing : Closing := .idle
  reader : Reader := .reading

namespace Session

def isClosed (sess : Session) : Bool :=
  match sess.closing with
  | .idle => false
  | _ => true

def swapped (sess : Session) : Bool :=
  match sess.closing with
  | .idle | .begun => false
  | _ => true

def Has (sess : Session) (run : String) (u : SubID) : Prop :=
  sess.subs.lookup run = some u ∨
    ∃ rest detach, sess.closing = .draining rest detach ∧ rest.lookup run = some u

end Session

namespace Envelope

/-- The id a permission request is filed under; older daemons put it in the envelope. -/
def permissionID (env : Envelope) : String :=
  let requestID := trimSpace (env.interactionID.getD "")
  if requestID = "" then trimSpace env.id else requestID

/-- The registry part of `dispatch`. -/
def route (env : Envelope) (s : SessionID) (reg : Registry) : Registry :=
  match env.type with
  | .permissionRequest => reg.attachPermission env.permissionID s
  | .permissionCancel => reg.detachPermission env.id
  | .promptForUserChoice => reg.attachPromptForUserChoice (env.interactionID.getD "") s
  | _ => reg

/-- Run-correlated frames go on to the subscriber. A heartbeat of a retired runtime closes the
session. -/
def next (env : Envelope) (retired : Bool) : Reader :=
  match env.type with
  | .workspaceExportResult | .workspaceReadResult | .preparationStatus
  | .interactionDecisionAck => .reading
  | .heartbeat => if retired then .waiting true else .reading
  | _ => if env.id = "" then .reading else .fanning env

end Envelope

abbrev Chans := SubID → Option Subscription

structure System where
  reg : Registry := {}
  sessions : SessionID → Option Session := fun _ => none
  chans : Chans := fun _ => none
  lastAttach : Index := fun _ => none
  panicked : Bool := false

/-- The steps of all goroutines; what lies between two of them holds a lock or touches nothing the
others see. -/
inductive Label where
  | connect (s : SessionID) (device : String)
  | subscribe (s : SessionID) (run : String) (durable : Bool) (u : SubID)
  | unsubscribe (s : SessionID) (run : String)
  | runCall (s : SessionID)
  | receive (u : SubID)
  | readMessage (s : SessionID) (frame : Option Envelope)
  | readError (s : SessionID)
  | renewOwnerLease (s : SessionID) (ok : Bool)
  | dispatch (s : SessionID) (retired : Bool)
  | dispatchToSubscriber (s : SessionID) (env : Envelope)
  | awaitClose (s : SessionID)
  | closeBegin (s : SessionID)
  | closeSwap (s : SessionID)
  | closeSubscription (s : SessionID) (run : String) (reason : String)
  | closeDetach (s : SessionID)
  | closeDeregister (s : SessionID)

def Chans.modify (chans : Chans) (u : SubID) (f : Subscription → Option Subscription) :
    Option Chans :=
  ((chans u).bind f).map fun sub => Function.update chans u (some sub)

def Chans.closeCurrent (chans : Chans) (subs : Subs) (run : String) (err : Option SubError) :
    Option Chans :=
  match subs.lookup run with
  | some u => chans.modify u (·.closeLocked err)
  | none => some chans

namespace System

def put (st : System) (s : SessionID) (sess : Session) : System :=
  { st with sessions := Function.update st.sessions s (some sess) }

def orCrash (st : System) (r : Option System) : System := r.getD { st with panicked := true }

def connect (st : System) (s : SessionID) (device : String) : Option System :=
  if (st.sessions s).isSome then none
  else some { st.put s { device := device } with reg := st.reg.register s device }

/-- Up to the insertion into `subs`. A refused subscription changes nothing and is no step. -/
def subscribe (st : System) (s : SessionID) (run : String) (durable : Bool) (u : SubID) :
    Option System := do
  let sess ← st.sessions s
  if run = "" ∨ sess.call.isSome ∨ sess.isClosed ∨ (st.chans u).isSome then none
  else
    let closed := st.chans.closeCurrent sess.subs run (some .sessionClosed)
    some (st.orCrash (closed.map fun chans =>
      { st.put s { sess with subs := sess.subs.insert run u, call := some (.attach run) } with
        chans := Function.update chans u (some { owner := (s, run), durable := durable }) }))

def unsubscribe (st : System) (s : SessionID) (run : String) : Option System := do
  let sess ← st.sessions s
  if sess.call.isSome then none
  else
    let closed := st.chans.closeCurrent sess.subs run none
    some (st.orCrash (closed.map fun chans =>
      { st.put s { sess with subs := sess.subs.erase run, call := some (.detach run) } with
        chans := chans }))

def runCall (st : System) (s : SessionID) : Option System := do
  let sess ← st.sessions s
  match sess.call with
  | none => none
  | some (.attach run) =>
    some { st.put s { sess with call := none } with
      reg := st.reg.attachRun run s
      lastAttach := st.lastAttach.put run s }
  | some (.detach run) =>
    some { st.put s { sess with call := none } with reg := st.reg.detachRun run }

def receive (st : System) (u : SubID) : Option System :=
  (st.chans.modify u fun sub => sub.ch.receive.map fun ch => { sub with ch := ch }).map
    fun chans => { st with chans := chans }

def advance (st : System) (s : SessionID) (next : Session → Option Reader) : Option System := do
  let sess ← st.sessions s
  let reader ← next sess
  some (st.put s { sess with reader := reader })

def dispatch (st : System) (s : SessionID) (retired : Bool) : Option System := do
  let sess ← st.sessions s
  match sess.reader with
  | .renewed env =>
    some { st.put s { sess with reader := env.next retired } with reg := env.route s st.reg }
  | _ => none

def dispatchToSubscriber (st : System) (s : SessionID) (env : Envelope) : Option System := do
  let sess ← st.sessions s
  if sess.reader ≠ .fanning env ∨ sess.call.isSome then none
  else
    match sess.subs.lookup env.id with
    | none => some (st.put s { sess with reader := .reading })
    | some u =>
      some (st.orCrash ((st.chans.modify u (·.offer env)).map fun chans =>
        if (chans u).any (·.closed) then
          { st.put s { sess with
              reader := .reading
              subs := sess.subs.erase env.id
              call := some (.detach env.id) } with chans := chans }
        else { st.put s { sess with reader := .reading } with chans := chans }))

def closeBegin (st : System) (s : SessionID) : Option System := do
  let sess ← st.sessions s
  match sess.closing with
  | .idle => some (st.put s { sess with closing := .begun })
  | _ => none

def closeSwap (st : System) (s : SessionID) : Option System := do
  let sess ← st.sessions s
  match sess.closing with
  | .begun =>
    if sess.call.isSome then none
    else some (st.put s { sess with subs := ∅, closing := .draining sess.subs none })
  | _ => none

def closeSubscription (st : System) (s : SessionID) (run reason : String) : Option System := do
  let sess ← st.sessions s
  match sess.closing with
  | .draining rest none =>
    let u ← rest.lookup run
    some (st.orCrash ((st.chans.modify u (·.closeSubscription reason)).map fun chans =>
      { st.put s { sess with closing := .draining (rest.erase run) (some run) } with
        chans := chans }))
  | _ => none

def closeDetach (st : System) (s : SessionID) : Option System := do
  let sess ← st.sessions s
  match sess.closing with
  | .draining rest (some run) =>
    some { st.put s { sess with closing := .draining rest none } with
      reg := st.reg.detachRun run }
  | _ => none

def closeDeregister (st : System) (s : SessionID) : Option System := do
  let sess ← st.sessions s
  match sess.closing with
  | .draining rest none =>
    if rest.entries ≠ [] then none
    else some { st.put s { sess with closing := .returned } with
      reg := st.reg.deregister s sess.device }
  | _ => none

def step (st : System) (a : Label) : Option System :=
  if st.panicked then none
  else match a with
    | .connect s device => st.connect s device
    | .subscribe s run durable u => st.subscribe s run durable u
    | .unsubscribe s run => st.unsubscribe s run
    | .runCall s => st.runCall s
    | .receive u => st.receive u
    | .readMessage s frame => st.advance s fun sess =>
        if sess.reader = .reading then some (.read frame) else none
    | .readError s => st.advance s fun sess =>
        if sess.reader = .reading then some (.waiting false) else none
    | .renewOwnerLease s ok => st.advance s fun sess =>
        match sess.reader with
        | .read (some env) => some (if ok then .renewed env else .waiting false)
        | .read none => some (if ok then .reading else .waiting false)
        | _ => none
    | .dispatch s retired => st.dispatch s retired
    | .dispatchToSubscriber s env => st.dispatchToSubscriber s env
    | .awaitClose s => st.advance s fun sess =>
        match sess.reader, sess.closing with
        | .waiting resume, .returned => some (if resume then .reading else .exited)
        | _, _ => none
    | .closeBegin s => st.closeBegin s
    | .closeSwap s => st.closeSwap s
    | .closeSubscription s run reason => st.closeSubscription s run reason
    | .closeDetach s => st.closeDetach s
    | .closeDeregister s => st.closeDeregister s

def Reaches (trace : List Label) (st : System) : Prop := runTrace step {} trace = some st

/-- A change that an open subscription never panics on. -/
def Safe (f : Subscription → Option Subscription) : Prop :=
  ∀ sub : Subscription, sub.Open → (f sub).isSome = true

/-- The steps, case by case, with what they check. -/
inductive Effect (st : System) : Label → System → Prop where
  | connect {s : SessionID} {device : String} (hnew : st.sessions s = none) :
      Effect st (.connect s device)
        { st.put s { device := device } with reg := st.reg.register s device }
  | subscribe {s : SessionID} {sess : Session} {run : String} {durable : Bool} {u : SubID}
      {chans : Chans} (hs : st.sessions s = some sess) (hrun : run ≠ "") (hcall : sess.call = none)
      (hopen : sess.isClosed = false) (hfresh : st.chans u = none)
      (hclosed : st.chans.closeCurrent sess.subs run (some .sessionClosed) = some chans) :
      Effect st (.subscribe s run durable u)
        { st.put s { sess with subs := sess.subs.insert run u, call := some (.attach run) } with
          chans := Function.update chans u (some { owner := (s, run), durable := durable }) }
  | unsubscribe {s : SessionID} {sess : Session} {run : String} {chans : Chans}
      (hs : st.sessions s = some sess) (hcall : sess.call = none)
      (hclosed : st.chans.closeCurrent sess.subs run none = some chans) :
      Effect st (.unsubscribe s run)
        { st.put s { sess with subs := sess.subs.erase run, call := some (.detach run) } with
          chans := chans }
  | attachRun {s : SessionID} {sess : Session} {run : String} (hs : st.sessions s = some sess)
      (hcall : sess.call = some (.attach run)) :
      Effect st (.runCall s) { st.put s { sess with call := none } with
        reg := st.reg.attachRun run s
        lastAttach := st.lastAttach.put run s }
  | detachRun {s : SessionID} {sess : Session} {run : String} (hs : st.sessions s = some sess)
      (hcall : sess.call = some (.detach run)) :
      Effect st (.runCall s) { st.put s { sess with call := none } with reg := st.reg.detachRun run }
  | receive {u : SubID} {sub : Subscription} {ch : Chan} (hu : st.chans u = some sub)
      (hch : sub.ch.receive = some ch) :
      Effect st (.receive u)
        { st with chans := Function.update st.chans u (some { sub with ch := ch }) }
  | readMessage {s : SessionID} {sess : Session} {frame : Option Envelope} {reader : Reader}
      (hs : st.sessions s = some sess) :
      Effect st (.readMessage s frame) (st.put s { sess with reader := reader })
  | readError {s : SessionID} {sess : Session} {reader : Reader} (hs : st.sessions s = some sess) :
      Effect st (.readError s) (st.put s { sess with reader := reader })
  | renewOwnerLease {s : SessionID} {sess : Session} {ok : Bool} {reader : Reader}
      (hs : st.sessions s = some sess) :
      Effect st (.renewOwnerLease s ok) (st.put s { sess with reader := reader })
  | awaitClose {s : SessionID} {sess : Session} {reader : Reader} (hs : st.sessions s = some sess) :
      Effect st (.awaitClose s) (st.put s { sess with reader := reader })
  | dispatch {s : SessionID} {sess : Session} {env : Envelope} {retired : Bool}
      (hs : st.sessions s = some sess) (hreader : sess.reader = .renewed env) :
      Effect st (.dispatch s retired)
        { st.put s { sess with reader := env.next retired } with reg := env.route s st.reg }
  | miss {s : SessionID} {sess : Session} {env : Envelope} (hs : st.sessions s = some sess)
      (hnone : sess.subs.lookup env.id = none) :
      Effect st (.dispatchToSubscriber s env) (st.put s { sess with reader := .reading })
  | offer {s : SessionID} {sess : Session} {env : Envelope} {u : SubID} {sub sub' : Subscription}
      (hs : st.sessions s = some sess) (hcall : sess.call = none)
      (hsub : sess.subs.lookup env.id = some u) (hu : st.chans u = some sub)
      (hoffer : sub.offer env = some sub') (hopen : sub'.closed = false) :
      Effect st (.dispatchToSubscriber s env) { st.put s { sess with reader := .reading } with
        chans := Function.update st.chans u (some sub') }
  | finish {s : SessionID} {sess : Session} {env : Envelope} {u : SubID} {sub sub' : Subscription}
      (hs : st.sessions s = some sess) (hcall : sess.call = none)
      (hsub : sess.subs.lookup env.id = some u) (hu : st.chans u = some sub)
      (hoffer : sub.offer env = some sub') (hclosed : sub'.closed = true) :
      Effect st (.dispatchToSubscriber s env)
        { st.put s { sess with
            reader := .reading
            subs := sess.subs.erase env.id
            call := some (.detach env.id) } with
          chans := Function.update st.chans u (some sub') }
  | closeBegin {s : SessionID} {sess : Session} (hs : st.sessions s = some sess)
      (hidle : sess.closing = .idle) :
      Effect st (.closeBegin s) (st.put s { sess with closing := .begun })
  | closeSwap {s : SessionID} {sess : Session} (hs : st.sessions s = some sess)
      (hbegun : sess.closing = .begun) (hcall : sess.call = none) :
      Effect st (.closeSwap s)
        (st.put s { sess with subs := ∅, closing := .draining sess.subs none })
  | closeSubscription {s : SessionID} {sess : Session} {rest : Subs} {run reason : String}
      {u : SubID} {sub sub' : Subscription} (hs : st.sessions s = some sess)
      (hdrain : sess.closing = .draining rest none) (hsub : rest.lookup run = some u)
      (hu : st.chans u = some sub) (hclose : sub.closeSubscription reason = some sub') :
      Effect st (.closeSubscription s run reason)
        { st.put s { sess with closing := .draining (rest.erase run) (some run) } with
          chans := Function.update st.chans u (some sub') }
  | closeDetach {s : SessionID} {sess : Session} {rest : Subs} {run : String}
      (hs : st.sessions s = some sess) (hdrain : sess.closing = .draining rest (some run)) :
      Effect st (.closeDetach s) { st.put s { sess with closing := .draining rest none } with
        reg := st.reg.detachRun run }
  | closeDeregister {s : SessionID} {sess : Session} {rest : Subs} (hs : st.sessions s = some sess)
      (hdrain : sess.closing = .draining rest none) (hempty : rest.entries = []) :
      Effect st (.closeDeregister s) { st.put s { sess with closing := .returned } with
        reg := st.reg.deregister s sess.device }

/-- A change of a channel that the session has is about to panic. -/
def Crashes (st : System) : Prop :=
  ∃ s sess run u f, st.sessions s = some sess ∧ sess.Has run u ∧ Safe f ∧ st.chans.modify u f = none

theorem safe_closeLocked (err : Option SubError) : Safe (·.closeLocked err) := by
  intro sub hopen
  obtain ⟨sub', heq, -⟩ := Subscription.closeLocked_open hopen err
  simp [heq]

theorem safe_offer (env : Envelope) : Safe (·.offer env) := by
  intro sub hopen
  obtain ⟨sub', heq, -⟩ := Subscription.offer_open hopen env
  simp [heq]

theorem safe_closeSubscription (reason : String) : Safe (·.closeSubscription reason) := by
  intro sub hopen
  obtain ⟨sub', heq, -⟩ := Subscription.closeSubscription_open hopen reason
  simp [heq]

section Inversion

variable {st t : System} {s : SessionID}

theorem modify_eq_some {chans chans' : Chans} {u : SubID}
    {f : Subscription → Option Subscription} (h : chans.modify u f = some chans') :
    ∃ sub sub', chans u = some sub ∧ f sub = some sub' ∧
      chans' = Function.update chans u (some sub') := by
  simp only [Chans.modify, Option.map_eq_some_iff, Option.bind_eq_some_iff] at h
  obtain ⟨sub', ⟨sub, hu, hf⟩, rfl⟩ := h
  exact ⟨sub, sub', hu, hf, rfl⟩

theorem closeCurrent_eq_none {chans : Chans} {subs : Subs} {run : String} {err : Option SubError}
    (h : chans.closeCurrent subs run err = none) :
    ∃ u, subs.lookup run = some u ∧ chans.modify u (·.closeLocked err) = none := by
  unfold Chans.closeCurrent at h
  split at h
  · rename_i u hu
    exact ⟨u, hu, h⟩
  · cases h

theorem subscribe_effect {run : String} {durable : Bool} {u : SubID}
    (h : st.subscribe s run durable u = some t) :
    Crashes st ∨ Effect st (.subscribe s run durable u) t := by
  obtain ⟨sess, hs, h⟩ := Option.bind_eq_some_iff.mp h
  split at h
  · cases h
  · rename_i hguard
    simp only [not_or, Bool.not_eq_true, Option.isSome_eq_false_iff,
      Option.isNone_iff_eq_none] at hguard
    obtain ⟨hrun, hcall, hopen, hfresh⟩ := hguard
    cases hclosed : st.chans.closeCurrent sess.subs run (some .sessionClosed) with
    | none =>
      obtain ⟨existing, hsub, hpanic⟩ := closeCurrent_eq_none hclosed
      exact .inl ⟨s, sess, run, _, _, hs, .inl hsub, safe_closeLocked _, hpanic⟩
    | some chans =>
      rw [hclosed] at h
      cases h
      exact .inr (.subscribe hs hrun hcall hopen hfresh hclosed)

theorem unsubscribe_effect {run : String} (h : st.unsubscribe s run = some t) :
    Crashes st ∨ Effect st (.unsubscribe s run) t := by
  obtain ⟨sess, hs, h⟩ := Option.bind_eq_some_iff.mp h
  split at h
  · cases h
  · rename_i hcall
    cases hclosed : st.chans.closeCurrent sess.subs run none with
    | none =>
      obtain ⟨u, hsub, hpanic⟩ := closeCurrent_eq_none hclosed
      exact .inl ⟨s, sess, run, _, _, hs, .inl hsub, safe_closeLocked _, hpanic⟩
    | some chans =>
      rw [hclosed] at h
      cases h
      exact .inr (.unsubscribe hs (by simpa using hcall) hclosed)

theorem runCall_effect (h : st.runCall s = some t) : Effect st (.runCall s) t := by
  obtain ⟨sess, hs, h⟩ := Option.bind_eq_some_iff.mp h
  split at h
  · cases h
  · rename_i run hcall
    cases h
    exact .attachRun hs hcall
  · rename_i run hcall
    cases h
    exact .detachRun hs hcall

theorem receive_effect {u : SubID} (h : st.receive u = some t) : Effect st (.receive u) t := by
  simp only [receive, Option.map_eq_some_iff] at h
  obtain ⟨chans, hmodify, rfl⟩ := h
  obtain ⟨sub, sub', hu, hf, rfl⟩ := modify_eq_some hmodify
  obtain ⟨ch, hch, rfl⟩ := Option.map_eq_some_iff.mp hf
  exact .receive hu hch

theorem advance_effect {next : Session → Option Reader} (h : st.advance s next = some t) :
    ∃ sess reader, st.sessions s = some sess ∧ t = st.put s { sess with reader := reader } := by
  simp only [advance, Option.bind_eq_bind, Option.bind_eq_some_iff] at h
  obtain ⟨sess, hs, reader, -, h⟩ := h
  exact ⟨sess, reader, hs, (Option.some.inj h).symm⟩

theorem dispatch_effect {retired : Bool} (h : st.dispatch s retired = some t) :
    Effect st (.dispatch s retired) t := by
  obtain ⟨sess, hs, h⟩ := Option.bind_eq_some_iff.mp h
  split at h
  · rename_i env hreader
    cases h
    exact .dispatch hs hreader
  · cases h

theorem dispatchToSubscriber_effect {env : Envelope} (h : st.dispatchToSubscriber s env = some t) :
    Crashes st ∨ Effect st (.dispatchToSubscriber s env) t := by
  obtain ⟨sess, hs, h⟩ := Option.bind_eq_some_iff.mp h
  split at h
  · cases h
  · rename_i hguard
    simp only [not_or, Option.not_isSome_iff_eq_none] at hguard
    cases hsub : sess.subs.lookup env.id with
    | none =>
      rw [hsub] at h
      cases h
      exact .inr (.miss hs hsub)
    | some u =>
      rw [hsub] at h
      dsimp only at h
      cases hmodify : st.chans.modify u (·.offer env) with
      | none =>
        exact .inl ⟨s, sess, env.id, u, _, hs, .inl hsub, safe_offer env, hmodify⟩
      | some chans =>
        obtain ⟨sub, sub', hu, hoffer, rfl⟩ := modify_eq_some hmodify
        rw [hmodify] at h
        simp only [orCrash, Option.map_some, Option.getD_some, Function.update_self,
          Option.any_some, Option.some.injEq] at h
        cases hclosed : sub'.closed with
        | true =>
          simp only [hclosed, if_true] at h
          exact .inr (h ▸ .finish hs hguard.2 hsub hu hoffer hclosed)
        | false =>
          simp only [hclosed, Bool.false_eq_true, if_false] at h
          exact .inr (h ▸ .offer hs hguard.2 hsub hu hoffer hclosed)

theorem closeBegin_effect (h : st.closeBegin s = some t) : Effect st (.closeBegin s) t := by
  obtain ⟨sess, hs, h⟩ := Option.bind_eq_some_iff.mp h
  split at h
  · rename_i hidle
    cases h
    exact .closeBegin hs hidle
  · cases h

theorem closeSwap_effect (h : st.closeSwap s = some t) : Effect st (.closeSwap s) t := by
  obtain ⟨sess, hs, h⟩ := Option.bind_eq_some_iff.mp h
  split at h
  · rename_i hbegun
    split at h
    · cases h
    · rename_i hcall
      cases h
      exact .closeSwap hs hbegun (by simpa using hcall)
  · cases h

theorem closeSubscription_effect {run reason : String}
    (h : st.closeSubscription s run reason = some t) :
    Crashes st ∨ Effect st (.closeSubscription s run reason) t := by
  obtain ⟨sess, hs, h⟩ := Option.bind_eq_some_iff.mp h
  split at h
  · rename_i rest hdrain
    obtain ⟨u, hsub, h⟩ := Option.bind_eq_some_iff.mp h
    cases hmodify : st.chans.modify u (·.closeSubscription reason) with
    | none =>
      exact .inl ⟨s, sess, run, u, _, hs, .inr ⟨rest, none, hdrain, hsub⟩,
        safe_closeSubscription reason, hmodify⟩
    | some chans =>
      obtain ⟨sub, sub', hu, hclose, rfl⟩ := modify_eq_some hmodify
      rw [hmodify] at h
      cases h
      exact .inr (.closeSubscription hs hdrain hsub hu hclose)
  · cases h

theorem closeDetach_effect (h : st.closeDetach s = some t) : Effect st (.closeDetach s) t := by
  obtain ⟨sess, hs, h⟩ := Option.bind_eq_some_iff.mp h
  split at h
  · rename_i rest run hdrain
    cases h
    exact .closeDetach hs hdrain
  · cases h

theorem closeDeregister_effect (h : st.closeDeregister s = some t) :
    Effect st (.closeDeregister s) t := by
  obtain ⟨sess, hs, h⟩ := Option.bind_eq_some_iff.mp h
  split at h
  · rename_i rest hdrain
    split at h
    · cases h
    · rename_i hempty
      cases h
      exact .closeDeregister hs hdrain (by simpa using hempty)
  · cases h

theorem step_effect {a : Label} (h : st.step a = some t) : Crashes st ∨ Effect st a t := by
  unfold step at h
  split at h
  · cases h
  · cases a with
    | connect s device =>
      simp only [connect] at h
      split at h
      · cases h
      · rename_i hnew
        cases h
        exact .inr (.connect (by simpa using hnew))
    | subscribe s run durable u => exact subscribe_effect h
    | unsubscribe s run => exact unsubscribe_effect h
    | runCall s => exact .inr (runCall_effect h)
    | receive u => exact .inr (receive_effect h)
    | readMessage s frame =>
      obtain ⟨sess, reader, hs, rfl⟩ := advance_effect h
      exact .inr (.readMessage hs)
    | readError s =>
      obtain ⟨sess, reader, hs, rfl⟩ := advance_effect h
      exact .inr (.readError hs)
    | renewOwnerLease s ok =>
      obtain ⟨sess, reader, hs, rfl⟩ := advance_effect h
      exact .inr (.renewOwnerLease hs)
    | dispatch s retired => exact .inr (dispatch_effect h)
    | dispatchToSubscriber s env => exact dispatchToSubscriber_effect h
    | awaitClose s =>
      obtain ⟨sess, reader, hs, rfl⟩ := advance_effect h
      exact .inr (.awaitClose hs)
    | closeBegin s => exact .inr (closeBegin_effect h)
    | closeSwap s => exact .inr (closeSwap_effect h)
    | closeSubscription s run reason => exact closeSubscription_effect h
    | closeDetach s => exact .inr (closeDetach_effect h)
    | closeDeregister s => exact .inr (closeDeregister_effect h)

end Inversion

end System

end Parsar.Gateway
