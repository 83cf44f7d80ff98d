import Mathlib.Data.List.Basic
import Parsar.Gateway.Subscription

namespace Parsar.Gateway

inductive PreparationState where
  | preparing
  | ready
  | starting
  | started
  | released
  | expired
  | failed
  | rejected
  | other
  deriving DecidableEq, Repr

def PreparationState.closes : PreparationState → Bool
  | started | released | expired | failed => true
  | preparing | ready | starting | rejected | other => false

/-- What `dispatchPreparation` reads of a `PreparationStatusPayload`. -/
structure PreparationStatus where
  handle : String
  revision : Nat
  state : PreparationState
  deriving DecidableEq

def preparationBuffer : Nat := 16

def preparationLimit : Nat := 64

/-- `preparationSubscription`; `delivered` are the statuses of the frames in its channel, the
received ones included. -/
structure PreparationSubscription where
  sub : Subscription
  handle : String := ""
  revision : Nat := 0
  listed : Bool := true
  delivered : List PreparationStatus := []
  deriving DecidableEq

namespace PreparationSubscription

def refuses (p : PreparationSubscription) (status : PreparationStatus) : Bool :=
  status.handle = "" || status.revision = 0 || (p.handle ≠ "" && p.handle ≠ status.handle) ||
    status.revision ≤ p.revision

/-- The subscription once it has taken note of the status. A rejected operation has no revision. -/
def accept (p : PreparationSubscription) (status : PreparationStatus) :
    Option PreparationSubscription :=
  if status.state = .rejected then some p
  else if p.refuses status then none
  else some { p with handle := status.handle, revision := status.revision }

/-- The channel part of `dispatchPreparation`, and whether the frame was delivered. -/
def send (sub : Subscription) (env : Envelope) (status : PreparationStatus) :
    Option (Subscription × Bool) :=
  match sub.ch.trySend preparationBuffer env with
  | none => none
  | some (ch, true) =>
    let sub := { sub with ch := ch }
    if status.state.closes then (sub.closeLocked none).map (·, true) else some (sub, true)
  | some (_, false) => (sub.closeLocked (some .subscriberOverflow)).map (·, false)

/-- `dispatchPreparation` for the subscription that the frame is for. -/
def dispatch (p : PreparationSubscription) (env : Envelope) (status : PreparationStatus) :
    Option PreparationSubscription :=
  match p.accept status with
  | none => some p
  | some p => (send p.sub env status).map fun (sub, sent) =>
    { p with
      sub := sub
      listed := !sub.closed
      delivered := if sent then p.delivered ++ [status] else p.delivered }

def close (p : PreparationSubscription) (err : Option SubError) : Option PreparationSubscription :=
  (p.sub.closeLocked err).map fun sub => { p with sub := sub, listed := false }

def receive (p : PreparationSubscription) : Option PreparationSubscription :=
  p.sub.ch.receive.map fun ch => { p with sub := { p.sub with ch := ch } }

end PreparationSubscription

structure PreparationSession where
  id : SessionID
  closed : Bool := false
  subscriptions : List PreparationSubscription := []

/-- `dispatch` is a frame with what its payload decodes to. -/
inductive PreparationLabel where
  | subscribe (requestID : String)
  | unsubscribe (requestID : String)
  | dispatch (env : Envelope) (status : Option PreparationStatus)
  | receive (i : Nat)
  | closeSession
  | closePreparations (i : Nat)

namespace PreparationSession

def find (s : PreparationSession) (requestID : String) : Option Nat :=
  s.subscriptions.findIdx? (fun p => p.listed && p.sub.owner.2 = requestID)

def setSubscription (s : PreparationSession) (i : Nat) (p : PreparationSubscription) :
    PreparationSession :=
  { s with subscriptions := s.subscriptions.set i p }

def withSubscription (s : PreparationSession) (i : Nat)
    (f : PreparationSubscription → Option PreparationSubscription) : Option PreparationSession := do
  let p ← s.subscriptions[i]?
  let p ← f p
  some (s.setSubscription i p)

def subscribePreparation (s : PreparationSession) (requestID : String) : Option PreparationSession :=
  if s.closed ∨ requestID = "" ∨ (s.find requestID).isSome ∨
      preparationLimit ≤ s.subscriptions.countP (·.listed) then none
  else some { s with
    subscriptions := s.subscriptions ++ [{ sub := { owner := (s.id, requestID), durable := true } }] }

def dispatchPreparation (s : PreparationSession) (env : Envelope)
    (status : Option PreparationStatus) : Option PreparationSession :=
  match status, s.find env.id with
  | some status, some i => s.withSubscription i (·.dispatch env status)
  | _, _ => some s

def step (s : PreparationSession) : PreparationLabel → Option PreparationSession
  | .subscribe requestID => s.subscribePreparation requestID
  | .unsubscribe requestID => do
    let i ← s.find requestID
    s.withSubscription i (·.close none)
  | .dispatch env status => s.dispatchPreparation env status
  | .receive i => s.withSubscription i (·.receive)
  | .closeSession => some { s with closed := true }
  | .closePreparations i =>
    s.withSubscription i fun p => if p.listed then p.close (some .sessionClosed) else none

def Reaches (id : SessionID) (as : List PreparationLabel) (s : PreparationSession) : Prop :=
  runTrace step { id := id } as = some s

end PreparationSession

namespace PreparationSubscription

def statuses (p : PreparationSubscription) : List PreparationStatus :=
  p.delivered.filter (·.state ≠ .rejected)

structure Ok (p : PreparationSubscription) : Prop where
  opened : p.listed → p.sub.Open
  own : ∀ s ∈ p.statuses, s.handle = p.handle ∧ s.handle ≠ "" ∧ s.revision ≤ p.revision
  ordered : p.statuses.Pairwise (·.revision < ·.revision)
  live : p.listed → ∀ s ∈ p.delivered, s.state.closes = false
  closing : ∀ s ∈ p.delivered.dropLast, s.state.closes = false

variable {p p' : PreparationSubscription} {env : Envelope} {status : PreparationStatus}

theorem ok_new (owner : SessionID × String) :
    Ok { sub := { owner := owner, durable := true } } := by
  refine ⟨fun _ => Subscription.open_new owner true, ?_, ?_, ?_, ?_⟩ <;> simp [statuses]

theorem Ok.of_same (hp : p.Ok) (hhandle : p'.handle = p.handle)
    (hrevision : p'.revision = p.revision)
    (hdelivered : p'.delivered = p.delivered)
    (hlisted : p'.listed → p.listed ∧ (p.sub.Open → p'.sub.Open)) : p'.Ok where
  opened := fun hl => (hlisted hl).2 (hp.opened (hlisted hl).1)
  own := by
    rw [statuses, hdelivered, hhandle, hrevision]
    exact hp.own
  ordered := by
    rw [statuses, hdelivered]
    exact hp.ordered
  live := by
    rw [hdelivered]
    exact fun hl => hp.live (hlisted hl).1
  closing := by
    rw [hdelivered]
    exact hp.closing

theorem send_cases {sub : Subscription} (hopen : sub.Open) (env : Envelope)
    (status : PreparationStatus) :
    ∃ sub' sent, send sub env status = some (sub', sent) ∧
      (sub'.closed = false → sub'.Open ∧ sent = true ∧ status.state.closes = false) := by
  unfold send
  rcases Subscription.trySend_cases hopen.closes preparationBuffer env with ⟨-, hsend⟩ | ⟨-, hsend⟩
  · rw [hsend]
    have hopen' : Subscription.Open { sub with ch := { sub.ch with buf := sub.ch.buf ++ [env] } } :=
      ⟨hopen.closed, hopen.closes, hopen.err⟩
    cases hcloses : status.state.closes with
    | true =>
      obtain ⟨sub', hclose, hshut, -⟩ := Subscription.closeLocked_open hopen' none
      exact ⟨sub', true, by simp [hclose], by simp [hshut.closed]⟩
    | false => exact ⟨_, true, rfl, fun _ => ⟨hopen', rfl, rfl⟩⟩
  · rw [hsend]
    obtain ⟨sub', hclose, hshut, -⟩ :=
      Subscription.closeLocked_open hopen (some .subscriberOverflow)
    exact ⟨sub', false, by simp [hclose], by simp [hshut.closed]⟩

theorem Ok.accept (hp : p.Ok) (ha : p.accept status = some p') :
    p'.sub = p.sub ∧ p'.delivered = p.delivered ∧ p'.listed = p.listed ∧
      (∀ s ∈ p.statuses, s.handle = p'.handle ∧ s.handle ≠ "" ∧ s.revision ≤ p'.revision) ∧
      (status.state ≠ .rejected → status.handle = p'.handle ∧ status.handle ≠ "" ∧
        status.revision = p'.revision ∧ ∀ s ∈ p.statuses, s.revision < status.revision) := by
  unfold PreparationSubscription.accept at ha
  split at ha
  · rename_i hrejected
    cases ha
    exact ⟨rfl, rfl, rfl, hp.own, fun hnot => absurd hrejected hnot⟩
  · split at ha
    · cases ha
    · rename_i hrefuses
      cases ha
      simp only [refuses, Bool.or_eq_true, Bool.and_eq_true, decide_eq_true_eq, not_or, not_and,
        ne_eq, not_not, Nat.not_le] at hrefuses
      obtain ⟨⟨⟨hnonempty, -⟩, hsame⟩, hnewer⟩ := hrefuses
      have hown : ∀ s ∈ p.statuses, s.handle = status.handle ∧ s.handle ≠ "" ∧
          s.revision < status.revision := by
        intro s hs
        obtain ⟨hhandle, hne, hle⟩ := hp.own s hs
        exact ⟨hhandle.trans (hsame (hhandle ▸ hne)), hne, by omega⟩
      refine ⟨rfl, rfl, rfl, fun s hs => ?_, fun _ => ⟨rfl, hnonempty, rfl, fun s hs => (hown s hs).2.2⟩⟩
      obtain ⟨hhandle, hne, hlt⟩ := hown s hs
      exact ⟨hhandle, hne, Nat.le_of_lt hlt⟩

theorem Ok.dispatch (hp : p.Ok) (hlisted : p.listed) (hd : p.dispatch env status = some p') :
    p'.Ok := by
  unfold PreparationSubscription.dispatch at hd
  split at hd
  · cases hd
    exact hp
  · rename_i q hq
    obtain ⟨hsub, hdelivered, -, hown, hnew⟩ := hp.accept hq
    obtain ⟨sub', sent, hsend, hstays⟩ := send_cases (hp.opened hlisted) env status
    rw [hsub, hsend] at hd
    cases hd
    have hstatuses : q.statuses = p.statuses := by simp [statuses, hdelivered]
    have hlive := hp.live hlisted
    cases sent with
    | false =>
      have hclosed : sub'.closed = true := by
        by_contra hnot
        have := (hstays (by simpa using hnot)).2.1
        cases this
      refine ⟨by simp [hclosed], ?_, ?_, by simp [hclosed], ?_⟩
      · simpa [statuses, hdelivered] using hown
      · simpa [statuses, hdelivered] using hp.ordered
      · simpa [hdelivered] using hp.closing
    | true =>
      refine ⟨fun hl => (hstays (by simpa using hl)).1, ?_, ?_, ?_, ?_⟩
      · intro s hs
        simp only [statuses, if_true, hdelivered, List.filter_append, List.mem_append] at hs
        rcases hs with hold | hlast
        · exact hown s hold
        · obtain ⟨hmem, hstate⟩ := List.mem_filter.mp hlast
          rw [List.mem_singleton.mp hmem] at hstate ⊢
          obtain ⟨hhandle, hne, hrevision, -⟩ := hnew (by simpa using hstate)
          exact ⟨hhandle, hne, Nat.le_of_eq hrevision⟩
      · simp only [statuses, if_true, hdelivered, List.filter_append]
        refine List.pairwise_append.mpr ⟨hp.ordered, ?_, ?_⟩
        · exact (List.pairwise_singleton _ _).filter _
        · intro s hs t ht
          obtain ⟨hmem, hstate⟩ := List.mem_filter.mp ht
          rw [List.mem_singleton.mp hmem] at hstate ⊢
          exact (hnew (by simpa using hstate)).2.2.2 s hs
      · intro hl s hs
        simp only [if_true, hdelivered, List.mem_append, List.mem_singleton] at hs
        rcases hs with hold | rfl
        · exact hlive s hold
        · exact (hstays (by simpa using hl)).2.2
      · simpa [hdelivered] using hlive

theorem Ok.close (hp : p.Ok) {err : Option SubError} (hc : p.close err = some p') : p'.Ok := by
  simp only [PreparationSubscription.close, Option.map_eq_some_iff] at hc
  obtain ⟨sub', -, rfl⟩ := hc
  exact hp.of_same rfl rfl rfl (by simp)

theorem Ok.receive (hp : p.Ok) (hr : p.receive = some p') : p'.Ok := by
  simp only [PreparationSubscription.receive, Option.map_eq_some_iff] at hr
  obtain ⟨ch, hch, rfl⟩ := hr
  refine hp.of_same rfl rfl rfl fun hl => ⟨hl, fun hopen => ⟨hopen.closed, ?_, hopen.err⟩⟩
  unfold Chan.receive at hch
  split at hch <;> cases hch
  exact hopen.closes

end PreparationSubscription

namespace PreparationSession

variable {s s' : PreparationSession}

theorem withSubscription_ok {i : Nat} {f : PreparationSubscription → Option PreparationSubscription}
    (hall : ∀ p ∈ s.subscriptions, p.Ok) (hs : s.withSubscription i f = some s')
    (hf : ∀ p p', s.subscriptions[i]? = some p → p.Ok → f p = some p' → p'.Ok) :
    ∀ p ∈ s'.subscriptions, p.Ok := by
  simp only [withSubscription, Option.bind_eq_bind, Option.bind_eq_some_iff] at hs
  obtain ⟨p, hp, p', hp', hs⟩ := hs
  cases hs
  have hok := hall p (List.mem_of_getElem? hp)
  intro q hq
  rcases List.mem_or_eq_of_mem_set hq with hold | rfl
  · exact hall q hold
  · exact hf p q hp hok hp'

theorem step_ok {l : PreparationLabel} (hall : ∀ p ∈ s.subscriptions, p.Ok)
    (hs : s.step l = some s') : ∀ p ∈ s'.subscriptions, p.Ok := by
  cases l with
  | subscribe requestID =>
    simp only [step, subscribePreparation] at hs
    split at hs <;> cases hs
    exact forall_mem_concat hall (PreparationSubscription.ok_new _)
  | unsubscribe requestID =>
    obtain ⟨i, -, hs⟩ := Option.bind_eq_some_iff.mp hs
    exact withSubscription_ok hall hs fun _ _ _ hp hc => hp.close hc
  | dispatch env status =>
    simp only [step, dispatchPreparation] at hs
    split at hs
    · rename_i status i hfind
      refine withSubscription_ok hall hs fun p p' hget hp hd => hp.dispatch ?_ hd
      obtain ⟨hi, hlisted, -⟩ := List.findIdx?_eq_some_iff_getElem.mp hfind
      rw [List.getElem?_eq_getElem hi] at hget
      cases hget
      simp only [Bool.and_eq_true] at hlisted
      exact hlisted.1
    · cases hs
      exact hall
  | receive i => exact withSubscription_ok hall hs fun _ _ _ hp hr => hp.receive hr
  | closeSession =>
    cases hs
    exact hall
  | closePreparations i =>
    refine withSubscription_ok hall hs fun _ _ _ hp hc => ?_
    split at hc
    · exact hp.close hc
    · cases hc

theorem ok_of_reaches {id : SessionID} {as : List PreparationLabel} (hrun : Reaches id as s) :
    ∀ p ∈ s.subscriptions, p.Ok :=
  runTrace_invariant (I := fun s => ∀ p ∈ s.subscriptions, p.Ok)
    (fun _ _ _ _ hs hall => step_ok hall hs) (stepsMeet_true _ as) hrun (by simp)

end PreparationSession

end Parsar.Gateway
