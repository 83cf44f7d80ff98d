import Parsar.Gateway.Registry

namespace Parsar.Gateway

inductive FrameType where
  | workspaceExportResult
  | workspaceWriteResult
  | workspaceReadResult
  | preparationStatus
  | heartbeat
  | permissionRequest
  | permissionCancel
  | promptForUserChoice
  | interactionDecisionAck
  | error
  | done
  | other
  deriving DecidableEq, Repr

/-- A frame; `interactionID` is the request or ask id its payload decodes to, if it decodes. -/
structure Envelope where
  type : FrameType
  id : String
  interactionID : Option String := some ""
  payload : String := ""
  deriving DecidableEq

def Envelope.isDone (env : Envelope) : Bool := env.type = .done

/-- A buffered channel with its history: what was received from it and how often it was closed. -/
structure Chan where
  buf : List Envelope := []
  taken : List Envelope := []
  closes : Nat := 0
  deriving DecidableEq

namespace Chan

def carries (ch : Chan) : List Envelope := ch.taken ++ ch.buf

/-- A non-blocking send; a send on a closed channel panics. -/
def trySend (ch : Chan) (cap : Nat) (env : Envelope) : Option (Chan × Bool) :=
  if ch.closes ≠ 0 then none
  else if ch.buf.length < cap then some ({ ch with buf := ch.buf ++ [env] }, true)
  else some (ch, false)

/-- Closing a closed channel panics. -/
def close (ch : Chan) : Option Chan :=
  if ch.closes ≠ 0 then none else some { ch with closes := ch.closes + 1 }

/-- A receive takes what is buffered, also after the close. -/
def receive (ch : Chan) : Option Chan :=
  match ch.buf with
  | [] => none
  | env :: rest => some { ch with buf := rest, taken := ch.taken ++ [env] }

end Chan

inductive SubError where
  | sessionClosed
  | subscriberOverflow
  deriving DecidableEq, Repr

structure Subscription where
  owner : SessionID × String
  durable : Bool
  ch : Chan := {}
  err : Option SubError := none
  closed : Bool := false
  deriving DecidableEq

namespace Subscription

def capacity (sub : Subscription) : Nat := if sub.durable then 256 else 32

def closeLocked (sub : Subscription) (err : Option SubError) : Option Subscription :=
  if sub.closed then some sub
  else sub.ch.close.map fun ch => { sub with ch := ch, err := err, closed := true }

/-- The error and done frames of a closing session; a full buffer drops them. -/
def deliverSynthetic (sub : Subscription) (reason : String) : Option Subscription := do
  let errEnv : Envelope :=
    { type := .error
      id := sub.owner.2
      payload := if reason = "" then "device disconnected" else reason }
  let (ch, _) ← sub.ch.trySend sub.capacity errEnv
  let (ch, _) ← ch.trySend sub.capacity { type := .done, id := sub.owner.2 }
  return { sub with ch := ch }

def closeSubscription (sub : Subscription) (reason : String) : Option Subscription :=
  if sub.closed then some sub
  else do
    let sub ← if sub.durable then some sub else sub.deliverSynthetic reason
    sub.closeLocked (some .sessionClosed)

/-- The channel part of `dispatchToSubscriber`. -/
def offer (sub : Subscription) (env : Envelope) : Option Subscription :=
  match sub.ch.trySend sub.capacity env with
  | none => none
  | some (ch, true) =>
    let sub := { sub with ch := ch }
    if env.type = .done then sub.closeLocked none else some sub
  | some (_, false) =>
    if sub.durable then sub.closeLocked (some .subscriberOverflow)
    else if env.type = .done then sub.closeLocked none
    else some sub

structure Open (sub : Subscription) : Prop where
  closed : sub.closed = false
  closes : sub.ch.closes = 0
  err : sub.err = none

structure Shut (sub : Subscription) (err : Option SubError) : Prop where
  closed : sub.closed = true
  closes : sub.ch.closes = 1
  err : sub.err = err

/-- The same channel with the same content, for the same run. -/
structure SameStream (sub sub' : Subscription) : Prop where
  owner : sub'.owner = sub.owner
  durable : sub'.durable = sub.durable
  carries : sub'.ch.carries = sub.ch.carries

theorem open_new (owner : SessionID × String) (durable : Bool) :
    Open { owner := owner, durable := durable } := ⟨rfl, rfl, rfl⟩

variable {sub sub' : Subscription}

theorem closeLocked_open (h : sub.Open) (err : Option SubError) :
    ∃ sub', sub.closeLocked err = some sub' ∧ sub'.Shut err ∧ SameStream sub sub' := by
  refine ⟨{ sub with ch := { sub.ch with closes := 1 }, err := err, closed := true }, ?_,
    ⟨rfl, rfl, rfl⟩, ⟨rfl, rfl, rfl⟩⟩
  simp [closeLocked, Chan.close, h.closed, h.closes]

theorem trySend_cases {ch : Chan} (h : ch.closes = 0) (cap : Nat) (env : Envelope) :
    (ch.buf.length < cap ∧ ch.trySend cap env = some ({ ch with buf := ch.buf ++ [env] }, true)) ∨
      (cap ≤ ch.buf.length ∧ ch.trySend cap env = some (ch, false)) := by
  by_cases hroom : ch.buf.length < cap
  · exact .inl ⟨hroom, by simp [Chan.trySend, h, hroom]⟩
  · exact .inr ⟨by omega, by simp [Chan.trySend, h, hroom]⟩

theorem offer_cases (h : sub.Open) (env : Envelope) :
    ∃ sub', sub.offer env = some sub' ∧ sub'.owner = sub.owner ∧ sub'.durable = sub.durable ∧
      ((sub.ch.buf.length < sub.capacity ∧ sub'.ch.carries = sub.ch.carries ++ [env] ∧
          (env.isDone = true ∧ sub'.Shut none ∨
            env.isDone = false ∧ sub'.Open ∧ sub'.ch.buf.length = sub.ch.buf.length + 1)) ∨
        (sub.capacity ≤ sub.ch.buf.length ∧ sub'.ch.carries = sub.ch.carries ∧
          (sub.durable = true ∧ sub'.Shut (some .subscriberOverflow) ∨
            sub.durable = false ∧ (sub'.Shut none ∨ sub'.Open)))) := by
  rcases trySend_cases h.closes sub.capacity env with ⟨hroom, hsend⟩ | ⟨hfull, hsend⟩
  · obtain ⟨sent, hsent⟩ : ∃ sent : Subscription,
        sent = { sub with ch := { sub.ch with buf := sub.ch.buf ++ [env] } } := ⟨_, rfl⟩
    have hopen : sent.Open := hsent ▸ ⟨h.closed, h.closes, h.err⟩
    have hcarries : sent.ch.carries = sub.ch.carries ++ [env] := by
      simp [hsent, Chan.carries]
    by_cases hdone : env.type = .done
    · obtain ⟨sub', hclose, hshut, hsame⟩ := closeLocked_open hopen none
      refine ⟨sub', ?_, ?_, ?_, .inl ⟨hroom, hsame.carries.trans hcarries, .inl ⟨?_, hshut⟩⟩⟩
      · rw [offer, hsend]
        simpa [hdone, hsent] using hclose
      · rw [hsame.owner, hsent]
      · rw [hsame.durable, hsent]
      · simp [Envelope.isDone, hdone]
    · refine ⟨sent, ?_, ?_, ?_, .inl ⟨hroom, hcarries, .inr ⟨?_, hopen, ?_⟩⟩⟩
      · rw [offer, hsend, hsent]
        simp [hdone]
      · rw [hsent]
      · rw [hsent]
      · simp [Envelope.isDone, hdone]
      · simp [hsent]
  · have hclose : ∀ err, sub.offer env = sub.closeLocked err → ∃ sub', sub.offer env = some sub' ∧
        sub'.Shut err ∧ SameStream sub sub' := by
      intro err heq
      rw [heq]
      exact closeLocked_open h err
    by_cases hdurable : sub.durable = true
    · obtain ⟨sub', heq, hshut, hsame⟩ := hclose (some .subscriberOverflow) (by
        rw [offer, hsend]
        simp [hdurable])
      exact ⟨sub', heq, hsame.owner, hsame.durable, .inr ⟨hfull, hsame.carries,
        .inl ⟨hdurable, hshut⟩⟩⟩
    · have hbest : sub.durable = false := by simpa using hdurable
      by_cases hdone : env.type = .done
      · obtain ⟨sub', heq, hshut, hsame⟩ := hclose none (by
          rw [offer, hsend]
          simp [hbest, hdone])
        exact ⟨sub', heq, hsame.owner, hsame.durable, .inr ⟨hfull, hsame.carries,
          .inr ⟨hbest, .inl hshut⟩⟩⟩
      · refine ⟨sub, ?_, rfl, rfl, .inr ⟨hfull, rfl, .inr ⟨hbest, .inr h⟩⟩⟩
        rw [offer, hsend]
        simp [hbest, hdone]

theorem offer_open (h : sub.Open) (env : Envelope) :
    ∃ sub', sub.offer env = some sub' ∧ sub'.owner = sub.owner ∧
      (sub'.Open ∨ ∃ err, sub'.Shut err) := by
  obtain ⟨sub', heq, howner, -, hcases⟩ := offer_cases h env
  refine ⟨sub', heq, howner, ?_⟩
  rcases hcases with ⟨-, -, ⟨-, hshut⟩ | ⟨-, hopen, -⟩⟩ | ⟨-, -, ⟨-, hshut⟩ | ⟨-, hshut | hopen⟩⟩
  · exact .inr ⟨_, hshut⟩
  · exact .inl hopen
  · exact .inr ⟨_, hshut⟩
  · exact .inr ⟨_, hshut⟩
  · exact .inl hopen

theorem deliverSynthetic_open (h : sub.Open) (reason : String) :
    ∃ sub', sub.deliverSynthetic reason = some sub' ∧ sub'.Open ∧ sub'.owner = sub.owner := by
  have hsend : ∀ ch : Chan, ch.closes = 0 → ∀ env, ∃ ch' sent,
      ch.trySend sub.capacity env = some (ch', sent) ∧ ch'.closes = 0 := by
    intro ch hch env
    rcases trySend_cases hch sub.capacity env with ⟨-, hsend⟩ | ⟨-, hsend⟩
    · exact ⟨_, true, hsend, hch⟩
    · exact ⟨ch, false, hsend, hch⟩
  obtain ⟨ch, sent, hfirst, hcloses⟩ := hsend sub.ch h.closes
    { type := .error
      id := sub.owner.2
      payload := if reason = "" then "device disconnected" else reason }
  obtain ⟨ch', sent', hsecond, hcloses'⟩ := hsend ch hcloses { type := .done, id := sub.owner.2 }
  refine ⟨{ sub with ch := ch' }, ?_, ⟨h.closed, hcloses', h.err⟩, rfl⟩
  simp [deliverSynthetic, hfirst, hsecond]

theorem closeSubscription_open (h : sub.Open) (reason : String) :
    ∃ sub', sub.closeSubscription reason = some sub' ∧ sub'.owner = sub.owner ∧
      sub'.Shut (some .sessionClosed) ∧ (sub.durable = true → SameStream sub sub') := by
  by_cases hdurable : sub.durable = true
  · obtain ⟨sub', hclose, hshut, hsame⟩ := closeLocked_open h (some .sessionClosed)
    refine ⟨sub', ?_, hsame.owner, hshut, fun _ => hsame⟩
    simp [closeSubscription, h.closed, hdurable, hclose]
  · obtain ⟨mid, hmid, hopen, howner⟩ := deliverSynthetic_open h reason
    obtain ⟨sub', hclose, hshut, hsame⟩ := closeLocked_open hopen (some .sessionClosed)
    refine ⟨sub', ?_, hsame.owner.trans howner, hshut, fun hd => absurd hd hdurable⟩
    simp [closeSubscription, h.closed, hdurable, hmid, hclose]

end Subscription

end Parsar.Gateway
