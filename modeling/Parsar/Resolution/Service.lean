import Parsar.Framework.Pool
import Parsar.GoStd.Time
import Parsar.Resolution.Decision

namespace Parsar.Resolution

open GoStd

def Status.terminal : Status → Bool
  | pending | resolving => false
  | approved | denied | answered | cancelled | expired => true

structure Claimant where
  source : String
  actor : String
  userID : String := ""
  deriving DecidableEq

structure Interaction where
  kind : Kind
  workspaceID : String
  request : List RawQuestion := []
  expiresAt : Time
  status : Status := .pending
  /-- The number of the call that has claimed it. -/
  claimToken : Option Nat := none
  claimedAt : Option Time := none
  resolution : Option Claimant := none
  response : Option Response := none
  resolvedAt : Option Time := none

namespace Interaction

variable (row : Interaction)

def heldBy (token : Nat) : Bool := row.status == .resolving && row.claimToken == some token

def claim (token : Nat) (now : Time) (resolution : Claimant) : Interaction :=
  { row with
    status := .resolving
    claimToken := some token
    claimedAt := some now
    resolution := some resolution }

def complete (status : Status) (response : Response) (now : Time) : Interaction :=
  { row with
    status := status
    response := some response
    claimToken := none
    resolvedAt := some now }

def release : Interaction :=
  { row with
    status := .pending
    claimToken := none
    claimedAt := none
    resolution := none }

/-- A claim that a sweep releases. -/
def stale (staleBefore : Time) : Bool :=
  row.status == .resolving && row.claimedAt.any (fun t => decide (t.nanos < staleBefore.nanos))

/-- `CancelOpenAgentInteractionsByRunID`. -/
def cancel (reason : String) (now : Time) : Interaction :=
  { row with
    status := .cancelled
    response := some ⟨.reason reason, false⟩
    claimToken := none
    resolvedAt := some now
    resolution := some ⟨"runtime", "runtime", ""⟩ }

end Interaction

inductive Request where
  /-- `byID` is a request that names the interaction by its id. -/
  | resolve (workspaceID : String) (byID : Bool) (actor : Actor) (decision : Decision)
  | expire

namespace Request

/-- `classifyCurrent` of a pending interaction, and the checks before and after it. -/
def loads (row : Interaction) (now : Time) : Request → Bool
  | .resolve workspaceID _ _ decision =>
    (workspaceID == "" || workspaceID == row.workspaceID) && row.status == .pending &&
      decide (now.nanos < row.expiresAt.nanos) &&
      (validateDecision row.kind row.request decision).isOk
  | .expire => false

def claimable (row : Interaction) (now : Time) : Request → Bool
  | .resolve workspaceID byID _ _ =>
    row.status == .pending && decide (now.nanos < row.expiresAt.nanos) &&
      (!byID || workspaceID == row.workspaceID)
  | .expire => row.status == .pending && decide (row.expiresAt.nanos ≤ now.nanos)

def actor : Request → Actor
  | .resolve _ _ actor _ => actor
  | .expire => ⟨"", "system_timeout", "system_timeout", "system"⟩

def resolution (r : Request) : Claimant :=
  ⟨r.actor.source, r.actor.name, trimSpace r.actor.userID⟩

def decision (kind : Kind) : Request → Decision
  | .resolve _ _ _ decision => decision
  | .expire => timeoutDecision kind

/-- The status that tells the truth if the runtime accepts the decision. -/
def due (kind : Kind) : Request → Status
  | .resolve _ _ _ decision => deliveredStatus kind decision
  | .expire => .expired

def outcome (row : Interaction) (delivery : Delivery) : Request → Option (Status × Response)
  | .resolve _ _ _ decision => resolved row.kind row.request decision delivery
  | .expire => timedOut row.kind row.request delivery

end Request

inductive Phase where
  | begun
  | loaded
  | claimed
  | completing (status : Status) (response : Response)
  | releasing
  | recording (status : Status) (response : Response)
  | ended

structure Call where
  request : Request
  phase : Phase := .begun

/-- `Resolve` claims after it has loaded the row, `Expire` at once. -/
def Call.ready (c : Call) : Bool :=
  match c.request, c.phase with
  | .resolve .., .loaded | .expire, .begun => true
  | _, _ => false

/-- The answer to a statement: its result, or an error, and then it may have taken effect. -/
inductive Reply where
  | ok
  | lost (applied : Bool)
  deriving DecidableEq

def Reply.applied : Reply → Bool
  | ok => true
  | lost applied => applied

def Reply.next (phase : Phase) : Reply → Phase
  | ok => phase
  | lost _ => .ended

/-- A decision that the runtime has accepted, as history. -/
structure Acceptance where
  call : Nat
  decision : Decision
  due : Status
  deriving DecidableEq

structure Settlement where
  call : Option Nat
  status : Status
  deriving DecidableEq

structure Desk where
  row : Interaction
  replied : List RepliedEvent := []
  audits : List ResolutionAudit := []
  accepted : List Acceptance := []
  settlements : List Settlement := []

inductive CallAction where
  | load (now : Time)
  | claim (now : Time) (reply : Reply)
  | deliver (delivery : Delivery)
  | complete (now : Time) (reply : Reply)
  | release (reply : Reply)
  | record (fails : Bool)
  | crash

namespace Desk

variable (s : Desk)

def accepts (decision : Decision) : Bool := s.accepted.all (fun a => a.decision == decision)

def accept (a : Acceptance) : Desk := { s with accepted := s.accepted ++ [a] }

def settle (row : Interaction) (x : Settlement) : Desk :=
  { s with row := row, settlements := s.settlements ++ [x] }

def record (event : RepliedEvent) (audit : ResolutionAudit) (fails : Bool) : Desk :=
  { s with
    replied := if fails then s.replied else s.replied ++ [event]
    audits := s.audits ++ [audit] }

end Desk

def Phase.delivered : Option (Status × Response) → Phase
  | some (status, response) => .completing status response
  | none => .releasing

def Call.step (i : Nat) (s : Desk) (c : Call) : CallAction → Option (Desk × Call)
  | .load now =>
    match c.request, c.phase with
    | .resolve .., .begun =>
      some (s, { c with phase := if c.request.loads s.row now then .loaded else .ended })
    | _, _ => none
  | .claim now reply =>
    if c.ready then
      if c.request.claimable s.row now && reply.applied then
        some ({ s with row := s.row.claim i now c.request.resolution },
          { c with phase := reply.next .claimed })
      else some (s, { c with phase := .ended })
    else none
  | .deliver delivery =>
    match c.phase with
    | .claimed =>
      let decision := c.request.decision s.row.kind
      let phase := Phase.delivered (c.request.outcome s.row delivery)
      match delivery with
      | .accepted =>
        if s.accepts decision then
          some (s.accept ⟨i, decision, c.request.due s.row.kind⟩, { c with phase })
        else none
      | .gone | .failed => some (s, { c with phase })
    | _ => none
  | .complete now reply =>
    match c.phase with
    | .completing status response =>
      if s.row.heldBy i && reply.applied then
        some (s.settle (s.row.complete status response now) ⟨some i, status⟩,
          { c with phase := reply.next (.recording status response) })
      else some (s, { c with phase := .ended })
    | _ => none
  | .release reply =>
    match c.phase with
    | .releasing =>
      if s.row.heldBy i && reply.applied then
        some ({ s with row := s.row.release }, { c with phase := .ended })
      else some (s, { c with phase := .ended })
    | _ => none
  | .record fails =>
    match c.phase with
    | .recording status response =>
      some (s.record (repliedEvent s.row.kind status response)
        (resolutionAudit s.row.kind c.request.actor status response) fails, { c with phase := .ended })
    | _ => none
  | .crash => some (s, { c with phase := .ended })

inductive DeskAction where
  | sweep (staleBefore : Time)
  | endRun (reason : String) (now : Time)

def Desk.change (s : Desk) : DeskAction → Option Desk
  | .sweep staleBefore =>
    some { s with row := if s.row.stale staleBefore then s.row.release else s.row }
  | .endRun reason now =>
    if s.row.status.terminal then some s
    else some (s.settle (s.row.cancel reason now) ⟨none, .cancelled⟩)

abbrev Office := Pool Desk Call

abbrev OfficeAction := Pool.Action Request CallAction DeskAction

def newCall (request : Request) : Call := ⟨request, .begun⟩

def Office.step : Office → OfficeAction → Option Office := Pool.step newCall Call.step Desk.change

inductive CallEffect (i : Nat) (s : Desk) (c : Call) : Desk → Phase → Prop where
  | load : c.phase = .begun → CallEffect i s c s .loaded
  | stop : CallEffect i s c s .ended
  | claim {now : Time} {phase : Phase} : c.phase = .begun ∨ c.phase = .loaded →
    s.row.status = .pending → phase = .claimed ∨ phase = .ended →
    CallEffect i s c { s with row := s.row.claim i now c.request.resolution } phase
  | accept {response : Response} : c.phase = .claimed →
    CallEffect i s c
      (s.accept ⟨i, c.request.decision s.row.kind, c.request.due s.row.kind⟩)
      (.completing (c.request.due s.row.kind) response)
  | refuse {status : Status} {response : Response} : c.phase = .claimed → status.terminal = true →
    CallEffect i s c s (.completing status response)
  | fail : c.phase = .claimed → CallEffect i s c s .releasing
  | complete {status : Status} {response : Response} {now : Time} {phase : Phase} :
    c.phase = .completing status response → s.row.heldBy i = true →
    phase = .recording status response ∨ phase = .ended →
    CallEffect i s c (s.settle (s.row.complete status response now) ⟨some i, status⟩) phase
  | release : c.phase = .releasing → s.row.heldBy i = true →
    CallEffect i s c { s with row := s.row.release } .ended
  | record {status : Status} {response : Response} {event : RepliedEvent} {audit : ResolutionAudit}
    {fails : Bool} : c.phase = .recording status response →
    CallEffect i s c (s.record event audit fails) .ended

theorem due_terminal (kind : Kind) (r : Request) : (r.due kind).terminal = true := by
  cases r with
  | expire => rfl
  | resolve workspaceID byID actor decision =>
    cases kind with
    | permission | userChoice =>
      simp only [Request.due, deliveredStatus]
      split_ifs <;> rfl

theorem outcome_accepted (row : Interaction) (r : Request) :
    ∃ response, r.outcome row .accepted = some (r.due row.kind, response) := by
  cases r <;> exact ⟨_, rfl⟩

theorem outcome_gone (row : Interaction) (r : Request) :
    ∃ status response, r.outcome row .gone = some (status, response) ∧ status.terminal = true := by
  cases r <;> exact ⟨_, _, rfl, rfl⟩

theorem outcome_failed (row : Interaction) (r : Request) : r.outcome row .failed = none := by
  cases r <;> rfl

theorem claimable_pending {r : Request} {row : Interaction} {now : Time}
    (h : r.claimable row now = true) : row.status = .pending := by
  cases r with
  | expire =>
    simp only [Request.claimable, Bool.and_eq_true, beq_iff_eq] at h
    exact h.1
  | resolve workspaceID byID actor decision =>
    simp only [Request.claimable, Bool.and_eq_true, beq_iff_eq] at h
    exact h.1.1

theorem ready_phase {c : Call} (h : c.ready = true) : c.phase = .begun ∨ c.phase = .loaded := by
  unfold Call.ready at h
  split at h
  next hphase => exact .inr hphase
  next hphase => exact .inl hphase
  · cases h

theorem Reply.next_cases (reply : Reply) (phase : Phase) :
    reply.next phase = phase ∨ reply.next phase = .ended := by
  cases reply with
  | ok => exact .inl rfl
  | lost applied => exact .inr rfl

theorem callStep_effect {i : Nat} {s t : Desk} {c d : Call} {a : CallAction}
    (h : c.step i s a = some (t, d)) : d.request = c.request ∧ CallEffect i s c t d.phase := by
  cases a with
  | load now =>
    simp only [Call.step] at h
    split at h
    next hphase =>
      cases h
      refine ⟨rfl, ?_⟩
      dsimp only
      split_ifs
      · exact .load hphase
      · exact .stop
    · cases h
  | claim now reply =>
    simp only [Call.step] at h
    split_ifs at h with hready hclaimable
    · cases h
      rw [Bool.and_eq_true] at hclaimable
      exact ⟨rfl, .claim (ready_phase hready) (claimable_pending hclaimable.1)
        (reply.next_cases _)⟩
    · cases h
      exact ⟨rfl, .stop⟩
  | deliver delivery =>
    simp only [Call.step] at h
    split at h
    next hphase =>
      cases delivery with
      | accepted =>
        simp only at h
        split_ifs at h
        cases h
        obtain ⟨response, houtcome⟩ := outcome_accepted s.row c.request
        simp only [houtcome, Phase.delivered]
        exact ⟨trivial, .accept hphase⟩
      | gone =>
        cases h
        obtain ⟨status, response, houtcome, hterminal⟩ := outcome_gone s.row c.request
        simp only [houtcome, Phase.delivered]
        exact ⟨trivial, .refuse hphase hterminal⟩
      | failed =>
        cases h
        simp only [outcome_failed, Phase.delivered]
        exact ⟨trivial, .fail hphase⟩
    · cases h
  | complete now reply =>
    simp only [Call.step] at h
    split at h
    next status response hphase =>
      split_ifs at h with hheld
      · cases h
        rw [Bool.and_eq_true] at hheld
        exact ⟨rfl, .complete hphase hheld.1 (reply.next_cases _)⟩
      · cases h
        exact ⟨rfl, .stop⟩
    · cases h
  | release reply =>
    simp only [Call.step] at h
    split at h
    next hphase =>
      split_ifs at h with hheld
      · cases h
        rw [Bool.and_eq_true] at hheld
        exact ⟨rfl, .release hphase hheld.1⟩
      · cases h
        exact ⟨rfl, .stop⟩
    · cases h
  | record fails =>
    simp only [Call.step] at h
    split at h
    next status response hphase =>
      cases h
      exact ⟨rfl, .record hphase⟩
    · cases h
  | crash =>
    cases h
    exact ⟨rfl, .stop⟩

end Parsar.Resolution
