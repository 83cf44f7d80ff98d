import Parsar.Inflight.Slots

namespace Parsar.Inflight

open GoStd

inductive RunStatus where
  | queued
  | running
  | completed
  | failed
  | cancelled
  deriving DecidableEq, Repr

/-- `finished_at` is set together with these statuses. -/
def RunStatus.finished : RunStatus → Bool
  | completed | failed | cancelled => true
  | queued | running => false

def RunStatus.terminal : RunStatus → Bool
  | completed | failed => true
  | _ => false

structure AgentRun where
  status : RunStatus := .queued
  outputMessageID : String := ""
  agentName : String := ""

abbrev EventLog := RunID → List AgentRunEvent

def EventLog.record (events : EventLog) (run : RunID) (ev : AgentRunEvent) : EventLog :=
  fun r => if r = run then events run ++ [ev] else events r

/-- The slots of a conversation, its runs, their events in sequence order, and the delivered
messages. -/
structure Store where
  working : WorkingInflightSlot := {}
  permission : PermissionInflightSlot := {}
  choice : PromptForUserChoiceInflightSlot := {}
  terminalDelivered : List RunID := []
  runs : RunID → AgentRun := fun _ => {}
  events : EventLog := fun _ => []
  deliveredMessages : List String := []

/-- `run_event_max`: no row when the run has no renderable event. -/
def maxRenderableSeq (events : List AgentRunEvent) : Option Nat :=
  ((events.filter (·.kind.renderable)).map (·.sequence)).max?

def listAgentRunEventsAfterSeq (events : List AgentRunEvent) (afterSeq limit : Nat) :
    List AgentRunEvent :=
  (events.filter fun ev => afterSeq < ev.sequence).take limit

namespace Store

def EventSlotClaimable (st : Store) (run : RunID) : Prop :=
  ∃ m ∈ maxRenderableSeq (st.events run),
    (st.working.agentRunID = run.text ∧ st.working.seqEmitted < m) ∨
      st.working.agentRunID ≠ run.text

instance (st : Store) (run : RunID) : Decidable (st.EventSlotClaimable run) :=
  match h : maxRenderableSeq (st.events run) with
  | none => .isFalse (by rintro ⟨m, hm, -⟩; simp [h] at hm)
  | some m => decidable_of_iff ((st.working.agentRunID = run.text ∧ st.working.seqEmitted < m) ∨
      st.working.agentRunID ≠ run.text) (by simp [EventSlotClaimable, h])

def OutputDelivered (st : Store) (run : RunID) : Prop :=
  (st.runs run).outputMessageID ≠ "" ∧ (st.runs run).outputMessageID ∈ st.deliveredMessages

instance (st : Store) (run : RunID) : Decidable (st.OutputDelivered run) :=
  inferInstanceAs (Decidable (_ ∧ _))

/-- The row predicate of the claim query for an active conversation; the cutoff and the lease only
take rows away. -/
def Claimable (st : Store) (now : Time) (run : RunID) : Prop :=
  (st.runs run).status ≠ .cancelled ∧
  st.EventSlotClaimable run ∧
  ((st.runs run).status.finished = false ∨ ¬ st.OutputDelivered run) ∧
  run ∉ st.terminalDelivered ∧
  (st.working.nextRetryAt = Time.zero ∨ st.working.nextRetryAt.nanos ≤ now.nanos)

instance (st : Store) (now : Time) (run : RunID) : Decidable (st.Claimable now run) :=
  inferInstanceAs (Decidable (_ ∧ _ ∧ _ ∧ _ ∧ _))

def upsertWorkingCard (st : Store) (slot : WorkingInflightSlot) (expectedOldRunID : String) :
    Option Store :=
  if st.working.agentRunID = expectedOldRunID then some { st with working := slot } else none

def upsertPermissionCard (st : Store) (slot : PermissionInflightSlot)
    (expectedOldRequestID : String) : Option Store :=
  if st.permission.permissionRequestID = expectedOldRequestID then
    some { st with permission := slot }
  else none

def upsertPromptForUserChoiceCard (st : Store) (slot : PromptForUserChoiceInflightSlot)
    (expectedOldRequestID : String) : Option Store :=
  if st.choice.requestID = expectedOldRequestID then some { st with choice := slot } else none

def clearWorkingSlot (st : Store) (run : RunID) : Store :=
  if st.working.agentRunID = run.text then { st with working := {} } else st

def clearPermissionSlot (st : Store) (run : RunID) : Store :=
  if st.permission.agentRunID = run.text then { st with permission := {} } else st

/-- Set union: the id moves to the end of `run_ids`. -/
def markTerminalDelivered (st : Store) (run : RunID) : Store :=
  { st with terminalDelivered := st.terminalDelivered.filter (· ≠ run) ++ [run] }

def markGatewayOutboundDelivered (st : Store) (messageID : String) : Store :=
  { st with deliveredMessages := messageID :: st.deliveredMessages }

/-- `RecordAgentRunEvent` takes the next sequence number under the run's lock, and drops a
terminal event of a cancelled run. -/
def recordAgentRunEvent (st : Store) (run : RunID) (ev : AgentRunEvent) : Option Store :=
  if (∀ e ∈ st.events run, e.sequence < ev.sequence) ∧
      ¬ ((st.runs run).status = .cancelled ∧ ev.kind.terminal) then
    some { st with events := st.events.record run ev }
  else none

def setRun (st : Store) (run : RunID) (row : AgentRun) : Store :=
  { st with runs := fun r => if r = run then row else st.runs r }

/-- The dispatcher records the terminal event before it flips the row. -/
def TerminalRecorded (st : Store) (run : RunID) : Prop :=
  ∃ ev ∈ st.events run, ev.kind.terminal = true

instance (st : Store) (run : RunID) : Decidable (st.TerminalRecorded run) :=
  inferInstanceAs (Decidable (∃ ev ∈ st.events run, _))

def finishRun (st : Store) (run : RunID) (status : RunStatus) (output : String) : Option Store :=
  if (st.runs run).status.finished = false ∧ status.terminal ∧ st.TerminalRecorded run then
    some (st.setRun run { st.runs run with status := status, outputMessageID := output })
  else none

end Store

theorem EventLog.record_same (events : EventLog) (run : RunID) (ev : AgentRunEvent) :
    events.record run ev run = events run ++ [ev] := if_pos rfl

theorem EventLog.record_ne (events : EventLog) {run r : RunID} (ev : AgentRunEvent) (h : r ≠ run) :
    events.record run ev r = events r := if_neg h

theorem EventLog.mem_record {events : EventLog} {run r : RunID} {ev e : AgentRunEvent} :
    e ∈ events.record run ev r ↔ e ∈ events r ∨ (r = run ∧ e = ev) := by
  by_cases h : r = run
  · subst h
    simp [record_same]
  · simp [record_ne events ev h, h]

theorem lt_maxRenderableSeq_iff (events : List AgentRunEvent) (k : Nat) :
    (∃ m ∈ maxRenderableSeq events, k < m) ↔
      ∃ ev ∈ events, ev.kind.renderable = true ∧ k < ev.sequence := by
  constructor
  · rintro ⟨m, hm, hlt⟩
    have hmem := List.max?_mem hm
    obtain ⟨ev, hev, rfl⟩ := List.mem_map.mp hmem
    obtain ⟨hin, hrender⟩ := List.mem_filter.mp hev
    exact ⟨ev, hin, hrender, hlt⟩
  · rintro ⟨ev, hin, hrender, hlt⟩
    have hmem : ev.sequence ∈ (events.filter (·.kind.renderable)).map (·.sequence) :=
      List.mem_map.mpr ⟨ev, List.mem_filter.mpr ⟨hin, hrender⟩, rfl⟩
    obtain ⟨m, hm⟩ : ∃ m, maxRenderableSeq events = some m := by
      have hne : (events.filter (·.kind.renderable)).map (·.sequence) ≠ [] := by
        intro h
        rw [h] at hmem
        cases hmem
      exact Option.isSome_iff_exists.mp (by simpa [maxRenderableSeq] using hne)
    have hbound := (List.max?_eq_some_iff.mp hm).2
    exact ⟨m, hm, Nat.lt_of_lt_of_le hlt (hbound _ hmem)⟩

end Parsar.Inflight
