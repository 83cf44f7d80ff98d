import Parsar.Inflight.Payload

namespace Parsar.Inflight

open GoStd

structure WorkingInflightSlot where
  externalMsgID : String := ""
  appID : String := ""
  externalChatID : String := ""
  externalThreadID : String := ""
  agentRunID : String := ""
  seqEmitted : Nat := 0
  payload : Object := []
  attempts : Nat := 0
  lastError : Bytes := []
  nextRetryAt : Time := Time.zero

structure PermissionInflightSlot where
  externalMsgID : String := ""
  appID : String := ""
  externalChatID : String := ""
  externalThreadID : String := ""
  agentRunID : String := ""
  deviceID : String := ""
  permissionRequestID : String := ""
  toolName : String := ""
  toolInput : ToolInput := .text ""
  attempts : Nat := 0
  lastError : Bytes := []
  nextRetryAt : Time := Time.zero

structure PromptForUserChoiceInflightSlot where
  externalMsgID : String := ""
  appID : String := ""
  externalChatID : String := ""
  externalThreadID : String := ""
  agentRunID : String := ""
  deviceID : String := ""
  requestID : String := ""
  questions : List PromptForUserChoiceQuestion := []

namespace WorkingInflightSlot

def marshal (s : WorkingInflightSlot) : Object :=
  ("external_msg_id", Json.str s.externalMsgID) :: ("app_id", Json.str s.appID) ::
  ("external_chat_id", Json.str s.externalChatID) :: ("agent_run_id", Json.str s.agentRunID) ::
  ("seq_emitted", Json.num s.seqEmitted) ::
    (Object.optional (s.externalThreadID ≠ "") "external_thread_id" (.str s.externalThreadID) ++
      (Object.optional (!s.payload.isEmpty) "payload" (.obj s.payload) ++
        (Object.optional (s.attempts ≠ 0) "attempts" (.num s.attempts) ++
          (Object.optional (!s.lastError.isEmpty) "last_error" (.str (toValidUTF8 s.lastError)) ++
            timeField "next_retry_at" s.nextRetryAt))))

end WorkingInflightSlot

def extractWorkingSlot (working : Object) : WorkingInflightSlot where
  externalMsgID := working.string "external_msg_id"
  appID := working.string "app_id"
  externalChatID := working.string "external_chat_id"
  externalThreadID := working.string "external_thread_id"
  agentRunID := working.string "agent_run_id"
  seqEmitted := working.counter "seq_emitted"
  payload := (working.object? "payload").getD []
  attempts := working.counter "attempts"
  lastError := utf8 (working.string "last_error")
  nextRetryAt := timeFromPayload working "next_retry_at"

namespace WorkingInflightSlot

/-- The slot as the driver reads it back from the row. -/
def reread (s : WorkingInflightSlot) : WorkingInflightSlot := extractWorkingSlot s.marshal

@[simp] theorem reread_externalMsgID (s : WorkingInflightSlot) :
    s.reread.externalMsgID = s.externalMsgID := by
  simp [reread, extractWorkingSlot, marshal, Object.string, Object.string?]

@[simp] theorem reread_agentRunID (s : WorkingInflightSlot) :
    s.reread.agentRunID = s.agentRunID := by
  simp [reread, extractWorkingSlot, marshal, Object.string, Object.string?, List.lookup_cons]

@[simp] theorem reread_payload (s : WorkingInflightSlot) : s.reread.payload = s.payload := by
  cases h : s.payload <;>
    simp [reread, extractWorkingSlot, marshal, timeField, Object.object?, List.lookup_cons,
      lookup_optional_append, lookup_optional, h]

theorem reread_seqEmitted {s : WorkingInflightSlot} (h : s.seqEmitted ≤ maxExactInt) :
    s.reread.seqEmitted = s.seqEmitted := by
  simp [reread, extractWorkingSlot, marshal, Object.counter, List.lookup_cons, float64_of_le h]

theorem reread_attempts {s : WorkingInflightSlot} (h : s.attempts ≤ maxExactInt) :
    s.reread.attempts = s.attempts := by
  by_cases hz : s.attempts = 0 <;>
    simp [reread, extractWorkingSlot, marshal, timeField, Object.counter, List.lookup_cons,
      lookup_optional_append, lookup_optional, hz, float64_of_le h]

/-- A message is pinned and the pin belongs to the run. -/
def hasWorkingSlotForRun (slot : WorkingInflightSlot) (run : RunID) : Prop :=
  trimSpace slot.externalMsgID ≠ "" ∧ trimSpace slot.agentRunID = trimSpace run.text

instance (slot : WorkingInflightSlot) (run : RunID) : Decidable (slot.hasWorkingSlotForRun run) :=
  inferInstanceAs (Decidable (_ ∧ _))

/-- The slot a tick works from: of another run's slot only the run id is kept, for the
compare-and-set. -/
def forRun (slot : WorkingInflightSlot) (run : RunID) : WorkingInflightSlot :=
  if slot.hasWorkingSlotForRun run then slot else { agentRunID := slot.agentRunID }

theorem forRun_of_has {slot : WorkingInflightSlot} {run : RunID}
    (h : slot.hasWorkingSlotForRun run) : slot.forRun run = slot := if_pos h

theorem forRun_of_not {slot : WorkingInflightSlot} {run : RunID}
    (h : ¬ slot.hasWorkingSlotForRun run) :
    slot.forRun run = { agentRunID := slot.agentRunID } := if_neg h

@[simp] theorem forRun_agentRunID (slot : WorkingInflightSlot) (run : RunID) :
    (slot.forRun run).agentRunID = slot.agentRunID := by
  unfold forRun
  split <;> rfl

theorem not_has_blank (run : RunID) (owner : String) :
    ¬ ({ agentRunID := owner } : WorkingInflightSlot).hasWorkingSlotForRun run := by
  intro h
  exact h.1 trimSpace_empty

theorem forRun_has_iff (slot : WorkingInflightSlot) (run : RunID) :
    (slot.forRun run).hasWorkingSlotForRun run ↔ slot.hasWorkingSlotForRun run := by
  by_cases h : slot.hasWorkingSlotForRun run
  · rw [forRun_of_has h]
  · rw [forRun_of_not h]
    exact iff_of_false (not_has_blank run _) h

theorem reread_has_iff (slot : WorkingInflightSlot) (run : RunID) :
    slot.reread.hasWorkingSlotForRun run ↔ slot.hasWorkingSlotForRun run := by
  simp [hasWorkingSlotForRun]

def zeroRetryWorking (slot : WorkingInflightSlot) : WorkingInflightSlot :=
  { slot with attempts := 0, lastError := [], nextRetryAt := Time.zero }

end WorkingInflightSlot

def PermissionInflightSlot.zeroRetryPermission (slot : PermissionInflightSlot) :
    PermissionInflightSlot :=
  { slot with attempts := 0, lastError := [], nextRetryAt := Time.zero }

def latestSeq (events : List AgentRunEvent) (fallback : Nat) : Nat :=
  events.foldl (fun m ev => if ev.sequence > m then ev.sequence else m) fallback

structure CardFold where
  card : CardState
  newSeq : Nat
  pendingPerm : Option PendingPermission

def CardFold.next (acc : CardFold) (ev : AgentRunEvent) : CardFold where
  card := acc.card.applyEvent ev
  newSeq := if ev.sequence > acc.newSeq then ev.sequence else acc.newSeq
  pendingPerm := ev.permission?.or acc.pendingPerm

def foldEventsIntoCardState (prev : WorkingInflightSlot) (events : List AgentRunEvent) : CardFold :=
  events.foldl CardFold.next ⟨cardFromPayload prev.payload, prev.seqEmitted, none⟩

theorem foldl_next (events : List AgentRunEvent) (acc : CardFold) :
    events.foldl CardFold.next acc =
      ⟨acc.card.applyEvents events, latestSeq events acc.newSeq,
        (latestOf AgentRunEvent.permission? events).or acc.pendingPerm⟩ := by
  rw [← foldl_or]
  induction events generalizing acc with
  | nil => rfl
  | cons ev events ih =>
    rw [List.foldl_cons, ih]
    rfl

theorem foldEventsIntoCardState_eq (prev : WorkingInflightSlot) (events : List AgentRunEvent) :
    foldEventsIntoCardState prev events =
      ⟨(cardFromPayload prev.payload).applyEvents events, latestSeq events prev.seqEmitted,
        latestOf AgentRunEvent.permission? events⟩ := by
  rw [foldEventsIntoCardState, foldl_next, Option.or_none]

theorem latestSeq_ge (events : List AgentRunEvent) (k : Nat) : k ≤ latestSeq events k := by
  induction events generalizing k with
  | nil => exact Nat.le_refl k
  | cons ev events ih =>
    simp only [latestSeq, List.foldl_cons] at ih ⊢
    have h := ih (if ev.sequence > k then ev.sequence else k)
    split at h <;> split <;> omega

theorem sequence_le_latestSeq {events : List AgentRunEvent} {ev : AgentRunEvent}
    (h : ev ∈ events) (k : Nat) : ev.sequence ≤ latestSeq events k := by
  induction events generalizing k with
  | nil => cases h
  | cons e events ih =>
    rcases List.mem_cons.mp h with rfl | h
    · have hge := latestSeq_ge events (if ev.sequence > k then ev.sequence else k)
      simp only [latestSeq, List.foldl_cons] at hge ⊢
      split at hge <;> split <;> omega
    · exact ih h _

theorem latestSeq_mem (events : List AgentRunEvent) (k : Nat) :
    latestSeq events k = k ∨ ∃ ev ∈ events, ev.sequence = latestSeq events k := by
  induction events generalizing k with
  | nil => exact Or.inl rfl
  | cons e events ih =>
    simp only [latestSeq, List.foldl_cons] at ih ⊢
    rcases ih (if e.sequence > k then e.sequence else k) with h | ⟨ev, hmem, h⟩
    · rw [h]
      split
      · exact Or.inr ⟨e, by simp, rfl⟩
      · exact Or.inl rfl
    · exact Or.inr ⟨ev, List.mem_cons_of_mem e hmem, h⟩

end Parsar.Inflight
