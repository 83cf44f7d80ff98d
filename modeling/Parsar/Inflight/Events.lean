import Parsar.GoStd.Json
import Parsar.GoStd.Rfc3339
import Parsar.GoStd.Text

namespace Parsar.Inflight

open GoStd

/-- A run, message or request id: never blank, and already trimmed (a uuid, or an id the
Feishu client has trimmed and checked). -/
structure Ident where
  text : String
  trimmed : trimSpace text = text
  nonempty : text ≠ ""
  deriving DecidableEq

abbrev RunID := Ident
abbrev MsgID := Ident

theorem Ident.ext_text {a b : Ident} (h : a.text = b.text) : a = b := by
  cases a
  cases b
  cases h
  rfl

inductive EventKind where
  | toolCall
  | toolResult
  | messageDelta
  | messageThinking
  | permissionAsked
  | promptForUserChoiceAsked
  | runStarted
  | runCompleted
  | runFailed
  | other
  deriving DecidableEq, Repr

namespace EventKind

/-- The `event_kind` set of the claim query's `run_event_max`. -/
def renderable : EventKind → Bool
  | toolCall | messageDelta | messageThinking | permissionAsked | promptForUserChoiceAsked
  | runStarted | runCompleted | runFailed => true
  | toolResult | other => false

/-- The kinds the dispatcher records before it flips the run row. -/
def terminal : EventKind → Bool
  | runCompleted | runFailed => true
  | _ => false

theorem renderable_of_terminal {k : EventKind} (h : k.terminal = true) : k.renderable = true := by
  cases k <;> simp_all [terminal, renderable]

end EventKind

/-- One row of `agent_run_events`; sequence numbers count up from 1, so they stay exact as
`float64`. -/
structure AgentRunEvent where
  sequence : Nat
  kind : EventKind
  payload : Object
  occurredAt : Time
  sequence_pos : 0 < sequence
  sequence_exact : sequence ≤ maxExactInt
  occurredAt_layout : occurredAt.InLayout

/-- `gateway.StepInfo`. The label is a byte string: it is cut at byte offsets. -/
structure StepInfo where
  tool : String
  label : Bytes
  id : String
  startedAt : Time
  endedAt : Time
  deriving DecidableEq

def trimMiddle (s : Bytes) (n : Nat) : Bytes :=
  if n = 0 ∨ s.length ≤ n then s
  else
    let half := (n - 1) / 2
    s.take half ++ utf8 "…" ++ s.drop (s.length - half)

def firstLine (cmd : String) : String :=
  let head := cmd.toList.takeWhile fun c => c != '\r' && c != '\n'
  if head.isEmpty then cmd else String.ofList head

def textArg (args : Object) (k : String) : Option String :=
  (args.string? k).filter (· ≠ "")

def shownArg (tool : String) (args : Object) : Option String :=
  if tool ∈ ["Read", "Edit", "Write", "NotebookEdit"] then textArg args "file_path"
  else if tool = "Bash" then (textArg args "command").map firstLine
  else if tool ∈ ["Grep", "Glob"] then textArg args "pattern"
  else if tool ∈ ["WebFetch", "WebSearch"] then
    (textArg args "url").orElse fun _ => textArg args "query"
  else if tool = "Skill" then textArg args "skill"
  else none

def summariseToolArgs (tool : String) (args : Object) : Bytes :=
  match shownArg tool args with
  | some arg => trimMiddle (utf8 arg) 60
  | none => []

def stepFromToolCallPayload (payload : Object) (occurredAt : Time) : Option StepInfo :=
  let stage := payload.string "stage"
  let name := trimSpace (payload.string "name")
  if stage ≠ "" ∧ stage ≠ "before" then none
  else if name = "" then none
  else
    let hint := match payload.object? "args" with
      | some args => summariseToolArgs name args
      | none => []
    let label := if hint = [] then utf8 name else utf8 name ++ utf8 " · " ++ hint
    some ⟨name, label, trimSpace (payload.string "id"), occurredAt, Time.zero⟩

inductive ToolInput where
  | text (s : String)
  | preview (nested : Object)

structure PendingPermission where
  requestID : String
  toolName : String
  toolInput : ToolInput

def firstNonBlank (a b fallback : String) : String :=
  if trimSpace a ≠ "" then trimSpace a
  else if trimSpace b ≠ "" then trimSpace b
  else fallback

def pendingPermissionFromPayload (payload : Object) : Option PendingPermission :=
  let requestID := trimSpace (payload.string "request_id")
  if requestID = "" then none
  else
    let detail := trimSpace (payload.string "detail")
    let toolInput := match detail, payload.object? "payload" with
      | "", some (field :: fields) => ToolInput.preview (field :: fields)
      | detail, _ => ToolInput.text detail
    some ⟨requestID,
      firstNonBlank (payload.string "action") (payload.string "resource") "unnamed tool", toolInput⟩

structure PromptForUserChoiceOption where
  label : String
  description : String
  deriving DecidableEq

structure PromptForUserChoiceQuestion where
  id : String
  header : String
  question : String
  multiSelect : Bool
  isOther : Bool
  isSecret : Bool
  options : List PromptForUserChoiceOption
  deriving DecidableEq

structure PendingAsk where
  requestID : String
  questions : List PromptForUserChoiceQuestion
  toolUseID : String
  deriving DecidableEq

def decodePromptForUserChoiceOption : Json → Option PromptForUserChoiceOption
  | .obj om =>
    let label := trimSpace (Object.string om "label")
    if label = "" then none else some ⟨label, Object.string om "description"⟩
  | _ => none

def decodePromptForUserChoiceOptionList (payload : Object) : List PromptForUserChoiceOption :=
  ((payload.array? "options").getD []).filterMap decodePromptForUserChoiceOption

/-- One question; one with neither text nor options is dropped. The legacy shape has no id. -/
def decodePromptForUserChoiceQuestion (id : String) (m : Object) :
    Option PromptForUserChoiceQuestion :=
  let question := trimSpace (m.string "question")
  let options := decodePromptForUserChoiceOptionList m
  if question = "" ∧ options = [] then none
  else some ⟨id, trimSpace (m.string "header"), question, m.bool "multi_select", m.bool "is_other",
    m.bool "is_secret", options⟩

def decodePromptForUserChoiceQuestionList (payload : Object) : List PromptForUserChoiceQuestion :=
  ((payload.array? "questions").getD []).filterMap fun
    | .obj m => decodePromptForUserChoiceQuestion (trimSpace (Object.string m "id")) m
    | _ => none

def pendingAskFromPayload (payload : Object) : Option PendingAsk :=
  let requestID := trimSpace (payload.string "request_id")
  let toolUseID := trimSpace (payload.string "tool_use_id")
  if requestID = "" then none
  else
    match decodePromptForUserChoiceQuestionList payload with
    | [] => (decodePromptForUserChoiceQuestion "" payload).map fun q => ⟨requestID, [q], toolUseID⟩
    | questions => some ⟨requestID, questions, toolUseID⟩

def AgentRunEvent.permission? (ev : AgentRunEvent) : Option PendingPermission :=
  if ev.kind = .permissionAsked then pendingPermissionFromPayload ev.payload else none

def AgentRunEvent.ask? (ev : AgentRunEvent) : Option PendingAsk :=
  if ev.kind = .promptForUserChoiceAsked then pendingAskFromPayload ev.payload else none

def latestOf {α : Type} (f : AgentRunEvent → Option α) (events : List AgentRunEvent) : Option α :=
  events.foldl (fun out ev => (f ev).or out) none

def extractPendingAskFromEvents (events : List AgentRunEvent) : Option PendingAsk :=
  latestOf AgentRunEvent.ask? events

theorem foldl_or {α : Type} (f : AgentRunEvent → Option α) (events : List AgentRunEvent)
    (out : Option α) :
    events.foldl (fun out ev => (f ev).or out) out = (latestOf f events).or out := by
  induction events generalizing out with
  | nil => rfl
  | cons ev events ih =>
    simp only [latestOf, List.foldl_cons] at ih ⊢
    rw [ih, ih ((f ev).or none), Option.or_none, Option.or_assoc]

theorem latestOf_append {α : Type} (f : AgentRunEvent → Option α) (xs ys : List AgentRunEvent) :
    latestOf f (xs ++ ys) = (latestOf f ys).or (latestOf f xs) := by
  rw [latestOf, List.foldl_append, foldl_or]
  rfl

end Parsar.Inflight
