import Parsar.Inflight.Events

namespace Parsar.Inflight

open GoStd

/-- What a working card shows. The step list is a Go slice: `none` is the nil slice, which the
terminal card tells apart from an empty one. -/
structure CardState where
  steps : Option (List StepInfo)
  streamingText : String
  thinkingText : String
  errorMessage : String
  rawError : String
  deriving DecidableEq

def closeFirst (id : String) (endedAt : Time) : List StepInfo → List StepInfo
  | [] => []
  | s :: ss =>
    if s.id = id ∧ s.endedAt.isZero then { s with endedAt := endedAt } :: ss
    else s :: closeFirst id endedAt ss

def closeLatest (id : String) (endedAt : Time) (steps : List StepInfo) : List StepInfo :=
  (closeFirst id endedAt steps.reverse).reverse

namespace CardState

def empty : CardState := ⟨none, "", "", "", ""⟩

/-- One turn of the loop of `foldEventsIntoCardState`. -/
def applyEvent (c : CardState) (ev : AgentRunEvent) : CardState :=
  match ev.kind with
  | .toolCall =>
    match stepFromToolCallPayload ev.payload ev.occurredAt with
    | some step => { c with steps := some (c.steps.getD [] ++ [step]) }
    | none => c
  | .toolResult =>
    let id := trimSpace (ev.payload.string "id")
    if id = "" then c else { c with steps := c.steps.map (closeLatest id ev.occurredAt) }
  | .messageDelta => { c with streamingText := c.streamingText ++ ev.payload.string "delta" }
  | .messageThinking => { c with thinkingText := c.thinkingText ++ ev.payload.string "thinking" }
  | .runFailed =>
    let visible := trimSpace (ev.payload.string "user_visible_message")
    let raw := trimSpace (ev.payload.string "error")
    { c with
      errorMessage := if visible ≠ "" then visible else if raw ≠ "" then raw else c.errorMessage
      rawError := if raw ≠ "" then raw else c.rawError }
  | _ => c

def applyEvents (c : CardState) (events : List AgentRunEvent) : CardState :=
  events.foldl applyEvent c

theorem applyEvents_append (c : CardState) (xs ys : List AgentRunEvent) :
    c.applyEvents (xs ++ ys) = (c.applyEvents xs).applyEvents ys := List.foldl_append

/-- The same card with an empty slice in place of a nil one. -/
def normalize (c : CardState) : CardState := { c with steps := some (c.steps.getD []) }

@[simp] theorem normalize_normalize (c : CardState) : c.normalize.normalize = c.normalize := rfl

theorem closeLatest_nil (id : String) (t : Time) : closeLatest id t [] = [] := rfl

theorem applyEvent_normalize (c : CardState) (ev : AgentRunEvent) :
    c.normalize.applyEvent ev = (c.applyEvent ev).normalize := by
  cases hk : ev.kind <;> simp only [applyEvent, hk, normalize]
  case toolCall =>
    cases stepFromToolCallPayload ev.payload ev.occurredAt <;> rfl
  case toolResult =>
    split
    · rfl
    · cases c.steps <;> simp [closeLatest_nil]

theorem applyEvents_normalize (c : CardState) (events : List AgentRunEvent) :
    c.normalize.applyEvents events = (c.applyEvents events).normalize := by
  induction events generalizing c with
  | nil => rfl
  | cons ev events ih =>
    simp only [applyEvents, List.foldl_cons] at ih ⊢
    rw [applyEvent_normalize, ih]

end CardState

def AgentRunEvent.delta (ev : AgentRunEvent) : String :=
  if ev.kind = .messageDelta then ev.payload.string "delta" else ""

def AgentRunEvent.thinking (ev : AgentRunEvent) : String :=
  if ev.kind = .messageThinking then ev.payload.string "thinking" else ""

def joinText (f : AgentRunEvent → String) (events : List AgentRunEvent) : String :=
  events.foldr (fun ev text => f ev ++ text) ""

theorem joinText_append (f : AgentRunEvent → String) (xs ys : List AgentRunEvent) :
    joinText f (xs ++ ys) = joinText f xs ++ joinText f ys := by
  induction xs with
  | nil => simp [joinText]
  | cons ev xs ih =>
    simp only [joinText, List.cons_append, List.foldr_cons] at ih ⊢
    rw [ih, String.append_assoc]

namespace CardState

theorem applyEvent_streamingText (c : CardState) (ev : AgentRunEvent) :
    (c.applyEvent ev).streamingText = c.streamingText ++ ev.delta := by
  cases hk : ev.kind <;> simp only [applyEvent, AgentRunEvent.delta, hk, reduceCtorEq, if_true,
    if_false, String.append_empty]
  case toolCall => split <;> rfl
  case toolResult => split <;> rfl

theorem applyEvent_thinkingText (c : CardState) (ev : AgentRunEvent) :
    (c.applyEvent ev).thinkingText = c.thinkingText ++ ev.thinking := by
  cases hk : ev.kind <;> simp only [applyEvent, AgentRunEvent.thinking, hk, reduceCtorEq, if_true,
    if_false, String.append_empty]
  case toolCall => split <;> rfl
  case toolResult => split <;> rfl

theorem applyEvents_text {text : CardState → String} {f : AgentRunEvent → String}
    (happly : ∀ c ev, text (applyEvent c ev) = text c ++ f ev) (c : CardState)
    (events : List AgentRunEvent) : text (c.applyEvents events) = text c ++ joinText f events := by
  induction events generalizing c with
  | nil => simp [applyEvents, joinText]
  | cons ev events ih =>
    have hstep := ih (c.applyEvent ev)
    simp only [applyEvents, List.foldl_cons, joinText, List.foldr_cons] at hstep ⊢
    rw [hstep, happly, String.append_assoc]

theorem applyEvents_streamingText (c : CardState) (events : List AgentRunEvent) :
    (c.applyEvents events).streamingText =
      c.streamingText ++ joinText AgentRunEvent.delta events :=
  applyEvents_text applyEvent_streamingText c events

theorem applyEvents_thinkingText (c : CardState) (events : List AgentRunEvent) :
    (c.applyEvents events).thinkingText =
      c.thinkingText ++ joinText AgentRunEvent.thinking events :=
  applyEvents_text applyEvent_thinkingText c events

end CardState

end Parsar.Inflight
