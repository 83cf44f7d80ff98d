import Parsar.Framework.Trace
import Parsar.Inflight.Card

namespace Parsar.Inflight

open GoStd

def timeField (k : String) (t : Time) : Object :=
  Object.optional (!t.isZero) k (.str t.formatRFC3339Nano)

/-- A step as `json.Marshal` writes it: bytes of the label that are not UTF-8 are replaced. -/
def stepPayload (s : StepInfo) : Object :=
  ("tool", Json.str s.tool) :: ("label", Json.str (toValidUTF8 s.label)) ::
    (Object.optional (s.id ≠ "") "id" (.str s.id) ++
      (timeField "started_at" s.startedAt ++ timeField "ended_at" s.endedAt))

def slotPayload (c : CardState) : Object :=
  ("steps", Json.arr ((c.steps.getD []).map fun s => .obj (stepPayload s))) ::
    (Object.optional (c.streamingText ≠ "") "streaming_text" (.str c.streamingText) ++
      (Object.optional (c.thinkingText ≠ "") "thinking_text" (.str c.thinkingText) ++
        (Object.optional (trimSpace c.errorMessage ≠ "") "error_message" (.str c.errorMessage) ++
          Object.optional (trimSpace c.rawError ≠ "") "raw_error" (.str c.rawError))))

/-- A timestamp that is absent or does not parse is the zero time. -/
def timeFromPayload (entry : Object) (k : String) : Time :=
  match entry.string? k with
  | some v => if v = "" then Time.zero else (Time.parseRFC3339Nano v).getD Time.zero
  | none => Time.zero

def stepFromPayload : Json → Option StepInfo
  | .obj entry => some ⟨Object.string entry "tool", utf8 (Object.string entry "label"),
      Object.string entry "id", timeFromPayload entry "started_at",
      timeFromPayload entry "ended_at"⟩
  | _ => none

def stepsFromPayload (payload : Object) : Option (List StepInfo) :=
  (payload.array? "steps").map fun rawList => rawList.filterMap stepFromPayload

def streamingTextFromPayload (payload : Object) : String := payload.string "streaming_text"

def thinkingTextFromPayload (payload : Object) : String := payload.string "thinking_text"

def errorMessageFromPayload (payload : Object) : String :=
  trimSpace (payload.string "error_message")

def rawErrorFromPayload (payload : Object) : String := trimSpace (payload.string "raw_error")

/-- The five decoders together: the state a fold starts from. -/
def cardFromPayload (payload : Object) : CardState :=
  ⟨stepsFromPayload payload, streamingTextFromPayload payload, thinkingTextFromPayload payload,
    errorMessageFromPayload payload, rawErrorFromPayload payload⟩

theorem cardFromPayload_nil : cardFromPayload [] = CardState.empty := by decide

structure StepInfo.Encodable (s : StepInfo) : Prop where
  label : ValidUTF8 s.label
  startedAt : s.startedAt.InLayout
  endedAt : s.endedAt.InLayout

structure CardState.Encodable (c : CardState) : Prop where
  steps : ∀ s ∈ c.steps.getD [], s.Encodable
  errorMessage : trimSpace c.errorMessage = c.errorMessage
  rawError : trimSpace c.rawError = c.rawError

theorem lookup_optional_append (keep : Bool) (k l : String) (v : Json) (rest : Object) :
    List.lookup l (Object.optional keep k v ++ rest) =
      if l = k ∧ keep then some v else List.lookup l rest := by
  cases keep with
  | false => simp [Object.optional]
  | true =>
    by_cases h : l = k
    · simp [Object.optional, h]
    · have hb : (l == k) = false := by simpa using h
      simp [Object.optional, List.lookup_cons, h, hb]

theorem lookup_optional (keep : Bool) (k l : String) (v : Json) :
    List.lookup l (Object.optional keep k v) = if l = k ∧ keep then some v else none := by
  have h := lookup_optional_append keep k l v []
  rwa [List.append_nil] at h

theorem timeFromPayload_eq {entry : Object} {k : String} {t : Time} (ht : t.InLayout)
    (h : entry.lookup k = if t.isZero then none else some (.str t.formatRFC3339Nano)) :
    timeFromPayload entry k = t := by
  by_cases hz : t.isZero
  · have htz : t = Time.zero := by
      obtain ⟨n⟩ := t
      simpa [Time.isZero, Time.zero] using hz
    subst htz
    simp only [timeFromPayload, Object.string?, h, if_pos hz]
  · have hz' : t.isZero = false := by simpa using hz
    simp [timeFromPayload, Object.string?, h, hz', Time.formatRFC3339Nano_ne_empty,
      Time.parse_format ht]

theorem stepFromPayload_stepPayload {s : StepInfo} (hs : s.Encodable) :
    stepFromPayload (.obj (stepPayload s)) = some s := by
  have hid : Object.string (stepPayload s) "id" = s.id := by
    by_cases h : s.id = "" <;>
      simp [Object.string, Object.string?, stepPayload, timeField, List.lookup_cons,
        lookup_optional_append, lookup_optional, h]
  have hstart : timeFromPayload (stepPayload s) "started_at" = s.startedAt := by
    refine timeFromPayload_eq hs.startedAt ?_
    cases h : s.startedAt.isZero <;>
      simp [stepPayload, timeField, List.lookup_cons, lookup_optional_append, lookup_optional, h]
  have hend : timeFromPayload (stepPayload s) "ended_at" = s.endedAt := by
    refine timeFromPayload_eq hs.endedAt ?_
    cases h : s.endedAt.isZero <;>
      simp [stepPayload, timeField, List.lookup_cons, lookup_optional_append, lookup_optional, h]
  have htool : Object.string (stepPayload s) "tool" = s.tool := by
    simp [Object.string, Object.string?, stepPayload]
  have hlabel : Object.string (stepPayload s) "label" = toValidUTF8 s.label := by
    simp [Object.string, Object.string?, stepPayload, List.lookup_cons]
  have hvalid : utf8 (toValidUTF8 s.label) = s.label := hs.label
  simp only [stepFromPayload, htool, hlabel, hid, hstart, hend, hvalid]

theorem filterMap_stepFromPayload {ss : List StepInfo} (h : ∀ s ∈ ss, s.Encodable) :
    (ss.map fun s => Json.obj (stepPayload s)).filterMap stepFromPayload = ss := by
  induction ss with
  | nil => rfl
  | cons s ss ih =>
    have hs := stepFromPayload_stepPayload (h s (by simp))
    rw [List.map_cons, List.filterMap_cons_some hs, ih (fun t ht => h t (by simp [ht]))]

theorem stepsFromPayload_slotPayload (c : CardState) (h : ∀ s ∈ c.steps.getD [], s.Encodable) :
    stepsFromPayload (slotPayload c) = some (c.steps.getD []) := by
  simp [stepsFromPayload, Object.array?, slotPayload, filterMap_stepFromPayload h]

theorem texts_slotPayload (c : CardState) :
    streamingTextFromPayload (slotPayload c) = c.streamingText ∧
      thinkingTextFromPayload (slotPayload c) = c.thinkingText ∧
      errorMessageFromPayload (slotPayload c) = trimSpace c.errorMessage ∧
      rawErrorFromPayload (slotPayload c) = trimSpace c.rawError := by
  refine ⟨?_, ?_, ?_, ?_⟩
  · by_cases h : c.streamingText = "" <;>
      simp [streamingTextFromPayload, Object.string, Object.string?, slotPayload, List.lookup_cons,
        lookup_optional_append, lookup_optional, h]
  · by_cases h : c.thinkingText = "" <;>
      simp [thinkingTextFromPayload, Object.string, Object.string?, slotPayload, List.lookup_cons,
        lookup_optional_append, lookup_optional, h]
  · by_cases h : trimSpace c.errorMessage = "" <;>
      simp [errorMessageFromPayload, Object.string, Object.string?, slotPayload, List.lookup_cons,
        lookup_optional_append, lookup_optional, h]
  · by_cases h : trimSpace c.rawError = "" <;>
      simp [rawErrorFromPayload, Object.string, Object.string?, slotPayload, List.lookup_cons,
        lookup_optional, lookup_optional_append, h]

theorem cardFromPayload_slotPayload {c : CardState} (h : c.Encodable) :
    cardFromPayload (slotPayload c) = c.normalize := by
  obtain ⟨hstream, hthink, herr, hraw⟩ := texts_slotPayload c
  simp only [cardFromPayload, stepsFromPayload_slotPayload c h.steps, hstream, hthink, herr, hraw,
    h.errorMessage, h.rawError, CardState.normalize]

/-- Where a tool call's shown argument is shortened, both cuts fall between characters. -/
def AgentRunEvent.CutClean (ev : AgentRunEvent) : Prop :=
  ev.kind = .toolCall → ∀ args ∈ ev.payload.object? "args",
    ∀ arg ∈ shownArg (trimSpace (ev.payload.string "name")) args, 60 < (utf8 arg).length →
      CharBoundary arg 29 ∧ CharBoundary arg ((utf8 arg).length - 29)

instance (ev : AgentRunEvent) : Decidable ev.CutClean := by
  unfold AgentRunEvent.CutClean
  infer_instance

theorem trimMiddle_valid {arg : String}
    (h : 60 < (utf8 arg).length →
      CharBoundary arg 29 ∧ CharBoundary arg ((utf8 arg).length - 29)) :
    ValidUTF8 (trimMiddle (utf8 arg) 60) := by
  unfold trimMiddle
  split
  · exact validUTF8_utf8 arg
  · obtain ⟨hhead, htail⟩ := h (by omega)
    exact (hhead.validUTF8_take.append (validUTF8_utf8 _)).append htail.validUTF8_drop

theorem summariseToolArgs_valid {tool : String} {args : Object}
    (h : ∀ arg, shownArg tool args = some arg → 60 < (utf8 arg).length →
      CharBoundary arg 29 ∧ CharBoundary arg ((utf8 arg).length - 29)) :
    ValidUTF8 (summariseToolArgs tool args) := by
  unfold summariseToolArgs
  cases harg : shownArg tool args with
  | none => decide
  | some arg => exact trimMiddle_valid (h arg harg)

theorem stepFromToolCallPayload_encodable {ev : AgentRunEvent} {step : StepInfo}
    (hkind : ev.kind = .toolCall) (hclean : ev.CutClean)
    (hstep : stepFromToolCallPayload ev.payload ev.occurredAt = some step) : step.Encodable := by
  have hzero : Time.zero.InLayout := by decide
  simp only [stepFromToolCallPayload] at hstep
  split_ifs at hstep with hstage hname hhint
  · cases hstep
    refine ⟨?_, ev.occurredAt_layout, hzero⟩
    dsimp only
    exact validUTF8_utf8 (trimSpace (ev.payload.string "name"))
  · cases hstep
    refine ⟨?_, ev.occurredAt_layout, hzero⟩
    cases hargs : ev.payload.object? "args" with
    | none =>
      simp [hargs] at hhint
    | some args =>
      have hvalid := summariseToolArgs_valid (hclean hkind args hargs)
      exact ((validUTF8_utf8 _).append (validUTF8_utf8 _)).append hvalid

theorem closeFirst_encodable {id : String} {t : Time} (ht : t.InLayout) {ss : List StepInfo}
    (h : ∀ s ∈ ss, s.Encodable) : ∀ s ∈ closeFirst id t ss, s.Encodable := by
  induction ss with
  | nil => simp [closeFirst]
  | cons s ss ih =>
    have hs := h s (by simp)
    have hss := fun t ht => h t (List.mem_cons_of_mem s ht)
    unfold closeFirst
    split
    · intro x hx
      rcases List.mem_cons.mp hx with rfl | hx
      · exact ⟨hs.label, hs.startedAt, ht⟩
      · exact hss x hx
    · intro x hx
      rcases List.mem_cons.mp hx with rfl | hx
      · exact hs
      · exact ih hss x hx

theorem closeLatest_encodable {id : String} {t : Time} (ht : t.InLayout) {ss : List StepInfo}
    (h : ∀ s ∈ ss, s.Encodable) : ∀ s ∈ closeLatest id t ss, s.Encodable := by
  intro s hs
  rw [closeLatest, List.mem_reverse] at hs
  exact closeFirst_encodable ht (fun x hx => h x (List.mem_reverse.mp hx)) s hs

namespace CardState

theorem empty_encodable : empty.Encodable := ⟨by simp [empty], by decide, by decide⟩

theorem applyEvent_encodable {c : CardState} {ev : AgentRunEvent} (hc : c.Encodable)
    (hev : ev.CutClean) : (c.applyEvent ev).Encodable := by
  cases hk : ev.kind <;> simp only [applyEvent, hk]
  case permissionAsked | promptForUserChoiceAsked | runStarted | runCompleted | other => exact hc
  case toolCall =>
    cases hstep : stepFromToolCallPayload ev.payload ev.occurredAt with
    | none => exact hc
    | some step =>
      exact ⟨forall_mem_concat hc.steps (stepFromToolCallPayload_encodable hk hev hstep),
        hc.errorMessage, hc.rawError⟩
  case toolResult =>
    split
    · exact hc
    · refine ⟨?_, hc.errorMessage, hc.rawError⟩
      intro s hs
      cases hsteps : c.steps with
      | none => simp [hsteps] at hs
      | some ss =>
        simp only [hsteps, Option.map_some, Option.getD_some] at hs
        refine closeLatest_encodable ev.occurredAt_layout (fun x hx => ?_) s hs
        exact hc.steps x (by simpa [hsteps] using hx)
  case messageDelta => exact ⟨hc.steps, hc.errorMessage, hc.rawError⟩
  case messageThinking => exact ⟨hc.steps, hc.errorMessage, hc.rawError⟩
  case runFailed =>
    refine ⟨hc.steps, ?_, ?_⟩
    · by_cases hvisible : trimSpace (ev.payload.string "user_visible_message") = ""
      · by_cases hraw : trimSpace (ev.payload.string "error") = ""
        · simpa [hvisible, hraw] using hc.errorMessage
        · simp [hvisible, hraw, trimSpace_trimSpace]
      · simp [hvisible, trimSpace_trimSpace]
    · by_cases hraw : trimSpace (ev.payload.string "error") = ""
      · simpa [hraw] using hc.rawError
      · simp [hraw, trimSpace_trimSpace]

theorem applyEvents_encodable {c : CardState} {events : List AgentRunEvent} (hc : c.Encodable)
    (hevents : ∀ ev ∈ events, ev.CutClean) : (c.applyEvents events).Encodable := by
  induction events generalizing c with
  | nil => exact hc
  | cons ev events ih =>
    exact ih (applyEvent_encodable hc (hevents ev (by simp))) fun e he => hevents e (by simp [he])

end CardState

/-- Fold a part, write it to the slot, read it back and fold the rest: the card of folding
everything at once. -/
theorem applyEvents_cardFromPayload_slotPayload {xs : List AgentRunEvent}
    (hxs : ∀ ev ∈ xs, ev.CutClean) (ys : List AgentRunEvent) :
    (cardFromPayload (slotPayload (CardState.empty.applyEvents xs))).applyEvents ys =
      (CardState.empty.applyEvents (xs ++ ys)).normalize := by
  have henc := CardState.applyEvents_encodable CardState.empty_encodable hxs
  rw [cardFromPayload_slotPayload henc, CardState.applyEvents_normalize,
    CardState.applyEvents_append]

end Parsar.Inflight
