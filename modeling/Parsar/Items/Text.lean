import Parsar.Items.WellFormed

namespace Parsar.Items

open Turns

variable {J : Type}

def outputText : Option (Value J) → String
  | some (.text text) => text
  | _ => ""

/-- The stored text of a message of the assistant or of a command. -/
def Item.streamText (item : Item J) : Option String :=
  match item.textMessage with
  | some (_, text) => some text
  | none => if item.type = .commandExecution then some (outputText item.output) else none

/-- What a subscriber knows of an item's text after an event. -/
def SessionEvent.reveal (text : String) : SessionEvent J → String
  | itemAdded _ item => item.streamText.getD ""
  | contentPartAdded _ _ part => part.text.getD ""
  | outputTextDelta _ _ delta | commandOutputDelta _ _ delta => text ++ delta
  | outputTextDone .. | contentPartDone .. | itemDone .. | turnChanged .. | notice _ => text

def rebuilt (events : List (SessionEvent J)) : String := events.foldl SessionEvent.reveal ""

def SessionEvent.doneText? : SessionEvent J → Option String
  | outputTextDone _ _ text => some text
  | _ => none

def doneText (events : List (SessionEvent J)) : Option String :=
  (events.filterMap SessionEvent.doneText?).getLast?

structure Texted (events : List (SessionEvent J)) (row : Row J) : Prop where
  running : ∀ text, row.item.streamText = some text → row.item.status = .inProgress →
    rebuilt events = text
  finished : ∀ part text, row.item.textMessage = some (part, text) →
    row.item.status ≠ .inProgress → doneText events = some text

/-- A message still in progress is restated with its stored text, and a command with no output or
the stored one. -/
def TextRestated (s : Stream J) (turn : TurnID) (o : Observation J) : Prop :=
  match o with
  | .outputMessage id status _ (some text) =>
    status = "in_progress" → ∀ row ∈ s.items, row.item.id = ⟨turn, .message id⟩ →
      row.item.status = .inProgress → row.item.text? = some text
  | .toolCall id stage (some n) =>
    stage = "before" → n.kind = "command" → ∀ row ∈ s.items, row.item.id = ⟨turn, .tool id⟩ →
      row.item.status = .inProgress → row.item.type = .commandExecution ∧
        (n.output = none ∨ outputText n.output = outputText row.item.output)
  | _ => True

theorem textRestated_of_plural (s : Stream J) (turn : TurnID) (o : Observation J)
    (ho : o.plural = true) : TextRestated s turn o := by
  cases o with
  | message => trivial
  | toolCall id stage n =>
    have hstage : stage = "after" := by simpa [Observation.plural] using ho
    cases n with
    | none => trivial
    | some n =>
      intro hbefore
      rw [hstage] at hbefore
      exact absurd hbefore (by decide)
  | _ => cases ho

theorem rebuilt_append (xs ys : List (SessionEvent J)) :
    rebuilt (xs ++ ys) = ys.foldl SessionEvent.reveal (rebuilt xs) :=
  List.foldl_append

variable {text : String} {item : Item J}

theorem doneText_concat {xs ys : List (SessionEvent J)}
    (h : (ys.filterMap SessionEvent.doneText?) = [text]) : doneText (xs ++ ys) = some text := by
  simp [doneText, List.filterMap_append, h]

theorem Item.textMessage_some {part : ItemContent} (h : item.textMessage = some (part, text)) :
    item.type = .message ∧ item.content = [part] ∧ part.text = some text := by
  rw [Item.textMessage] at h
  split at h
  · rename_i hmessage
    split at h
    · rename_i found hcontent
      obtain ⟨t, ht, heq⟩ := Option.map_eq_some_iff.1 h
      cases heq
      exact ⟨hmessage.1, hcontent, ht⟩
    · cases h
  · cases h

theorem recordOutput_message {index : Nat} {delta : Option String}
    (htype : item.type = .message) : recordOutput index item delta =
      recordProgress index item delta ++
        if item.status = .inProgress then [] else [.itemDone index item] := by
  simp [recordOutput, htype]

theorem reveal_recordOutput {index : Nat} {delta : Option String} {told : String}
    (htext : item.streamText = some text) (hstatus : item.status = .inProgress) :
    (recordOutput index item delta).foldl SessionEvent.reveal told = told ++ delta.getD "" := by
  rw [Item.streamText] at htext
  split at htext
  · rename_i part found hmessage
    rw [recordOutput_message (Item.textMessage_some hmessage).1]
    simp only [recordProgress, hmessage, hstatus]
    cases delta with
    | none => simp
    | some delta => by_cases hempty : delta = "" <;> simp [hempty, SessionEvent.reveal]
  · rename_i hmessage
    split at htext
    · rename_i hcommand
      cases delta with
      | none => simp [recordOutput, recordProgress, hmessage, hstatus]
      | some delta => simp [recordOutput, hcommand, SessionEvent.reveal]
    · cases htext

theorem doneText_recordOutput {index : Nat} {delta : Option String}
    {part : ItemContent} (htext : item.textMessage = some (part, text))
    (hstatus : item.status ≠ .inProgress) :
    (recordOutput index item delta).filterMap SessionEvent.doneText? = [text] := by
  rw [recordOutput_message (Item.textMessage_some htext).1]
  simp only [recordProgress, htext, hstatus]
  cases delta with
  | none => simp [SessionEvent.doneText?]
  | some delta =>
    by_cases hempty : delta = "" <;>
      simp [hempty, List.filterMap_cons, SessionEvent.doneText?]

theorem Item.streamText_command (htype : item.type = .commandExecution) :
    item.streamText = some (outputText item.output) := by
  simp [Item.streamText, Item.textMessage, htype]

theorem inProgress_of_outputStatus {name : String} {status : ItemStatus}
    (h : outputStatus name = some status) (hstatus : status = .inProgress) :
    name = "in_progress" := by
  unfold outputStatus at h
  split at h <;> simp_all

theorem finalText_status {o : Observation J} {status : ItemStatus}
    (h : o.finalText = some (text, status)) : status ≠ .inProgress := by
  rintro rfl
  cases o <;> simp [Observation.finalText] at h

theorem Item.Shaped.streamText_eq_none (h : item.Shaped)
    (hkey : item.id.key.isOutput = false) : item.streamText = none := by
  have hcommand : item.type ≠ .commandExecution := by
    intro htype
    cases hk : item.id.key <;> simp_all [Item.Shaped, ItemKey.isOutput]
  simp [Item.streamText, h.textMessage_eq_none hkey, hcommand]

theorem Texted.of_input {events : List (SessionEvent J)} {row : Row J} (hshape : row.item.Shaped)
    (hkey : row.item.id.key.isOutput = false) : Texted events row := by
  constructor
  · intro text htext
    rw [hshape.streamText_eq_none hkey] at htext
    cases htext
  · intro part text htext
    rw [hshape.textMessage_eq_none hkey] at htext
    cases htext

theorem Item.Shaped.streamText (h : item.Shaped)
    (hkey : item.id.key.isText = true) : item.streamText = item.text? ∧
      ∃ text, item.text? = some text := by
  obtain ⟨htype, hrole, text, hcontent⟩ := h.text hkey
  simp [Item.streamText, Item.textMessage, Item.text?, htype, hrole, hcontent]

theorem Projected.rebuilt_recordAdded {turn : TurnID} {o : Observation J}
    {append legacy : Bool} {index : Option Nat}
    (h : Projected turn o (.snapshot item append legacy)) (htext : item.streamText = some text) :
    rebuilt (recordAdded index item o.delta?) ++ o.delta?.getD "" = text := by
  cases hdelta : o.delta? with
  | none =>
    simp only [recordAdded, Item.initial, Option.isSome_none, Bool.false_eq_true, and_false,
      if_false, Option.getD_none, String.append_empty]
    cases hmessage : item.textMessage with
    | none => simp [rebuilt, SessionEvent.reveal, htext]
    | some found =>
      obtain ⟨htype, hcontent, hpart⟩ := Item.textMessage_some hmessage
      have heq : found.2 = text := by simpa [Item.streamText, hmessage] using htext
      simp [hcontent, rebuilt, SessionEvent.reveal, hpart, heq]
  | some delta =>
    cases h with
    | message | outputMessage | tool | result => cases hdelta
    | final hfinal =>
      have hnone : o.delta? = none := by cases o <;> first | rfl | cases hfinal
      rw [hnone] at hdelta
      cases hdelta
    | delta itemID =>
      cases hdelta
      obtain rfl : delta = text := Option.some.inj htext
      exact String.empty_append

theorem Merged.streamText {s : Stream J} {turn : TurnID} {o : Observation J} {u : Update J}
    {row : Row J} (hmerged : Merged u row.item item)
    (hproj : Projected turn o u) (hC : TextRestated s turn o) (hfind : s.find u.id = some row)
    (hshape : row.item.Shaped) (htext : item.streamText = some text)
    (hstatus : item.status = .inProgress) :
    row.item.status = .inProgress ∧
      ∃ before, row.item.streamText = some before ∧ text = before ++ o.delta?.getD "" := by
  obtain ⟨hrow, hid⟩ := Stream.find_some hfind
  cases hmerged with
  | kept _ _ hkept => exact absurd hstatus hkept
  | @output _ delta output _ htype hopen houtput =>
    have hnew : ({ row.item with output := some (.text (output ++ delta)) } : Item J).streamText =
        some (output ++ delta) := Item.streamText_command htype
    cases hnew.symm.trans htext
    cases hproj with
    | commandOutput =>
      refine ⟨hopen, _, Item.streamText_command htype, ?_⟩
      rcases houtput with ⟨hnone, rfl⟩ | hsome
      · rw [hnone]
        rfl
      · rw [hsome]
        rfl
  | @replaced snapshot _ _ hmay =>
    cases hproj with
    | message _ _ _ _ hcompleted => exact absurd (hcompleted.symm.trans hstatus) (by decide)
    | @outputMessage id name phase told status _ hname happend =>
      have hopen : row.item.status = .inProgress := hmay.resolve_right (by simp)
      obtain ⟨told, rfl⟩ := Option.isSome_iff_exists.1 (Option.isNone_eq_false_iff.1 happend.symm)
      have hkept := hC (inProgress_of_outputStatus hname hstatus) row hrow hid hopen
      refine ⟨hopen, told, ?_, ?_⟩
      · rw [(hshape.streamText (by rw [hid]; rfl)).1, hkept]
      · simpa [Observation.delta?] using (Option.some.inj htext).symm
    | final hfinal => exact absurd hstatus (finalText_status hfinal)
    | @tool id stage n _ hitem htype hstage hcommand houtput =>
      have hopen : row.item.status = .inProgress := hmay.resolve_right (by simp)
      have hexec : snapshot.type = .commandExecution := by
        by_contra hother
        have hnot : snapshot.type ≠ .message := by
          intro hmessage
          simp [hmessage, ItemType.isTool] at htype
        simp [Item.streamText, Item.textMessage, Item.inherit, hother, hnot] at htext
      obtain ⟨hrowtype, htold⟩ := hC (hstage.2 hstatus) (hcommand.1 hexec) row hrow
        (hid.trans hitem) hopen
      refine ⟨hopen, _, Item.streamText_command hrowtype, ?_⟩
      have hinherit : (snapshot.inherit row.item).type = .commandExecution := hexec
      rw [Item.streamText_command hinherit] at htext
      rw [← Option.some.inj htext]
      simp only [Item.inherit, hexec, if_true, houtput hexec, Observation.delta?, Option.getD_none,
        String.append_empty]
      cases hn : n.output with
      | none => rfl
      | some value => exact (hn ▸ htold).resolve_left (by simp)
    | result _ _ hdone => exact absurd hstatus hdone
  | @appended _ _ _ before after hopen hbefore hafter =>
    cases hproj with
    | delta itemID told =>
      refine ⟨hopen, before, ?_, ?_⟩
      · rw [(hshape.streamText (by rw [hid]; exact deltaKey_isText itemID)).1, hbefore]
      · cases hafter
        exact (Option.some.inj htext).symm
    | @outputMessage id name phase told status _ hname happend =>
      obtain rfl : told = none := by simpa using happend.symm
      refine ⟨hopen, before, ?_, ?_⟩
      · rw [(hshape.streamText (by rw [hid]; rfl)).1, hbefore]
      · cases hafter
        exact (Option.some.inj htext).symm

section Rows

variable [DecidableEq J]

theorem Texted.change {row : Row J} {index : Nat} {item : Item J} {delta : Option String}
    {events : List (SessionEvent J)} (h : Texted events row)
    (hindex : row.outputIndex = some index) (htype : item.type ≠ .functionCallOutput)
    (htext : ∀ text, item.streamText = some text → item.status = .inProgress →
      row.item.status = .inProgress ∧
        ∃ before, row.item.streamText = some before ∧ text = before ++ delta.getD "") :
    Texted (events ++ recordItemChange row.outputIndex (some row.item) item delta)
      { row with item } := by
  by_cases hsame : row.item = item
  · subst hsame
    rw [recordItemChange_self, List.append_nil]
    exact ⟨h.running, h.finished⟩
  rw [hindex, recordItemChange_some htype hsame]
  constructor
  · intro text hstream hstatus
    obtain ⟨hopen, before, hbefore, heq⟩ := htext text hstream hstatus
    rw [rebuilt_append, h.running before hbefore hopen, reveal_recordOutput hstream hstatus, heq]
  · intro part text hmessage hstatus
    exact doneText_concat (doneText_recordOutput hmessage hstatus)

theorem texted_added {turn : TurnID} {o : Observation J} {snapshot item : Item J}
    {append legacy : Bool} {index : Option Nat}
    (hproj : Projected turn o (.snapshot snapshot append legacy))
    (hrestored : Restored snapshot item) (hindex : index.isSome = item.id.key.isOutput) :
    Texted (recordItemChange index none item o.delta?) ⟨item, index⟩ := by
  have hshape := hrestored.shaped hproj.shaped
  cases index with
  | none => exact .of_input hshape hindex.symm
  | some k =>
    have htype := hshape.type_of_isOutput hindex.symm
    obtain rfl : item = snapshot := hrestored.eq_of_type (hrestored.type ▸ htype)
    rw [recordItemChange_added htype]
    constructor
    · intro text htext hstatus
      rw [rebuilt_append, reveal_recordOutput htext hstatus]
      exact hproj.rebuilt_recordAdded htext
    · intro part text hmessage hstatus
      exact doneText_concat (doneText_recordOutput hmessage hstatus)

theorem texted_invariant : RowInvariant (J := J) TextRestated Texted where
  added := texted_added
  merged {s turn o u row merged item events} hproj hC _ hfind hshape hindex hmerged hrestored h := by
    obtain ⟨hitem, hid⟩ := Merged.row hproj hfind hshape hmerged hrestored
    cases hrow : row.outputIndex with
    | none => exact .of_input hitem (by rw [hid, ← hindex, hrow]; rfl)
    | some k =>
      have htype := hitem.type_of_isOutput (by rw [hid, ← hindex, hrow]; rfl)
      obtain rfl := hrestored.eq_of_type (hrestored.type ▸ htype)
      rw [← hrow]
      exact h.change hrow htype
        (fun text htext hstatus => hmerged.streamText hproj hC hfind hshape htext hstatus)
  finished {row events} hshape hindex hstatus h := by
    cases hrow : row.outputIndex with
    | none => exact .of_input (hshape.finish hstatus) (by rw [← hindex, hrow]; rfl)
    | some k =>
      have htype := hshape.type_of_isOutput (by rw [← hindex, hrow]; rfl)
      rw [← hrow]
      exact h.change hrow htype (fun _ _ hopen => by cases hopen)

end Rows

/-- If observations restate texts as they are stored, the events of a message or command tell its
stored text, in progress and at its end. -/
theorem streamed_text_is_stored [DecidableEq J] (actions : List (Action J)) (s : Stream J)
    (hmeets : StepsMeet Stream.step (Action.Meets TextRestated) {} actions)
    (hrun : runTrace Stream.step {} actions = some s) :
    ∀ row ∈ s.items, Texted (s.eventsOf row.item.id) row :=
  rows_of_run texted_invariant textRestated_of_plural hmeets hrun

instance [DecidableEq J] (s : Stream J) (turn : TurnID) :
    (o : Observation J) → Decidable (TextRestated s turn o)
  | .outputMessage id status _ (some text) =>
    inferInstanceAs (Decidable (status = "in_progress" → ∀ row ∈ s.items,
      row.item.id = ⟨turn, .message id⟩ → row.item.status = .inProgress →
        row.item.text? = some text))
  | .toolCall id stage (some n) =>
    inferInstanceAs (Decidable (stage = "before" → n.kind = "command" → ∀ row ∈ s.items,
      row.item.id = ⟨turn, .tool id⟩ → row.item.status = .inProgress →
        row.item.type = .commandExecution ∧
          (n.output = none ∨ outputText n.output = outputText row.item.output)))
  | .outputMessage _ _ _ none | .toolCall _ _ none | .message _ | .delta .. | .done
  | .executionFailed | .cancelReceipt .. | .executionCompleted _ | .executionCancelled _
  | .commandOutput .. | .malformed | .other => .isTrue trivial

instance [DecidableEq J] (s : Stream J) (a : Action J) : Decidable (a.Meets TextRestated s) :=
  decidable_of_iff (∀ source ∈ a.observation?, TextRestated s source.1 source.2)
    (by simp [Action.Meets])

def streamedTurn : List (Action Unit) :=
  [.createTurn, .transition 0 .inProgress none, .observe 0 1 (.delta "m" "he"),
    .observe 0 2 (.outputMessage "m" "in_progress" "commentary" (some "he")),
    .observe 0 3 (.toolCall "c" "before"
      (some { kind := "command", status := "in_progress", command := "ls" })),
    .observe 0 4 (.commandOutput "c" "a.txt"), .observe 0 5 (.delta "m" "llo")]

def hasText (s : Stream Unit) (id : ItemID) (text : String) : Bool :=
  (s.find id).any (fun row => row.item.streamText == some text)

theorem streamed_text_is_stored_message : ∃ s, runTrace Stream.step {} streamedTurn = some s ∧
    hasText s ⟨0, .message "m"⟩ "hello" = true ∧ hasText s ⟨0, .tool "c"⟩ "a.txt" = true ∧
    ∀ row ∈ s.items, Texted (s.eventsOf row.item.id) row := by
  have hrun : (runTrace Stream.step {} streamedTurn).map (fun s =>
      hasText s ⟨0, .message "m"⟩ "hello" && hasText s ⟨0, .tool "c"⟩ "a.txt") = some true := by
    decide +kernel
  obtain ⟨s, hs, htext⟩ := exists_of_runTrace_map hrun
  rw [Bool.and_eq_true] at htext
  exact ⟨s, hs, htext.1, htext.2, streamed_text_is_stored streamedTurn s
    (stepsMeet_of_check (by decide +kernel)) hs⟩

def replacedText : List (Action Unit) :=
  [.createTurn, .transition 0 .inProgress none, .observe 0 1 (.delta "m" "he"),
    .observe 0 2 (.outputMessage "m" "in_progress" "" (some "hello"))]

theorem replaced_text_not_told : ∃ s, runTrace Stream.step {} replacedText = some s ∧
    ∃ row ∈ s.items, row.item.status = .inProgress ∧ row.item.streamText = some "hello" ∧
      rebuilt (s.eventsOf row.item.id) = "he" ∧ ¬Texted (s.eventsOf row.item.id) row := by
  have hrun : (runTrace Stream.step {} replacedText).map (fun s => s.items.any (fun row =>
      row.item.status == .inProgress && row.item.streamText == some "hello" &&
        rebuilt (s.eventsOf row.item.id) == "he")) = some true := by
    decide +kernel
  obtain ⟨s, hs, hany⟩ := exists_of_runTrace_map hrun
  obtain ⟨row, hrow, hcheck⟩ := List.any_eq_true.1 hany
  simp only [Bool.and_eq_true, beq_iff_eq] at hcheck
  obtain ⟨⟨hopen, htext⟩, hrebuilt⟩ := hcheck
  refine ⟨s, hs, row, hrow, hopen, htext, hrebuilt, fun h => ?_⟩
  have htold := h.running "hello" htext hopen
  rw [hrebuilt] at htold
  exact absurd htold (by decide)

end Parsar.Items
