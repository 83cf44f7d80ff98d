import Parsar.Turns.Session

namespace Parsar.Items

open Turns

/-! ## Items

`J` holds the JSON values that are neither null nor strings; null and an absent member both read
back as nil. -/

/-- The text that `Identity` hashes into an item's id, such as `input:<n>:<i>` or `tool:<id>`. -/
inductive ItemKey where
  | input (sequence : Nat)
  | inputPart (sequence index : Nat)
  | message (id : String)
  | legacyMessage
  | tool (id : String)
  | result (id : String)
  deriving DecidableEq

/-- `Identity(turn, key)`, the UUID of the two. -/
structure ItemID where
  turn : TurnID
  key : ItemKey
  deriving DecidableEq

inductive ItemType where
  | message
  | commandExecution
  | mcpCall
  | functionCall
  | functionCallOutput
  | webSearchCall
  deriving DecidableEq

inductive ItemStatus where
  | inProgress
  | completed
  | failed
  | incomplete
  deriving DecidableEq

inductive Role where
  | user
  | assistant
  deriving DecidableEq

inductive Phase where
  | commentary
  | finalAnswer
  deriving DecidableEq

structure ItemContent where
  type : String
  text : Option String := none
  imageURL : String := ""
  deriving DecidableEq

structure WebSearchAction where
  type : String
  query : Option String := none
  queries : List String := []
  url : Option String := none
  pattern : Option String := none
  deriving DecidableEq

inductive Value (J : Type) where
  | text (s : String)
  | content (parts : List ItemContent)
  | other (json : J)
  deriving DecidableEq

structure Item (J : Type) where
  id : ItemID
  type : ItemType
  status : ItemStatus
  role : Option Role := none
  phase : Option Phase := none
  content : List ItemContent := []
  command : String := ""
  cwd : Option String := none
  durationMS : Option Int := none
  exitCode : Option Int := none
  name : String := ""
  callID : Option ItemID := none
  serverLabel : String := ""
  arguments : Option (Value J) := none
  output : Option (Value J) := none
  error : Option (Value J) := none
  action : Option WebSearchAction := none
  deriving DecidableEq

variable {J : Type}

namespace Item

def turnID (item : Item J) : TurnID := item.id.turn

/-- The pointer `item.Content[0].Text`. -/
def text? (item : Item J) : Option String := item.content.head?.bind ItemContent.text

def setText (item : Item J) (text : String) : Item J :=
  { item with content := item.content.modifyHead (fun part => { part with text := some text }) }

def textMessage (item : Item J) : Option (ItemContent × String) :=
  if item.type = .message ∧ item.role = some .assistant then
    match item.content with
    | [part] => part.text.map (fun text => (part, text))
    | _ => none
  else none

end Item

/-! ## Observations

The sources of items with their payloads decoded: an admitted message, the events of an execution
and the outcome of a Turn. -/

structure InputPart where
  role : String
  content : List ItemContent
  deriving DecidableEq

structure InputMessage where
  text : Option String := none
  input : List InputPart := []
  deriving DecidableEq

structure FunctionResultContent where
  type : String
  text : Option String := none
  imageURL : Option String := none
  deriving DecidableEq

structure ToolObservation (J : Type) where
  kind : String
  status : String
  name : String := ""
  command : String := ""
  cwd : Option String := none
  exitCode : Option Int := none
  durationMS : Option Int := none
  server : String := ""
  arguments : Option (Value J) := none
  output : Option (Value J) := none
  error : Option (Value J) := none
  content : Option (List FunctionResultContent) := none
  action : Option WebSearchAction := none
  deriving DecidableEq

/-- A kind with its payload; `malformed` is one that the kind's structure refuses, `other` a kind
that projects nothing. -/
inductive Observation (J : Type) where
  | message (payload : Option InputMessage)
  | delta (itemID delta : String)
  | outputMessage (id status phase : String) (text : Option String)
  | done
  | executionFailed
  | cancelReceipt (applied : Bool) (outcome : Option String)
  | executionCompleted (final : Option String)
  | executionCancelled (final : Option String)
  | toolCall (id stage : String) (observation : Option (ToolObservation J))
  | commandOutput (id delta : String)
  | malformed
  | other
  deriving DecidableEq

inductive Update (J : Type) where
  | snapshot (item : Item J) (appendText legacyFinal : Bool)
  | commandOutput (id : ItemID) (delta : String)
  deriving DecidableEq

namespace Update

def id : Update J → ItemID
  | snapshot item _ _ => item.id
  | commandOutput id _ => id

def legacyFinal : Update J → Bool
  | snapshot _ _ legacyFinal => legacyFinal
  | commandOutput _ _ => false

end Update

def message (turn : TurnID) (key : ItemKey) (role : Role) (text : String)
    (status : ItemStatus) : Item J :=
  { id := ⟨turn, key⟩, type := .message, role := some role, status,
    content := [{
      type := match role with
        | .user => "input_text"
        | .assistant => "output_text",
      text := some text }] }

def ItemContent.validInput (part : ItemContent) : Bool :=
  (part.type == "input_text" && part.text.isSome)
    || (part.type == "input_image" && part.imageURL != "")

def inputMessages (turn : TurnID) (sequence : Nat) : Option InputMessage → List (Update J)
  | none => []
  | some { text := some text, .. } =>
    [.snapshot (message turn (.input sequence) .user text .completed) false false]
  | some { text := none, input } =>
    input.zipIdx.filterMap (fun (part, i) =>
      if part.role = "user" ∧ part.content ≠ [] ∧ part.content.all ItemContent.validInput then
        some (.snapshot {
          id := ⟨turn, .inputPart sequence i⟩, type := .message, status := .completed,
          role := some .user, content := part.content } false false)
      else none)

def toolStatus : String → Option ItemStatus
  | "in_progress" => some .inProgress
  | "completed" => some .completed
  | "failed" => some .failed
  | "incomplete" => some .incomplete
  | _ => none

def FunctionResultContent.valid (part : FunctionResultContent) : Bool :=
  (part.type == "input_text" && part.text.isSome && part.imageURL.isNone)
    || (part.type == "input_image" && part.imageURL.isSome && part.text.isNone)

def FunctionResultContent.itemContent (part : FunctionResultContent) : ItemContent :=
  { type := part.type, text := part.text, imageURL := part.imageURL.getD "" }

def webActions : List String := ["search", "open_page", "find_in_page", "other"]

/-- The `switch` on the kind of the observed tool. -/
def projectToolKind (turn : TurnID) (id stage : String) (status : ItemStatus)
    (n : ToolObservation J) : Except String (List (Update J)) :=
  let item : ItemType → Item J := fun type => { id := ⟨turn, .tool id⟩, type, status }
  match n.kind with
  | "command" =>
    if n.command = "" then .error "missing command"
    else match n.output with
      | some (.content _) | some (.other _) => .error "json: cannot unmarshal value into string"
      | output => .ok [.snapshot { item .commandExecution with
          command := n.command, cwd := n.cwd, exitCode := n.exitCode,
          durationMS := n.durationMS, output } false false]
  | "mcp" =>
    if n.server = "" ∨ n.name = "" then .error "missing MCP identity"
    else .ok [.snapshot { item .mcpCall with
      serverLabel := n.server, name := n.name, arguments := n.arguments,
      output := n.output, error := n.error } false false]
  | "function" =>
    if n.name = "" then .error "missing function identity"
    else
      let call := Update.snapshot { item .functionCall with
        name := n.name, callID := some ⟨turn, .tool id⟩, arguments := n.arguments } false false
      match stage, n.content with
      | "after", some content =>
        if content.all FunctionResultContent.valid then
          .ok [call, .snapshot {
            id := ⟨turn, .result id⟩, type := .functionCallOutput, callID := some ⟨turn, .tool id⟩,
            status, output := some (.content (content.map FunctionResultContent.itemContent))
            } false false]
        else .error "function result requires text or image content"
      | _, _ => .ok [call]
  | "web_search" =>
    let call := { item .webSearchCall with
      status := if status = .failed then .incomplete else status }
    match n.action with
    | none => .ok [.snapshot call false false]
    | some action =>
      if action.type ∈ webActions then .ok [.snapshot { call with action := some action } false false]
      else .error "unsupported web action"
  | _ => .error "unsupported tool observation"

def projectTool (turn : TurnID) (id stage : String) (observation : Option (ToolObservation J)) :
    Except String (List (Update J)) :=
  match observation with
  | none => .error "invalid tool observation"
  | some n =>
    if id = "" ∨ (stage ≠ "before" ∧ stage ≠ "after") then .error "invalid tool observation"
    else match toolStatus n.status with
      | none => .error "invalid tool status"
      | some status =>
        if (stage == "before") ≠ (status == .inProgress) then
          .error "inconsistent tool stage and status"
        else projectToolKind turn id stage status n

def projectCommandOutput (turn : TurnID) (id delta : String) : Except String (List (Update J)) :=
  if id = "" ∨ delta = "" then .error "invalid command output observation"
  else .ok [.commandOutput ⟨turn, .tool id⟩ delta]

def outputPhase : String → Option Phase
  | "commentary" => some .commentary
  | "final_answer" => some .finalAnswer
  | _ => none

def outputStatus : String → Option ItemStatus
  | "in_progress" => some .inProgress
  | "completed" => some .completed
  | _ => none

def deltaKey (itemID : String) : ItemKey :=
  if itemID = "" then .legacyMessage else .message itemID

def outputItem (turn : TurnID) (id : String) (status : ItemStatus) (phase : String)
    (text : Option String) : Item J :=
  { message turn (.message id) .assistant (text.getD "") status with phase := outputPhase phase }

/-- The aggregate answer of a Turn and the status that it gives to `legacy-message`. -/
def Observation.finalText : Observation J → Option (String × ItemStatus)
  | .cancelReceipt applied outcome =>
    if applied then (outcome.filter (· ≠ "")).map (fun text => (text, .incomplete)) else none
  | .executionCompleted final => (final.filter (· ≠ "")).map (fun text => (text, .completed))
  | .executionCancelled final => (final.filter (· ≠ "")).map (fun text => (text, .incomplete))
  | _ => none

def finalItem (turn : TurnID) (text : String) (status : ItemStatus) : Item J :=
  message turn .legacyMessage .assistant text status

def projectFinal (turn : TurnID) (final : Option (String × ItemStatus)) : List (Update J) :=
  match final with
  | none => []
  | some (text, status) => [.snapshot (finalItem turn text status) false true]

def project (turn : TurnID) (sequence : Nat) (o : Observation J) :
    Except String (List (Update J)) :=
  match o with
  | .message payload => .ok (inputMessages turn sequence payload)
  | .delta itemID delta =>
    .ok [.snapshot (message turn (deltaKey itemID) .assistant delta .inProgress) true false]
  | .outputMessage id status phase text =>
    match outputStatus status with
    | none => .error "invalid message observation"
    | some status =>
      if id = "" then .error "invalid message observation"
      else .ok [.snapshot (outputItem turn id status phase text) text.isNone false]
  | .done | .executionFailed => .ok []
  | .cancelReceipt .. | .executionCompleted _ | .executionCancelled _ =>
    .ok (projectFinal turn o.finalText)
  | .toolCall id stage observation => projectTool turn id stage observation
  | .commandOutput id delta => projectCommandOutput turn id delta
  | .malformed => .error "json: cannot unmarshal payload"
  | .other => .ok []

def mergeCommandOutput (id : ItemID) (delta : String) (previous : Option (Item J)) :
    Except String (Item J) :=
  match previous with
  | none => .error "command output requires its existing command"
  | some previous =>
    if previous.id ≠ id ∨ previous.type ≠ .commandExecution then
      .error "command output requires its existing command"
    else if previous.status ≠ .inProgress then .ok previous
    else match previous.output with
      | none => .ok { previous with output := some (.text ("" ++ delta)) }
      | some (.text output) => .ok { previous with output := some (.text (output ++ delta)) }
      | some _ => .error "json: cannot unmarshal value into string"

/-- The fields that a new snapshot takes over from an unfinished item. -/
def Item.inherit (item previous : Item J) : Item J :=
  { item with
    arguments := if item.type = .functionCall then item.arguments.or previous.arguments
      else item.arguments
    output := if item.type = .commandExecution then item.output.or previous.output
      else item.output }

def merge (update : Update J) (previous : Option (Item J)) : Except String (Item J) :=
  match update with
  | .commandOutput id delta => mergeCommandOutput id delta previous
  | .snapshot item appendText legacyFinal =>
    match previous with
    | none => .ok item
    | some previous =>
      if previous.status ≠ .inProgress ∧ ¬(legacyFinal ∧ previous.status = .incomplete) then
        .ok previous
      else
        let item := item.inherit previous
        if appendText then
          if previous.status ≠ .inProgress then .ok previous
          else match previous.text?, item.text? with
            | some before, some after =>
              .ok { item.setText (before ++ after) with phase := item.phase.or previous.phase }
            | _, _ => .error "invalid memory address or nil pointer dereference"
        else .ok item

end Parsar.Items
