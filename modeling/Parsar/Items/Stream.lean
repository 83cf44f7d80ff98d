import Parsar.Framework.Trace
import Parsar.Items.Item

namespace Parsar.Items

open Turns

inductive SessionActivity where
  | inProgress
  | idle
  | failed
  | requiresAction
  deriving DecidableEq

inductive Notice where
  | activity (turn : Option TurnID) (status : SessionActivity)
  | environment (status : String)
  deriving DecidableEq

inductive TurnChange where
  | created
  | became (status : TurnStatus)
  deriving DecidableEq

/-- An event by its type. `index` is its `output_index`; the `turn_id` of an item's event is the
one of the item, and its `content_index` is 0. -/
inductive SessionEvent (J : Type) where
  | itemAdded (index : Option Nat) (item : Item J)
  | contentPartAdded (index : Option Nat) (id : ItemID) (part : ItemContent)
  | commandOutputDelta (index : Nat) (id : ItemID) (delta : String)
  | outputTextDelta (index : Nat) (id : ItemID) (delta : String)
  | outputTextDone (index : Nat) (id : ItemID) (text : String)
  | contentPartDone (index : Nat) (id : ItemID) (part : ItemContent)
  | itemDone (index : Nat) (item : Item J)
  | turnChanged (turn : TurnID) (change : TurnChange)
  | notice (n : Notice)
  deriving DecidableEq

variable {J : Type}

namespace SessionEvent

def itemID? : SessionEvent J → Option ItemID
  | itemAdded _ item | itemDone _ item => some item.id
  | contentPartAdded _ id _ | commandOutputDelta _ id _ | outputTextDelta _ id _
  | outputTextDone _ id _ | contentPartDone _ id _ => some id
  | turnChanged .. | notice _ => none

def index : SessionEvent J → Option Nat
  | itemAdded index _ | contentPartAdded index _ _ => index
  | commandOutputDelta index _ _ | outputTextDelta index _ _ | outputTextDone index _ _
  | contentPartDone index _ _ | itemDone index _ => some index
  | turnChanged .. | notice _ => none

def isAdded : SessionEvent J → Bool
  | itemAdded .. => true
  | _ => false

def isDone : SessionEvent J → Bool
  | itemDone .. => true
  | _ => false

end SessionEvent

/-- The events after `item.added` and `content_part.added`. -/
def recordProgress (index : Nat) (item : Item J) (delta : Option String) :
    List (SessionEvent J) :=
  match item.textMessage with
  | none => []
  | some (part, text) =>
    (match delta with
      | some delta => if delta = "" then [] else [.outputTextDelta index item.id delta]
      | none => []) ++
    if item.status = .inProgress then []
    else [.outputTextDone index item.id text, .contentPartDone index item.id part]

def recordOutput (index : Nat) (item : Item J) (delta : Option String) : List (SessionEvent J) :=
  match item.type, delta with
  | .commandExecution, some delta => [.commandOutputDelta index item.id delta]
  | _, _ =>
    recordProgress index item delta ++
      if item.status = .inProgress then [] else [.itemDone index item]

/-- The form in which a new item is announced: a streamed message starts empty. -/
def Item.initial (item : Item J) (delta : Option String) : Item J :=
  if item.textMessage.isSome ∧ delta.isSome then
    { item with content := [{ type := "output_text", text := some "" }] }
  else item

def recordAdded (index : Option Nat) (item : Item J) (delta : Option String) :
    List (SessionEvent J) :=
  .itemAdded index (item.initial delta) ::
    match item.textMessage, (item.initial delta).content with
    | some _, part :: _ => [.contentPartAdded index item.id part]
    | _, _ => []

def recordItemChange [DecidableEq J] (index : Option Nat) (previous : Option (Item J))
    (item : Item J) (delta : Option String) : List (SessionEvent J) :=
  if previous = some item then []
  else
    let index := if item.type = .functionCallOutput then none else index
    (if previous.isNone then recordAdded index item delta else []) ++
      match index with
      | none => []
      | some index => recordOutput index item delta

structure Row (J : Type) where
  item : Item J
  outputIndex : Option Nat
  deriving DecidableEq

structure SavedResult (J : Type) where
  output : Option (Value J)
  error : Option (Value J)
  deriving DecidableEq

/-- One Session; `events` are all that were ever recorded, pruned or not. -/
structure Stream (J : Type) where
  turns : List TurnStatus := []
  items : List (Row J) := []
  results : List (ItemID × SavedResult J) := []
  events : List (SessionEvent J) := []
  deriving DecidableEq

namespace Stream

def record (s : Stream J) (events : List (SessionEvent J)) : Stream J :=
  { s with events := s.events ++ events }

def find (s : Stream J) (id : ItemID) : Option (Row J) :=
  s.items.find? (fun row => row.item.id == id)

def outputIndexes (s : Stream J) (turn : TurnID) : List Nat :=
  s.items.filterMap (fun row => if row.item.turnID = turn then row.outputIndex else none)

/-- `COALESCE(max(output_index), -1) + 1`. -/
def nextOutputIndex (s : Stream J) (turn : TurnID) : Nat :=
  ((s.outputIndexes turn).max?.map (· + 1)).getD 0

def setItem (s : Stream J) (item : Item J) : Stream J :=
  { s with items := s.items.map (fun row =>
      if row.item.id = item.id then { row with item } else row) }

def addRow (s : Stream J) (row : Row J) : Stream J := { s with items := s.items ++ [row] }

/-- `PutSessionItem`, with the output index of the row. -/
def putSessionItem (s : Stream J) (item : Item J) (isOutput : Bool) : Stream J × Option Nat :=
  match s.find item.id with
  | some row => (s.setItem item, row.outputIndex)
  | none =>
    let outputIndex := if isOutput then some (s.nextOutputIndex item.turnID) else none
    (s.addRow { item, outputIndex }, outputIndex)

def hasNativeMessageItem (s : Stream J) (id : ItemID) : Bool :=
  s.items.any (fun row =>
    row.item.turnID == id.turn && row.item.role == some .assistant && row.item.id != id)

def restoreFunctionItemResult (s : Stream J) (item : Item J) : Item J :=
  if item.type = .functionCallOutput then
    match item.callID.bind (fun id => s.results.lookup id) with
    | none => item
    | some result => { item with output := result.output, error := result.error }
  else item

end Stream

def Observation.delta? : Observation J → Option String
  | .delta _ text | .commandOutput _ text => some text
  | _ => none

def Observation.isMessage : Observation J → Bool
  | .message _ => true
  | _ => false

namespace Stream

variable [DecidableEq J]

/-- The loop body of `projectItemSource`. -/
def projectUpdate (o : Observation J) (s : Stream J) (update : Update J) :
    Except String (Stream J) :=
  if update.legacyFinal && s.hasNativeMessageItem update.id then .ok s
  else
    let previous := (s.find update.id).map Row.item
    match merge update previous with
    | .error e => .error e
    | .ok merged =>
      let item := s.restoreFunctionItemResult merged
      let (stored, index) :=
        s.putSessionItem item (!o.isMessage && item.type != .functionCallOutput)
      .ok (stored.record (recordItemChange index previous item o.delta?))

def projectItemSource (s : Stream J) (turn : TurnID) (sequence : Nat) (o : Observation J) :
    Except String (Stream J) :=
  match project turn sequence o with
  | .error e => .error e
  | .ok updates => updates.foldlM (projectUpdate o) s

/-- What the end of its Turn does to an item: the row that `FinishSessionItems` returns, if the
item was in progress, and its events. -/
def finishItem (turn : TurnID) (s : Stream J) (id : ItemID) : Stream J :=
  match s.find id with
  | none => s
  | some row =>
    if row.item.turnID = turn ∧ row.item.status = .inProgress then
      let item := { row.item with status := .incomplete }
      (s.setItem item).record (recordItemChange row.outputIndex (some row.item) item none)
    else s

def finishSessionItems (s : Stream J) (turn : TurnID) : Stream J :=
  (s.items.map (fun row => row.item.id)).foldl (finishItem turn) s

def activityOf (status : TurnStatus) : SessionActivity :=
  if terminalStatus status then
    if status = .failed then .failed else .idle
  else .inProgress

def recordTurnChange (s : Stream J) (turn : TurnID) (status : TurnStatus) (created : Bool) :
    Stream J :=
  if status = .waiting then s
  else
    let s := if terminalStatus status then s.finishSessionItems turn else s
    let change := if created then TurnChange.created else .became status
    s.record (.turnChanged turn change ::
      if created || terminalStatus status then [.notice (.activity (some turn) (activityOf status))]
      else [])

end Stream

def outcomeObservation (status : TurnStatus) (final : Option String) : Observation J :=
  match status with
  | .completed => .executionCompleted final
  | .cancelled => .executionCancelled final
  | .failed => .executionFailed
  | .queued | .inProgress | .waiting => .other

/-- One write of a transaction under the lock of the Session. -/
inductive Action (J : Type) where
  | createTurn
  | admitMessage (turn : TurnID) (sequence : Nat) (payload : Option InputMessage)
  | observe (turn : TurnID) (ordinal : Nat) (o : Observation J)
  | transition (turn : TurnID) (status : TurnStatus) (final : Option String)
  | cancelQueued (turn : TurnID)
  | saveResult (call : ItemID) (result : SavedResult J)
  | notice (n : Notice)
  deriving DecidableEq

namespace Stream

variable [DecidableEq J]

def statusOf (s : Stream J) (turn : TurnID) (p : TurnStatus → Bool) : Bool :=
  s.turns[turn]?.any p

def setStatus (s : Stream J) (turn : TurnID) (status : TurnStatus) : Stream J :=
  { s with turns := s.turns.set turn status }

/-- `transitionTurn` and `CompleteExecution`, whose guard on the current status is narrower. -/
def transition (s : Stream J) (turn : TurnID) (status : TurnStatus) (final : Option String) :
    Option (Stream J) :=
  if s.statusOf turn (validTransition · status) then
    if terminalStatus status then
      match s.projectItemSource turn 0 (outcomeObservation status final) with
      | .error _ => none
      | .ok t => some ((t.setStatus turn status).recordTurnChange turn status false)
    else some ((s.setStatus turn status).recordTurnChange turn status false)
  else none

def step (s : Stream J) : Action J → Option (Stream J)
  | .createTurn =>
    let t : Stream J := { s with turns := s.turns ++ [.queued] }
    some (t.recordTurnChange s.turns.length .queued true)
  | .admitMessage turn sequence payload =>
    if s.statusOf turn TurnStatus.active then
      (s.projectItemSource turn sequence (.message payload)).toOption
    else none
  | .observe turn ordinal o =>
    if s.statusOf turn (fun status => status = .inProgress ∨ status = .waiting) then
      (s.projectItemSource turn ordinal o).toOption
    else none
  | .transition turn status final => s.transition turn status final
  | .cancelQueued turn =>
    if s.statusOf turn (· = .queued) then
      some ((s.setStatus turn .cancelled).recordTurnChange turn .cancelled false)
    else none
  | .saveResult call result =>
    if s.results.lookup call = none then some { s with results := (call, result) :: s.results }
    else none
  | .notice n => some (s.record [.notice n])

end Stream

def appendTurnEvents (turn : TurnID) (first : Nat) (events : List (Observation J)) :
    List (Action J) :=
  events.zipIdx.map (fun (o, i) => .observe turn (first + i) o)

end Parsar.Items
