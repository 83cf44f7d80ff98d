import Parsar.Inflight.Store

namespace Parsar.Inflight

open GoStd

inductive Platform where
  | unset
  | feishu
  | slack
  | discord
  | teams
  deriving DecidableEq, Repr

/-- Rows older than the platform column are Feishu's. -/
def Platform.isFeishu : Platform → Bool
  | unset | feishu => true
  | _ => false

structure ConversationInfo where
  platform : Platform := .feishu
  sourceAppID : String := "app"
  externalChatID : String := "chat"
  externalThreadID : String := ""

structure FeishuInflightConversation where
  conv : ConversationInfo
  agentName : String
  agentRunID : RunID
  runStatus : RunStatus
  outputMessageID : String
  working : WorkingInflightSlot
  permission : PermissionInflightSlot
  choice : PromptForUserChoiceInflightSlot

structure TerminalResult where
  success : Bool
  title : String
  streamingText : String := ""
  steps : Option (List StepInfo) := none
  thinking : String := ""
  errorMessage : String := ""
  rawError : String := ""
  deriving DecidableEq

/-- What a tick does outside the slots; `create` sends a card, `edit` patches one, and the pins
note that the slot of a prompt was stored. -/
inductive Action where
  | renderTerminal (run : RunID) (result : TerminalResult)
  | create (run : RunID) (landed : Option MsgID)
  | edit (run : RunID) (msgID : String) (ok : Bool)
  | sendPermission (run : RunID) (requestID : String) (landed : Option MsgID)
  | pinPermission (run : RunID) (requestID : String)
  | deadLetterPermission (run : RunID) (requestID : String) (notice : Bytes)
  | sendChoice (run : RunID) (requestID : String) (landed : Option MsgID)
  | pinChoice (run : RunID) (requestID : String)
  | deadLetterWorking (run : RunID) (notice : Bytes)
  deriving DecidableEq

def Action.failed : Action → Bool
  | create _ landed | sendPermission _ _ landed | sendChoice _ _ landed => landed.isNone
  | edit _ _ ok => !ok
  | _ => false

/-- The store and the history of actions, newest first. -/
structure World where
  store : Store := {}
  log : List Action := []

def World.act (w : World) (a : Action) : World := { w with log := a :: w.log }

def World.setStore (w : World) (st : Store) : World := { w with store := st }

@[simp] theorem World.act_store (w : World) (a : Action) : (w.act a).store = w.store := rfl

@[simp] theorem World.act_log (w : World) (a : Action) : (w.act a).log = a :: w.log := rfl

@[simp] theorem World.setStore_store (w : World) (st : Store) : (w.setStore st).store = st := rfl

@[simp] theorem World.setStore_log (w : World) (st : Store) : (w.setStore st).log = w.log := rfl

/-- Store calls that fail with something other than a conflict. -/
structure StoreFaults where
  upsertWorking : Bool := false
  upsertPermission : Bool := false
  upsertChoice : Bool := false
  markMessage : Bool := false
  markTerminal : Bool := false
  clear : Bool := false
  deriving DecidableEq

inductive PromptCall where
  | buildError
  | sendError (msg : String)
  | sent (id : MsgID)
  deriving DecidableEq

/-- `resolveCredentialFormFields`: no form to ship, or a stashed form with the message id it is
already pinned to (empty before its first send). -/
inductive FormOutcome where
  | none
  | formed (existingMsgID : String) (rendered : Bool)
  deriving DecidableEq

structure DoneCardRunData where
  agentName : String := ""
  deriving DecidableEq

/-- The answers of the clock, the platform and the database; `channel` is the app id of the
credentials, `formCall` answers the neutral path's form. -/
structure TickEnv where
  now : Time := Time.zero
  channel : Option String := some "app"
  call : Except String MsgID
  form : FormOutcome := .none
  formCall : Except String MsgID := .error ""
  doneData : Option DoneCardRunData := some {}
  doneEvents : Bool := true
  permissionCall : PromptCall
  choiceCall : PromptCall
  deviceID : String := ""
  faults : StoreFaults := {}

def driverBackoffSchedule : List Int :=
  [1 * 10 ^ 9, 5 * 10 ^ 9, 30 * 10 ^ 9, 300 * 10 ^ 9, 300 * 10 ^ 9]

def maxDriverAttempts : Nat := driverBackoffSchedule.length

def nextRetryAfter (now : Time) (attemptN : Nat) : Time :=
  let idx := min (max attemptN 1 - 1) (driverBackoffSchedule.length - 1)
  now.add (driverBackoffSchedule.getD idx 0)

def lastErrorTruncate : Nat := 512

/-- Head and tail of the message, cut at byte offsets. -/
def truncateError (msg : String) : Bytes :=
  let b := utf8 (trimSpace msg)
  if b.length ≤ lastErrorTruncate then b
  else
    let head := lastErrorTruncate / 2
    let tail := lastErrorTruncate - head - 1
    b.take head ++ utf8 "…" ++ b.drop (b.length - tail)

def retryAt (now : Time) (attempts : Nat) : Time :=
  if maxDriverAttempts ≤ attempts then Time.zero else nextRetryAfter now attempts

def deadLetterNotice (what : String) (attempts : Nat) (lastError : Bytes) : Bytes :=
  utf8 what ++ utf8 " delivery dropped after " ++ utf8 (toString attempts) ++ utf8 " attempts: " ++
    (if lastError = [] then utf8 "unknown delivery failure" else lastError)

def WorkingInflightSlot.bumped (prev : WorkingInflightSlot) (now : Time) (msg : String) :
    WorkingInflightSlot :=
  { prev with
    attempts := prev.attempts + 1
    lastError := truncateError msg
    nextRetryAt := retryAt now (prev.attempts + 1) }

section Bumped

variable (prev : WorkingInflightSlot) (now : Time) (msg : String)

@[simp] theorem WorkingInflightSlot.bumped_externalMsgID :
    (prev.bumped now msg).externalMsgID = prev.externalMsgID := rfl

@[simp] theorem WorkingInflightSlot.bumped_agentRunID :
    (prev.bumped now msg).agentRunID = prev.agentRunID := rfl

@[simp] theorem WorkingInflightSlot.bumped_seqEmitted :
    (prev.bumped now msg).seqEmitted = prev.seqEmitted := rfl

@[simp] theorem WorkingInflightSlot.bumped_payload :
    (prev.bumped now msg).payload = prev.payload := rfl

@[simp] theorem WorkingInflightSlot.bumped_attempts :
    (prev.bumped now msg).attempts = prev.attempts + 1 := rfl

@[simp] theorem WorkingInflightSlot.bumped_nextRetryAt :
    (prev.bumped now msg).nextRetryAt = retryAt now (prev.attempts + 1) := rfl

theorem WorkingInflightSlot.bumped_has_iff (run : RunID) :
    (prev.bumped now msg).hasWorkingSlotForRun run ↔ prev.hasWorkingSlotForRun run := by
  simp [hasWorkingSlotForRun]

end Bumped

/-- Persist the bumped counter. A lost race keeps the winner's slot and never dead-letters. -/
def upstreamFailure (env : TickEnv) (prev : WorkingInflightSlot) (msg : String) (w : World) :
    World × Bool :=
  if env.faults.upsertWorking then (w, false)
  else
    match w.store.upsertWorkingCard (prev.bumped env.now msg) prev.agentRunID with
    | none => (w, false)
    | some st => (w.setStore st, maxDriverAttempts ≤ prev.attempts + 1)

def deadLetterWorking (env : TickEnv) (run : RunID) (slot : WorkingInflightSlot) (w : World) :
    World :=
  let w := w.act (.deadLetterWorking run (deadLetterNotice "Feishu" slot.attempts slot.lastError))
  if env.faults.clear then w else w.setStore (w.store.clearWorkingSlot run)

def handleUpstreamWorkingFailure (env : TickEnv) (run : RunID) (prev : WorkingInflightSlot)
    (stage err : String) (w : World) : World :=
  let wrapped := stage ++ ": " ++ err
  match upstreamFailure env prev wrapped w with
  | (w, true) => deadLetterWorking env run (prev.bumped env.now wrapped) w
  | (w, false) => w

def PermissionInflightSlot.bumped (prev : PermissionInflightSlot) (now : Time) (msg : String) :
    PermissionInflightSlot :=
  { prev with
    attempts := prev.attempts + 1
    lastError := truncateError msg
    nextRetryAt := retryAt now (prev.attempts + 1) }

def upstreamFailurePermission (env : TickEnv) (prev : PermissionInflightSlot) (msg : String)
    (w : World) : World × Bool :=
  if env.faults.upsertPermission then (w, false)
  else
    match w.store.upsertPermissionCard (prev.bumped env.now msg) prev.permissionRequestID with
    | none => (w, false)
    | some st => (w.setStore st, maxDriverAttempts ≤ prev.attempts + 1)

def deadLetterPermission (env : TickEnv) (run : RunID) (requestID : String)
    (slot : PermissionInflightSlot) (w : World) : World :=
  let w := w.act (.deadLetterPermission run requestID
    (deadLetterNotice "Feishu permission card" slot.attempts slot.lastError))
  if env.faults.clear then w else w.setStore (w.store.clearPermissionSlot run)

def handleUpstreamPermissionFailure (env : TickEnv) (run : RunID) (requestID : String)
    (prev : PermissionInflightSlot) (stage err : String) (w : World) : World :=
  let wrapped := stage ++ ": " ++ err
  match upstreamFailurePermission env prev wrapped w with
  | (w, true) => deadLetterPermission env run requestID (prev.bumped env.now wrapped) w
  | (w, false) => w

end Parsar.Inflight
