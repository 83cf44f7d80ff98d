import Parsar.Inflight.Retry

namespace Parsar.Inflight

open GoStd

def agentEventsTickFetchLimit : Nat := 200

/-- End the latest step with this id, when it is still open. -/
def closeNewest (id : String) (endedAt : Time) : List StepInfo → List StepInfo
  | [] => []
  | s :: ss =>
    if s.id = id then (if s.endedAt.isZero then { s with endedAt := endedAt } else s) :: ss
    else s :: closeNewest id endedAt ss

/-- Steps straight from the events; a result never reaches back to an older open call as
`closeLatest` does. -/
def stepsFromToolCallEvents (events : List AgentRunEvent) : List StepInfo :=
  events.foldl (fun out ev =>
    match ev.kind with
    | .toolCall => out ++ (stepFromToolCallPayload ev.payload ev.occurredAt).toList
    | .toolResult =>
      let id := trimSpace (ev.payload.string "id")
      if id = "" then out else (closeNewest id ev.occurredAt out.reverse).reverse
    | _ => out) []

structure DoneCardData where
  agentName : String
  steps : Option (List StepInfo)
  thinking : String

/-- The prefilled steps and thinking, or a second read of the events when no step list was
prefilled. Read errors keep what there is. -/
def assembleDoneCardData (env : TickEnv) (card : CardState) (events : List AgentRunEvent) :
    DoneCardData :=
  match env.doneData, card.steps with
  | none, steps => ⟨"", steps, card.thinkingText⟩
  | some data, some steps => ⟨data.agentName, some steps, card.thinkingText⟩
  | some data, none =>
    if env.doneEvents then
      let page := listAgentRunEventsAfterSeq events 0 500
      ⟨data.agentName, some (stepsFromToolCallEvents page),
        if card.thinkingText = "" then joinText AgentRunEvent.thinking page else card.thinkingText⟩
    else ⟨data.agentName, none, card.thinkingText⟩

def buildFinalCardForRun (env : TickEnv) (c : FeishuInflightConversation) (card : CardState)
    (events : List AgentRunEvent) : TerminalResult :=
  if c.runStatus = .failed then
    let msg := trimSpace card.errorMessage
    { success := false
      title := c.agentName
      errorMessage := if msg = "" then "Agent run failed. Please retry later." else msg
      rawError := card.rawError }
  else
    let data := assembleDoneCardData env card events
    let title := trimSpace data.agentName
    { success := true
      title := if title = "" then c.agentName else title
      streamingText := card.streamingText
      steps := data.steps
      thinking := data.thinking }

/-- The per-run fingerprint alone. The flag says that it was written. -/
def stampTerminal (env : TickEnv) (c : FeishuInflightConversation) (w : World) : World × Bool :=
  if env.faults.markTerminal then (w, false)
  else (w.setStore (w.store.markTerminalDelivered c.agentRunID), true)

def markOutput (env : TickEnv) (c : FeishuInflightConversation) (deliveredID : String)
    (w : World) : World × Bool :=
  if trimSpace c.outputMessageID ≠ "" ∧ deliveredID ≠ "" then
    if env.faults.markMessage then (w, false)
    else (w.setStore (w.store.markGatewayOutboundDelivered c.outputMessageID), true)
  else (w, true)

/-- Mark the output message, stamp the fingerprint, clear the slot. A failed mark ends the tick;
a failed clear is only logged. -/
def finalizeTerminalDelivery (env : TickEnv) (c : FeishuInflightConversation)
    (deliveredID : String) (stamp : Bool) (w : World) : World × Bool :=
  match markOutput env c deliveredID w with
  | (w, false) => (w, false)
  | (w, true) =>
    match (if stamp then stampTerminal env c w else (w, true)) with
    | (w, false) => (w, false)
    | (w, true) =>
      (if env.faults.clear then w else w.setStore (w.store.clearWorkingSlot c.agentRunID), true)

def sendStage (what : String) (c : FeishuInflightConversation) : String :=
  if trimSpace c.conv.externalThreadID = "" then what else what ++ " (reply)"

def renderFinalCard (env : TickEnv) (c : FeishuInflightConversation) (card : CardState)
    (w : World) : World :=
  w.act (.renderTerminal c.agentRunID
    (buildFinalCardForRun env c card (w.store.events c.agentRunID)))

/-- `tryBuildCredentialFormCard`: the message id of a form that is there to ship. -/
def FormOutcome.shipped : FormOutcome → Option String
  | .formed existingMsgID true => some existingMsgID
  | _ => Option.none

/-- The terminal branch of `handleInflightConversation`. -/
def deliverFeishuTerminal (env : TickEnv) (c : FeishuInflightConversation)
    (prev : WorkingInflightSlot) (card : CardState) (w : World) : World :=
  let run := c.agentRunID
  let formed := env.form.shipped
  let w := if formed.isSome then w else renderFinalCard env c card w
  let existing := formed.getD ""
  if existing ≠ "" then
    -- a form that already landed: its failed patch still leaves the claim set
    match env.call with
    | .error _ => (stampTerminal env c (w.act (.edit run existing false))).1
    | .ok _ => (finalizeTerminalDelivery env c existing true (w.act (.edit run existing true))).1
  else if prev.hasWorkingSlotForRun run then
    match env.call with
    | .error err => handleUpstreamWorkingFailure env run prev "patch terminal card" err
        (w.act (.edit run prev.externalMsgID false))
    | .ok _ => (finalizeTerminalDelivery env c prev.externalMsgID
        (prev.externalMsgID ≠ "" || formed.isSome) (w.act (.edit run prev.externalMsgID true))).1
  else
    match env.call with
    | .error err =>
      let w := w.act (.create run none)
      if formed.isSome then (stampTerminal env c w).1
      else handleUpstreamWorkingFailure env run prev (sendStage "send terminal card" c) err w
    | .ok id => (finalizeTerminalDelivery env c id.text (id.text ≠ "" || formed.isSome)
        (w.act (.create run (some id)))).1

/-- The neutral credential form; the flag says that the tick is done. -/
def maybeDeliverNeutralCredentialForm (env : TickEnv) (c : FeishuInflightConversation)
    (prev : WorkingInflightSlot) (w : World) : World × Bool :=
  let run := c.agentRunID
  match env.form with
  | .none => (w, false)
  | .formed _ false => ((stampTerminal env c w).1, false)
  | .formed existing true =>
    if existing ≠ "" then
      match env.formCall with
      | .error _ => stampTerminal env c (w.act (.edit run existing false))
      | .ok _ => finalizeTerminalDelivery env c existing true (w.act (.edit run existing true))
    else if prev.hasWorkingSlotForRun run then
      match env.formCall with
      | .error _ => stampTerminal env c (w.act (.edit run prev.externalMsgID false))
      | .ok _ => finalizeTerminalDelivery env c prev.externalMsgID true
          (w.act (.edit run prev.externalMsgID true))
    else
      match env.formCall with
      | .error _ => stampTerminal env c (w.act (.create run none))
      | .ok id => finalizeTerminalDelivery env c id.text true (w.act (.create run (some id)))

def deliverNeutralTerminal (env : TickEnv) (c : FeishuInflightConversation)
    (prev : WorkingInflightSlot) (card : CardState) (w : World) : World :=
  let run := c.agentRunID
  match maybeDeliverNeutralCredentialForm env c prev w with
  | (w, true) => w
  | (w, false) =>
    let w := renderFinalCard env c card w
    if prev.hasWorkingSlotForRun run then
      match env.call with
      | .error _ => w.act (.edit run prev.externalMsgID false)
      | .ok _ => (finalizeTerminalDelivery env c prev.externalMsgID true
          (w.act (.edit run prev.externalMsgID true))).1
    else
      match env.call with
      | .error _ => w.act (.create run none)
      | .ok id => (finalizeTerminalDelivery env c id.text true (w.act (.create run (some id)))).1

inductive Persisted where
  | stored
  | conflict
  | failed
  deriving DecidableEq

def persistWorking (env : TickEnv) (slot : WorkingInflightSlot) (expectedOldRunID : String)
    (w : World) : World × Persisted :=
  if env.faults.upsertWorking then (w, .failed)
  else
    match w.store.upsertWorkingCard slot expectedOldRunID with
    | none => (w, .conflict)
    | some st => (w.setStore st, .stored)

def sentSlot (appID : String) (c : FeishuInflightConversation) (prev : WorkingInflightSlot)
    (page : List AgentRunEvent) (card : CardState) (id : MsgID) : WorkingInflightSlot :=
  WorkingInflightSlot.zeroRetryWorking
    { externalMsgID := id.text
      appID := appID
      externalChatID := c.conv.externalChatID
      externalThreadID := c.conv.externalThreadID
      agentRunID := c.agentRunID.text
      seqEmitted := latestSeq page prev.seqEmitted
      payload := slotPayload card }

def patchedSlot (prev : WorkingInflightSlot) (page : List AgentRunEvent) (card : CardState) :
    WorkingInflightSlot :=
  WorkingInflightSlot.zeroRetryWorking
    { prev with seqEmitted := latestSeq page prev.seqEmitted, payload := slotPayload card }

/-- Send or patch the working card, then move the cursor. `onError` is the platform's answer to a
failed call. -/
def deliverProgress (env : TickEnv) (appID : String) (onError : String → String → World → World)
    (c : FeishuInflightConversation) (prev : WorkingInflightSlot) (page : List AgentRunEvent)
    (card : CardState) (w : World) : World × Persisted :=
  let run := c.agentRunID
  if prev.hasWorkingSlotForRun run then
    match env.call with
    | .error err =>
      (onError "patch working card" err (w.act (.edit run prev.externalMsgID false)), .failed)
    | .ok _ => persistWorking env (patchedSlot prev page card) prev.agentRunID
        (w.act (.edit run prev.externalMsgID true))
  else
    match env.call with
    | .error err =>
      (onError (sendStage "send working card" c) err (w.act (.create run none)), .failed)
    | .ok id => persistWorking env (sentSlot appID c prev page card id) prev.agentRunID
        (w.act (.create run (some id)))

def permissionSlot (env : TickEnv) (appID : String) (c : FeishuInflightConversation)
    (pending : PendingPermission) (id : MsgID) : PermissionInflightSlot :=
  PermissionInflightSlot.zeroRetryPermission
    { externalMsgID := id.text
      appID := appID
      externalChatID := c.conv.externalChatID
      externalThreadID := c.conv.externalThreadID
      agentRunID := c.agentRunID.text
      deviceID := env.deviceID
      permissionRequestID := pending.requestID
      toolName := pending.toolName
      toolInput := pending.toolInput }

def maybeSendPermissionCard (env : TickEnv) (appID : String) (onError : String → World → World)
    (c : FeishuInflightConversation) (pending : PendingPermission) (w : World) : World :=
  let run := c.agentRunID
  let existing := c.permission
  if trimSpace existing.permissionRequestID = pending.requestID ∧
      trimSpace existing.externalMsgID ≠ "" then w
  else
    match env.permissionCall with
    | .buildError => w
    | .sendError err => onError err (w.act (.sendPermission run pending.requestID none))
    | .sent id =>
      let w := w.act (.sendPermission run pending.requestID (some id))
      if env.faults.upsertPermission then w
      else
        match w.store.upsertPermissionCard (permissionSlot env appID c pending id)
            (trimSpace existing.permissionRequestID) with
        | none => w
        | some st => (w.setStore st).act (.pinPermission run pending.requestID)

def choiceSlot (env : TickEnv) (appID : String) (c : FeishuInflightConversation)
    (pending : PendingAsk) (id : MsgID) : PromptForUserChoiceInflightSlot :=
  { externalMsgID := id.text
    appID := appID
    externalChatID := c.conv.externalChatID
    externalThreadID := c.conv.externalThreadID
    agentRunID := c.agentRunID.text
    deviceID := env.deviceID
    requestID := pending.requestID
    questions := pending.questions }

/-- Unlike a permission card, a failed choice card leaves no retry state on either path. -/
def maybeSendPromptForUserChoiceCard (env : TickEnv) (appID : String)
    (c : FeishuInflightConversation) (pending : PendingAsk) (w : World) : World :=
  let run := c.agentRunID
  let existing := c.choice
  if trimSpace existing.requestID = pending.requestID ∧ trimSpace existing.externalMsgID ≠ "" then w
  else if pending.questions = [] then w
  else
    match env.choiceCall with
    | .buildError => w
    | .sendError _ => w.act (.sendChoice run pending.requestID none)
    | .sent id =>
      let w := w.act (.sendChoice run pending.requestID (some id))
      if env.faults.upsertChoice then w
      else
        match w.store.upsertPromptForUserChoiceCard (choiceSlot env appID c pending id)
            (trimSpace existing.requestID) with
        | none => w
        | some st => (w.setStore st).act (.pinChoice run pending.requestID)

def deliverPermission (env : TickEnv) (appID : String)
    (onError : String → String → World → World) (c : FeishuInflightConversation)
    (perm : Option PendingPermission) (w : World) : World :=
  match perm with
  | some pending => maybeSendPermissionCard env appID (onError pending.requestID) c pending w
  | none => w

def deliverChoice (env : TickEnv) (appID : String) (c : FeishuInflightConversation)
    (page : List AgentRunEvent) (w : World) : World :=
  match extractPendingAskFromEvents page with
  | some pending => maybeSendPromptForUserChoiceCard env appID c pending w
  | none => w

def deliverPrompts (env : TickEnv) (appID : String)
    (onError : String → String → World → World) (c : FeishuInflightConversation)
    (page : List AgentRunEvent) (perm : Option PendingPermission) (w : World) : World :=
  deliverChoice env appID c page (deliverPermission env appID onError c perm w)

def handleFeishuInflightConversation (env : TickEnv) (c : FeishuInflightConversation)
    (page : List AgentRunEvent) (w : World) : World :=
  let run := c.agentRunID
  let prev := c.working.forRun run
  let fold := foldEventsIntoCardState prev page
  if trimSpace c.conv.sourceAppID = "" then w
  else if fold.newSeq = 0 ∧ c.runStatus.terminal = false ∧ ¬ prev.hasWorkingSlotForRun run then w
  else
    match env.channel with
    | none => w
    | some appID =>
      if c.runStatus.terminal then deliverFeishuTerminal env c prev fold.card w
      else
        match deliverProgress env appID (handleUpstreamWorkingFailure env run prev) c prev page
            fold.card w with
        | (w, .stored) => deliverPrompts env appID (fun requestID =>
            handleUpstreamPermissionFailure env run requestID c.permission
              (sendStage "send permission card" c)) c page fold.pendingPerm w
        | (w, _) => w

/-- The neutral path keeps no retry state, and sends its prompts even when the working slot was
lost to a race. -/
def handleNeutralInflightConversation (env : TickEnv) (c : FeishuInflightConversation)
    (page : List AgentRunEvent) (w : World) : World :=
  let run := c.agentRunID
  let prev := c.working.forRun run
  let fold := foldEventsIntoCardState prev page
  match env.channel with
  | none => w
  | some _ =>
    if fold.newSeq = 0 ∧ c.runStatus.terminal = false ∧ ¬ prev.hasWorkingSlotForRun run then w
    else if c.runStatus.terminal then deliverNeutralTerminal env c prev fold.card w
    else
      match deliverProgress env "" (fun _ _ w => w) c prev page fold.card w with
      | (w, .failed) => w
      | (w, _) =>
        deliverPrompts env c.conv.sourceAppID (fun _ _ w => w) c page fold.pendingPerm w

def handleInflightConversation (env : TickEnv) (c : FeishuInflightConversation)
    (page : List AgentRunEvent) (w : World) : World :=
  if c.conv.platform.isFeishu then handleFeishuInflightConversation env c page w
  else handleNeutralInflightConversation env c page w

end Parsar.Inflight
