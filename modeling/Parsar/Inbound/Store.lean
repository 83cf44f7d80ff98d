import Parsar.GoStd.Text
import Parsar.GoStd.Time

namespace Parsar.Inbound

open GoStd

structure Agent where
  id : String
  workspaceID : String
  name : String
  connectorType : String
  deriving DecidableEq, Repr

structure PendingCredentialFormSlot where
  qkey : String
  externalMsgID : String := ""
  initiatorOpenID : String
  initiatorUserID : String
  agentID : String
  rawQuery : String
  expiresAt : Time
  deriving DecidableEq, Repr

/-- The columns of `uk_conversations_external_active`. -/
structure ConversationKey where
  workspaceID : String
  platform : String
  externalID : String
  externalThreadID : String
  deriving DecidableEq, Repr

structure Conversation where
  id : Nat
  key : ConversationKey
  sourceAppID : String
  form : String
  title : String
  active : Bool := true
  deleted : Bool := false
  primaryAgentID : String
  pendingCredentialForm : Option PendingCredentialFormSlot := none
  createdAt : Time
  deriving DecidableEq, Repr

/-- A message, with what the queries read of its metadata and, as history, the agent that its call
has named. -/
structure Message where
  id : Nat
  conversationID : Nat
  senderID : String
  content : String
  source : Option String
  gateway : Option String
  externalMessageID : Option String
  targetAgentID : String
  createdAt : Time
  deriving DecidableEq, Repr

structure Run where
  id : Nat
  conversationID : Nat
  triggerMessageID : Nat
  requestedByID : String
  agentID : String
  connectorType : String
  deriving DecidableEq, Repr

structure Subject where
  provider : String
  subject : String
  userID : String
  deriving DecidableEq, Repr

structure Database where
  agents : List Agent := []
  subjects : List Subject := []
  conversations : List Conversation := []
  messages : List Message := []
  runs : List Run := []

structure CreateInboundIMMessageInput where
  conversationTitle : String := ""
  conversationForm : String := ""
  text : String := ""
  source : String := "gateway"
  gateway : String
  externalUserID : String := ""
  initiatorUserID : String := ""
  externalChatID : String
  externalThreadID : String := ""
  externalMessageID : String
  targetAgentID : String
  sourceAppID : String := ""
  metadata : List (String × Option String) := []

structure CreateInboundIMMessageResult where
  messageID : Nat
  runIDs : List Nat
  createdAt : Time
  workspaceID : String
  conversationID : Nat
  deriving DecidableEq, Repr

inductive InboundError where
  | unknownMention
  | invalidConnectorType
  | unknownConversation
  | duplicateKey
  | database
  deriving DecidableEq, Repr

def validConnectorType (value : String) : Bool := value == "agents_api"

def normalizeIMConversationForm (raw : String) : String :=
  match (trimSpace raw).toLower with
  | "dm" | "p2p" | "private" => "dm"
  | _ => "group"

namespace CreateInboundIMMessageInput

variable (input : CreateInboundIMMessageInput)

def sourceName : String := if trimSpace input.source = "" then "im" else trimSpace input.source

def gatewayName : String := trimSpace input.gateway

def platform : String := if input.gatewayName = "" then "gateway" else input.gatewayName

def messageName : String := trimSpace input.externalMessageID

def conversationKey (agent : Agent) : ConversationKey :=
  ⟨agent.workspaceID, input.platform, trimSpace input.externalChatID,
    trimSpace input.externalThreadID⟩

def deduplicates : Bool :=
  input.sourceName == "gateway" && input.gatewayName != "" && input.messageName != ""

/-- An entry of the message's metadata; those of the input replace the call's own. -/
def metadataText (key : String) (value : Option String) : Option String :=
  (input.metadata.lookup key).join.or value

def newConversation (id : Nat) (agent : Agent) (now : Time) : Conversation where
  id := id
  key := input.conversationKey agent
  sourceAppID := trimSpace input.sourceAppID
  form := normalizeIMConversationForm input.conversationForm
  title :=
    let title := trimSpace input.conversationTitle
    if title = "" then "Feishu " ++ trimSpace input.externalChatID else title
  primaryAgentID := agent.id
  createdAt := now

def touchConversation (agent : Agent) (c : Conversation) : Conversation :=
  { c with
    sourceAppID := if trimSpace input.sourceAppID = "" then c.sourceAppID
      else trimSpace input.sourceAppID
    primaryAgentID := agent.id }

@[simp] theorem touchConversation_id (agent : Agent) (c : Conversation) :
    (input.touchConversation agent c).id = c.id := by
  simp only [touchConversation]

@[simp] theorem touchConversation_key (agent : Agent) (c : Conversation) :
    (input.touchConversation agent c).key = c.key := by
  simp only [touchConversation]

@[simp] theorem touchConversation_deleted (agent : Agent) (c : Conversation) :
    (input.touchConversation agent c).deleted = c.deleted := by
  simp only [touchConversation]

@[simp] theorem touchConversation_pendingCredentialForm (agent : Agent) (c : Conversation) :
    (input.touchConversation agent c).pendingCredentialForm = c.pendingCredentialForm := by
  simp only [touchConversation]

def newMessage (id conversationID : Nat) (senderID : String) (now : Time) : Message where
  id := id
  conversationID := conversationID
  senderID := senderID
  content := input.text
  source := input.metadataText "source" (some input.sourceName)
  gateway := input.metadataText "gateway"
    (if input.gatewayName = "" then none else some input.gatewayName)
  externalMessageID := input.metadataText "external_message_id"
    (if input.messageName = "" then none else some input.messageName)
  targetAgentID := trimSpace input.targetAgentID
  createdAt := now

end CreateInboundIMMessageInput

def earliest {α : Type} (time : α → Time) : List α → Option α
  | [] => none
  | a :: rest =>
    match earliest time rest with
    | none => some a
    | some b => if (time b).nanos < (time a).nanos then some b else some a

theorem earliest_mem {α : Type} {time : α → Time} {rows : List α} {a : α}
    (h : earliest time rows = some a) : a ∈ rows := by
  induction rows generalizing a with
  | nil => cases h
  | cons b rest ih =>
    unfold earliest at h
    split at h
    · cases h
      exact List.mem_cons_self
    next c hc =>
      split_ifs at h
      · cases h
        exact List.mem_cons_of_mem _ (ih hc)
      · cases h
        exact List.mem_cons_self

theorem earliest_eq_none {α : Type} {time : α → Time} {rows : List α} :
    earliest time rows = none ↔ rows = [] := by
  cases rows with
  | nil => exact ⟨fun _ => rfl, fun _ => rfl⟩
  | cons a rest =>
    refine ⟨fun h => ?_, fun h => nomatch h⟩
    unfold earliest at h
    split at h
    · cases h
    · split_ifs at h

namespace Database

variable (db : Database)

def targetAgent (input : CreateInboundIMMessageInput) : Except InboundError Agent :=
  match db.agents.find? (fun agent => agent.id == trimSpace input.targetAgentID) with
  | none => .error .unknownMention
  | some agent =>
    if !validConnectorType agent.connectorType then .error .invalidConnectorType
    else if trimSpace input.externalChatID = "" then .error .unknownConversation
    else .ok agent

def selectConversation (key : ConversationKey) : Option Conversation :=
  earliest Conversation.createdAt
    (db.conversations.filter (fun c => c.key == key && c.active && !c.deleted))

def keyTaken (key : ConversationKey) : Bool :=
  db.conversations.any (fun c =>
    c.key == key && !c.deleted && key.platform != "" && key.externalID != "")

def getGatewayInboundMessageByExternalID (conversationID : Nat) (gateway messageName : String) :
    Option Message :=
  earliest Message.createdAt (db.messages.filter (fun m => m.conversationID == conversationID &&
    m.source == some "gateway" && m.gateway == some gateway &&
    m.externalMessageID == some messageName))

def listAgentRunsByTriggerMessage (messageID : Nat) : List Nat :=
  (db.runs.filter (fun r => r.triggerMessageID == messageID)).map Run.id

def senderID (input : CreateInboundIMMessageInput) : String :=
  if trimSpace input.initiatorUserID ≠ "" then trimSpace input.initiatorUserID
  else if input.gatewayName ≠ "" ∧ trimSpace input.externalUserID ≠ "" then
    ((db.subjects.find? (fun u => u.provider == input.gatewayName &&
      u.subject == trimSpace input.externalUserID)).map Subject.userID).getD ""
  else ""

/-- What the transaction commits: its conversation, new or touched, its message and its run, whose
new ids are the number of the call. -/
def commit (input : CreateInboundIMMessageInput) (i : Nat) (agent : Agent) (conversationID : Nat)
    (fresh : Bool) (now : Time) : Database :=
  { db with
    conversations :=
      if fresh then db.conversations ++ [input.newConversation conversationID agent now]
      else db.conversations.map (fun c =>
        if c.id = conversationID then input.touchConversation agent c else c)
    messages := db.messages ++ [input.newMessage i conversationID (db.senderID input) now]
    runs := db.runs ++ [⟨i, conversationID, i, db.senderID input, agent.id, agent.connectorType⟩] }

def duplicateResult (agent : Agent) (m : Message) : CreateInboundIMMessageResult :=
  ⟨m.id, db.listAgentRunsByTriggerMessage m.id, m.createdAt, agent.workspaceID, m.conversationID⟩

end Database

def createdResult (i : Nat) (agent : Agent) (conversationID : Nat) (now : Time) :
    CreateInboundIMMessageResult :=
  ⟨i, [i], now, agent.workspaceID, conversationID⟩

theorem targetAgent_ok {db : Database} {input : CreateInboundIMMessageInput} {agent : Agent}
    (h : db.targetAgent input = .ok agent) :
    db.agents.find? (fun agent => agent.id == trimSpace input.targetAgentID) = some agent ∧
      agent.connectorType = "agents_api" ∧ trimSpace input.externalChatID ≠ "" := by
  unfold Database.targetAgent at h
  split at h
  · cases h
  next found hfind =>
    split_ifs at h with htype hchat
    cases h
    exact ⟨hfind, by simpa [validConnectorType] using htype, hchat⟩

end Parsar.Inbound
