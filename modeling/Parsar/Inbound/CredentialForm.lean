import Mathlib.Algebra.Group.Int.Defs
import Parsar.Inbound.Store

namespace Parsar.Inbound

open GoStd

/-- The row of the claim: a form with the key that has not expired. -/
def claimable (qkey : String) (now : Time) (c : Conversation) : Bool :=
  !c.deleted && c.pendingCredentialForm.any (fun slot =>
    slot.qkey == qkey && decide (now.nanos < slot.expiresAt.nanos))

structure ClaimedPendingCredentialForm where
  slot : PendingCredentialFormSlot
  conversationID : Nat
  workspaceID : String
  externalChatID : String
  externalThreadID : String
  sourceAppID : String
  deriving DecidableEq

def Conversation.claimed (c : Conversation) (slot : PendingCredentialFormSlot) :
    ClaimedPendingCredentialForm :=
  ⟨slot, c.id, c.key.workspaceID, c.key.externalID, c.key.externalThreadID, c.sourceAppID⟩

def Conversation.clear (c : Conversation) : Conversation := { c with pendingCredentialForm := none }

/-- A form without an expiry gets one in an hour. -/
def PendingCredentialFormSlot.expiring (slot : PendingCredentialFormSlot) (now : Time) :
    PendingCredentialFormSlot :=
  { slot with
    expiresAt := if slot.expiresAt.isZero then now.add (3600 * 10 ^ 9) else slot.expiresAt }

namespace Database

variable (db : Database)

/-- Insert-or-noop: a form that is there is kept. -/
def writePendingCredentialFormSlot (conversationID : Nat) (slot : PendingCredentialFormSlot)
    (now : Time) : Except String Database :=
  if trimSpace slot.qkey = "" then .error "qkey is required"
  else if trimSpace slot.initiatorOpenID = "" then .error "initiator_open_id is required"
  else if trimSpace slot.initiatorUserID = "" then .error "initiator_user_id is required"
  else if trimSpace slot.rawQuery = "" then .error "raw_query is required"
  else if db.conversations.any (fun c => c.id == conversationID && !c.deleted) then
    .ok { db with
      conversations := db.conversations.map (fun c =>
        if c.id = conversationID ∧ c.deleted = false then
          { c with pendingCredentialForm := c.pendingCredentialForm.or (some (slot.expiring now)) }
        else c) }
  else .error "unknown conversation"

def updatePendingCredentialFormSlotMessageID (conversationID : Nat) (qkey externalMsgID : String) :
    Database :=
  { db with
    conversations := db.conversations.map (fun c =>
      if c.id = conversationID ∧ c.deleted = false then
        { c with pendingCredentialForm := c.pendingCredentialForm.map (fun slot =>
            if slot.qkey = trimSpace qkey then { slot with externalMsgID } else slot) }
      else c) }

def claimPendingCredentialFormSlot (qkey : String) (now : Time) :
    Option ClaimedPendingCredentialForm × Database :=
  let found := db.conversations.find? (claimable (trimSpace qkey) now)
  (found.bind (fun c => c.pendingCredentialForm.map c.claimed),
    { db with
      conversations := db.conversations.map (fun c =>
        if claimable (trimSpace qkey) now c then c.clear else c) })

def clearPendingCredentialFormSlotByConversation (conversationID : Nat) : Database :=
  { db with
    conversations := db.conversations.map (fun c =>
      if c.id = conversationID ∧ c.deleted = false then c.clear else c) }

def sweepExpiredPendingCredentialFormSlots (cutoff : Time) : Database :=
  { db with
    conversations := db.conversations.map (fun c =>
      if c.deleted = false ∧ c.pendingCredentialForm.any (fun slot =>
          decide (slot.expiresAt.nanos < cutoff.nanos)) then c.clear
      else c) }

def newID : Nat :=
  (db.conversations.map Conversation.id ++ db.messages.map Message.id ++
    db.runs.map Run.id).foldr max 0 + 1

/-- The conversation of the call, and whether it is a new one. -/
def inboundConversation (input : CreateInboundIMMessageInput) (agent : Agent) :
    Except InboundError (Nat × Bool) :=
  match db.selectConversation (input.conversationKey agent) with
  | some found => .ok (found.id, false)
  | none =>
    if db.keyTaken (input.conversationKey agent) then .error .duplicateKey
    else .ok (db.newID, true)

def finishInbound (now : Time) (input : CreateInboundIMMessageInput) (agent : Agent)
    (conversation : Nat × Bool) : Database × CreateInboundIMMessageResult :=
  match if input.deduplicates then db.getGatewayInboundMessageByExternalID conversation.1
      input.gatewayName input.messageName else none with
  | some m => (db, db.duplicateResult agent m)
  | none => (db.commit input db.newID agent conversation.1 conversation.2 now,
      createdResult db.newID agent conversation.1 now)

/-- `CreateInboundIMMessage` of a targeted call, with nothing in between its statements. -/
def createInboundIMMessage (now : Time) (input : CreateInboundIMMessageInput) :
    Except InboundError (Database × CreateInboundIMMessageResult) :=
  match db.targetAgent input with
  | .error e => .error e
  | .ok agent => (db.inboundConversation input agent).map (db.finishInbound now input agent)

end Database

structure Envelope where
  apiKey : String
  value : String
  deriving DecidableEq, Repr

structure UserCredential where
  userID : String
  kind : String
  displayName : String
  ciphertext : Envelope
  keyVersion : String
  deleted : Bool := false
  deriving DecidableEq, Repr

structure CreateUserCredentialInput where
  userID : String
  kind : String
  displayName : String
  encryptedValue : Envelope
  keyVersion : String
  deriving DecidableEq, Repr

def normalizeCredentialKindCode (kind : String) : String := (trimSpace kind).toLower

/-- Soft-delete the row of the kind, if any, and insert the new one. -/
def replaceUserCredential (userID : String) (rows : List UserCredential × Nat)
    (input : CreateUserCredentialInput) : List UserCredential × Nat :=
  let kind := normalizeCredentialKindCode input.kind
  let old (row : UserCredential) : Bool := row.userID == userID && row.kind == kind && !row.deleted
  let keyVersion := if trimSpace input.keyVersion = "" then "v1" else trimSpace input.keyVersion
  (rows.1.map (fun row => if old row then { row with deleted := true } else row) ++
      [⟨userID, kind, trimSpace input.displayName, input.encryptedValue, keyVersion, false⟩],
    if rows.1.any old then rows.2 + 1 else rows.2)

def replaceUserCredentials (kinds : List String) (rows : List UserCredential) (userID : String)
    (inputs : List CreateUserCredentialInput) : Option (List UserCredential × Nat) :=
  if trimSpace userID = "" then none
  else if inputs.all (fun input => normalizeCredentialKindCode input.kind ∈ kinds) then
    some (inputs.foldl (replaceUserCredential userID) (rows, 0))
  else none

structure CardAction where
  platform : String
  externalChatID : String
  operatorID : String
  qkey : String
  formValues : List (String × Option String)
  deriving DecidableEq

structure ActionAck where
  toastKind : String
  toastContent : String
  deriving DecidableEq, Repr

structure Binding where
  kind : String
  plaintext : String
  deriving DecidableEq, Repr

def credentialField : List Char := "credential_".toList

def credentialBindings : List (String × Option String) → Except ActionAck (List Binding)
  | [] => .ok []
  | (name, raw) :: rest =>
    if credentialField.isPrefixOf name.toList then
      let kind := trimSpace (String.ofList (name.toList.drop credentialField.length))
      let plaintext := trimSpace (raw.getD "")
      if kind = "" then credentialBindings rest
      else if plaintext = "" then
        .error ⟨"error", "Please fill in each credential before submitting"⟩
      else (credentialBindings rest).map (fun bindings => ⟨kind, plaintext⟩ :: bindings)
    else credentialBindings rest

def CardAction.bindings (action : CardAction) : Except ActionAck (List Binding) :=
  if trimSpace action.qkey = "" then .error ⟨"info", "Received"⟩
  else if action.formValues = [] then
    .error ⟨"error", "Please fill in the credentials before submitting"⟩
  else match credentialBindings action.formValues with
    | .error ack => .error ack
    | .ok [] => .error ⟨"error", "Please fill in the credentials before submitting"⟩
    | .ok bindings => .ok bindings

def CardAction.authorize (action : CardAction) (claimed : ClaimedPendingCredentialForm) :
    Except ActionAck Unit :=
  let stashedOpenID := trimSpace claimed.slot.initiatorOpenID
  let stashedChat := trimSpace claimed.externalChatID
  let clickedChat := trimSpace action.externalChatID
  if stashedOpenID = "" ∨ stashedOpenID ≠ trimSpace action.operatorID then
    .error ⟨"error", "Credentials can only be submitted by the requester"⟩
  else if stashedChat ≠ "" ∧ clickedChat ≠ "" ∧ stashedChat ≠ clickedChat then
    .error ⟨"error", "Please submit credentials in the original conversation"⟩
  else .ok ()

/-- An error of the database, before or after the statement has taken effect. -/
inductive Fault where
  | none
  | before
  | after
  deriving DecidableEq

structure Forms where
  db : Database
  kinds : List String := []
  credentials : List UserCredential := []

namespace Forms

variable (s : Forms)

def claim (qkey : String) (now : Time) (fault : Fault) :
    Forms × Except ActionAck ClaimedPendingCredentialForm :=
  let (found, db) := s.db.claimPendingCredentialFormSlot qkey now
  let failed : ActionAck := ⟨"error", "Query failed, please retry later"⟩
  match fault with
  | .before => (s, .error failed)
  | .after => ({ s with db }, .error failed)
  | .none => ({ s with db }, match found with
    | none => .error ⟨"info", "This request has expired; please resend the message"⟩
    | some claimed => .ok claimed)

def saveFailed : ActionAck := ⟨"error", "Saving credentials failed, please retry later"⟩

/-- One encryption that fails is enough. -/
def encrypt (userID : String) (bindings : List Binding) (fails : Bool) :
    Except ActionAck (List CreateUserCredentialInput) :=
  if fails then .error saveFailed
  else .ok (bindings.map (fun b => ⟨userID, b.kind, b.kind, ⟨b.plaintext, b.plaintext⟩, "v1"⟩))

def store (userID : String) (inputs : List CreateUserCredentialInput) (fault : Fault) :
    Forms × Except ActionAck Nat :=
  match fault, replaceUserCredentials s.kinds s.credentials userID inputs with
  | .before, _ | _, none => (s, .error saveFailed)
  | .after, some (credentials, _) => ({ s with credentials }, .error saveFailed)
  | .none, some (credentials, replaced) => ({ s with credentials }, .ok replaced)

def conversationTitle (text : String) : String :=
  let trimmed := trimSpace text
  if trimmed = "" then "[Feishu] Untitled" else "[Feishu] " ++ String.ofList (trimmed.toList.take 30)

/-- The call that resumes the stashed query. -/
def resumeInput (qkey : String) (claimed : ClaimedPendingCredentialForm) :
    CreateInboundIMMessageInput where
  conversationTitle := conversationTitle claimed.slot.rawQuery
  text := claimed.slot.rawQuery
  source := "gateway"
  gateway := "feishu"
  initiatorUserID := claimed.slot.initiatorUserID
  externalChatID := claimed.externalChatID
  externalThreadID := claimed.externalThreadID
  externalMessageID := "qkey:" ++ qkey
  targetAgentID := trimSpace claimed.slot.agentID
  sourceAppID := claimed.sourceAppID
  metadata := [("source", some "gateway"), ("gateway", some "feishu"),
      ("reenqueued_qkey", some qkey), ("reenqueued_from", some "credential_form_submit"),
      ("external_chat_id", some claimed.externalChatID)] ++
    if trimSpace claimed.externalThreadID = "" then []
    else [("external_thread_id", some claimed.externalThreadID)]

def enqueue (now : Time) (input : CreateInboundIMMessageInput) (fault : Fault) :
    Forms × Except ActionAck CreateInboundIMMessageResult :=
  let failed : ActionAck := ⟨"error",
    "Credentials saved, but restarting the conversation failed; please resend the message"⟩
  match fault, s.db.createInboundIMMessage now input with
  | .before, _ | _, .error _ => (s, .error failed)
  | .after, .ok (db, _) => ({ s with db }, .error failed)
  | .none, .ok (db, result) => ({ s with db }, .ok result)

end Forms

def routingLost : ActionAck :=
  ⟨"error", "Credentials saved, but conversation routing was lost; please @-mention the Agent again"⟩

def submittedAck (replaced : Nat) : ActionAck :=
  ⟨"success", if 0 < replaced then
      "Replaced " ++ toString replaced ++ " existing credential(s), resuming the conversation"
    else "Received, resuming the conversation"⟩

end Parsar.Inbound
