import Parsar.Framework.Pool
import Parsar.Inbound.Store

namespace Parsar.Inbound

open GoStd

/-- Where the transaction of a call stands. From `looking` on it holds the row of its conversation,
or has inserted it. -/
inductive Phase where
  | begun
  | selecting (agent : Agent)
  | inserting (agent : Agent)
  | updating (agent : Agent) (conversationID : Nat)
  | looking (agent : Agent) (conversationID : Nat) (fresh : Bool)
  | listing (agent : Agent) (m : Message)
  | writing (agent : Agent) (conversationID : Nat) (fresh : Bool)
  | returned (result : CreateInboundIMMessageResult)
  | failed (e : InboundError)
  deriving DecidableEq

structure Call where
  input : CreateInboundIMMessageInput
  now : Time
  phase : Phase := .begun

/-- The committed tables with the locks of the open transactions: on the rows of conversations, and
on the keys of inserted ones. -/
structure Server where
  db : Database
  rowLocks : Nat → Option Nat := fun _ => none
  keyLocks : ConversationKey → Option Nat := fun _ => none

namespace Server

def release (s : Server) (i : Nat) : Server :=
  { s with
    rowLocks := fun id => if s.rowLocks id = some i then none else s.rowLocks id
    keyLocks := fun key => if s.keyLocks key = some i then none else s.keyLocks key }

def heldByOther (holder : Option Nat) (i : Nat) : Bool := holder.any (fun j => j != i)

end Server

/-- The next statement; an error, which may come at any point and rolls back; the commit, whose
answer may be lost. -/
inductive CallAction where
  | next
  | fail
  | commit (reported : Bool)

namespace Call

def open? (c : Call) : Bool :=
  match c.phase with
  | .returned _ | .failed _ => false
  | _ => true

def next (i : Nat) (s : Server) (c : Call) : Option (Server × Call) :=
  let go (phase : Phase) : Call := { c with phase }
  match c.phase with
  | .begun =>
    match s.db.targetAgent c.input with
    | .error e => some (s.release i, go (.failed e))
    | .ok agent => some (s, go (.selecting agent))
  | .selecting agent =>
    match s.db.selectConversation (c.input.conversationKey agent) with
    | none => some (s, go (.inserting agent))
    | some found => some (s, go (.updating agent found.id))
  | .inserting agent =>
    let key := c.input.conversationKey agent
    if Server.heldByOther (s.keyLocks key) i then none
    else if s.db.keyTaken key then some (s.release i, go (.failed .duplicateKey))
    else some ({ s with keyLocks := Function.update s.keyLocks key (some i) },
      go (.looking agent i true))
  | .updating agent id =>
    if Server.heldByOther (s.rowLocks id) i then none
    else some ({ s with rowLocks := Function.update s.rowLocks id (some i) },
      go (.looking agent id false))
  | .looking agent id fresh =>
    if c.input.deduplicates then
      match s.db.getGatewayInboundMessageByExternalID id c.input.gatewayName
          c.input.messageName with
      | some m => some (s, go (.listing agent m))
      | none => some (s, go (.writing agent id fresh))
    else some (s, go (.writing agent id fresh))
  | .listing agent m => some (s.release i, go (.returned (s.db.duplicateResult agent m)))
  | .writing .. | .returned _ | .failed _ => none

def step (i : Nat) (s : Server) (c : Call) : CallAction → Option (Server × Call)
  | .next => c.next i s
  | .fail => if c.open? then some (s.release i, { c with phase := .failed .database }) else none
  | .commit reported =>
    match c.phase with
    | .writing agent id fresh =>
      let phase := if reported then .returned (createdResult i agent id c.now)
        else .failed .database
      some ({ s.release i with db := s.db.commit c.input i agent id fresh c.now },
        { c with phase })
    | _ => none

end Call

abbrev Calls := Pool Server Call

def newCall (request : CreateInboundIMMessageInput × Time) : Call := ⟨request.1, request.2, .begun⟩

def noEnv (_ : Server) (e : Empty) : Option Server := nomatch e

abbrev CallsAction := Pool.Action (CreateInboundIMMessageInput × Time) CallAction Empty

def Calls.step : Calls → CallsAction → Option Calls := Pool.step newCall Call.step noEnv

structure Addressed (input : CreateInboundIMMessageInput) : Prop where
  source : trimSpace input.source = "gateway"
  gateway : trimSpace input.gateway ≠ ""
  message : trimSpace input.externalMessageID ≠ ""
  metadata : ∀ key ∈ ["source", "gateway", "external_message_id"],
    (input.metadata.lookup key).join = none

def Database.Started (db : Database) (result : CreateInboundIMMessageResult) (agentID : String) :
    Prop :=
  ∃ r ∈ db.runs, r.id ∈ result.runIDs ∧ r.agentID = agentID

variable {input : CreateInboundIMMessageInput}

theorem Addressed.sourceName (h : Addressed input) :
    input.sourceName = "gateway" := by
  simp [CreateInboundIMMessageInput.sourceName, h.source]

theorem Addressed.deduplicates (h : Addressed input) :
    input.deduplicates = true := by
  simp [CreateInboundIMMessageInput.deduplicates, h.sourceName, h.gateway, h.message,
    CreateInboundIMMessageInput.gatewayName, CreateInboundIMMessageInput.messageName]

theorem Addressed.platform (h : Addressed input) :
    input.platform = input.gatewayName := by
  simp [CreateInboundIMMessageInput.platform, CreateInboundIMMessageInput.gatewayName, h.gateway]

structure Message.Named (m : Message) (conversationID : Nat) (input : CreateInboundIMMessageInput) :
    Prop where
  conversation : m.conversationID = conversationID
  source : m.source = some "gateway"
  gateway : m.gateway = some input.gatewayName
  message : m.externalMessageID = some input.messageName

theorem Addressed.named (h : Addressed input) (i id : Nat) (sender : String) (now : Time) :
    (input.newMessage i id sender now).Named id input := by
  refine ⟨rfl, ?_, ?_, ?_⟩
  · simp [CreateInboundIMMessageInput.newMessage, CreateInboundIMMessageInput.metadataText,
      h.metadata "source" (by simp), h.sourceName]
  · simp [CreateInboundIMMessageInput.newMessage, CreateInboundIMMessageInput.metadataText,
      h.metadata "gateway" (by simp), CreateInboundIMMessageInput.gatewayName, h.gateway]
  · simp [CreateInboundIMMessageInput.newMessage, CreateInboundIMMessageInput.metadataText,
      h.metadata "external_message_id" (by simp), CreateInboundIMMessageInput.messageName,
      h.message]

theorem named_of_getGatewayInboundMessage {db : Database} {id : Nat} {m : Message}
    (h : db.getGatewayInboundMessageByExternalID id input.gatewayName input.messageName = some m) :
    m ∈ db.messages ∧ m.Named id input := by
  have hmem := earliest_mem h
  simp only [List.mem_filter, Bool.and_eq_true, beq_iff_eq] at hmem
  obtain ⟨hmem, ⟨⟨hid, hsource⟩, hgateway⟩, hname⟩ := hmem
  exact ⟨hmem, ⟨hid, hsource, hgateway, hname⟩⟩

theorem not_named_of_getGatewayInboundMessage {db : Database} {id : Nat}
    (h : db.getGatewayInboundMessageByExternalID id input.gatewayName input.messageName = none)
    {m : Message} (hm : m ∈ db.messages) : ¬m.Named id input := by
  intro hnamed
  have hnil := earliest_eq_none.1 h
  rw [List.filter_eq_nil_iff] at hnil
  exact hnil m hm (by simp [hnamed.conversation, hnamed.source, hnamed.gateway, hnamed.message])

end Parsar.Inbound
