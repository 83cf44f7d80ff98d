import Parsar.GoStd.Map
import Parsar.GoStd.Text

namespace Parsar.Resolution

open GoStd

inductive Kind where
  | permission
  | userChoice
  deriving DecidableEq, Repr

/-- A member of `questions`, with those of its entries that have the type that is asked for; a
member that is no object has none. -/
structure RawQuestion where
  id : Option String := none
  multiSelect : Option Bool := none
  isOther : Option Bool := none
  isSecret : Option Bool := none
  options : List (Option String) := []
  deriving DecidableEq, Repr

structure InteractionQuestion where
  id : String
  multiSelect : Bool
  isOther : Bool
  isSecret : Bool
  options : List String
  deriving DecidableEq, Repr

def RawQuestion.read (index : Nat) (q : RawQuestion) : InteractionQuestion where
  id :=
    let id := trimSpace (q.id.getD "")
    if id = "" then "q" ++ toString index else id
  multiSelect := q.multiSelect.getD false
  -- only an explicit false closes the set of options
  isOther := q.isOther.getD true
  isSecret := q.isSecret.getD false
  options := (q.options.map (fun label => trimSpace (label.getD ""))).filter (· ≠ "")

def interactionQuestions (request : List RawQuestion) : List InteractionQuestion :=
  request.mapIdx RawQuestion.read

structure QuestionAnswer where
  questionID : String
  answers : List String
  deriving DecidableEq, Repr

structure Decision where
  approved : Option Bool := none
  note : String := ""
  questionAnswers : List QuestionAnswer := []
  cancelled : Bool := false
  deriving DecidableEq, Repr

inductive InvalidDecision where
  | approvedRequired
  | approvedNotAllowed
  | cancelledWithAnswers
  | answerForEachQuestion
  | incompleteAnswer
  | duplicate (id : String)
  | blankAnswer (id : String)
  | missingAnswer (id : String)
  | oneAnswer (id : String)
  | customAnswer (id : String)
  deriving DecidableEq, Repr

def cleanAnswers (values : List String) : List String := (values.map trimSpace).filter (· ≠ "")

abbrev Answers := GoMap String (List String)

def collectAnswers : List QuestionAnswer → Answers → Except InvalidDecision Answers
  | [], answers => .ok answers
  | answer :: rest, answers =>
    let id := trimSpace answer.questionID
    let values := cleanAnswers answer.answers
    if id = "" ∨ answer.answers = [] then .error .incompleteAnswer
    else if (answers id).isSome then .error (.duplicate id)
    else if values = [] then .error (.blankAnswer id)
    else collectAnswers rest (answers.set id values)

def checkQuestions (answers : Answers) : List InteractionQuestion → Except InvalidDecision Unit
  | [] => .ok ()
  | question :: rest =>
    match answers question.id with
    | none => .error (.missingAnswer question.id)
    | some values =>
      if !question.multiSelect && values.length != 1 then .error (.oneAnswer question.id)
      else if !question.isOther && values.any (fun value => value ∉ question.options) then
        .error (.customAnswer question.id)
      else checkQuestions answers rest

def validateDecision (kind : Kind) (request : List RawQuestion) (decision : Decision) :
    Except InvalidDecision Unit :=
  match kind with
  | .permission =>
    if decision.approved = none ∨ decision.cancelled ∨ decision.questionAnswers ≠ [] then
      .error .approvedRequired
    else .ok ()
  | .userChoice =>
    if decision.approved ≠ none then .error .approvedNotAllowed
    else if decision.cancelled then
      if decision.questionAnswers ≠ [] then .error .cancelledWithAnswers else .ok ()
    else
      let questions := interactionQuestions request
      if questions = [] ∨ decision.questionAnswers.length ≠ questions.length then
        .error .answerForEachQuestion
      else match collectAnswers decision.questionAnswers GoMap.empty with
        | .error e => .error e
        | .ok answers => checkQuestions answers questions

def normalizeAnswers (answers : List QuestionAnswer) : Answers :=
  GoMap.ofList (answers.map (fun a => (trimSpace a.questionID, cleanAnswers a.answers)))

/-- The flags of the questions; a later question replaces the flag of an earlier one. -/
def secretFlags (request : List RawQuestion) : GoMap String Bool :=
  GoMap.ofList ((interactionQuestions request).map (fun q => (q.id, q.isSecret)))

def redactSecretAnswers (request : List RawQuestion) (answers : Answers) : Answers := fun id =>
  (answers id).map (fun values =>
    if (secretFlags request id).getD false then ["[REDACTED]"] else values)

inductive Status where
  | pending
  | resolving
  | approved
  | denied
  | answered
  | cancelled
  | expired
  deriving DecidableEq, Repr

inductive ResponseBody where
  | permission (approved : Bool) (note : String)
  | userChoice (answers : Answers) (cancelled : Bool) (reason : String)
  /-- The run has ended, or the runtime has no such request. -/
  | reason (reason : String)

structure Response where
  body : ResponseBody
  expired : Bool := false

def deliveredStatus (kind : Kind) (decision : Decision) : Status :=
  match kind with
  | .permission => if decision.approved = some true then .approved else .denied
  | .userChoice => if decision.cancelled then .cancelled else .answered

def deliveredResponse (kind : Kind) (request : List RawQuestion) (decision : Decision) : Response :=
  match kind with
  | .permission => ⟨.permission (decision.approved == some true) (trimSpace decision.note), false⟩
  | .userChoice => ⟨.userChoice
      (redactSecretAnswers request (normalizeAnswers decision.questionAnswers)) decision.cancelled
      (trimSpace decision.note), false⟩

inductive Delivery where
  | accepted
  | gone
  | failed
  deriving DecidableEq

structure Actor where
  userID : String := ""
  actorID : String := ""
  source : String := ""
  actorType : String := ""
  deriving DecidableEq, Repr

def Actor.name (actor : Actor) : String :=
  if trimSpace actor.actorID = "" then trimSpace actor.userID else trimSpace actor.actorID

structure RepliedEvent where
  eventKind : String
  status : Status
  response : Response

structure ResolutionAudit where
  kind : Kind
  status : Status
  source : String
  actorID : String
  actorType : String
  response : Response

def repliedEvent (kind : Kind) (status : Status) (response : Response) : RepliedEvent :=
  ⟨match kind with
    | .permission => "permission.replied"
    | .userChoice => "prompt_for_user_choice.replied", status, response⟩

def resolutionAudit (kind : Kind) (actor : Actor) (status : Status) (response : Response) :
    ResolutionAudit :=
  ⟨kind, status, actor.source, actor.name, actor.actorType, response⟩

def resolved (kind : Kind) (request : List RawQuestion) (decision : Decision) :
    Delivery → Option (Status × Response)
  | .accepted => some (deliveredStatus kind decision, deliveredResponse kind request decision)
  | .gone => some (.cancelled, ⟨.reason "runtime_request_gone", false⟩)
  | .failed => none

def timeoutDecision : Kind → Decision
  | .permission => { approved := some false }
  | .userChoice => { cancelled := true }

def timedOut (kind : Kind) (request : List RawQuestion) : Delivery → Option (Status × Response)
  | .accepted | .gone =>
    some (.expired, { deliveredResponse kind request (timeoutDecision kind) with expired := true })
  | .failed => none

end Parsar.Resolution
