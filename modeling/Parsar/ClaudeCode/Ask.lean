import Parsar.Codex.UserInput
import Parsar.GoStd.Json

namespace Parsar.ClaudeCode

open GoStd
open Codex (QuestionAnswer Decision)

/-- `proto.PromptForUserChoiceOption`. -/
structure Choice where
  label : String
  description : String

/-- `proto.PromptForUserChoiceQuestion`. -/
structure Question where
  id : String
  header : String
  question : String
  multiSelect : Bool
  isOther : Bool
  options : List Choice

def parseOption : Json → Option Choice
  | .obj om =>
    if Object.string om "label" = "" then none
    else some ⟨Object.string om "label", Object.string om "description"⟩
  | _ => none

/-- The body of the loop of `parseAskUserQuestionInput`. -/
def parseQuestion : Json × Nat → Option Question
  | (.obj q, index) =>
    let options := ((Object.array? q "options").getD []).filterMap parseOption
    if Object.string q "question" = "" ∨ options.isEmpty then none
    else some {
      id := "q" ++ toString index
      header := Object.string q "header"
      question := Object.string q "question"
      multiSelect := Object.bool q "multiSelect"
      isOther := true
      options }
  | _ => none

def parseAskUserQuestionInput (input : Object) : Option (List Question) :=
  match input.array? "questions" with
  | none | some [] => none
  | some list => list.zipIdx.mapM parseQuestion

/-- A plain text, or the headers and answers that `mustMarshalAskQuestions` writes. -/
inductive AskResult where
  | text (s : String)
  | questions (out : List (String × String))
  deriving DecidableEq

def merged (e : QuestionAnswer) : String :=
  if e.answers ≠ [] then "、".intercalate e.answers else e.answer

section

variable (d : Decision)

def positional (i : Nat) : String := (d.questionAnswers[i]?.map merged).getD ""

def legacy (i : Nat) : String := d.answers[i]?.getD ""

def candidate (q : Question) : Option QuestionAnswer :=
  d.questionAnswers.find? (fun e => q.id ≠ "" ∧ e.questionID = q.id)

def answerTo (i : Nat) (q : Question) : String :=
  let answer := ((candidate d q).map merged).getD (positional d i)
  if answer = "" then legacy d i else answer

def cancelText : String :=
  let reason := trimSpace d.reason
  if reason = "timeout" then
    "The user did not make a selection within 10 minutes. Stop the current operation, report the " ++
      "timeout to the user and ask about follow-up intent; do not retry this tool."
  else if reason = "cancelled" then "The user cancelled this operation. Stop follow-up actions."
  else "The user did not give a selection (" ++ reason ++
    "). Stop follow-up actions and wait for further instructions from the user."

end

def noChoice : AskResult := .text
  ("The user did not choose any option. Stop follow-up actions and wait for further " ++
    "instructions from the user.")

def formatAskUserResultText (questions : List Question) (d : Decision) : AskResult :=
  if d.cancelled then .text (cancelText d)
  else match questions with
    | [] => if d.answers = [] then noChoice else .questions [("", "、".intercalate d.answers)]
    | q :: rest =>
      if rest = [] ∧ d.questionAnswers = [] ∧ 1 < d.answers.length then
        .questions [(q.header, "、".intercalate d.answers)]
      else
        let out := (q :: rest).zipIdx.map (fun p => (p.1.header, answerTo d p.2 p.1))
        if out.all (·.2 = "") then noChoice else .questions out

def AskResult.answer : AskResult → Nat → String
  | .text _, _ => ""
  | .questions out, i => (out[i]?.map Prod.snd).getD ""

/-- An answer that an entry with the id of the question carries, or the empty one where no entry
has it. -/
def OwnAnswer (d : Decision) (q : Question) (a : String) : Prop :=
  (∃ e ∈ d.questionAnswers, e.questionID = q.id ∧ merged e = a) ∨
    (∀ e ∈ d.questionAnswers, e.questionID ≠ q.id) ∧ a = ""

instance (d q a) : Decidable (OwnAnswer d q a) := inferInstanceAs (Decidable (_ ∨ _ ∧ _))

/-- No fallback gives question `i` a foreign answer: where its first entry is empty, the flat answer
at its place is its own; where it has no entry, the entry and the flat answer at its place are
empty. -/
def NoForeign (d : Decision) (i : Nat) (q : Question) : Prop :=
  match d.questionAnswers.find? (·.questionID = q.id) with
  | some e => merged e = "" → OwnAnswer d q (legacy d i)
  | none => positional d i = "" ∧ legacy d i = ""

instance (d i q) : Decidable (NoForeign d i q) := by
  unfold NoForeign
  cases d.questionAnswers.find? (·.questionID = q.id) <;> infer_instance

theorem id_ne_empty {raw : Json × Nat} {q : Question}
    (h : parseQuestion raw = some q) : q.id ≠ "" := by
  unfold parseQuestion at h
  split at h
  · dsimp only at h
    split at h
    · cases h
    · cases h
      simp
  · cases h

theorem ids_of_mapM {l : List (Json × Nat)} {qs : List Question}
    (h : l.mapM parseQuestion = some qs) : ∀ q ∈ qs, q.id ≠ "" := by
  induction l generalizing qs with
  | nil => simp_all
  | cons raw l ih =>
    simp only [List.mapM_cons, Option.bind_eq_bind, Option.bind_eq_some_iff] at h
    obtain ⟨q, hq, rest, hrest, h⟩ := h
    cases h
    exact List.forall_mem_cons.mpr ⟨id_ne_empty hq, ih hrest⟩

theorem ids_of_parse {input : Object} {qs : List Question}
    (h : parseAskUserQuestionInput input = some qs) : ∀ q ∈ qs, q.id ≠ "" := by
  unfold parseAskUserQuestionInput at h
  split at h
  · cases h
  · cases h
  · exact ids_of_mapM h

variable {d : Decision} {q : Question}

theorem own_answerTo_iff (hq : q.id ≠ "") (i : Nat) :
    OwnAnswer d q (answerTo d i q) ↔ NoForeign d i q := by
  have hcand : candidate d q = d.questionAnswers.find? (·.questionID = q.id) := by
    simp [candidate, hq]
  unfold NoForeign answerTo
  rw [hcand]
  cases hf : d.questionAnswers.find? (·.questionID = q.id) with
  | some e =>
    have hid := List.find?_some hf
    by_cases he : merged e = ""
    · simp [he]
    · have hown : OwnAnswer d q (merged e) :=
        .inl ⟨e, List.mem_of_find?_eq_some hf, by simpa using hid, rfl⟩
      simpa [he] using hown
  | none =>
    have hnone : ∀ e ∈ d.questionAnswers, e.questionID ≠ q.id := by simpa using hf
    have hown (a : String) : OwnAnswer d q a ↔ a = "" := by
      simp only [OwnAnswer, and_iff_right hnone, or_iff_right_iff_imp]
      rintro ⟨e, he, hid, -⟩
      exact absurd hid (hnone e he)
    by_cases hp : positional d i = "" <;> simp [hown, hp]

theorem intercalate_ne_empty {l : List String} (h : 1 < l.length) : "、".intercalate l ≠ "" := by
  rcases l with _ | ⟨a, _ | ⟨b, l⟩⟩ <;> simp_all

variable {qs : List Question}

/-- The only question takes all flat answers when there are several and no entries. -/
def TakesAll (qs : List Question) (d : Decision) : Prop :=
  qs.length = 1 ∧ d.questionAnswers = [] ∧ 1 < d.answers.length

instance (qs d) : Decidable (TakesAll qs d) := inferInstanceAs (Decidable (_ ∧ _ ∧ _))

theorem answer_format (hd : d.cancelled = false) (hall : ¬ TakesAll qs d) (i : Fin qs.length) :
    (formatAskUserResultText qs d).answer i = answerTo d i (qs.get i) := by
  cases qs with
  | nil => exact i.elim0
  | cons q rest =>
    have hnot : ¬ (rest = [] ∧ d.questionAnswers = [] ∧ 1 < d.answers.length) := by
      simpa [TakesAll] using hall
    simp only [formatAskUserResultText, hd, Bool.false_eq_true, if_false, if_neg hnot]
    split
    next hempty =>
      -- Without any answer the text is the fixed one, which gives every question the empty answer.
      simp only [List.all_map, List.all_eq_true, Function.comp_apply, decide_eq_true_eq] at hempty
      exact (hempty ((q :: rest).get i, i) (List.mk_mem_zipIdx_iff_getElem?.mpr (by simp))).symm
    next =>
      have hget : (q :: rest)[i.1]? = some ((q :: rest).get i) := List.getElem?_eq_getElem i.2
      simp only [AskResult.answer, List.getElem?_map, List.getElem?_zipIdx, hget, Option.map_some,
        Option.getD_some, Nat.zero_add]

theorem not_own_of_takesAll (hd : d.cancelled = false) (hall : TakesAll qs d) (i : Fin qs.length) :
    ¬ OwnAnswer d (qs.get i) ((formatAskUserResultText qs d).answer i) := by
  obtain ⟨hlen, hnil, hmany⟩ := hall
  obtain ⟨q, rfl⟩ := List.length_eq_one_iff.mp hlen
  simp [formatAskUserResultText, AskResult.answer, OwnAnswer, hd, hnil, hmany,
    intercalate_ne_empty hmany]

/-- Each question is given an answer of its own exactly when no fallback reaches past its id: not
the entry at its place, not the flat answer at its place, and not all flat answers at once. -/
theorem answers_own_iff {input : Object} (hqs : parseAskUserQuestionInput input = some qs)
    (hd : d.cancelled = false) :
    (∀ i : Fin qs.length, OwnAnswer d (qs.get i) ((formatAskUserResultText qs d).answer i)) ↔
      ¬ TakesAll qs d ∧ ∀ i : Fin qs.length, NoForeign d i (qs.get i) := by
  by_cases hall : TakesAll qs d
  · have hzero : 0 < qs.length := by simp [hall.1]
    simp only [hall, not_true, false_and, iff_false, not_forall]
    exact ⟨⟨0, hzero⟩, not_own_of_takesAll hd hall _⟩
  · simp only [hall, not_false_iff, true_and]
    refine forall_congr' fun i => ?_
    rw [answer_format hd hall]
    exact own_answerTo_iff (ids_of_parse hqs _ (List.get_mem qs i)) i

def twoQuestions : Object :=
  let ask (text : String) : Json :=
    .obj [("question", .str text), ("header", .str text),
      ("options", .arr [.obj [("label", .str "A")]])]
  [("questions", .arr [ask "Where?", ask "When?"])]

def reordered : Decision :=
  { questionAnswers := [{ questionID := "q1", answer := "B" },
      { questionID := "q0", answers := ["A", "C"] }] }

theorem reordered_answers_own :
    ∃ qs, parseAskUserQuestionInput twoQuestions = some qs ∧ ∀ i : Fin qs.length,
      OwnAnswer reordered (qs.get i) ((formatAskUserResultText qs reordered).answer i) :=
  ⟨_, rfl, (answers_own_iff (show parseAskUserQuestionInput twoQuestions = some _ from rfl) rfl).mpr
    (by decide +kernel)⟩

/-- The only entry is for the second question; the first one is given its answer too. -/
theorem answer_of_other_question :
    ∃ qs, parseAskUserQuestionInput twoQuestions = some qs ∧ qs.map (·.id) = ["q0", "q1"] ∧
      formatAskUserResultText qs { questionAnswers := [{ questionID := "q1", answer := "B" }] } =
        .questions [("Where?", "B"), ("When?", "B")] :=
  ⟨_, rfl, by decide +kernel, by decide +kernel⟩

end Parsar.ClaudeCode
