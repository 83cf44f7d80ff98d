import Parsar.GoStd.Map
import Parsar.GoStd.Text

namespace Parsar.Codex

open GoStd

structure ToolQuestion where
  id : String := ""
  header : String := ""

structure PendingQuestion where
  questionID : String
  answerKey : String

/-- The part of `handleCodexUserInput` that the answers depend on. -/
def handleCodexUserInput (questions : List ToolQuestion) : Except String (List PendingQuestion) :=
  if questions = [] then .error "requestUserInput contains no questions"
  else .ok (questions.mapIdx fun index question =>
    let header := trimSpace question.header
    let header := if header = "" then "q" ++ toString index else header
    let questionID := trimSpace question.id
    { questionID := if questionID = "" then header else questionID, answerKey := header })

structure QuestionAnswer where
  questionID : String := ""
  header : String := ""
  answer : String := ""
  answers : List String := []

structure Decision where
  questionAnswers : List QuestionAnswer := []
  answers : List String := []
  cancelled : Bool := false
  reason : String := ""

def splitCodexAnswers (answer : String) : List String :=
  (((trimSpace answer).toList.splitOn ',').map fun part =>
    trimSpace (.ofList part)).filter (· ≠ "")

def QuestionAnswer.values (e : QuestionAnswer) : List String :=
  if e.answers = [] then splitCodexAnswers e.answer else e.answers

/-- The variable `values`, with the entry it was read from. -/
structure Values where
  list : List String := []
  source : Option QuestionAnswer := none

def QuestionAnswer.read (e : QuestionAnswer) : Values := ⟨e.values, some e⟩

/-- `byID` and `byHeader`: entries without a key are left out and later ones replace earlier ones. -/
def index (key : QuestionAnswer → String) (entries : List QuestionAnswer) : GoMap String Values :=
  .ofList ((entries.filter (key · ≠ "")).map fun e => (key e, e.read))

def Values.orElse (v w : Values) : Values := if v.list = [] then w else v

def assigned (d : Decision) (i : Nat) (q : PendingQuestion) : Values :=
  let byID := (index (·.questionID) d.questionAnswers q.questionID).getD {}
  let byHeader := (index (·.header) d.questionAnswers q.answerKey).getD {}
  let byPosition := (d.questionAnswers[i]?.map (·.read)).getD {}
  let legacy : Values := if i = 0 then { list := d.answers } else {}
  ((byID.orElse byHeader).orElse byPosition).orElse legacy

inductive Reply where
  | error (code : Int) (message : String)
  /-- The answers that are sent, each with the entry it was read from. -/
  | answers (answers : GoMap String Values)

def submitCodexUserInput (pending : List PendingQuestion) (d : Decision) : Reply :=
  if d.cancelled then
    let reason := trimSpace d.reason
    .error (-32001) (if reason = "" then "user cancelled input request" else reason)
  else .answers (.ofList (pending.mapIdx fun i q => (q.questionID, assigned d i q)))

def lastWith (key : QuestionAnswer → String) (entries : List QuestionAnswer) (k : String) :
    Option QuestionAnswer :=
  (entries.filter (key · ≠ "")).reverse.find? (key · = k)

theorem index_eq (key : QuestionAnswer → String) (entries : List QuestionAnswer) (k : String) :
    index key entries k = (lastWith key entries k).map (·.read) := by
  unfold index lastWith
  induction entries.filter (key · ≠ "") using List.reverseRecOn with
  | nil => rfl
  | append_singleton es e ih =>
    rw [List.map_append, List.map_singleton, GoMap.ofList_concat, List.reverse_concat,
      List.find?_cons]
    by_cases hk : key e = k
    · simp [hk, GoMap.set]
    · simp only [GoMap.set, hk, decide_false]
      rw [Function.update_of_ne (Ne.symm hk), ih]

/-- Whatever the question gets from an entry comes from an entry that names it. -/
def Values.Own (v : Values) (questionID : String) : Prop :=
  v.list ≠ [] → ∀ e, v.source = some e → e.questionID = questionID

def gives (e : Option QuestionAnswer) : Prop := ∃ x, e = some x ∧ x.values ≠ []

/-- Where its own entry is missing or blank, the entry found instead names the question after all.
-/
def Undisturbed (d : Decision) (i : Nat) (q : PendingQuestion) : Prop :=
  let byHeader := lastWith (·.header) d.questionAnswers q.answerKey
  ¬ gives (lastWith (·.questionID) d.questionAnswers q.questionID) →
    (∀ e, byHeader = some e → e.values ≠ [] → e.questionID = q.questionID) ∧
    (¬ gives byHeader → ∀ e, d.questionAnswers[i]? = some e → e.values ≠ [] →
      e.questionID = q.questionID)

theorem own_orElse {e : Option QuestionAnswer} {w : Values} {k : String} :
    (((e.map QuestionAnswer.read).getD {}).orElse w).Own k ↔
      (∀ x, e = some x → x.values ≠ [] → x.questionID = k) ∧ (¬ gives e → w.Own k) := by
  cases e with
  | none => simp [Values.orElse, gives]
  | some x =>
    by_cases hx : x.values = []
    · simp [Values.orElse, QuestionAnswer.read, gives, hx]
    · simp [Values.orElse, QuestionAnswer.read, gives, hx, Values.Own]

theorem orElse_assoc (u v w : Values) : (u.orElse v).orElse w = u.orElse (v.orElse w) := by
  by_cases hu : u.list = [] <;> simp [Values.orElse, hu]

theorem own_legacy (d : Decision) (i : Nat) (k : String) :
    (if i = 0 then { list := d.answers } else {} : Values).Own k := by
  intro _ e he
  split_ifs at he

theorem lastWith_key {key : QuestionAnswer → String} {entries : List QuestionAnswer} {k : String}
    {e : QuestionAnswer} (h : lastWith key entries k = some e) : key e = k := by
  simpa using List.find?_some h

theorem own_assigned_iff (d : Decision) (i : Nat) (q : PendingQuestion) :
    (assigned d i q).Own q.questionID ↔ Undisturbed d i q := by
  unfold assigned Undisturbed
  rw [index_eq, index_eq, orElse_assoc, orElse_assoc, own_orElse, own_orElse, own_orElse]
  constructor
  · rintro ⟨-, hrest⟩ byHeader hnone
    exact ⟨(hrest hnone).1, fun hheader => ((hrest hnone).2 hheader).1⟩
  · intro h
    refine ⟨fun e he _ => lastWith_key he, fun hnone => ⟨(h hnone).1, fun hheader => ?_⟩⟩
    exact ⟨(h hnone).2 hheader, fun _ => own_legacy d i _⟩

/-- Of several questions with one id the reply has the answer of the last. -/
theorem reply_eq_some {pending : List PendingQuestion} {d : Decision} {k : String} {v : Values} :
    GoMap.ofList (pending.mapIdx fun i q => (q.questionID, assigned d i q)) k = some v ↔
      ∃ before q after, pending = before ++ q :: after ∧ q.questionID = k ∧
        assigned d before.length q = v ∧ ∀ q' ∈ after, q'.questionID ≠ k := by
  rw [GoMap.ofList_eq_some]
  constructor
  · rintro ⟨first, last, heq, hlast⟩
    obtain ⟨before, rest, rfl, -, hrest⟩ := List.mapIdx_eq_append_iff.1 heq
    obtain ⟨q, after, rfl, hq, rfl⟩ := List.mapIdx_eq_cons_iff.1 hrest
    cases hq
    refine ⟨before, q, after, rfl, rfl, by simp, fun q' hq' => ?_⟩
    obtain ⟨i, hi, rfl⟩ := List.getElem_of_mem hq'
    exact hlast _ (List.mem_mapIdx.2 ⟨i, hi, rfl⟩)
  · rintro ⟨before, q, after, rfl, rfl, rfl, hafter⟩
    refine ⟨_, _, by rw [List.mapIdx_append, List.mapIdx_cons, Nat.zero_add], fun e he => ?_⟩
    obtain ⟨i, hi, rfl⟩ := List.mem_mapIdx.1 he
    exact hafter _ (List.getElem_mem hi)

/-- The answers of the reply stay with their questions exactly when no question that is answered is
disturbed. -/
theorem answers_stay_iff (questions : List ToolQuestion) (hasked : questions ≠ []) (d : Decision)
    (hd : d.cancelled = false) :
    ∃ pending answers, handleCodexUserInput questions = .ok pending ∧
      submitCodexUserInput pending d = .answers answers ∧
      ((∀ k v, answers k = some v → v.Own k) ↔
        ∀ before q after, pending = before ++ q :: after →
          (∀ q' ∈ after, q'.questionID ≠ q.questionID) → Undisturbed d before.length q) := by
  refine ⟨_, _, if_neg hasked, if_neg (by simp [hd]), ?_⟩
  generalize questions.mapIdx _ = pending
  simp only [reply_eq_some, ← own_assigned_iff]
  constructor
  · intro h before q after heq hlast
    exact h _ _ ⟨before, q, after, heq, rfl, rfl, hlast⟩
  · rintro h - - ⟨before, q, after, heq, rfl, rfl, hlast⟩
    exact h before q after heq hlast

def twoAnswers : Decision :=
  { questionAnswers := [{ questionID := "q2", answers := ["yes"] },
      { questionID := "q1", answer := "no" }] }

theorem answers_stay_two :
    ∃ pending answers, handleCodexUserInput [{ id := "q1" }, { id := "q2" }] = .ok pending ∧
      submitCodexUserInput pending twoAnswers = .answers answers ∧
      ∀ k v, answers k = some v → v.Own k := by
  obtain ⟨pending, answers, hpending, hanswers, hstay⟩ :=
    answers_stay_iff [{ id := "q1" }, { id := "q2" }] (by simp) twoAnswers rfl
  refine ⟨pending, answers, hpending, hanswers, hstay.2 fun before q after heq _ hnone => ?_⟩
  cases hpending
  have hq : q.questionID = "q1" ∨ q.questionID = "q2" := by
    have hmem : q.questionID ∈ List.map (·.questionID) (before ++ q :: after) := by simp
    rw [← heq] at hmem
    have hids : ["q1", "q2"].map trimSpace = ["q1", "q2"] := by decide +kernel
    simp only [List.map_cons, List.map_nil, List.cons.injEq, and_true] at hids
    simpa [hids] using hmem
  refine absurd ?_ hnone
  rcases hq with hq | hq <;> rw [hq]
  · exact ⟨{ questionID := "q1", answer := "no" }, by simp [lastWith, twoAnswers], by decide +kernel⟩
  · exact ⟨{ questionID := "q2", answers := ["yes"] }, by simp [lastWith, twoAnswers], by simp
      [QuestionAnswer.values]⟩

theorem answer_moves_to_first :
    ∃ pending, handleCodexUserInput [{ id := "q1" }, { id := "q2" }] = .ok pending ∧
      ∃ d : Decision, d.cancelled = false ∧
        (∀ e ∈ d.questionAnswers, ∃ q ∈ pending, q.questionID = e.questionID) ∧
        ∃ answers, submitCodexUserInput pending d = .answers answers ∧
          (∀ e ∈ d.questionAnswers, e.questionID ≠ "q1") ∧ (answers "q1").map (·.list) = some ["yes"] := by
  refine ⟨_, rfl, { questionAnswers := [{ questionID := "q2", answers := ["yes"] }] }, rfl, ?_, _,
    rfl, ?_, ?_⟩ <;> decide +kernel

end Parsar.Codex
