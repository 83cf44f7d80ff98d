import Parsar.Resolution.Decision

namespace Parsar.Resolution

open GoStd

def SecretID (request : List RawQuestion) (id : String) : Prop :=
  ∃ q ∈ interactionQuestions request, q.id = id ∧ q.isSecret = true

structure SameButSecret (request : List RawQuestion) (a b : QuestionAnswer) : Prop where
  questionID : a.questionID = b.questionID
  answers : ¬SecretID request (trimSpace a.questionID) → a.answers = b.answers

structure DifferOnSecrets (request : List RawQuestion) (d d' : Decision) : Prop where
  approved : d.approved = d'.approved
  note : d.note = d'.note
  cancelled : d.cancelled = d'.cancelled
  questionAnswers : List.Forall₂ (SameButSecret request) d.questionAnswers d'.questionAnswers

structure Records where
  response : Response
  event : RepliedEvent
  audit : ResolutionAudit

def records (kind : Kind) (request : List RawQuestion) (actor : Actor) (decision : Decision)
    (delivery : Delivery) : Option Records :=
  (resolved kind request decision delivery).map (fun r =>
    ⟨r.2, repliedEvent kind r.1 r.2, resolutionAudit kind actor r.1 r.2⟩)

def Uncovered (request : List RawQuestion) (id : String) : Prop :=
  ∃ before q after, interactionQuestions request = before ++ q :: after ∧ q.id = id ∧
    q.isSecret = false ∧ (∀ r ∈ after, r.id ≠ id) ∧ ∃ r ∈ before, r.id = id ∧ r.isSecret = true

variable {request : List RawQuestion}

theorem secretFlags_eq_some {id : String} {flag : Bool} : secretFlags request id = some flag ↔
    ∃ before q after, interactionQuestions request = before ++ q :: after ∧ q.id = id ∧
      q.isSecret = flag ∧ ∀ r ∈ after, r.id ≠ id := by
  rw [secretFlags, GoMap.ofList_eq_some]
  constructor
  · rintro ⟨before, after, heq, hafter⟩
    obtain ⟨before', rest, hsplit, rfl, hrest⟩ := List.map_eq_append_iff.1 heq
    obtain ⟨q, after', rfl, hq, rfl⟩ := List.map_eq_cons_iff.1 hrest
    cases hq
    exact ⟨before', q, after', hsplit, rfl, rfl,
      fun r hr => hafter _ (List.mem_map_of_mem hr)⟩
  · rintro ⟨before, q, after, heq, rfl, rfl, hafter⟩
    refine ⟨before.map (fun q => (q.id, q.isSecret)), after.map (fun q => (q.id, q.isSecret)),
      by simp [heq], ?_⟩
    intro e he
    obtain ⟨r, hr, rfl⟩ := List.mem_map.1 he
    exact hafter r hr

theorem uncovered_iff {id : String} : Uncovered request id ↔
    SecretID request id ∧ (secretFlags request id).getD false = false := by
  constructor
  · rintro ⟨before, q, after, heq, hid, hsecret, hafter, r, hr, hrid, hrsecret⟩
    refine ⟨⟨r, by rw [heq]; exact List.mem_append_left _ hr, hrid, hrsecret⟩, ?_⟩
    rw [secretFlags_eq_some.2 ⟨before, q, after, heq, hid, hsecret, hafter⟩]
    rfl
  · rintro ⟨⟨r, hr, hrid, hrsecret⟩, hflag⟩
    cases hfound : secretFlags request id with
    | none =>
      refine absurd hrid (GoMap.ofList_eq_none.1 hfound (r.id, r.isSecret) ?_)
      exact List.mem_map_of_mem hr
    | some flag =>
      rw [hfound] at hflag
      cases (hflag : flag = false)
      obtain ⟨before, q, after, heq, hid, hsecret, hafter⟩ := secretFlags_eq_some.1 hfound
      refine ⟨before, q, after, heq, hid, hsecret, hafter, r, ?_, hrid, hrsecret⟩
      rw [heq] at hr
      rcases List.mem_append.1 hr with hr | hr
      · exact hr
      · rcases List.mem_cons.1 hr with rfl | hr
        · rw [hsecret] at hrsecret
          cases hrsecret
        · exact absurd hrid (hafter r hr)

theorem normalizeAnswers_isSome {as bs : List QuestionAnswer}
    (h : List.Forall₂ (SameButSecret request) as bs) (id : String) :
    (normalizeAnswers as id).isSome = (normalizeAnswers bs id).isSome := by
  have hids : as.map QuestionAnswer.questionID = bs.map QuestionAnswer.questionID := by
    induction h with
    | nil => rfl
    | cons hab _ ih => rw [List.map_cons, List.map_cons, hab.questionID, ih]
  have hnone (cs : List QuestionAnswer) : normalizeAnswers cs id = none ↔
      ∀ q ∈ cs.map QuestionAnswer.questionID, trimSpace q ≠ id := by
    simp [normalizeAnswers, GoMap.ofList_eq_none]
  rw [Bool.eq_iff_iff, ← not_iff_not, Bool.not_eq_true, Bool.not_eq_true,
    Option.isSome_eq_false_iff, Option.isSome_eq_false_iff, Option.isNone_iff_eq_none,
    Option.isNone_iff_eq_none, hnone, hnone, hids]

theorem normalizeAnswers_eq {as bs : List QuestionAnswer}
    (h : List.Forall₂ (SameButSecret request) as bs) {id : String} (hid : ¬SecretID request id) :
    normalizeAnswers as id = normalizeAnswers bs id := by
  -- the maps before an answer agree at the id, so they do after it
  have hfold (m m' : Answers) (hm : m id = m' id) :
      (as.map (fun a => (trimSpace a.questionID, cleanAnswers a.answers))).foldl
          (fun m e => GoMap.set m e.1 e.2) m id =
        (bs.map (fun a => (trimSpace a.questionID, cleanAnswers a.answers))).foldl
          (fun m e => GoMap.set m e.1 e.2) m' id := by
    induction h generalizing m m' with
    | nil => exact hm
    | @cons a b _ _ hab _ ih =>
      refine ih _ _ ?_
      simp only [GoMap.set, Function.update_apply, ← hab.questionID]
      split_ifs with heq
      · rw [hab.answers (heq ▸ hid)]
      · exact hm
  exact hfold GoMap.empty GoMap.empty rfl

/-- The records of two decisions that differ in secret answers are the same exactly when the answers
to every question that is uncovered are. -/
theorem secret_answers_unrecorded_iff (request : List RawQuestion) (actor : Actor)
    (d d' : Decision) (h : DifferOnSecrets request d d') :
    (∀ delivery, records .userChoice request actor d delivery =
        records .userChoice request actor d' delivery) ↔
      ∀ id, Uncovered request id →
        normalizeAnswers d.questionAnswers id = normalizeAnswers d'.questionAnswers id := by
  constructor
  · intro hrecords id hid
    have hopen := (uncovered_iff.1 hid).2
    have hresponse : deliveredResponse .userChoice request d = deliveredResponse .userChoice request d' :=
      congrArg Records.response (Option.some.inj (hrecords .accepted))
    simp only [deliveredResponse, Response.mk.injEq, ResponseBody.userChoice.injEq] at hresponse
    have hat := congrFun hresponse.1.1 id
    simpa [redactSecretAnswers, hopen] using hat
  · intro hanswers
    have hresponse : deliveredResponse .userChoice request d =
        deliveredResponse .userChoice request d' := by
      have hredacted : redactSecretAnswers request (normalizeAnswers d.questionAnswers) =
          redactSecretAnswers request (normalizeAnswers d'.questionAnswers) := by
        funext id
        unfold redactSecretAnswers
        cases hflag : (secretFlags request id).getD false with
        | true =>
          -- the same ids are answered, and every answer is the same mark
          have hsome := normalizeAnswers_isSome h.questionAnswers id
          cases hd : normalizeAnswers d.questionAnswers id <;>
            cases hd' : normalizeAnswers d'.questionAnswers id <;> simp_all
        | false =>
          by_cases hsecret : SecretID request id
          · rw [hanswers id (uncovered_iff.2 ⟨hsecret, hflag⟩)]
          · rw [normalizeAnswers_eq h.questionAnswers hsecret]
      simp only [deliveredResponse, hredacted, h.cancelled, h.note]
    intro delivery
    cases delivery with
    | accepted => simp only [records, resolved, deliveredStatus, hresponse, h.cancelled]
    | gone | failed => rfl

def aliasedQuestions : List RawQuestion :=
  [{ id := some "a", isSecret := some true }, { id := some "a" }]

def answeredWith (secret : String) : Decision :=
  { questionAnswers := [⟨"a", [secret]⟩, ⟨"b", ["x"]⟩] }

theorem answeredWith_differ (request : List RawQuestion) (h : SecretID request "a") (v w : String) :
    DifferOnSecrets request (answeredWith v) (answeredWith w) := by
  have htrim : trimSpace "a" = "a" := by decide +kernel
  exact ⟨rfl, rfl, rfl, .cons ⟨rfl, fun hno => absurd (htrim.symm ▸ h) hno⟩
    (.cons ⟨rfl, fun _ => rfl⟩ .nil)⟩

theorem secret_answers_unrecorded_last :
    validateDecision .userChoice [{ id := some "a", isSecret := some true }, { id := some "b" }]
      (answeredWith "v") = .ok () ∧
    ∀ delivery,
      records .userChoice [{ id := some "a", isSecret := some true }, { id := some "b" }] {}
        (answeredWith "v") delivery =
      records .userChoice [{ id := some "a", isSecret := some true }, { id := some "b" }] {}
        (answeredWith "w") delivery := by
  refine ⟨by decide +kernel, (secret_answers_unrecorded_iff _ _ _ _
    (answeredWith_differ _ ⟨_, List.mem_cons_self, by decide +kernel, rfl⟩ "v" "w")).2 ?_⟩
  intro id hid
  obtain ⟨⟨r, hr, rfl, hsecret⟩, hflag⟩ := uncovered_iff.1 hid
  simp only [interactionQuestions, List.mapIdx_cons, List.mapIdx_nil, List.mem_cons,
    List.not_mem_nil, or_false] at hr
  rcases hr with rfl | rfl
  · exact absurd hflag (by decide +kernel)
  · cases hsecret

/-- Both decisions are accepted, and the answer to the secret question is recorded as it is. -/
theorem aliased_secret_recorded :
    validateDecision .userChoice aliasedQuestions (answeredWith "v") = .ok () ∧
    validateDecision .userChoice aliasedQuestions (answeredWith "w") = .ok () ∧
    DifferOnSecrets aliasedQuestions (answeredWith "v") (answeredWith "w") ∧
    records .userChoice aliasedQuestions {} (answeredWith "v") .accepted ≠
      records .userChoice aliasedQuestions {} (answeredWith "w") .accepted := by
  refine ⟨by decide +kernel, by decide +kernel, answeredWith_differ _
    ⟨_, List.mem_cons_self, by decide +kernel, rfl⟩ "v" "w", ?_⟩
  intro heq
  have hresponse : deliveredResponse .userChoice aliasedQuestions (answeredWith "v") =
      deliveredResponse .userChoice aliasedQuestions (answeredWith "w") :=
    congrArg Records.response (Option.some.inj heq)
  simp only [deliveredResponse, Response.mk.injEq, ResponseBody.userChoice.injEq] at hresponse
  have hat := congrFun hresponse.1.1 "a"
  exact absurd hat (by decide +kernel)

end Parsar.Resolution
