import Parsar.Turns.Artifacts

namespace Parsar.Turns

open GoStd Tx Relation

/-- How a call of the store ends for its caller: with its answer, with an error although it was
committed, or with an error and not executed. -/
inductive CallEnd where
  | answered
  | lost
  | unsent
  deriving DecidableEq, Repr

/-- Where `RunEnvironmentInput` stands with its Turn; `through` is the `AppliedThrough` of the
result. -/
inductive ExecutionPhase where
  | delivering
  | beginning (through : Nat)
  | exporting (through : Nat)
  | staged (through : Nat)
  | failing (through : Nat)
  | finishing (status : TurnStatus) (through : Nat)
  | ended
  deriving DecidableEq, Repr

variable {π : Type}

def attempt (how : CallEnd) (call : SessionTx π Unit) (s : Session π) :
    Session π × Except StoreError Unit :=
  match how, call s with
  | .answered, .ok (_, t) => (t, .ok ())
  | .lost, .ok (_, t) => (t, .error (.internal "unexpected EOF"))
  | .unsent, .ok _ => (s, .error (.internal "unexpected EOF"))
  | _, .error e => (s, .error e)

/-- A Session with the executions of its Turns. As history, `exported` is the stream given to
`StageTurnArtifacts` and `confirmed` says that export and release returned no error. -/
structure Capture (π : Type) where
  session : Session π
  hosted : Bool
  phase : TurnID → ExecutionPhase := fun _ => .delivering
  exported : TurnID → Option ArchiveStream := fun _ => none
  confirmed : TurnID → Bool := fun _ => false

inductive CaptureEvent (π : Type) where
  | store (op : Op π)
  | delivered (id : TurnID) (status : TurnStatus) (through : Nat)
  | beginCapture (id : TurnID) (how : CallEnd)
  | stage (id : TurnID) (input : ArchiveStream) (how : CallEnd)
  | exportEnds (id : TurnID) (ok : Bool)
  | checkCancelled (id : TurnID) (readable : Bool)
  | finish (now : Int) (id : TurnID) (outcome : π) (size : Nat) (fits : Bool) (how : CallEnd)
  | crash (id : TurnID)

/-- The calls only an execution makes for its own Turn. -/
def Op.ofExecution : Op π → Bool
  | .completeExecution .. | .beginTurnArtifactCapture .. | .stageTurnArtifacts .. => true
  | _ => false

namespace Capture

def goes (c : Capture π) (id : TurnID) (phase : ExecutionPhase) : Capture π :=
  { c with phase := Function.update c.phase id phase }

def call (c : Capture π) (id : TurnID) (how : CallEnd) (tx : SessionTx π Unit)
    (next : Except StoreError Unit → ExecutionPhase) : Capture π :=
  let result := attempt how tx c.session
  { c with session := result.1, phase := Function.update c.phase id (next result.2) }

/-- The branch on `err` of `captureCompletedArtifacts`. -/
def orFailing (through : Nat) (phase : ExecutionPhase) : Except StoreError Unit → ExecutionPhase
  | .ok _ => phase
  | .error _ => .failing through

/-- `finishRun` after a call of `CompleteExecution`: a Turn with inputs that were not applied
fails in a second one. -/
def afterCompletion (through : Nat) : Except StoreError Unit → ExecutionPhase
  | .error .unappliedInputs => .finishing .failed through
  | .error _ | .ok _ => .ended

/-- `StageTurnArtifacts` in the callback of the export. -/
def stage (c : Capture π) (id : TurnID) (input : ArchiveStream) (how : CallEnd) (through : Nat) :
    Capture π :=
  { c.call id how (stageTurnArtifacts id input) (orFailing through (.staged through)) with
    exported := Function.update c.exported id (some input) }

def confirm (c : Capture π) (id : TurnID) (through : Nat) : Capture π :=
  { c.goes id (.finishing .completed through) with
    confirmed := Function.update c.confirmed id true }

variable [DecidableEq π] [EmptyCollection π]

def step (c : Capture π) : CaptureEvent π → Option (Capture π)
  | .store op =>
    if op.ofExecution then none
    else (Turns.step c.session op).map fun session => { c with session }
  | .delivered id status through =>
    if c.phase id = .delivering ∧ id < c.session.turns.length then
      -- only a completed execution in a hosted workspace has outputs to capture
      some (c.goes id (if status = .completed ∧ c.hosted then .beginning through
        else .finishing status through))
    else none
  | .beginCapture id how =>
    match c.phase id with
    | .beginning through =>
      some (c.call id how (beginTurnArtifactCapture id through)
        (orFailing through (.exporting through)))
    | _ => none
  | .stage id input how =>
    match c.phase id with
    | .exporting through => some (c.stage id input how through)
    | _ => none
  | .exportEnds id ok =>
    match c.phase id with
    | .exporting through => some (c.goes id (.failing through))
    | .staged through =>
      if ok then some (c.confirm id through) else some (c.goes id (.failing through))
    | _ => none
  | .checkCancelled id readable =>
    match c.phase id with
    | .failing through =>
      let cancelled := readable && c.session.turns[id]?.any (·.cancelRequestedAt.isSome)
      some (c.goes id (.finishing (if cancelled then .cancelled else .failed) through))
    | _ => none
  | .finish now id outcome size fits how =>
    match c.phase id with
    | .finishing status through =>
      -- a result that does not fit is replaced by a failure
      let status := if fits then status else .failed
      some (c.call id how (completeExecution now id status outcome size through)
        (afterCompletion through))
    | _ => none
  | .crash id => some (c.goes id .ended)

end Capture

variable [DecidableEq π] [EmptyCollection π] {s t : Session π} {c d : Capture π} {id : TurnID}

/-- Everything but staging artifacts and completing a Turn. -/
def Permits.foreign : Permits π := { stages := False, completes := False }

theorem filesKept_of_step {op : Op π} (hs : Reached s) (hop : op.Performs .foreign)
    (h : step s op = some t) (id : TurnID) : FilesKept id s t := by
  have hadmits : op.Admits .foreign s :=
    Op.admits_of_performs (fun _ => trivial) (fun _ => trivial) trivial hop
  have hwrites := Op.writes hs.onePending hadmits h
  exact (Writes.filesKept (fun h => h) (fun h => h) hs.stored hwrites id).2

theorem attempt_cases (how : CallEnd) (op : Op π) (tx : SessionTx π Unit)
    (hop : op.call = (fun _ => Reply.done) <$> tx) (s : Session π) :
    ((attempt how tx s).1 = s ∧ (attempt how tx s).2 ≠ .ok ()) ∨
      (step s op = some (attempt how tx s).1 ∧ tx s = .ok ((), (attempt how tx s).1)) := by
  have hstep : ∀ t, tx s = .ok ((), t) → step s op = some t := by
    intro t ht
    refine step_eq_some.mpr ⟨.done, ?_⟩
    rw [hop]
    exact map_ok.mpr ⟨(), ht, rfl⟩
  unfold attempt
  cases how with
  | answered | lost =>
    cases htx : tx s with
    | ok r => exact .inr ⟨hstep r.2 htx, rfl⟩
    | error e => exact .inl ⟨rfl, by simp⟩
  | unsent =>
    cases htx : tx s with
    | ok | error => exact .inl ⟨rfl, by simp⟩

omit [DecidableEq π] [EmptyCollection π] in
theorem stageTurnArtifacts_ok {input : ArchiveStream} {v : Unit} (hs : s.Stored)
    (h : stageTurnArtifacts id input s = .ok (v, t)) :
    ∃ files turn, captureArtifactArchive input = .ok files ∧ s.turns[id]? = some turn ∧
      turn.status = .inProgress ∧ t.turns = s.turns ∧ t.deletedAt = s.deletedAt ∧
      ∀ id', t.turnFiles id' = s.turnFiles id' ++ if id' = id then files.map some else [] := by
  simp only [stageTurnArtifacts, get_bind_ok, fetch_bind_ok, require_bind_ok] at h
  obtain ⟨environment, -, -, h⟩ := h
  cases hcapture : captureArtifactArchive input with
  | error e => simp [hcapture] at h
  | ok files =>
    simp only [hcapture, require_bind_ok, fetch_bind_ok, set_ok] at h
    obtain ⟨hpublic, turn, hturn, hrunning, -, rfl⟩ := h
    refine ⟨files, turn, rfl, hturn, hrunning.1, by simp, by simp, ?_⟩
    exact (hs.stage files hturn (by rw [hrunning.1]; rfl) hpublic).2

variable {size through : Nat} {tx : SessionTx π Unit} {event : CaptureEvent π}

section

omit [DecidableEq π] [EmptyCollection π]

theorem completeExecution_completed {now : Int} {outcome : π} {v : Unit}
    (h : completeExecution now id .completed outcome size through s = .ok (v, t)) :
    ∃ turn turn', s.turns[id]? = some turn ∧ turn.status = .inProgress ∧
      turn'.status = .completed ∧ t.turns = s.turns.set id turn' ∧ t.deletedAt = s.deletedAt ∧
      ∀ id', t.turnFiles id' = s.turnFiles id' := by
  simp only [completeExecution, require_bind_ok, get_bind_ok, fetch_bind_ok, set_ok] at h
  obtain ⟨-, turn, hturn, hrunning, -, u, hu, rfl⟩ := h
  simp only [Session.transitionTurn?, hturn] at hu
  split at hu
  · cases hu
    rw [modify_set, recordTurnChange_terminal hturn (by rfl), Session.settleTurnArtifacts,
      if_pos (by rfl)]
    refine ⟨turn, _, hturn, hrunning.resolve_right fun h => h.2 rfl, rfl, rfl, rfl, fun id' => ?_⟩
    rw [Session.turnFiles_publish]
    rfl
  · cases hu

def ExecutionPhase.early : ExecutionPhase → Bool
  | .delivering | .beginning _ | .exporting _ => true
  | .staged _ | .failing _ | .finishing .. | .ended => false

def ExecutionPhase.captured : ExecutionPhase → Bool
  | .staged _ | .finishing .completed _ => true
  | _ => false

/-- The Turn has the files of its accepted export, or `gone` holds. -/
def Capture.Holds (c : Capture π) (id : TurnID) (gone : Prop) : Prop :=
  ∃ input files, c.exported id = some input ∧ captureArtifactArchive input = .ok files ∧
    (gone ∨ c.session.turnFiles id = files.map some)

def Session.Unstaged (s : Session π) (id : TurnID) : Prop :=
  s.turnFiles id = [] ∧ ∀ turn, s.turns[id]? = some turn → turn.status ≠ .completed

structure Capture.Sound (c : Capture π) (id : TurnID) : Prop where
  early : (c.phase id).early = true → c.session.Unstaged id
  captured : (c.phase id).captured = true → c.Holds id (c.session.Dropped id)
  confirmed : ∀ through, c.phase id = .finishing .completed through → c.confirmed id = true
  completed : ∀ turn, c.session.turns[id]? = some turn → turn.status = .completed →
    c.confirmed id = true ∧ c.Holds id (c.session.deletedAt ≠ none)

theorem FilesKept.unstaged (h : FilesKept id s t) (hs : s.Unstaged id) : t.Unstaged id := by
  refine ⟨?_, fun turn hturn hstatus => hs.2 turn (h.completed turn hturn hstatus) hstatus⟩
  rcases h.files with hsame | ⟨hnone, -⟩
  · exact hsame.trans hs.1
  · exact hnone

theorem Capture.Holds.kept (h : c.Holds id (c.session.Dropped id))
    (hkept : FilesKept id c.session d.session) (hexported : d.exported id = c.exported id) :
    d.Holds id (d.session.Dropped id) := by
  obtain ⟨input, files, hinput, hcapture, hfiles⟩ := h
  refine ⟨input, files, hexported.trans hinput, hcapture, ?_⟩
  rcases hfiles with hdropped | hfiles
  · exact .inl (hkept.dropped hdropped)
  · rcases hkept.files with hsame | ⟨-, hdropped⟩
    · exact .inr (hsame.trans hfiles)
    · exact .inl hdropped

theorem Capture.Sound.completed_kept (h : c.Sound id) (hkept : FilesKept id c.session d.session)
    (hexported : d.exported id = c.exported id)
    (hconfirmed : c.confirmed id = true → d.confirmed id = true) :
    ∀ turn, d.session.turns[id]? = some turn → turn.status = .completed →
      d.confirmed id = true ∧ d.Holds id (d.session.deletedAt ≠ none) := by
  intro turn hturn hstatus
  obtain ⟨hconf, input, files, hinput, hcapture, hfiles⟩ :=
    h.completed turn (hkept.completed turn hturn hstatus) hstatus
  refine ⟨hconfirmed hconf, input, files, hexported.trans hinput, hcapture, ?_⟩
  rcases hfiles with hdeleted | hfiles
  · exact .inl (hkept.deleted hdeleted)
  · rcases hkept.files with hsame | ⟨-, hdeleted | ⟨other, hother, hended⟩⟩
    · exact .inr (hsame.trans hfiles)
    · exact .inl hdeleted
    · rw [hturn] at hother
      cases hother
      simp [hstatus] at hended

theorem Capture.Sound.kept (h : c.Sound id) (hkept : FilesKept id c.session d.session)
    (hphase : d.phase id = c.phase id) (hexported : d.exported id = c.exported id)
    (hconfirmed : d.confirmed id = c.confirmed id) : d.Sound id where
  early hearly := hkept.unstaged (h.early (hphase ▸ hearly))
  captured hcaptured := (h.captured (hphase ▸ hcaptured)).kept hkept hexported
  confirmed through hfinishing := hconfirmed.trans (h.confirmed through (hphase ▸ hfinishing))
  completed := h.completed_kept hkept hexported fun hconf => hconfirmed.trans hconf

theorem sound_of_event (hc : ∀ id, c.Sound id)
    (hkept : ∀ id', id' ≠ id → FilesKept id' c.session d.session)
    (hphase : ∀ id', id' ≠ id → d.phase id' = c.phase id')
    (hexported : ∀ id', id' ≠ id → d.exported id' = c.exported id')
    (hconfirmed : ∀ id', id' ≠ id → d.confirmed id' = c.confirmed id') (hid : d.Sound id)
    (id' : TurnID) : d.Sound id' := by
  by_cases h : id' = id
  · exact h ▸ hid
  · exact (hc id').kept (hkept id' h) (hphase id' h) (hexported id' h) (hconfirmed id' h)

theorem Capture.Sound.of_uncaptured (hcaptured : (d.phase id).captured = false)
    (hearly : (d.phase id).early = true → d.session.Unstaged id)
    (hcompleted : ∀ turn, d.session.turns[id]? = some turn → turn.status = .completed →
      d.confirmed id = true ∧ d.Holds id (d.session.deletedAt ≠ none)) : d.Sound id where
  early := hearly
  captured h := by simp [hcaptured] at h
  confirmed through h := by
    rw [h] at hcaptured
    cases hcaptured
  completed := hcompleted

theorem sound_goes {phase : ExecutionPhase} (hc : ∀ id, c.Sound id)
    (hearly : phase.early = true → c.session.Unstaged id)
    (hcaptured : phase.captured = false) (id' : TurnID) : (c.goes id phase).Sound id' := by
  have hne : ∀ id', id' ≠ id → (c.goes id phase).phase id' = c.phase id' :=
    fun id' h => Function.update_of_ne h _ _
  have hself : (c.goes id phase).phase id = phase := Function.update_self _ _ _
  refine sound_of_event (d := c.goes id phase) hc (fun id' _ => .refl id' _) hne (fun _ _ => rfl)
    (fun _ _ => rfl) ?_ id'
  exact .of_uncaptured (hself.symm ▸ hcaptured) (hself.symm ▸ hearly) (hc id).completed

end

theorem filesKept_attempt {op : Op π} (how : CallEnd) (hs : Reached s)
    (hop : op.call = (fun _ => Reply.done) <$> tx) (hforeign : op.Performs .foreign)
    (id : TurnID) : FilesKept id s (attempt how tx s).1 := by
  rcases attempt_cases how op tx hop s with ⟨hsame, -⟩ | ⟨hstep, -⟩
  · rw [hsame]
    exact .refl id s
  · exact filesKept_of_step hs hforeign hstep id

theorem sound_call {op : Op π} {how : CallEnd}
    {next : Except StoreError Unit → ExecutionPhase} (hs : Reached c.session)
    (hc : ∀ id, c.Sound id) (hop : op.call = (fun _ => Reply.done) <$> tx)
    (hforeign : op.Performs .foreign)
    (hearly : ∀ r, (next r).early = true → (c.phase id).early = true)
    (hcaptured : ∀ r, (next r).captured = false) (id' : TurnID) :
    (c.call id how tx next).Sound id' := by
  have hkept : ∀ id', FilesKept id' c.session (c.call id how tx next).session :=
    filesKept_attempt how hs hop hforeign
  have hself : (c.call id how tx next).phase id = next (attempt how tx c.session).2 :=
    Function.update_self _ _ _
  refine sound_of_event hc (fun id' _ => hkept id') (fun id' h => Function.update_of_ne h _ _)
    (fun _ _ => rfl) (fun _ _ => rfl) ?_ id'
  refine .of_uncaptured (hself ▸ hcaptured _) (fun h => ?_)
    ((hc id).completed_kept (hkept id) rfl fun h => h)
  rw [hself] at h
  exact (hkept id).unstaged ((hc id).early (hearly _ h))

omit [DecidableEq π] [EmptyCollection π] in
theorem FilesKept.of_same (hturn : t.turns[id]? = s.turns[id]?)
    (hdeleted : t.deletedAt = s.deletedAt)
    (hfiles : t.turnFiles id = s.turnFiles id) : FilesKept id s t where
  deleted h := by rwa [hdeleted]
  terminal turn h _ := hturn.trans h
  completed turn h _ := hturn.symm.trans h
  files := .inl hfiles

theorem sound_stage {input : ArchiveStream} {how : CallEnd}
    (hs : Reached c.session) (hc : ∀ id, c.Sound id) (hphase : c.phase id = .exporting through)
    (id' : TurnID) : (c.stage id input how through).Sound id' := by
  obtain ⟨hempty, hrunning⟩ := (hc id).early (by rw [hphase]; rfl)
  have hself : (c.stage id input how through).phase id = Capture.orFailing through (.staged through)
      (attempt how (stageTurnArtifacts id input) c.session).2 := Function.update_self _ _ _
  -- the phase behind the call, whatever it was answered
  have hphases : (c.stage id input how through).phase id = .failing through ∨
      (c.stage id input how through).phase id = .staged through := by
    rw [hself]
    cases (attempt how (stageTurnArtifacts id input) c.session).2 with
    | ok r => exact .inr rfl
    | error e => exact .inl rfl
  have hnot : ∀ n, (c.stage id input how through).phase id ≠ .finishing .completed n := by
    rcases hphases with h | h <;> simp [h]
  have hlate : ((c.stage id input how through).phase id).early ≠ true := by
    rcases hphases with h | h <;> simp [h, ExecutionPhase.early]
  rcases attempt_cases how (.stageTurnArtifacts id input) (stageTurnArtifacts id input) rfl
    c.session with ⟨hsame, herror⟩ | ⟨-, hstage⟩
  · have hsession : (c.stage id input how through).session = c.session := hsame
    refine sound_of_event (d := c.stage id input how through) hc ?_
      (fun id' h => Function.update_of_ne h _ _) (fun id' h => Function.update_of_ne h _ _)
      (fun _ _ => rfl) ?_ id'
    · intro id' _
      rw [hsession]
      exact .refl id' _
    · refine ⟨fun h => absurd h hlate, fun h => ?_, fun n h => absurd h (hnot n), ?_⟩
      · cases hr : (attempt how (stageTurnArtifacts id input) c.session).2 with
        | ok r => exact absurd hr herror
        | error e =>
          rw [hself, hr] at h
          cases h
      · intro turn hturn hstatus
        rw [hsession] at hturn
        exact absurd hstatus (hrunning turn hturn)
  · obtain ⟨files, turn, hcapture, hturn, hstatus, hturns, hdeleted, hfiles⟩ :=
      stageTurnArtifacts_ok hs.stored hstage
    refine sound_of_event (d := c.stage id input how through) hc ?_
      (fun id' h => Function.update_of_ne h _ _) (fun id' h => Function.update_of_ne h _ _)
      (fun _ _ => rfl) ?_ id'
    · intro id' hne
      refine .of_same (congrArg (·[id']?) hturns) hdeleted ?_
      have hfiles' := hfiles id'
      rwa [if_neg hne, List.append_nil] at hfiles'
    · refine ⟨fun h => absurd h hlate, fun _ => ?_, fun n h => absurd h (hnot n), ?_⟩
      · have hnew := hfiles id
        rw [hempty, if_pos rfl, List.nil_append] at hnew
        exact ⟨input, files, Function.update_self _ _ _, hcapture, .inr hnew⟩
      · intro turn' hturn' hstatus'
        have hturn'' : (attempt how (stageTurnArtifacts id input) c.session).1.turns[id]? =
            some turn' := hturn'
        rw [hturns] at hturn''
        exact absurd hstatus' (hrunning turn' hturn'')

omit [DecidableEq π] [EmptyCollection π] in
theorem sound_confirm (hc : ∀ id, c.Sound id)
    (hphase : c.phase id = .staged through) (id' : TurnID) : (c.confirm id through).Sound id' := by
  have hholds := (hc id).captured (by rw [hphase]; rfl)
  have hself : (c.confirm id through).phase id = .finishing .completed through :=
    Function.update_self _ _ _
  refine sound_of_event (d := c.confirm id through) hc (fun id' _ => .refl id' _)
    (fun id' h => Function.update_of_ne h _ _) (fun _ _ => rfl)
    (fun id' h => Function.update_of_ne h _ _) ?_ id'
  refine ⟨fun h => ?_, fun _ => hholds, fun _ _ => Function.update_self _ _ _, ?_⟩
  · rw [hself] at h
    cases h
  · intro turn hturn hstatus
    exact ⟨Function.update_self _ _ _, ((hc id).completed turn hturn hstatus).2⟩

theorem sound_complete {now : Int} {outcome : π} {how : CallEnd}
    (hc : ∀ id, c.Sound id) (hphase : c.phase id = .finishing .completed through) (id' : TurnID) :
    (c.call id how (completeExecution now id .completed outcome size through)
      (Capture.afterCompletion through)).Sound id' := by
  let tx : SessionTx π Unit := completeExecution now id .completed outcome size through
  have hself : (c.call id how tx (Capture.afterCompletion through)).phase id =
      Capture.afterCompletion through (attempt how tx c.session).2 := Function.update_self _ _ _
  have hlate : ∀ r, (Capture.afterCompletion through r).early = false ∧
      (Capture.afterCompletion through r).captured = false := by
    intro r
    unfold Capture.afterCompletion
    split <;> exact ⟨rfl, rfl⟩
  have hid : (∀ turn, (attempt how tx c.session).1.turns[id]? = some turn →
      turn.status = .completed → c.confirmed id = true ∧
        (c.call id how tx (Capture.afterCompletion through)).Holds id
          ((attempt how tx c.session).1.deletedAt ≠ none)) →
      (c.call id how tx (Capture.afterCompletion through)).Sound id := by
    refine .of_uncaptured (hself ▸ (hlate _).2) fun h => ?_
    rw [hself, (hlate _).1] at h
    cases h
  rcases attempt_cases how (.completeExecution now id .completed outcome size through) tx rfl
    c.session with ⟨hsame, -⟩ | ⟨-, hcommit⟩
  · refine sound_of_event (d := c.call id how tx (Capture.afterCompletion through)) hc
      (fun id' _ => ?_) (fun id' h => Function.update_of_ne h _ _) (fun _ _ => rfl)
      (fun _ _ => rfl) (hid ?_) id'
    · show FilesKept id' c.session (attempt how tx c.session).1
      rw [hsame]
      exact .refl id' _
    · intro turn hturn hstatus
      rw [hsame] at hturn
      obtain ⟨hconf, input, files, hinput, hcapture, hfiles⟩ := (hc id).completed turn hturn hstatus
      refine ⟨hconf, input, files, hinput, hcapture, ?_⟩
      rw [hsame]
      show _ ∨ (attempt how tx c.session).1.turnFiles id = _
      rwa [hsame]
  · obtain ⟨turn, turn', hturn, hrunning, hdone, hturns, hdeleted, hfiles⟩ :=
      completeExecution_completed hcommit
    refine sound_of_event (d := c.call id how tx (Capture.afterCompletion through)) hc
      (fun id' hne => ?_) (fun id' h => Function.update_of_ne h _ _) (fun _ _ => rfl)
      (fun _ _ => rfl) (hid ?_) id'
    · refine .of_same ?_ hdeleted (hfiles id')
      show (attempt how tx c.session).1.turns[id']? = _
      rw [hturns, List.getElem?_set_ne hne.symm]
    · intro _ _ _
      obtain ⟨input, files, hinput, hcapture, hheld⟩ := (hc id).captured (by rw [hphase]; rfl)
      refine ⟨(hc id).confirmed through hphase, input, files, hinput, hcapture, ?_⟩
      rw [hdeleted]
      rcases hheld with (hgone | ⟨other, hother, hended⟩) | hheld
      · exact .inl hgone
      · rw [hturn] at hother
        cases hother
        simp [hrunning] at hended
      · exact .inr ((hfiles id).trans hheld)

structure Capture.Invariant (c : Capture π) : Prop where
  hosted : c.hosted = true
  reached : Reached c.session
  sound : ∀ id, c.Sound id

theorem attempt_session (op : Op π) (how : CallEnd)
    (hop : op.call = (fun _ => Reply.done) <$> tx) (s : Session π) :
    (attempt how tx s).1 = s ∨ ∃ op, step s op = some (attempt how tx s).1 := by
  rcases attempt_cases how op tx hop s with ⟨hsame, -⟩ | ⟨hstep, -⟩
  · exact .inl hsame
  · exact .inr ⟨op, hstep⟩

theorem Capture.step_session (h : c.step event = some d) :
    d.session = c.session ∨ ∃ op, Turns.step c.session op = some d.session := by
  cases event
  all_goals simp only [Capture.step] at h
  case store op =>
    split at h
    · cases h
    · obtain ⟨session, hstep, rfl⟩ := Option.map_eq_some_iff.mp h
      exact .inr ⟨op, hstep⟩
  case beginCapture id how =>
    split at h
    · next through hphase =>
      cases h
      exact attempt_session (.beginTurnArtifactCapture id through) how rfl c.session
    · cases h
  case stage id input how =>
    split at h
    · cases h
      exact attempt_session (.stageTurnArtifacts id input) how rfl c.session
    · cases h
  case finish now id outcome size fits how =>
    split at h
    · next status through hphase =>
      cases h
      exact attempt_session (.completeExecution now id (if fits then status else .failed) outcome
        size through) how rfl c.session
    · cases h
  case delivered | checkCancelled =>
    split at h
    · cases h
      exact .inl rfl
    · cases h
  case exportEnds id ok =>
    repeat' split at h
    all_goals
      cases h
      try exact .inl rfl
  case crash id =>
    cases h
    exact .inl rfl

omit [DecidableEq π] in
theorem Op.performs_foreign {op : Op π} (h : op.ofExecution = false) : op.Performs .foreign := by
  cases op with
  | completeExecution | stageTurnArtifacts => cases h
  | _ => trivial

theorem Capture.Invariant.step (hc : c.Invariant) (h : c.step event = some d) : d.Invariant := by
  have hreached : Reached d.session := by
    rcases Capture.step_session h with hsame | ⟨op, hop⟩
    · rw [hsame]
      exact hc.reached
    · exact hc.reached.tail hop
  cases event
  all_goals simp only [Capture.step] at h
  case store op =>
    split at h
    · cases h
    · next hop =>
      obtain ⟨session, hstep, rfl⟩ := Option.map_eq_some_iff.mp h
      refine ⟨hc.hosted, hreached, fun id => ?_⟩
      have hkept := filesKept_of_step hc.reached (Op.performs_foreign (by simpa using hop)) hstep id
      exact (hc.sound id).kept hkept rfl rfl rfl
  case delivered id status through =>
    split at h
    · next hphase =>
      cases h
      refine ⟨hc.hosted, hreached, sound_goes hc.sound (fun _ => ?_) ?_⟩
      · exact (hc.sound id).early (by rw [hphase.1]; rfl)
      · by_cases hstatus : status = .completed
        · simp [hstatus, hc.hosted, ExecutionPhase.captured]
        · rw [if_neg fun h => hstatus h.1]
          cases status <;> first | rfl | exact absurd rfl hstatus
    · cases h
  case beginCapture id how =>
    split at h
    · next through hphase =>
      cases h
      have hop : Op.call (.beginTurnArtifactCapture id through) =
        (fun _ => Reply.done) <$> beginTurnArtifactCapture (π := π) id through := rfl
      refine ⟨hc.hosted, hreached,
        sound_call hc.reached hc.sound hop trivial (fun r _ => by rw [hphase]; rfl) fun r => ?_⟩
      cases r <;> rfl
    · cases h
  case stage id input how =>
    split at h
    · next through hphase =>
      cases h
      exact ⟨hc.hosted, hreached, sound_stage hc.reached hc.sound hphase⟩
    · cases h
  case exportEnds id ok =>
    have hfailing : ∀ through, (c.goes id (.failing through)).Invariant := fun through =>
      ⟨hc.hosted, hc.reached, sound_goes hc.sound (fun h => by cases h) rfl⟩
    split at h
    · cases h
      exact hfailing _
    · next through hphase =>
      split at h
      · cases h
        exact ⟨hc.hosted, hreached, sound_confirm hc.sound hphase⟩
      · cases h
        exact hfailing _
    · cases h
  case checkCancelled id readable =>
    split at h
    · cases h
      refine ⟨hc.hosted, hreached, sound_goes hc.sound (fun h => by cases h) ?_⟩
      split <;> rfl
    · cases h
  case finish now id outcome size fits how =>
    split at h
    · next status through hphase =>
      cases h
      have hop : ∀ status, Op.call (.completeExecution now id status outcome size through) =
        (fun _ => Reply.done) <$> completeExecution now id status outcome size through :=
          fun _ => rfl
      refine ⟨hc.hosted, hreached, ?_⟩
      by_cases hcompleted : (if fits then status else .failed) = TurnStatus.completed
      · rw [hcompleted]
        have hstatus : status = .completed := by
          cases fits
          · cases hcompleted
          · exact hcompleted
        exact sound_complete hc.sound (hstatus ▸ hphase)
      · refine sound_call hc.reached hc.sound (hop _) (fun h => absurd h hcompleted) ?_ ?_
        all_goals
          intro r
          unfold Capture.afterCompletion
          split <;> simp [ExecutionPhase.early, ExecutionPhase.captured]
    · cases h
  case crash id =>
    cases h
    exact ⟨hc.hosted, hreached, sound_goes hc.sound (fun h => by cases h) rfl⟩

def Capture.Reached (c : Capture π) : Prop :=
  ∃ s₀ events, Started s₀ ∧ runTrace Capture.step { session := s₀, hosted := true } events = some c

theorem Started.unstaged (h : Started s) (id : TurnID) : s.Unstaged id := by
  obtain ⟨sequence, hwrites⟩ := h.writes (P := .foreign) fun _ => trivial
  have hempty : Session.Stored (π := π) { sequence } :=
    Reached.stored ⟨{ sequence }, [], ⟨0, none, "", [], sequence, rfl⟩, rfl⟩
  have hkept := (Writes.filesKept (fun h => h) (fun h => h) hempty hwrites id).2
  exact hkept.unstaged ⟨rfl, fun turn hturn => by cases hturn⟩

theorem Capture.Reached.invariant (h : c.Reached) : c.Invariant := by
  obtain ⟨s₀, events, hstarted, hrun⟩ := h
  refine runTrace_invariant (fun _ _ _ _ hstep hc => hc.step hstep) (stepsMeet_true _ events) hrun
    ⟨rfl, ⟨s₀, [], hstarted, rfl⟩, fun id => ?_⟩
  have hunstaged := hstarted.unstaged id
  exact ⟨fun _ => hunstaged, fun h => (by cases h), fun _ h => (by cases h),
    fun turn hturn hstatus => absurd hstatus (hunstaged.2 turn hturn)⟩

/-- The rows of a Turn that `GetSessionArtifact` and `ListSessionArtifacts` find. -/
def Session.visibleArtifacts (s : Session π) (id : TurnID) : List Artifact :=
  if s.deletedAt = none then
    s.artifacts.filter fun row => row.turn == id && row.createdAt.isSome
  else []

structure ArtifactsPublished (c : Capture π) (id : TurnID) : Prop where
  hidden : (∀ turn, c.session.turns[id]? = some turn → turn.status ≠ .completed) →
    c.session.visibleArtifacts id = []
  published : ∀ turn, c.session.turns[id]? = some turn → turn.status = .completed →
    c.session.deletedAt = none → c.confirmed id = true ∧ ∃ input files,
      c.exported id = some input ∧ WholeArchive input files ∧
      (c.session.visibleArtifacts id).map c.session.storedFile = files.map some
  dropped : c.session.Dropped id → ∀ row ∈ c.session.artifacts, row.turn ≠ id
  bodies : ∀ object ∈ c.session.objects, ∃ row ∈ c.session.artifacts, row.bodyOid = object.1
  stays : ∀ events d, runTrace Capture.step c events = some d → c.session.Dropped id →
    d.session.Dropped id

omit [DecidableEq π] [EmptyCollection π] in
theorem Session.Stored.createdAt_isSome {row : Artifact} (hs : s.Stored)
    (hrow : row ∈ s.artifacts) : row.createdAt.isSome = true ↔
      ∃ turn, s.turns[row.turn]? = some turn ∧ turn.status = .completed := by
  obtain ⟨turn, hturn, ⟨hactive, hnone⟩ | ⟨hcompleted, hcreated, hsome⟩⟩ := hs.owned row hrow
  · rw [hnone]
    refine ⟨fun h => (by cases h), ?_⟩
    rintro ⟨turn', hturn', hcompleted⟩
    rw [hturn] at hturn'
    cases hturn'
    rw [hcompleted] at hactive
    cases hactive
  · rw [hcreated]
    exact ⟨fun _ => ⟨turn, hturn, hcompleted⟩, fun _ => hsome⟩

omit [DecidableEq π] in
theorem Write.dropped {P : Permits π} (h : Write P s t) (hs : s.Dropped id) : t.Dropped id := by
  rcases hs with hdeleted | ⟨turn, hturn, hstatus⟩
  · left
    cases h.artifacts with
    | kept _ _ _ hsame => rwa [hsame]
    | ended hturn hactive hterminal hcompletedAt hcompletes ht =>
      rw [ht, (Session.settleTurnArtifacts_frame _ _ _).2]
      exact hdeleted
    | staged hstages hturn hrunning hpublic => exact absurd hpublic hdeleted
    | deleted now ht =>
      rw [ht]
      simp
  · refine .inr ⟨turn, h.terminal_kept hturn ?_, hstatus⟩
    rcases hstatus with hstatus | hstatus <;> rw [hstatus] <;> rfl

theorem Capture.step_dropped (hs : Turns.Reached c.session)
    (h : c.step event = some d) (hdropped : c.session.Dropped id) : d.session.Dropped id := by
  rcases Capture.step_session h with hsame | ⟨op, hop⟩
  · rwa [hsame]
  · exact (Op.writes hs.onePending op.admits_all hop).invariant (fun _ _ => Write.dropped) hdropped

/-- Artifacts of a hosted Turn are published all or nothing: none until it has completed, then the
confirmed export's; other ends and a deletion leave neither rows nor bodies. -/
theorem artifacts_published (c : Capture π) (id : TurnID) (hc : c.Reached) :
    ArtifactsPublished c id := by
  have hinv := hc.invariant
  have hstored := hinv.reached.stored
  constructor
  · intro hnot
    unfold Session.visibleArtifacts
    split
    · rw [List.filter_eq_nil_iff]
      intro row hrow hvisible
      simp only [Bool.and_eq_true, beq_iff_eq] at hvisible
      obtain ⟨turn, hturn, hcompleted⟩ := (hstored.createdAt_isSome hrow).mp hvisible.2
      exact hnot turn (hvisible.1 ▸ hturn) hcompleted
    · rfl
  · intro turn hturn hcompleted hpublic
    obtain ⟨hconfirmed, input, files, hinput, hcapture, hfiles⟩ :=
      (hinv.sound id).completed turn hturn hcompleted
    refine ⟨hconfirmed, input, files, hinput, captureArtifactArchive_ok hcapture, ?_⟩
    have hvisible : c.session.visibleArtifacts id = c.session.artifacts.filter (·.turn == id) := by
      rw [Session.visibleArtifacts, if_pos hpublic]
      refine List.filter_congr fun row hrow => ?_
      by_cases hid : row.turn = id
      · have hsome := (hstored.createdAt_isSome hrow).mpr ⟨turn, hid ▸ hturn, hcompleted⟩
        simp [hid, hsome]
      · simp [hid]
    rw [hvisible]
    exact hfiles.resolve_left fun h => h hpublic
  · rintro hdropped row hrow hid
    rcases hdropped with hdeleted | ⟨turn, hturn, hstatus⟩
    · exact hdeleted (hstored.undeleted row hrow)
    · obtain ⟨turn', hturn', howned⟩ := hstored.owned row hrow
      rw [hid, hturn] at hturn'
      cases hturn'
      rcases howned with ⟨hactive, -⟩ | ⟨hcompleted, -⟩
      · rcases hstatus with hstatus | hstatus <;> simp [hstatus, TurnStatus.active] at hactive
      · simp [hcompleted] at hstatus
  · exact hstored.referenced
  · intro events d hrun hdropped
    refine (runTrace_invariant (I := fun u => u.Invariant ∧ u.session.Dropped id) ?_
      (stepsMeet_true c events) hrun ⟨hinv, hdropped⟩).2
    intro u event v _ hstep hu
    exact ⟨hu.1.step hstep, Capture.step_dropped hu.1.reached hstep hu.2⟩

def oneOutput : ArchiveStream :=
  { entries := [{ regular := true, name := utf8 "outputs/a", size := 2, body := utf8 "hi" }]
    trailer := true, rest := [0, 0], restEnds := true }

def captureEvents : List (CaptureEvent Flat) :=
  [.store (.settleEnvironmentInput 2 0 .promote), .delivered 0 .completed 8,
   .beginCapture 0 .answered, .stage 0 oneOutput .answered, .exportEnds 0 true,
   .finish 5 0 [("done", "1")] 12 true .answered]

def capturedOne (c : Capture Flat) : Bool :=
  decide (c.session.turns.map (·.status) = [.completed]) && decide (c.session.deletedAt = none) &&
    decide ((c.session.visibleArtifacts 0).length = 1)

theorem artifacts_published_one : ∃ c : Capture Flat, c.Reached ∧
    (c.session.turns.map (·.status) = [.completed] ∧ c.session.deletedAt = none ∧
      (c.session.visibleArtifacts 0).length = 1) ∧ ArtifactsPublished c 0 := by
  obtain ⟨s₀, s, hstarted, hsame, hcheck⟩ := exists_run (some {}) []
    (fun s => (runTrace Capture.step { session := s, hosted := true } captureEvents).any
      capturedOne)
    (by decide +kernel)
  cases hsame
  simp only [capturedOne, Option.any_eq_true, Bool.and_eq_true, decide_eq_true_eq] at hcheck
  obtain ⟨c, hrun, ⟨hstatus, hpublic⟩, hone⟩ := hcheck
  have hc : c.Reached := ⟨s₀, captureEvents, hstarted, hrun⟩
  exact ⟨c, hc, ⟨hstatus, hpublic, hone⟩, artifacts_published c 0 hc⟩

end Parsar.Turns
