import Parsar.Dispatch.Calm
import Parsar.Dispatch.ReleaseProtocol

namespace Parsar.Dispatch

namespace Prompt

variable {q q' : Prompt} {closed : Bool}

structure Past (q q' : Prompt) : Prop where
  arriving : q'.arriving = false
  created : q'.created → q.created
  cancelled : q.cancelled → q'.cancelled
  pumping : q.pumping = false → q'.pumping = false

theorem Past.of_phase (hphase : q'.arriving = false) (hsession : q'.session = q.session)
    (hcreated : q'.phase ≠ .returned true) (hcontext : q.ctxCancelled → q'.ctxCancelled)
    (hcancel : q.sessionCancelled → q'.sessionCancelled)
    (hpumping : q.pumping = false → q'.pumping = false) : q.Past q' := by
  refine ⟨hphase, ?_, ?_, hpumping⟩
  · simp only [Prompt.created, hsession, hcreated, decide_false, Bool.or_false, Bool.or_eq_true]
    exact .inl
  · simp only [Prompt.cancelled, Bool.or_eq_true]
    exact Or.imp hcontext hcancel

theorem Past.of_same (hq : q.arriving = false) (hphase : q'.phase = q.phase)
    (hsession : q'.session = q.session) (hcontext : q.ctxCancelled → q'.ctxCancelled)
    (hcancel : q.sessionCancelled → q'.sessionCancelled) : q.Past q' := by
  have harriving : q'.arriving = false := by
    unfold Prompt.arriving at hq ⊢
    rwa [hphase]
  refine .of_phase harriving hsession ?_ hcontext hcancel ?_
  · intro hreturned
    simp [Prompt.arriving, hreturned] at harriving
  · unfold Prompt.pumping
    rw [hphase]
    exact id

theorem past_begin {ok : Bool} (hq : q.arriving = false) (hs : q.begin ok = some q') :
    q.Past q' := by
  unfold begin at hs
  split at hs
  case h_4 hphase =>
    cases hs
    exact .of_phase rfl rfl (by simp) (fun _ => rfl) id (fun _ => rfl)
  case h_6 => cases hs
  all_goals
    rename_i hphase
    simp [arriving, hphase] at hq

theorem past_select {e : PromptEvent} (hphase : q.phase = .selecting)
    (hs : q.select closed e = some q') : q.Past q' := by
  have hpumping : q.pumping = false → q'.pumping = false := by simp [pumping, hphase]
  unfold select at hs
  split at hs
  · split at hs <;> cases hs <;> exact .of_phase rfl rfl (by simp) id id hpumping
  · cases hs
    exact .of_phase rfl rfl (by simp) id id hpumping
  · split at hs <;> cases hs
    exact .of_phase rfl rfl (by simp) id id hpumping
  · cases hs

theorem past_pump {e : PromptEvent} (hs : q.pump closed e = some q') : q.Past q' := by
  unfold pump at hs
  split at hs
  case h_1 hphase => exact past_select hphase hs
  case h_2 hphase =>
    cases hs
    exact .of_phase rfl rfl (by simp) id (fun _ => rfl) (by simp [pumping, hphase])
  case h_3 ok hphase =>
    cases hs
    cases ok <;> exact .of_phase rfl rfl (by simp) (fun _ => rfl) id (by simp [pumping, hphase])
  case h_4 ok hphase =>
    cases hs
    cases ok <;> exact .of_phase rfl rfl (by simp) id id (by simp [pumping, hphase])
  case h_5 hphase =>
    cases hs
    exact .of_phase rfl rfl (by simp) (fun _ => rfl) id (by simp [pumping, hphase])
  case h_6 hphase =>
    cases hs
    exact .of_phase rfl rfl (by simp) id id (by simp [pumping, hphase])
  case h_7 hphase =>
    cases hs
    exact .of_phase rfl rfl (by simp [cleanupSession]) id id (by simp [pumping, hphase])
  case h_8 => cases hs

theorem past_perform (hq : q.arriving = false) (s : CancelStep) : q.Past (q.perform s) := by
  cases s with
  | context => exact .of_same hq rfl rfl (fun _ => rfl) id
  | session => exact .of_same hq rfl rfl id (fun _ => rfl)

theorem past_letGo (hq : q.arriving = false) : q.Past q.letGo := by
  unfold letGo
  split <;> exact .of_same hq rfl rfl id id

theorem past_moved (hq : q.arriving = false) (hm : q.Moved closed q') : q.Past q' := by
  cases hm with
  | same | cancel => exact .of_same hq rfl rfl id id
  | begin hs => exact past_begin hq hs
  | pump hs => exact past_pump hs
  | call hs =>
    unfold continueCall at hs
    split at hs <;> cases hs
    rename_i s _ _
    exact ⟨(past_perform hq s).arriving, (past_perform hq s).created, (past_perform hq s).cancelled,
      (past_perform hq s).pumping⟩
  | expire hs =>
    unfold expireIdle at hs
    split at hs <;> cases hs
    exact .of_same hq rfl rfl id id
  | interrupt =>
    unfold interrupt
    split
    · exact ⟨(past_letGo hq).arriving, (past_letGo hq).created, (past_letGo hq).cancelled,
        (past_letGo hq).pumping⟩
    · exact .of_same hq rfl rfl id id
  | letGo => exact past_letGo hq
  | perform s => exact past_perform hq s

end Prompt

namespace Handoff

variable {h h' : Handoff}

def Released (h : Handoff) : Prop := ∃ r, h.release = some r ∧ ∃ a ∈ r.attempts, a.hasCancelled

theorem Released.keeps (hr : h.Released) (hk : h.Keeps h') : h'.Released := by
  obtain ⟨r, hrelease, a, ha, hcancelled⟩ := hr
  obtain ⟨r', hrelease', hattempts⟩ := hk r hrelease
  obtain ⟨i, hi⟩ := List.getElem?_of_mem ha
  obtain ⟨a', ha', hstays⟩ := hattempts i a hi
  exact ⟨r', hrelease', a', List.mem_of_getElem? ha', hstays hcancelled⟩

theorem ReleaseOk.released (hok : h.ReleaseOk) (hleft : h.registered = false) : h.Released := by
  cases hr : h.release with
  | none =>
    rw [hok.unreleased hr] at hleft
    cases hleft
  | some r =>
    obtain ⟨earlier, current, hchain, -, -, hjoined⟩ := hok.chain r hr
    refine ⟨r, hr, current, by simp [hchain.attempts], ?_⟩
    exact Attempt.hasCancelled_of_hasJoined (hjoined hleft)

theorem ReleaseOk.released_of_done (hok : h.ReleaseOk) {r : Release} (hr : h.release = some r)
    {j : Nat} {a : Attempt} (ha : r.attempts[j]? = some a) (hdone : a.isDone) (herr : a.err = false) :
    h.Released := by
  obtain ⟨earlier, current, hchain, -⟩ := hok.chain r hr
  have hmem := List.mem_of_getElem? ha
  refine ⟨r, hr, a, hmem, ?_⟩
  rw [hchain.attempts, List.mem_append, List.mem_singleton] at hmem
  rcases hmem with hearlier | rfl
  · have hfailed := (hchain.failed a hearlier).1
    simp [Attempt.hasFailed, herr] at hfailed
  · have hrecorded : a.unrecorded = false := by
      apply Bool.eq_false_iff.mpr
      intro hunrecorded
      have := (hchain.current.unrecorded hunrecorded).1
      simp [Attempt.isDone, this] at hdone
    unfold Attempt.unrecorded at hrecorded
    unfold Attempt.hasCancelled
    split at hrecorded <;> simp_all
    split <;> simp_all

end Handoff

namespace Preparation

variable {p p' : Preparation}

theorem goes_handoff_eq_none (hgoes : Goes (Preparation.step true) p p')
    (hnone : p.handoff = none) :
    p'.handoff = none :=
  hgoes.keeps (I := fun p => p.handoff = none) (fun _ _ _ hs => handoff_eq_none_of_closed hs) hnone

theorem Sound.handoff_of_closed (hp : p.Sound) (hgoes : Goes (Preparation.step true) p p')
    {h' : Handoff} (hh' : p'.handoff = some h') :
    ∃ h, p.handoff = some h ∧ h.Keeps h' ∧ (h.pump = .over → h'.pump = .over) := by
  cases hh : p.handoff with
  | none =>
    rw [goes_handoff_eq_none hgoes hh] at hh'
    cases hh'
  | some h =>
    obtain ⟨g, hg, hkeeps, -, hstops⟩ := hp.goes_handoff hgoes h hh
    rw [hh'] at hg
    cases hg
    exact ⟨h, rfl, hkeeps, hstops⟩

end Preparation

namespace Router

variable {r r' : Router} {label : Label}

theorem runUpload_closed {w w' : WorkspaceWrite.Router} {s : UploadStep}
    (hs : runUpload w s = some w') : w'.closed = w.closed := by
  cases s with
  | takeBody =>
    obtain ⟨u, -, -, rfl⟩ := WorkspaceWrite.Router.takeBody_eq_some hs
    rfl
  | writeLocal answer =>
    obtain ⟨u, data, -, -, rfl⟩ := WorkspaceWrite.Router.writeWorkspaceFile_eq_some hs
    rfl
  | recordResult =>
    simp only [runUpload, WorkspaceWrite.Router.recordResult] at hs
    split at hs
    · split at hs
      · split at hs <;> cases hs <;> rfl
      · cases hs
    · cases hs
  | sendResult i =>
    simp only [runUpload] at hs
    split at hs <;> cases hs
    rfl

theorem runUpload_eq_none (hidle : r.uploading = false) (s : UploadStep) :
    runUpload r.write s = none := by
  simp only [uploading, Bool.or_eq_false_iff, Bool.not_eq_false', List.isEmpty_iff] at hidle
  obtain ⟨hworker, houtbox⟩ := hidle
  apply Option.eq_none_iff_forall_ne_some.mpr
  intro w hs
  cases s with
  | takeBody =>
    obtain ⟨u, hu, hwaiting, -⟩ := WorkspaceWrite.Router.takeBody_eq_some hs
    simp [hu, hwaiting] at hworker
  | writeLocal answer =>
    obtain ⟨u, data, hu, happlying, -⟩ := WorkspaceWrite.Router.writeWorkspaceFile_eq_some hs
    simp [hu, happlying] at hworker
  | recordResult =>
    obtain ⟨u, result, hu, hfinishing, -⟩ := WorkspaceWrite.Router.recordResult_eq_some hs
    simp [hu, hfinishing] at hworker
  | sendResult i => simp [runUpload, houtbox] at hs

theorem runExport_closed {e e' : WorkspaceExport.Router} {s : ExportStep}
    (hs : runExport e s = some e') : e'.closed = e.closed := by
  cases s with
  | takeRequest =>
    simp only [runExport, WorkspaceExport.Router.takeRequest] at hs
    repeat' split at hs
    all_goals cases hs
    all_goals rfl
  | readPipe read =>
    simp only [runExport, WorkspaceExport.Router.readPipe] at hs
    repeat' split at hs
    all_goals cases hs
    all_goals rfl
  | send ok =>
    simp only [runExport] at hs
    repeat' split at hs
    all_goals cases hs
    rfl
  | expire =>
    simp only [runExport, WorkspaceExport.Router.expire] at hs
    repeat' split at hs
    all_goals cases hs
    rfl
  | letGo =>
    simp only [runExport, WorkspaceExport.Router.letGo] at hs
    repeat' split at hs
    all_goals cases hs
    rfl
  | sendCompleted i =>
    simp only [runExport] at hs
    split at hs <;> cases hs
    rfl

theorem runExport_eq_none (hidle : r.exporting = false) (s : ExportStep) :
    runExport r.exports s = none := by
  simp only [exporting, Bool.or_eq_false_iff, Bool.not_eq_false', List.isEmpty_iff,
    Option.isSome_eq_false_iff, Option.isNone_iff_eq_none] at hidle
  obtain ⟨hnone, houtbox⟩ := hidle
  cases s with
  | takeRequest => simp [runExport, WorkspaceExport.Router.takeRequest, hnone]
  | readPipe read => simp [runExport, WorkspaceExport.Router.readPipe, hnone]
  | send ok => simp [runExport, hnone]
  | expire => simp [runExport, WorkspaceExport.Router.expire, hnone]
  | letGo => simp [runExport, WorkspaceExport.Router.letGo, hnone]
  | sendCompleted i => simp [runExport, houtbox]

theorem handleWorkspaceWrite_closed (hclosed : r.write.closed) (env : WorkspaceWrite.Frame)
    (accepts : Bool) : r.handleWorkspaceWrite env accepts = r := by
  have hsame : (r.write.handleWorkspaceWrite (r.otherWork accepts) env).1 = r.write := by
    unfold WorkspaceWrite.Router.handleWorkspaceWrite
    rw [hclosed]
    split
    · rfl
    · split
      · split <;> rfl
      · rfl
  unfold handleWorkspaceWrite
  rw [hsame]

theorem handleWorkspaceExport_closed (hclosed : r.exports.closed) (env : WorkspaceExport.Frame)
    (can : Bool) (stream : GoStd.Bytes) : r.handleWorkspaceExport env can stream = r := by
  have hsame : (r.exports.handleWorkspaceExport (r.exportAvailable env can) stream env).1 =
      r.exports := by
    unfold WorkspaceExport.Router.handleWorkspaceExport
    rw [hclosed]
    split <;> rfl
  unfold handleWorkspaceExport
  rw [hsame]

theorem Transfers.of_closed (ht : r.Transfers r') (hwrite : r.write.closed)
    (hexports : r.exports.closed) :
    (r'.write.closed ∧ r'.exports.closed) ∧ (r.uploading = false → r'.uploading = false) ∧
      (r.exporting = false → r'.exporting = false) := by
  cases ht with
  | same hw he => simp [uploading, exporting, hw, he, hwrite, hexports]
  | close hw he => simp [uploading, exporting, hw, he]
  | write heq =>
    rw [heq, handleWorkspaceWrite_closed hwrite]
    exact ⟨⟨hwrite, hexports⟩, id, id⟩
  | beginExport heq =>
    rw [heq, handleWorkspaceExport_closed hexports]
    exact ⟨⟨hwrite, hexports⟩, id, id⟩
  | upload hs heq =>
    subst heq
    refine ⟨⟨(runUpload_closed hs).trans hwrite, hexports⟩, ?_, id⟩
    intro hidle
    rw [runUpload_eq_none hidle] at hs
    cases hs
  | runExport hs heq =>
    subst heq
    refine ⟨⟨hwrite, (runExport_closed hs).trans hexports⟩, id, ?_⟩
    intro hidle
    rw [runExport_eq_none hidle] at hs
    cases hs

def RunsReleased (r : Router) : Prop :=
  ∀ p ∈ r.preparations, ∀ h, p.handoff = some h → h.Released

structure Stopped (r : Router) : Prop where
  prompts : ∀ q ∈ r.prompts, q.pumping = false ∧ q.arriving = false ∧ (q.created → q.cancelled)
  outputs : ∀ p ∈ r.preparations, ∀ h, p.handoff = some h → h.pump = .over
  upload : r.uploading = false
  exports : r.exporting = false

/-- What is left of the router after a shutdown that returns nil. -/
structure Down (r : Router) : Prop where
  closed : r.closed
  stopped : r.Stopped
  runs : r.RunsReleased
  disowned : ∀ p ∈ r.preparations, p.owns = false

def Awaits (r : Router) (i : Nat) : Prop :=
  ∃ attempt ∈ r.shutdowns, attempt.phase = .cancelling ∧
    ∃ steps, .prompt i steps ∈ attempt.victims ∧ .context ∈ steps

def Vouches (r : Router) (attempt : ShutdownAttempt) : Prop :=
  match attempt.phase with
  | .cancelling => ∀ i p h, r.preparations[i]? = some p → p.handoff = some h →
      h.Released ∨ attempt.releaseErr ∨ ∃ j, .handoff i j ∈ attempt.victims
  | .waiting => r.RunsReleased
  | .checking => r.RunsReleased ∧ r.Stopped
  | .finished err => err = false → r.Down

structure Closing (r : Router) : Prop where
  sound : r.Sound
  unasked : r.closed = false → r.shutdowns = []
  transfers : r.closed → r.write.closed ∧ r.exports.closed
  prompts : r.closed → ∀ i q, r.prompts[i]? = some q →
    q.arriving = false ∧ (q.created → q.cancelled ∨ r.Awaits i)
  attempts : ∀ attempt ∈ r.shutdowns, r.Vouches attempt

theorem Stepped.preparation_of_closed (hs : r.Stepped r' label) (hclosed : r.closed) {i : Nat}
    {p' : Preparation} (hp' : r'.preparations[i]? = some p') :
    ∃ p, r.preparations[i]? = some p ∧ Goes (Preparation.step true) p p' := by
  rcases hs.preparations.cases hp' with ⟨p, hp, hgoes⟩ | ⟨-, _, _, _, _, -, hopen, -⟩
  · rw [hclosed] at hgoes
    exact ⟨p, hp, hgoes⟩
  · rw [hclosed] at hopen
    cases hopen

theorem Stepped.prompt_of_closed (hs : r.Stepped r' label) (hclosed : r.closed) {i : Nat}
    {q' : Prompt}
    (hq' : r'.prompts[i]? = some q') : ∃ q, r.prompts[i]? = some q ∧ q.Moved true q' := by
  rcases hs.prompts.cases hq' with ⟨q, hq, hmoved⟩ | ⟨-, _, _, _, -, hopen, -⟩
  · rw [hclosed] at hmoved
    exact ⟨q, hq, hmoved⟩
  · rw [hclosed] at hopen
    cases hopen

theorem RunsReleased.stepped (hruns : r.RunsReleased) (hr : r.Sound) (hclosed : r.closed)
    (hs : r.Stepped r' label) : r'.RunsReleased := by
  intro p' hp' h' hh'
  obtain ⟨i, hi⟩ := List.getElem?_of_mem hp'
  obtain ⟨p, hp, hgoes⟩ := hs.preparation_of_closed hclosed hi
  have hmem := List.mem_of_getElem? hp
  obtain ⟨h, hh, hkeeps, -⟩ := (hr.each p hmem).handoff_of_closed hgoes hh'
  exact (hruns p hmem h hh).keeps hkeeps

theorem Stopped.stepped (hstopped : r.Stopped) (hr : r.Closing) (hclosed : r.closed)
    (hs : r.Stepped r' label) : r'.Stopped := by
  obtain ⟨hwrite, hexports⟩ := hr.transfers hclosed
  obtain ⟨-, hupload, hexport⟩ := hs.transfers.of_closed hwrite hexports
  refine ⟨?_, ?_, hupload hstopped.upload, hexport hstopped.exports⟩
  · intro q' hq'
    obtain ⟨i, hi⟩ := List.getElem?_of_mem hq'
    obtain ⟨q, hq, hmoved⟩ := hs.prompt_of_closed hclosed hi
    obtain ⟨hpumping, harriving, hcancelled⟩ := hstopped.prompts q (List.mem_of_getElem? hq)
    have hpast := Prompt.past_moved harriving hmoved
    exact ⟨hpast.pumping hpumping, hpast.arriving,
      fun hcreated => hpast.cancelled (hcancelled (hpast.created hcreated))⟩
  · intro p' hp' h' hh'
    obtain ⟨i, hi⟩ := List.getElem?_of_mem hp'
    obtain ⟨p, hp, hgoes⟩ := hs.preparation_of_closed hclosed hi
    have hmem := List.mem_of_getElem? hp
    obtain ⟨h, hh, -, hstops⟩ := (hr.sound.each p hmem).handoff_of_closed hgoes hh'
    exact hstops (hstopped.outputs p hmem h hh)

theorem Down.stepped (hdown : r.Down) (hr : r.Closing) (hs : r.Stepped r' label) : r'.Down := by
  refine ⟨hs.control.closed_le hdown.closed, hdown.stopped.stepped hr hdown.closed hs,
    hdown.runs.stepped hr.sound hdown.closed hs, ?_⟩
  intro p' hp'
  obtain ⟨i, hi⟩ := List.getElem?_of_mem hp'
  obtain ⟨p, hp, hgoes⟩ := hs.preparation_of_closed hdown.closed hi
  apply Bool.eq_false_iff.mpr
  intro howns
  have hbefore := (Preparation.goes_frame hgoes).owns howns
  rw [hdown.disowned p (List.mem_of_getElem? hp)] at hbefore
  cases hbefore

theorem Vouches.stepped {attempt : ShutdownAttempt} (hv : r.Vouches attempt) (hr : r.Closing)
    (hclosed : r.closed) (hs : r.Stepped r' label) : r'.Vouches attempt := by
  unfold Vouches at hv ⊢
  split at hv
  · intro i p' h' hp' hh'
    obtain ⟨p, hp, hgoes⟩ := hs.preparation_of_closed hclosed hp'
    obtain ⟨h, hh, hkeeps, -⟩ :=
      (hr.sound.each p (List.mem_of_getElem? hp)).handoff_of_closed hgoes hh'
    exact (hv i p h hp hh).imp_left (·.keeps hkeeps)
  · exact hv.stepped hr.sound hclosed hs
  · exact ⟨hv.1.stepped hr.sound hclosed hs, hv.2.stepped hr hclosed hs⟩
  · exact fun herr => (hv herr).stepped hr hs

/-- The first shutdown finds no prompt before its `pump`, and no session that nobody has cancelled
or holds. -/
def Orderly (r : Router) : Label → Prop
  | .shutdown _ => r.closed = false →
      ∀ q ∈ r.prompts, q.arriving = false ∧ (q.created → q.cancelled ∨ q.held)
  | _ => True

instance (r : Router) (l : Label) : Decidable (r.Orderly l) := by
  unfold Orderly
  split <;> infer_instance

theorem Closing.closed_of_mem (hr : r.Closing) {attempt : ShutdownAttempt}
    (hmem : attempt ∈ r.shutdowns) : r.closed := by
  by_contra hopen
  rw [hr.unasked (by simpa using hopen)] at hmem
  cases hmem

theorem Closing.prompts_stepped (hr : r.Closing) (hclosed : r.closed) (hs : r.Stepped r' label)
    (hawaits : ∀ i q', r'.prompts[i]? = some q' → r.Awaits i → q'.cancelled ∨ r'.Awaits i) (i : Nat)
    (q' : Prompt) (hq' : r'.prompts[i]? = some q') :
    q'.arriving = false ∧ (q'.created → q'.cancelled ∨ r'.Awaits i) := by
  obtain ⟨q, hq, hmoved⟩ := hs.prompt_of_closed hclosed hq'
  obtain ⟨harriving, hcancelled⟩ := hr.prompts hclosed i q hq
  have hpast := Prompt.past_moved harriving hmoved
  refine ⟨hpast.arriving, ?_⟩
  intro hcreated
  rcases hcancelled (hpast.created hcreated) with hdone | hawaited
  · exact .inl (hpast.cancelled hdone)
  · exact hawaits i q' hq' hawaited

theorem Closing.same (hr : r.Closing) (hsound : r'.Sound) (hs : r.Stepped r' label)
    (hclosed : r'.closed = r.closed) (hshutdowns : r'.shutdowns = r.shutdowns) : r'.Closing := by
  refine ⟨hsound, ?_, ?_, ?_, ?_⟩
  · rw [hclosed, hshutdowns]
    exact hr.unasked
  · intro hc
    rw [hclosed] at hc
    exact (hs.transfers.of_closed (hr.transfers hc).1 (hr.transfers hc).2).1
  · intro hc
    rw [hclosed] at hc
    refine hr.prompts_stepped hc hs fun i q' _ hawaited => .inr ?_
    unfold Awaits
    rwa [hshutdowns]
  · intro attempt hmem
    rw [hshutdowns] at hmem
    exact (hr.attempts attempt hmem).stepped hr (hr.closed_of_mem hmem) hs

theorem mem_victims_prompt {i : Nat} {q : Prompt} (hopen : r.closed = false)
    (hq : r.prompts[i]? = some q) (hheld : q.held) : .prompt i q.cancellation ∈ r.victims := by
  have hmem : (q, i) ∈ r.prompts.zipIdx := List.mk_mem_zipIdx_iff_getElem?.mpr hq
  simp only [victims, hopen, Bool.false_eq_true, if_false, List.mem_append, List.mem_filterMap]
  exact .inr ⟨(q, i), hmem, by simp [promptVictim, hheld]⟩

theorem mem_victims_handoff {i : Nat} {p : Preparation} {h : Handoff}
    (hp : r.preparations[i]? = some p) (hh : p.handoff = some h) (hregistered : h.registered) :
    ∃ j, .handoff i j ∈ r.victims := by
  have hmem : (p, i) ∈ r.preparations.zipIdx := List.mk_mem_zipIdx_iff_getElem?.mpr hp
  have hclaim : ∃ release, (h.claim true "" true).1.release = some release := by
    simp only [Handoff.claim]
    split <;> exact ⟨_, rfl⟩
  obtain ⟨release, hrelease⟩ := hclaim
  refine ⟨release.attempts.length - 1, ?_⟩
  simp only [victims, List.mem_append, List.mem_filterMap]
  exact .inl ⟨(p, i), hmem, by simp [handoffVictim, hh, hregistered, hrelease]⟩

theorem Closing.shutdown (hr : r.Closing) (hsound : r'.Sound) {order : List Victim}
    (horderly : r.Orderly (.shutdown order)) (hs : r.shutdown order = some r') : r'.Closing := by
  have hstepped : r.Stepped r' (.shutdown order) := .step hs
  simp only [Router.shutdown] at hs
  split at hs <;> cases hs
  rename_i hmay
  have hperm := List.isPerm_iff.mp hmay.2
  refine ⟨hsound, by simp, fun _ => ⟨rfl, rfl⟩, ?_, ?_⟩
  · intro _ i q' hq'
    by_cases hclosed : r.closed
    · -- the victims of the first shutdown are those of an earlier attempt
      refine hr.prompts_stepped hclosed hstepped (fun j _ _ hawaited => .inr ?_) i q' hq'
      obtain ⟨attempt, hmem, hattempt⟩ := hawaited
      exact ⟨attempt, List.mem_append_left _ hmem, hattempt⟩
    · have hopen : r.closed = false := by simpa using hclosed
      simp only [List.getElem?_map, Option.map_eq_some_iff] at hq'
      obtain ⟨q, hq, rfl⟩ := hq'
      obtain ⟨harriving, hcancelled⟩ := horderly hopen q (List.mem_of_getElem? hq)
      have hpast := Prompt.past_letGo harriving
      refine ⟨hpast.arriving, ?_⟩
      intro hcreated
      rcases hcancelled (hpast.created hcreated) with hdone | hheld
      · exact .inl (hpast.cancelled hdone)
      · refine .inr ⟨{ victims := order }, by simp, rfl, q.cancellation, ?_, by simp [Prompt.cancellation]⟩
        exact hperm.mem_iff.mpr (mem_victims_prompt hopen hq hheld)
  · intro attempt hmem
    rcases mem_concat hmem with hold | rfl
    · exact (hr.attempts attempt hold).stepped hr (hr.closed_of_mem hold) hstepped
    · intro i p' h' hp' hh'
      simp only [List.getElem?_map, Option.map_eq_some_iff] at hp'
      obtain ⟨p, hp, rfl⟩ := hp'
      have hpsound := hr.sound.each p (List.mem_of_getElem? hp)
      obtain ⟨h, hh, hkeeps, -⟩ :=
        hpsound.handoff_of_closed (Preparation.goes_shutDown true p) hh'
      by_cases hregistered : h.registered
      · obtain ⟨j, hj⟩ := mem_victims_handoff hp hh hregistered
        exact .inr (.inr ⟨j, hperm.mem_iff.mpr hj⟩)
      · have hreleased := (hpsound.release h hh).released (by simpa using hregistered)
        exact .inl (hreleased.keeps hkeeps)

theorem Closing.released_of_await (hr : r.Closing) {i j : Nat} {p : Preparation} {h : Handoff}
    (hp : r.preparations[i]? = some p) (hh : p.handoff = some h)
    (hok : r.awaitRelease i j = some true) : h.Released := by
  simp only [awaitRelease, releaseAttempt, hp, hh, Option.bind_eq_bind, Option.bind_some] at hok
  split at hok
  · rename_i release a hattempt
    simp only [Option.bind_eq_some_iff, Option.some.injEq, Prod.mk.injEq] at hattempt
    obtain ⟨_, hrelease, _, ha, rfl, rfl⟩ := hattempt
    split at hok
    · cases hok
    · rename_i hdone
      split at hok
      · cases hok
      · rename_i herr
        have hpok := (hr.sound.each p (List.mem_of_getElem? hp)).release h hh
        exact hpok.released_of_done hrelease ha (by simpa using hdone) (by simpa using herr)
  · cases hok

theorem Closing.stopped_of_quiet (hr : r.Closing) (hclosed : r.closed) (hquiet : r.quiet) :
    r.Stopped := by
  simp only [quiet, Bool.and_eq_true, List.all_eq_true, Bool.not_eq_true'] at hquiet
  obtain ⟨⟨⟨⟨⟨htracked, hpumping⟩, hupload⟩, hexport⟩, -⟩, hdispatched⟩ := hquiet
  refine ⟨?_, ?_, hupload, hexport⟩
  · intro q hq
    obtain ⟨i, hi⟩ := List.getElem?_of_mem hq
    obtain ⟨harriving, hcancelled⟩ := hr.prompts hclosed i q hi
    refine ⟨hpumping q hq, harriving, ?_⟩
    intro hcreated
    rcases hcancelled hcreated with hdone | ⟨attempt, hmem, hphase, -⟩
    · exact hdone
    · simpa [hphase] using hdispatched attempt hmem
  · intro p hp h hh
    have := htracked p hp
    simp only [Preparation.tracked, hh, Option.any_some, Bool.or_eq_false_iff] at this
    simpa using this.2.1.2

theorem Closing.down_of_check (hr : r.Closing) (hclosed : r.closed) (hruns : r.RunsReleased)
    (hstopped : r.Stopped) (hsettled : r.unsettled = false) : r.Down := by
  refine ⟨hclosed, hstopped, hruns, ?_⟩
  intro p hp
  simp only [unsettled, ownsPreparation, Bool.or_eq_false_iff, List.any_eq_false,
    Bool.and_eq_true] at hsettled
  cases hlisted : p.listed with
  | false => exact (hr.sound.each p hp).tenure.unlisted hlisted
  | true => simpa [hlisted] using hsettled.2 p hp

theorem Closing.vouches_advanced (hr : r.Closing) {attempt attempt' : ShutdownAttempt}
    {prompts : List Prompt} (hmem : attempt ∈ r.shutdowns)
    (hadvanced : r.Advanced attempt prompts attempt') : r.Vouches attempt' := by
  have hclosed := hr.closed_of_mem hmem
  have hv := hr.attempts attempt hmem
  unfold Vouches at hv
  cases hadvanced with
  | dispatched hphase hnil =>
    simp only [hphase, hnil, List.not_mem_nil, exists_false, or_false] at hv
    unfold Vouches
    cases herr : attempt.releaseErr with
    | true => simp
    | false =>
      simp only [herr, Bool.false_eq_true, or_false] at hv
      intro p hp h hh
      obtain ⟨i, hi⟩ := List.getElem?_of_mem hp
      exact hv i p h hi hh
  | skip hphase hvictims | cancel hphase hvictims => simpa [hphase, hvictims, Vouches] using hv
  | await hphase hvictims hok =>
    rename_i i₀ j₀ rest ok
    simp only [hphase, hvictims, List.mem_cons, Victim.handoff.injEq] at hv
    simp only [Vouches, hphase]
    intro i p h hp hh
    rcases hv i p h hp hh with hreleased | herr | ⟨j, ⟨rfl, rfl⟩ | hrest⟩
    · exact .inl hreleased
    · exact .inr (.inl (by simp [herr]))
    · cases ok with
      | true => exact .inl (hr.released_of_await hp hh hok)
      | false => exact .inr (.inl (by simp))
    · exact .inr (.inr ⟨j, hrest⟩)
  | quiet hphase hquiet =>
    simp only [hphase] at hv
    exact ⟨hv, hr.stopped_of_quiet hclosed hquiet⟩
  | check hphase =>
    simp only [hphase] at hv
    exact fun hsettled => hr.down_of_check hclosed hv.1 hv.2 hsettled

theorem Advanced.awaits {attempt attempt' : ShutdownAttempt} {prompts : List Prompt}
    (hadvanced : r.Advanced attempt prompts attempt') (hphase : attempt.phase = .cancelling)
    {i : Nat}
    {steps : List CancelStep} (hvictim : .prompt i steps ∈ attempt.victims)
    (hcontext : .context ∈ steps) {q' : Prompt} (hq' : prompts[i]? = some q') :
    q'.cancelled ∨ attempt'.phase = .cancelling ∧
      ∃ steps', .prompt i steps' ∈ attempt'.victims ∧ .context ∈ steps' := by
  cases hadvanced with
  | dispatched _ hnil => simp [hnil] at hvictim
  | skip _ hvictims =>
    rw [hvictims, List.mem_cons] at hvictim
    rcases hvictim with heq | hrest
    · cases heq
      cases hcontext
    · exact .inr ⟨hphase, steps, hrest, hcontext⟩
  | cancel _ hvictims hq =>
    rw [hvictims, List.mem_cons] at hvictim
    rcases hvictim with heq | hrest
    · cases heq
      rcases List.mem_cons.mp hcontext with rfl | hlater
      · left
        rw [List.getElem?_set_self (List.getElem?_eq_some_iff.mp hq).1] at hq'
        cases hq'
        simp [Prompt.perform, Prompt.cancelled]
      · exact .inr ⟨hphase, _, by simp, hlater⟩
    · exact .inr ⟨hphase, steps, List.mem_cons_of_mem _ hrest, hcontext⟩
  | await _ hvictims _ =>
    rw [hvictims, List.mem_cons] at hvictim
    rcases hvictim with heq | hrest
    · cases heq
    · exact .inr ⟨hphase, steps, hrest, hcontext⟩
  | quiet hwaiting _ => simp [hphase] at hwaiting
  | check hchecking => simp [hphase] at hchecking

theorem Closing.attempt (hr : r.Closing) (hsound : r'.Sound) {k : Nat}
    (hs : r.runShutdownAttempt k = some r') : r'.Closing := by
  have hstepped := Stepped.runShutdownAttempt hs
  obtain ⟨attempt, prompts, attempt', hk, hadvanced, rfl⟩ := runShutdownAttempt_advanced hs
  have hmem := List.mem_of_getElem? hk
  have hclosed := hr.closed_of_mem hmem
  refine ⟨hsound, fun hopen => (Bool.false_ne_true (hopen.symm.trans hclosed)).elim, hr.transfers,
    fun _ => ?_, ?_⟩
  · refine hr.prompts_stepped hclosed hstepped ?_
    rintro i q' hq' ⟨b, hb, hphase, steps, hvictim, hcontext⟩
    obtain ⟨m, hm⟩ := List.getElem?_of_mem hb
    by_cases hmk : k = m
    · subst hmk
      rw [hk] at hm
      cases hm
      have hset : attempt' ∈ r.shutdowns.set k attempt' :=
        List.mem_set (List.getElem?_eq_some_iff.mp hk).1 attempt'
      exact (hadvanced.awaits hphase hvictim hcontext hq').imp_right fun h => ⟨attempt', hset, h⟩
    · refine .inr ⟨b, List.mem_of_getElem? (i := m) ?_, hphase, steps, hvictim, hcontext⟩
      simpa [hmk] using hm
  · intro b hb
    rcases List.mem_or_eq_of_mem_set hb with hold | rfl
    · exact (hr.attempts b hold).stepped hr hclosed hstepped
    · exact (hr.vouches_advanced hmem hadvanced).stepped hr hclosed hstepped

theorem Closing.step (hr : r.Closing) {l : Label} (horderly : r.Orderly l)
    (hs : r.step l = some r') : r'.Closing := by
  have hstepped := Stepped.step hs
  have hsound := hr.sound.step hs
  cases hstepped.control with
  | same hclosed hshutdowns => exact hr.same hsound hstepped hclosed hshutdowns
  | shutdown hs => exact hr.shutdown hsound horderly hs
  | attempt hs => exact hr.attempt hsound hs

theorem closing_of_run {as : List Label} (hr : r.Closing)
    (hmeet : StepsMeet Router.step Orderly r as) (hrun : runTrace Router.step r as = some r') :
    r'.Closing :=
  runTrace_invariant (fun _ _ _ hok hs hr => hr.step hok hs) hmeet hrun hr

theorem closing_init : ({} : Router).Closing where
  sound := sound_of_reaches (show Reaches [] {} from rfl)
  unasked _ := rfl
  transfers := nofun
  prompts := nofun
  attempts := nofun

theorem Down.orderly (hdown : r.Down) (l : Label) : r.Orderly l := by
  unfold Orderly
  split
  · intro hopen
    rw [hdown.closed] at hopen
    cases hopen
  · trivial

theorem Down.run (hdown : r.Down) (hr : r.Closing) {as : List Label}
    (hrun : runTrace Router.step r as = some r') : r'.Down := by
  have hstep : ∀ (s : Router) (l : Label) (t : Router), True → s.step l = some t →
      s.Closing ∧ s.Down → t.Closing ∧ t.Down :=
    fun _ l _ _ hs h => ⟨h.1.step (h.2.orderly l) hs, h.2.stepped h.1 (.step hs)⟩
  exact (runTrace_invariant hstep (stepsMeet_true r as) hrun ⟨hr, hdown⟩).2

def HasShutDown (r : Router) : Prop := ∃ attempt ∈ r.shutdowns, attempt.phase = .finished false

theorem shutdown_complete {as bs : List Label} {r r' : Router}
    (hmeet : StepsMeet Router.step Orderly {} as) (hreach : Reaches as r) (hnil : r.HasShutDown)
    (hrun : runTrace Router.step r bs = some r') : r.Down ∧ r'.Down := by
  have hr := closing_of_run closing_init hmeet hreach
  obtain ⟨attempt, hmem, hphase⟩ := hnil
  have hv := hr.attempts attempt hmem
  simp only [Vouches, hphase] at hv
  have hdown := hv trivial
  exact ⟨hdown, hdown.run hr hrun⟩

def busyTrace : List Label :=
  .promptRequest "chat" "" false :: List.replicate 3 (.beginPrompt 0 true) ++ startTrace {} ++
  .shutdown [.handoff 0 0, .prompt 0 [.context, .session]] ::
  List.replicate 4 (.preparation 0 (.attempt 0 true)) ++
  [.preparation 0 .closeOut, .preparation 0 (.pump {}), .preparation 0 (.pump {})] ++
  List.replicate 4 (.preparation 0 (.attempt 0 true)) ++
  List.replicate 5 (.shutdownAttempt 0) ++
  [.pump 0 .shutdown, .pump 0 .shutdown, .pump 0 .outClosed, .pump 0 .outClosed,
    .shutdownAttempt 0, .shutdownAttempt 0]

theorem shutdown_complete_busy : ∃ r, Reaches busyTrace r ∧ r.HasShutDown ∧ r.Down ∧
    r.prompts.map (·.created) = [true] ∧ r.preparations.length = 1 := by
  have hmeet : StepsMeet Router.step Orderly {} busyTrace := stepsMeet_of_check (by decide +kernel)
  have hcheck : (runTrace Router.step {} busyTrace).any (fun r =>
      r.shutdowns.any (·.phase = .finished false) && r.prompts.map (·.created) = [true] &&
      r.preparations.length = 1) = true := by
    decide +kernel
  simp only [Option.any_eq_true, Bool.and_eq_true, List.any_eq_true, decide_eq_true_eq] at hcheck
  obtain ⟨r, hreach, ⟨hnil, hcreated⟩, hlength⟩ := hcheck
  have hdown := (shutdown_complete hmeet hreach hnil (show runTrace Router.step r [] = some r from rfl)).1
  exact ⟨r, hreach, hnil, hdown, hcreated, hlength⟩

def lateTrace : List Label :=
  [.promptRequest "run" "" false, .shutdown [.prompt 0 [.context]]] ++
  List.replicate 5 (.shutdownAttempt 0)

theorem pump_started_after_shutdown : ∃ r r', Reaches lateTrace r ∧ r.HasShutDown ∧
    runTrace Router.step r (List.replicate 3 (.beginPrompt 0 true)) = some r' ∧
    ∃ q ∈ r'.prompts, q.pumping := by
  have hcheck : (runTrace Router.step {} lateTrace).any (fun r =>
      r.shutdowns.any (·.phase = .finished false) &&
      (runTrace Router.step r (List.replicate 3 (.beginPrompt 0 true))).any fun r' =>
        r'.prompts.any (·.pumping)) = true := by
    decide +kernel
  simp only [Option.any_eq_true, Bool.and_eq_true, List.any_eq_true, decide_eq_true_eq] at hcheck
  obtain ⟨r, hreach, hnil, r', hrun, hpumping⟩ := hcheck
  exact ⟨r, r', hreach, hnil, hrun, hpumping⟩

end Router

end Parsar.Dispatch
