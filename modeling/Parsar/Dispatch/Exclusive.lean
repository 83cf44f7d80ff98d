import Parsar.Dispatch.Sound

namespace Parsar.Dispatch

namespace Preparation

variable {p p' : Preparation} {closed : Bool}

/-- Nothing of the preparation runs, and what it still owns is for reading only. -/
structure Harmless (p : Preparation) : Prop where
  running : p.running = false
  readOnly : p.owns → p.workspaceReadOnly

theorem Harmless.new (requestID handle : String) (expiresAt : Int) :
    (Preparation.new requestID handle true expiresAt).Harmless :=
  ⟨rfl, fun _ => rfl⟩

theorem Harmless.not_startable (hp : p.Sound) (hh : p.Harmless) : p.startable = false := by
  simp only [startable, Bool.and_eq_false_iff, decide_eq_false_iff_not, Bool.not_eq_false']
  by_cases hready : p.status.state = .ready
  · right
    exact hh.readOnly (hp.tenure.held (by simp [hready, PreparationPhase.rank])).1
  · exact .inl hready

theorem Harmless.handoff_eq_none (hp : p.Sound) (hh : p.Harmless) {l : Label}
    (hs : p.step closed l = some p') (hnone : p.handoff = none) : p'.handoff = none := by
  cases hh' : p'.handoff with
  | none => rfl
  | some h' =>
    have hstartable := ((Follows.step hp.lawful hs).new hnone h' hh').2
    rw [hh.not_startable hp] at hstartable
    cases hstartable

theorem Harmless.step (hp : p.Sound) (hh : p.Harmless) {l : Label}
    (hs : p.step closed l = some p') : p'.Harmless := by
  have hframe := Frame.step hs
  constructor
  · cases hhandoff : p.handoff with
    | none => simp [Preparation.running, hh.handoff_eq_none hp hs hhandoff]
    | some h =>
      obtain ⟨h', hh', hf⟩ := (Follows.step hp.lawful hs).old h hhandoff
      have hleft : h.registered = false := by simpa [Preparation.running, hhandoff] using hh.running
      have hleft' : h'.registered = false := by
        apply Bool.eq_false_iff.mpr
        intro hregistered
        rw [hf.leaves hregistered] at hleft
        cases hleft
      simpa [Preparation.running, hh'] using hleft'
  · intro howns
    rw [hframe.workspaceReadOnly]
    exact hh.readOnly (hframe.owns howns)

structure Stays (p p' : Preparation) : Prop where
  workspaceReadOnly : p'.workspaceReadOnly = p.workspaceReadOnly
  handoff : p.handoff = none → p'.handoff = none

theorem Harmless.goes (hp : p.Sound) (hh : p.Harmless)
    (hgoes : Goes (Preparation.step closed) p p') : p'.Harmless :=
  (hgoes.keeps (I := fun p => p.Sound ∧ p.Harmless)
    (fun _ _ _ hs h => ⟨h.1.step hs, h.2.step h.1 hs⟩) ⟨hp, hh⟩).2

theorem Harmless.stays (hp : p.Sound) (hh : p.Harmless)
    (hgoes : Goes (Preparation.step closed) p p') : p.Stays p' := by
  refine hgoes.relates (I := fun p => p.Sound ∧ p.Harmless) ?_ ?_ ?_ ⟨hp, hh⟩
  · exact fun _ => ⟨rfl, id⟩
  · exact fun _ _ _ h₁ h₂ =>
      ⟨h₂.workspaceReadOnly.trans h₁.workspaceReadOnly, h₂.handoff ∘ h₁.handoff⟩
  · intro p l p' hs h
    exact ⟨⟨h.1.step hs, h.2.step h.1 hs⟩, (Frame.step hs).workspaceReadOnly,
      h.2.handoff_eq_none h.1 hs⟩

end Preparation

namespace Router

variable {r r' r'' : Router}

structure UploadOk (u : WorkspaceWrite.WorkspaceUpload) : Prop where
  ok : u.Ok
  settled : u.uncertain → u.worker = .settled

structure UploadsOk (w : WorkspaceWrite.Router) : Prop where
  current : ∀ u, w.workspaceWrite = some u → UploadOk u
  retired : ∀ u ∈ w.retired, u.worker = .settled ∧ u.uncertain = false

section Upload

variable {u : WorkspaceWrite.WorkspaceUpload} {w w' : WorkspaceWrite.Router}

theorem UploadOk.certain (h : UploadOk u) (hworker : u.worker ≠ .settled) :
    u.uncertain = false := by
  apply Bool.eq_false_iff.mpr
  intro huncertain
  exact hworker (h.settled huncertain)

theorem UploadOk.takeFrame_eq (h : UploadOk u) (huncertain : u.uncertain)
    (request : WorkspaceWrite.WorkspaceWritePayload) : (u.takeFrame request).1 = u := by
  have hfinished : u.finished = true := by
    by_contra hopen
    have hwaiting := (h.ok.unfinished (by simpa using hopen)).1
    rw [h.settled huncertain] at hwaiting
    cases hwaiting
  simp [WorkspaceWrite.WorkspaceUpload.takeFrame, hfinished]

theorem UploadOk.takeFrame (h : UploadOk u) (request : WorkspaceWrite.WorkspaceWritePayload) :
    UploadOk (u.takeFrame request).1 := by
  cases huncertain : u.uncertain with
  | true =>
    rw [h.takeFrame_eq huncertain]
    exact h
  | false =>
    have htaken := WorkspaceWrite.WorkspaceUpload.takeFrame_taken h.ok request
    refine ⟨h.ok.taken htaken, ?_⟩
    generalize (u.takeFrame request).1 = u', (u.takeFrame request).2 = reply at htaken
    cases htaken <;> simp [huncertain]

theorem runUpload_cases {s : UploadStep} (hs : runUpload w s = some w') :
    (w'.workspaceWrite = w.workspaceWrite ∧ w'.retired = w.retired) ∨
      ∃ u, w.workspaceWrite = some u ∧ u.worker ≠ .settled := by
  cases s with
  | takeBody =>
    obtain ⟨u, hu, hworker, -⟩ := WorkspaceWrite.Router.takeBody_eq_some hs
    exact .inr ⟨u, hu, by simp [hworker]⟩
  | writeLocal answer =>
    obtain ⟨u, data, hu, hworker, -⟩ := WorkspaceWrite.Router.writeWorkspaceFile_eq_some hs
    exact .inr ⟨u, hu, by simp [hworker]⟩
  | recordResult =>
    obtain ⟨u, result, hu, hworker, -⟩ := WorkspaceWrite.Router.recordResult_eq_some hs
    exact .inr ⟨u, hu, by simp [hworker]⟩
  | sendResult i =>
    simp only [runUpload] at hs
    split at hs <;> cases hs
    exact .inl ⟨rfl, rfl⟩

theorem UploadsOk.runUpload (hw : UploadsOk w) {s : UploadStep}
    (hs : Router.runUpload w s = some w') : UploadsOk w' := by
  cases s with
  | takeBody =>
    obtain ⟨u, hu, hworker, rfl⟩ := WorkspaceWrite.Router.takeBody_eq_some hs
    have hcertain := (hw.current u hu).certain (by simp [hworker])
    refine ⟨?_, hw.retired⟩
    rintro u' ⟨⟩
    exact ⟨(hw.current u hu).ok.tookBody hworker _,
      by simp [WorkspaceWrite.WorkspaceUpload.tookBody, hcertain]⟩
  | writeLocal answer =>
    obtain ⟨u, data, hu, hworker, rfl⟩ := WorkspaceWrite.Router.writeWorkspaceFile_eq_some hs
    have hcertain := (hw.current u hu).certain (by simp [hworker])
    refine ⟨?_, hw.retired⟩
    rintro u' ⟨⟩
    exact ⟨(hw.current u hu).ok.wrote hworker _,
      by simp [WorkspaceWrite.WorkspaceUpload.wrote, hcertain]⟩
  | recordResult =>
    obtain ⟨u, result, hu, hworker, -, hrecorded⟩ :=
      WorkspaceWrite.Router.recordResult_eq_some hs
    rcases hrecorded with ⟨-, hsome, hretired⟩ | ⟨hknown, hnone, hretired⟩
    · refine ⟨?_, hretired ▸ hw.retired⟩
      rw [hsome]
      rintro u' ⟨⟩
      exact ⟨(hw.current u hu).ok.settle hworker, fun _ => rfl⟩
    · refine ⟨by simp [hnone], ?_⟩
      rw [hretired]
      exact forall_mem_concat hw.retired
        ⟨rfl, by simpa [WorkspaceWrite.WorkspaceUpload.settle] using hknown⟩
  | sendResult i =>
    simp only [Router.runUpload] at hs
    split at hs <;> cases hs
    exact ⟨hw.current, hw.retired⟩

theorem UploadsOk.handleWorkspaceWrite (hw : UploadsOk w) (work : WorkspaceWrite.OtherWork)
    (env : WorkspaceWrite.Frame) : UploadsOk (w.handleWorkspaceWrite work env).1 := by
  have hhandled := WorkspaceWrite.Router.handle_handled w work env
  generalize (w.handleWorkspaceWrite work env).1 = w',
    (w.handleWorkspaceWrite work env).2 = reply at hhandled
  cases hhandled with
  | begun =>
    refine ⟨?_, hw.retired⟩
    rintro u ⟨⟩
    exact ⟨WorkspaceWrite.WorkspaceUpload.ok_new .., by simp⟩
  | taken _ _ hold =>
    refine ⟨?_, hw.retired⟩
    rintro u ⟨⟩
    exact (hw.current _ hold).takeFrame _
  | _ => exact hw

theorem UploadOk.handleWorkspaceWrite (h : UploadOk u) (hu : w.workspaceWrite = some u)
    (huncertain : u.uncertain) (work : WorkspaceWrite.OtherWork) (env : WorkspaceWrite.Frame) :
    (w.handleWorkspaceWrite work env).1.workspaceWrite = some u ∧
      (w.handleWorkspaceWrite work env).1.retired = w.retired := by
  have hhandled := WorkspaceWrite.Router.handle_handled w work env
  generalize (w.handleWorkspaceWrite work env).1 = w',
    (w.handleWorkspaceWrite work env).2 = reply at hhandled
  cases hhandled with
  | begun _ _ hfree =>
    rw [hfree] at hu
    cases hu
  | taken _ _ hold =>
    rw [hold] at hu
    cases hu
    exact ⟨by rw [h.takeFrame_eq huncertain], rfl⟩
  | _ => exact ⟨hu, rfl⟩

end Upload

structure Clear (r : Router) : Prop where
  prompts : ∀ q ∈ r.prompts, q.held = false
  preparations : ∀ p ∈ r.preparations, p.Harmless
  exports : r.exports.workspaceExport = none

theorem clear_of_otherWork (hr : r.Sound) (hexport : r.exports.workspaceExport.isSome = false)
    (hsessions : r.hasSessions = false) (hidle : r.hasIdle = false)
    (howned : r.ownsPreparation = false) : r.Clear := by
  simp only [hasSessions, hasIdle, ownsPreparation, Bool.or_eq_false_iff, List.any_eq_false,
    Bool.not_eq_true] at hsessions hidle howned
  refine ⟨?_, ?_, by simpa using hexport⟩
  · intro q hq
    simp [Prompt.held, hsessions.1 q hq, hidle q hq]
  · intro p hp
    refine ⟨hsessions.2 p hp, ?_⟩
    intro howns
    have hlisted : p.listed = false := by simpa [howns] using howned p hp
    rw [(hr.each p hp).tenure.unlisted hlisted] at howns
    cases howns

theorem Transfers.write_isSome (ht : r.Transfers r') (hr : r.Sound)
    (hsome : r'.write.workspaceWrite.isSome) :
    r.write.workspaceWrite.isSome ∨
      (r.Clear ∧ r'.prompts = r.prompts ∧ r'.preparations = r.preparations ∧
        r'.exports = r.exports) := by
  cases ht with
  | same hwrite => exact .inl (hwrite ▸ hsome)
  | close hwrite =>
    rw [hwrite] at hsome
    exact .inl hsome
  | write heq =>
    subst heq
    cases hfree : r.write.workspaceWrite with
    | some u => exact .inl rfl
    | none =>
      obtain ⟨hexport, hsessions, hidle, howned⟩ := WorkspaceWrite.Router.handle_begun hfree hsome
      exact .inr ⟨clear_of_otherWork hr hexport hsessions hidle howned, rfl, rfl, rfl⟩
  | beginExport heq | runExport _ heq =>
    subst heq
    exact .inl hsome
  | upload hs heq =>
    subst heq
    rcases runUpload_cases hs with ⟨hsame, -⟩ | ⟨u, hu, -⟩
    · exact .inl (hsame ▸ hsome)
    · exact .inl (by simp [hu])

theorem Transfers.export_eq_none (ht : r.Transfers r') (hsome : r.write.workspaceWrite.isSome)
    (hnone : r.exports.workspaceExport = none) :
    r'.exports.workspaceExport = none ∧ r'.exports.admitted = r.exports.admitted := by
  cases ht with
  | same _ hexports | close _ hexports => simp [hexports, hnone]
  | write heq => simp [heq, handleWorkspaceWrite, hnone]
  | upload _ heq => simp [heq, hnone]
  | beginExport heq =>
    subst heq
    have hunavailable : ∀ env can, r.exportAvailable env can = false := by
      intro env can
      simp [exportAvailable, Option.isNone_eq_false_iff.mpr hsome]
    simp only [handleWorkspaceExport, WorkspaceExport.Router.handleWorkspaceExport, hunavailable]
    split
    · exact ⟨hnone, rfl⟩
    · split
      · exact ⟨hnone, rfl⟩
      · split
        · simp [WorkspaceExport.Router.continueExport, hnone]
        · simp [hnone]
  | runExport hs heq =>
    subst heq
    rename_i s e
    cases s with
    | sendCompleted i =>
      simp only [Router.runExport] at hs
      split at hs <;> cases hs
      exact ⟨hnone, rfl⟩
    | takeRequest => simp [Router.runExport, WorkspaceExport.Router.takeRequest, hnone] at hs
    | readPipe read => simp [Router.runExport, WorkspaceExport.Router.readPipe, hnone] at hs
    | send ok => simp [Router.runExport, hnone] at hs
    | expire => simp [Router.runExport, WorkspaceExport.Router.expire, hnone] at hs
    | letGo => simp [Router.runExport, WorkspaceExport.Router.letGo, hnone] at hs

theorem Transfers.uploadsOk (ht : r.Transfers r') (hr : UploadsOk r.write) :
    UploadsOk r'.write := by
  cases ht with
  | same hwrite => rwa [hwrite]
  | close hwrite =>
    rw [hwrite]
    exact ⟨hr.current, hr.retired⟩
  | beginExport heq => rwa [heq]
  | runExport _ heq => rwa [heq]
  | write heq =>
    subst heq
    exact hr.handleWorkspaceWrite _ _
  | upload hs heq =>
    subst heq
    exact hr.runUpload hs

theorem Transfers.uncertain (ht : r.Transfers r') {u : WorkspaceWrite.WorkspaceUpload}
    (hu : r.write.workspaceWrite = some u) (hok : UploadOk u) (huncertain : u.uncertain) :
    r'.write.workspaceWrite = some u ∧ r'.write.retired = r.write.retired := by
  cases ht with
  | same hwrite | close hwrite => simp [hwrite, hu]
  | beginExport heq => simp [heq, handleWorkspaceExport, hu]
  | runExport _ heq => simp [heq, hu]
  | write heq =>
    subst heq
    exact hok.handleWorkspaceWrite hu huncertain _ _
  | upload hs heq =>
    subst heq
    rcases runUpload_cases hs with ⟨hsame, hretired⟩ | ⟨u', hu', hworker⟩
    · exact ⟨hsame.trans hu, hretired⟩
    · rw [hu] at hu'
      cases hu'
      exact absurd (hok.settled huncertain) hworker

structure Exclusive (r : Router) : Prop where
  sound : r.Sound
  clear : r.write.workspaceWrite.isSome → r.Clear
  uploads : UploadsOk r.write

theorem Clear.stepped (hclear : r.Clear) (hr : r.Sound) {label : Label} (hs : r.Stepped r' label)
    (hsome : r.write.workspaceWrite.isSome) : r'.Clear where
  prompts := by
    have hall : ∀ q ∈ r'.prompts, q.Ok ∧ q.held = false := by
      refine hs.prompts.forall_mem (I := fun q => q.Ok ∧ q.held = false) ?_ ?_
        fun q hq => ⟨hr.prompts q hq, hclear.prompts q hq⟩
      · exact fun q q' h hm => ⟨h.1.moved hm, h.1.not_held hm h.2⟩
      · rintro q ⟨-, -, -, -, -, hfree⟩
        simp [transferring, hsome] at hfree
    exact fun q hq => (hall q hq).2
  preparations := by
    have hall : ∀ p ∈ r'.preparations, p.Sound ∧ p.Harmless := by
      refine hs.preparations.forall_mem (I := fun p => p.Sound ∧ p.Harmless) ?_ ?_
        fun p hp => ⟨hr.each p hp, hclear.preparations p hp⟩
      · exact fun p p' h hgoes => ⟨h.1.goes hgoes, h.2.goes h.1 hgoes⟩
      · rintro p ⟨requestID, handle, readOnly, expiresAt, rfl, -, hfree, -⟩
        obtain rfl : readOnly = true := hfree (by simp [transferring, hsome])
        exact ⟨.new .., .new ..⟩
    exact fun p hp => (hall p hp).2
  exports := (hs.transfers.export_eq_none hsome hclear.exports).1

theorem Exclusive.step (h : r.Exclusive) {l : Label} (hs : r.step l = some r') : r'.Exclusive := by
  have hstepped := Stepped.step hs
  refine ⟨h.sound.step hs, ?_, hstepped.transfers.uploadsOk h.uploads⟩
  intro hsome
  rcases hstepped.transfers.write_isSome h.sound hsome with hbefore | ⟨hclear, hq, hp, he⟩
  · exact (h.clear hbefore).stepped h.sound hstepped hbefore
  · exact ⟨hq ▸ hclear.prompts, hp ▸ hclear.preparations, he ▸ hclear.exports⟩

theorem exclusive_of_reaches {as : List Label} (hreach : Reaches as r) : r.Exclusive :=
  runTrace_invariant (I := Exclusive) (fun _ _ _ _ hs h => h.step hs) (stepsMeet_true _ as) hreach
    ⟨⟨by simp, by simp, by simp⟩, by simp, by simp, by simp⟩

/-- No run, write, export or preparation for a run is admitted on the way from `r` to `r'`. -/
structure Locked (r r' : Router) : Prop where
  writes : r'.write.admitted = r.write.admitted
  exports : r'.exports.admitted = r.exports.admitted
  prompts : r'.prompts.length = r.prompts.length
  grows : r.preparations.length ≤ r'.preparations.length
  preparations : ∀ (i : Nat) (p' : Preparation), r'.preparations[i]? = some p' →
    (∃ p, r.preparations[i]? = some p ∧ p.Stays p') ∨
      (r.preparations.length ≤ i ∧ p'.workspaceReadOnly ∧ p'.handoff = none)

theorem Locked.refl (r : Router) : r.Locked r :=
  ⟨rfl, rfl, rfl, le_refl _, fun _ p hp => .inl ⟨p, hp, rfl, id⟩⟩

theorem Locked.trans (h₁ : r.Locked r') (h₂ : r'.Locked r'') : r.Locked r'' := by
  refine ⟨h₂.writes.trans h₁.writes, h₂.exports.trans h₁.exports, h₂.prompts.trans h₁.prompts,
    h₁.grows.trans h₂.grows, ?_⟩
  intro i p'' hp''
  rcases h₂.preparations i p'' hp'' with ⟨p', hp', hstays'⟩ | ⟨hnew, hreadOnly, hhandoff⟩
  · rcases h₁.preparations i p' hp' with ⟨p, hp, hstays⟩ | ⟨hnew, hreadOnly, hhandoff⟩
    · exact .inl ⟨p, hp, hstays'.workspaceReadOnly.trans hstays.workspaceReadOnly,
        hstays'.handoff ∘ hstays.handoff⟩
    · exact .inr ⟨hnew, hstays'.workspaceReadOnly ▸ hreadOnly, hstays'.handoff hhandoff⟩
  · exact .inr ⟨h₁.grows.trans hnew, hreadOnly, hhandoff⟩

theorem Exclusive.locked (h : r.Exclusive) {u : WorkspaceWrite.WorkspaceUpload}
    (hu : r.write.workspaceWrite = some u) (huncertain : u.uncertain) {l : Label}
    (hs : r.step l = some r') : r'.write.workspaceWrite = some u ∧ r.Locked r' := by
  have hstepped := Stepped.step hs
  have hsome : r.write.workspaceWrite.isSome := by simp [hu]
  have hclear := h.clear hsome
  obtain ⟨hu', hretired⟩ := hstepped.transfers.uncertain hu (h.uploads.current u hu) huncertain
  refine ⟨hu', ?_, (hstepped.transfers.export_eq_none hsome hclear.exports).2, ?_, ?_, ?_⟩
  · simp [WorkspaceWrite.Router.admitted, hu, hu', hretired]
  · apply hstepped.prompts.length_eq
    rintro q ⟨-, -, -, -, -, hfree⟩
    simp [transferring, hsome] at hfree
  · exact hstepped.preparations.length_le
  · intro i p' hp'
    rcases hstepped.preparations.cases hp' with ⟨p, hp, hgoes⟩ | ⟨hi, hnew⟩
    · have hmem := List.mem_of_getElem? hp
      exact .inl ⟨p, hp, (hclear.preparations p hmem).stays (h.sound.each p hmem) hgoes⟩
    · obtain ⟨_, _, readOnly, _, rfl, -, hfree, -⟩ := hnew
      obtain rfl : readOnly = true := hfree (by simp [transferring, hsome])
      exact .inr ⟨hi.ge, rfl, rfl⟩

theorem Exclusive.locked_of_run (h : r.Exclusive) {u : WorkspaceWrite.WorkspaceUpload}
    (hu : r.write.workspaceWrite = some u) (huncertain : u.uncertain) {as : List Label}
    (hrun : runTrace Router.step r as = some r') :
    r'.write.workspaceWrite = some u ∧ r.Locked r' := by
  have hkeeps : ∀ s l s', Router.step s l = some s' →
      (s.Exclusive ∧ s.write.workspaceWrite = some u ∧ r.Locked s) →
      s'.Exclusive ∧ s'.write.workspaceWrite = some u ∧ r.Locked s' := by
    rintro s l s' hs ⟨hexclusive, hsu, hlocked⟩
    obtain ⟨hu', hnext⟩ := hexclusive.locked hsu huncertain hs
    exact ⟨hexclusive.step hs, hu', hlocked.trans hnext⟩
  exact (Goes.keeps hkeeps ⟨as, hrun⟩ ⟨h, hu, .refl r⟩).2

/-- A write that is unsettled or of unknown outcome stands alone, and from an unknown outcome on no
run, write, export or preparation for a run is admitted. -/
theorem workspace_write_exclusive {as bs : List Label} {r r' : Router} (hreach : Reaches as r)
    (hrun : runTrace step r bs = some r') :
    (∀ u ∈ r.write.admitted, u.worker ≠ .settled ∨ u.uncertain →
      r.hasSessions = false ∧ r.hasIdle = false ∧
        ∀ p ∈ r.preparations, p.owns → p.workspaceReadOnly) ∧
    (r.write.workspaceWrite = none ∨ r.exports.workspaceExport = none) ∧
    ∀ u ∈ r.write.admitted, u.uncertain → r'.write.workspaceWrite = some u ∧ r.Locked r' := by
  have h := exclusive_of_reaches hreach
  -- what was let go is settled with a known outcome
  have hcurrent : ∀ u ∈ r.write.admitted, u.worker ≠ .settled ∨ u.uncertain →
      r.write.workspaceWrite = some u := by
    intro u hu hopen
    rcases List.mem_append.mp hu with hretired | hcurrent
    · obtain ⟨hsettled, hcertain⟩ := h.uploads.retired u hretired
      simp [hsettled, hcertain] at hopen
    · simpa using hcurrent
  refine ⟨?_, ?_, ?_⟩
  · intro u hu hopen
    have hclear := h.clear (by simp [hcurrent u hu hopen])
    have hheld : ∀ q ∈ r.prompts, q.registered = false ∧ q.idle = false := by
      intro q hq
      simpa [Prompt.held] using hclear.prompts q hq
    refine ⟨?_, ?_, fun p hp => (hclear.preparations p hp).readOnly⟩
    · simp only [hasSessions, Bool.or_eq_false_iff, List.any_eq_false, Bool.not_eq_true]
      exact ⟨fun q hq => (hheld q hq).1, fun p hp => (hclear.preparations p hp).running⟩
    · simp only [hasIdle, List.any_eq_false, Bool.not_eq_true]
      exact fun q hq => (hheld q hq).2
  · cases hwrite : r.write.workspaceWrite with
    | none => exact .inl rfl
    | some u => exact .inr (h.clear (by simp [hwrite])).exports
  · intro u hu huncertain
    exact h.locked_of_run (hcurrent u hu (.inr huncertain)) huncertain hrun

def emptyFile : WorkspaceWrite.WorkspaceWritePayload where
  step := .begin
  environmentID := "00000000-0000-0000-0000-0000000000e1"
  sessionID := "00000000-0000-0000-0000-0000000000f1"
  path := "note.txt"
  sha256 := "e3b0c44298fc1c149afbf4c8996fb92427ae41e4649b934ca495991b7852b855"

def emptyFrame (request : WorkspaceWrite.WorkspaceWritePayload) : WorkspaceWrite.Frame where
  id := "00000000-0000-0000-0000-00000000000a"
  size := 300
  payload := some request

def uncertainTrace : List Label :=
  [.workspaceWrite (emptyFrame emptyFile) true, .workspaceWrite (emptyFrame { step := .commit }) true,
    .upload .takeBody, .upload (.writeLocal { sizeBytes := 0, err := some .uncertain, wrote := true }),
    .upload .recordResult]

def refusedTrace : List Label :=
  [.executionPrepare "req-1" "prep-1" false false 60, .executionPrepare "req-2" "prep-2" true false 60,
    .workspaceWrite (emptyFrame emptyFile) true]

theorem workspace_write_exclusive_uncertain : ∃ r r' u, Reaches uncertainTrace r ∧
    runTrace step r refusedTrace = some r' ∧ u ∈ r.write.admitted ∧ u.uncertain ∧
    r'.preparations.length = 1 ∧ r.hasSessions = false ∧ r'.write.workspaceWrite = some u ∧
    r.Locked r' := by
  have hcheck : (runTrace step {} uncertainTrace).any (fun r =>
      r.write.admitted.any (·.uncertain) &&
      (runTrace step r refusedTrace).any (fun r' => r'.preparations.length = 1)) = true := by
    decide +kernel
  simp only [Option.any_eq_true, Bool.and_eq_true, List.any_eq_true, decide_eq_true_eq] at hcheck
  obtain ⟨r, hreach, ⟨u, hu, huncertain⟩, r', hrun, hlength⟩ := hcheck
  obtain ⟨halone, -, hlocked⟩ := workspace_write_exclusive hreach hrun
  obtain ⟨hlast, hlocked⟩ := hlocked u hu huncertain
  exact ⟨r, r', u, hreach, hrun, hu, huncertain, hlength, (halone u hu (.inr huncertain)).1, hlast,
    hlocked⟩

end Router

end Parsar.Dispatch
