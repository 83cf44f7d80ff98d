import Parsar.Framework.Family
import Parsar.Dispatch.Router
import Parsar.Dispatch.Tenure

namespace Parsar.Dispatch

namespace Preparation

structure Sound (p : Preparation) : Prop where
  lawful : p.Lawful
  release : ∀ h, p.handoff = some h → h.ReleaseOk
  tenure : p.Tenure

variable {p p' : Preparation} {closed : Bool}

theorem Sound.new (requestID handle : String) (readOnly : Bool) (expiresAt : Int) :
    (Preparation.new requestID handle readOnly expiresAt).Sound :=
  ⟨.new .., by simp [Preparation.new], .new ..⟩

theorem Sound.step (hp : p.Sound) {l : Label} (hs : p.step closed l = some p') : p'.Sound := by
  have hf := Follows.step hp.lawful hs
  refine ⟨(Moves.step hs).lawful hp.lawful, ?_, hp.tenure.step hp.lawful hs⟩
  intro h' hh'
  cases hh : p.handoff with
  | none => exact (hf.new hh h' hh').1
  | some h =>
    obtain ⟨g, hg, hfollows⟩ := hf.old h hh
    rw [hh'] at hg
    cases hg
    exact hfollows.ok (hp.release h hh)

theorem Sound.goes (hp : p.Sound) (hgoes : Goes (Preparation.step closed) p p') : p'.Sound :=
  hgoes.keeps (fun _ _ _ hs hp => hp.step hs) hp

theorem goes_moves (hgoes : Goes (Preparation.step closed) p p') : p.Moves p' :=
  hgoes.relates (I := fun _ => True) .refl (fun _ _ _ h₁ h₂ => h₁.trans h₂)
    (fun _ _ _ hs _ => ⟨trivial, .step hs⟩) trivial

theorem goes_frame (hgoes : Goes (Preparation.step closed) p p') : p.Frame p' :=
  hgoes.relates (I := fun _ => True) .refl (fun _ _ _ h₁ h₂ => h₁.trans h₂)
    (fun _ _ _ hs _ => ⟨trivial, .step hs⟩) trivial

def KeepsHandoff (p p' : Preparation) : Prop :=
  ∀ h, p.handoff = some h → ∃ h', p'.handoff = some h' ∧ h.Keeps h' ∧
    (h'.registered → h.registered) ∧ (h.pump = .over → h'.pump = .over)

theorem Sound.goes_handoff (hp : p.Sound) (hgoes : Goes (Preparation.step closed) p p') :
    p.KeepsHandoff p' := by
  refine hgoes.relates (I := Sound) ?_ ?_ ?_ hp
  · exact fun q h hh => ⟨h, hh, .of_release rfl, id, id⟩
  · intro q q' q'' h₁ h₂ h hh
    obtain ⟨h', hh', hkeeps', hleaves', hstops'⟩ := h₁ h hh
    obtain ⟨h'', hh'', hkeeps'', hleaves'', hstops''⟩ := h₂ h' hh'
    exact ⟨h'', hh'', hkeeps'.trans hkeeps'', hleaves' ∘ hleaves'', hstops'' ∘ hstops'⟩
  · intro q l q' hs hq
    refine ⟨hq.step hs, ?_⟩
    intro h hh
    obtain ⟨h', hh', hf⟩ := (Follows.step hq.lawful hs).old h hh
    exact ⟨h', hh', hf.keeps (hq.release h hh), hf.leaves, hf.stops⟩

theorem goes_handle (hp : p.Sound) (hgoes : Goes (Preparation.step closed) p p') :
    p'.status.handle = p.status.handle := by
  have hm := goes_moves hgoes
  rcases (hm.lawful hp.lawful).before_status (hm.grows.subset hp.lawful.status_mem) with heq | hb
  · rw [heq]
  · exact hb.handle

theorem goes_shutDown (closed : Bool) (p : Preparation) : Goes
    (Preparation.step closed) p p.shutDown := by
  unfold shutDown
  cases hc : p.cancelRun with
  | none => exact .one (a := .closePending) rfl
  | some q => exact .head (a := .cancelRun) hc (.one (a := .closePending) rfl)

end Preparation

inductive Prompt.Moved (closed : Bool) (q : Prompt) : Prompt → Prop
  | same : Moved closed q q
  | begin {ok : Bool} {q' : Prompt} (h : q.begin ok = some q') : Moved closed q q'
  | pump {e : PromptEvent} {q' : Prompt} (h : q.pump closed e = some q') : Moved closed q q'
  | call {j : Nat} {q' : Prompt} (h : q.continueCall j = some q') : Moved closed q q'
  | expire {q' : Prompt} (h : q.expireIdle = some q') : Moved closed q q'
  | cancel : Moved closed q q.cancel
  | interrupt : Moved closed q q.interrupt
  | letGo : Moved closed q q.letGo
  | perform (s : CancelStep) : Moved closed q (q.perform s)

namespace Prompt

variable {q q' : Prompt} {closed : Bool}

def Ok (q : Prompt) : Prop := q.registered = (q.phase ≠ .over ∧ q.phase ≠ .failing : Bool)

theorem ok_new (runID stateKey : String) (releaseOnCompletion : Bool) :
    (Prompt.new runID stateKey releaseOnCompletion).Ok := rfl

theorem Ok.of_same (hq : q.Ok) (hregistered : q'.registered = q.registered)
    (hphase : q'.phase = q.phase) : q'.Ok := by
  unfold Ok
  rw [hregistered, hphase]
  exact hq

theorem begin_cases {ok : Bool} (hs : q.begin ok = some q') :
    (q'.phase ≠ .over ∧ q'.phase ≠ .failing ∧ q.phase ≠ .over ∧ q.phase ≠ .failing ∧
      q'.registered = q.registered ∧ q'.idle = q.idle) ∨
    (q'.registered = false ∧ q'.phase = .failing ∧ q'.idle = q.idle) ∨
    (q.phase = .failing ∧ q'.phase = .over ∧ q'.registered = q.registered ∧ q'.idle = q.idle) := by
  unfold begin at hs
  split at hs <;> cases hs <;> simp_all

theorem pump_cases {e : PromptEvent} (hs : q.pump closed e = some q') :
    (q'.phase ≠ .over ∧ q'.phase ≠ .failing ∧ q.phase ≠ .over ∧ q.phase ≠ .failing ∧
      q'.registered = q.registered ∧ q'.idle = q.idle) ∨
    (q.phase = .cleaning ∧ q' = q.cleanupSession closed) := by
  unfold pump at hs
  split at hs
  case h_1 hphase =>
    left
    unfold select at hs
    split at hs
    · split at hs <;> cases hs <;> simp [hphase]
    · cases hs
      simp [hphase]
    · split at hs <;> cases hs
      simp [hphase]
    · cases hs
  case h_7 hphase =>
    cases hs
    exact .inr ⟨hphase, rfl⟩
  case h_8 => cases hs
  all_goals
    rename_i hphase
    cases hs
    left
    refine ⟨?_, ?_, ?_, ?_, rfl, rfl⟩ <;> simp [hphase]
  all_goals split <;> simp

theorem Ok.moved (hq : q.Ok) (hm : q.Moved closed q') : q'.Ok := by
  cases hm with
  | same | cancel => exact hq
  | begin hs =>
    rcases begin_cases hs with ⟨h₁, h₂, h₃, h₄, hregistered, -⟩ | ⟨hregistered, hphase, -⟩ |
      ⟨hphase, hphase', hregistered, -⟩
    · unfold Ok at hq ⊢
      rw [hregistered, hq]
      simp [h₁, h₂, h₃, h₄]
    · simp [Ok, hregistered, hphase]
    · unfold Ok at hq ⊢
      rw [hregistered, hq]
      simp [hphase, hphase']
  | pump hs =>
    rcases pump_cases hs with ⟨h₁, h₂, h₃, h₄, hregistered, -⟩ | ⟨-, rfl⟩
    · unfold Ok at hq ⊢
      rw [hregistered, hq]
      simp [h₁, h₂, h₃, h₄]
    · simp [Ok, cleanupSession]
  | call hs =>
    unfold continueCall at hs
    split at hs <;> cases hs
    rename_i s _ _
    cases s <;> exact hq
  | expire hs =>
    unfold expireIdle at hs
    split at hs <;> cases hs
    exact hq
  | interrupt =>
    refine hq.of_same ?_ ?_ <;> unfold interrupt letGo <;> split <;> simp_all
  | letGo =>
    refine hq.of_same ?_ ?_ <;> unfold letGo <;> split <;> rfl
  | perform s => cases s <;> exact hq

theorem Ok.not_held (hq : q.Ok) (hm : q.Moved closed q') (hnot : q.held = false) :
    q'.held = false := by
  have hheld := hnot
  simp only [held, Bool.or_eq_false_iff] at hnot ⊢
  obtain ⟨hregistered, hidle⟩ := hnot
  cases hm with
  | same | cancel => exact ⟨hregistered, hidle⟩
  | begin hs =>
    rcases begin_cases hs with ⟨-, -, -, -, h₁, h₂⟩ | ⟨h₁, -, h₂⟩ | ⟨-, -, h₁, h₂⟩ <;>
      simp [h₁, h₂, hregistered, hidle]
  | pump hs =>
    rcases pump_cases hs with ⟨-, -, -, -, h₁, h₂⟩ | ⟨hphase, -⟩
    · simp [h₁, h₂, hregistered, hidle]
    · unfold Ok at hq
      simp [hphase, hregistered] at hq
  | call hs =>
    unfold continueCall at hs
    split at hs <;> cases hs
    rename_i s _ _
    cases s <;> exact ⟨hregistered, hidle⟩
  | expire hs => simp [expireIdle, hidle] at hs
  | interrupt => simp [interrupt, hheld, hregistered, hidle]
  | letGo => simp [letGo, hheld, hregistered, hidle]
  | perform s => cases s <;> exact ⟨hregistered, hidle⟩

end Prompt

namespace Router

variable {r r' : Router} {label : Label}

def NewPreparation (r : Router) (p : Preparation) : Prop :=
  ∃ requestID handle readOnly expiresAt, p = .new requestID handle readOnly expiresAt ∧
    r.closed = false ∧ (r.transferring → readOnly) ∧
    ∀ q ∈ r.preparations, q.status.handle ≠ handle

def NewPrompt (r : Router) (q : Prompt) : Prop :=
  ∃ runID stateKey releaseOnCompletion, q = .new runID stateKey releaseOnCompletion ∧
    r.closed = false ∧ r.transferring = false

abbrev PreparationsGrow (r r' : Router) : Prop :=
  Grows (Goes (Preparation.step r.closed)) r.NewPreparation r.preparations r'.preparations

abbrev PromptsGrow (r r' : Router) : Prop :=
  Grows (Prompt.Moved r.closed) r.NewPrompt r.prompts r'.prompts

theorem stepPreparation_eq {i : Nat} {l : Preparation.Label}
    (hs : r.stepPreparation i l = some r') :
    ∃ p p', r.preparations[i]? = some p ∧ p.step r.closed l = some p' ∧
      r' = r.setPreparation i p' := by
  simp only [stepPreparation, Option.bind_eq_bind, Option.bind_eq_some_iff] at hs
  obtain ⟨p, hp, p', hp', hr'⟩ := hs
  exact ⟨p, p', hp, hp', (Option.some.inj hr').symm⟩

theorem PreparationsGrow.same (heq : r'.preparations = r.preparations) : r.PreparationsGrow r' :=
  .of_eq .refl heq

theorem PreparationsGrow.one {i : Nat} {l : Preparation.Label}
    (hs : r.stepPreparation i l = some r') : r.PreparationsGrow r' := by
  obtain ⟨p, p', hp, hp', rfl⟩ := stepPreparation_eq hs
  exact .set .refl hp (.one hp')

theorem PromptsGrow.same (heq : r'.prompts = r.prompts) : r.PromptsGrow r' := .of_eq
    (fun _ => .same) heq

theorem withPrompt_eq {i : Nat} {f : Prompt → Option Prompt} (hs : r.withPrompt i f = some r') :
    ∃ q q', r.prompts[i]? = some q ∧ f q = some q' ∧ r' = r.setPrompt i q' := by
  simp only [withPrompt, Option.bind_eq_bind, Option.bind_eq_some_iff] at hs
  obtain ⟨q, hq, q', hq', hr'⟩ := hs
  exact ⟨q, q', hq, hq', (Option.some.inj hr').symm⟩

theorem PromptsGrow.one {i : Nat} {f : Prompt → Option Prompt} (hs : r.withPrompt i f = some r')
    (hf : ∀ q q', f q = some q' → q.Moved r.closed q') : r.PromptsGrow r' := by
  obtain ⟨q, q', hq, hq', rfl⟩ := withPrompt_eq hs
  exact .set (fun _ => .same) hq (hf q q' hq')

inductive Transfers (r r' : Router) : Prop
  | same (hwrite : r'.write = r.write) (hexports : r'.exports = r.exports)
  | close (hwrite : r'.write = { r.write with closed := true })
      (hexports : r'.exports = { r.exports with closed := true })
  | write {env : WorkspaceWrite.Frame} {accepts : Bool}
      (heq : r' = r.handleWorkspaceWrite env accepts)
  | beginExport {env : WorkspaceExport.Frame} {can : Bool} {stream : GoStd.Bytes}
      (heq : r' = r.handleWorkspaceExport env can stream)
  | upload {s : UploadStep} {w : WorkspaceWrite.Router} (hs : runUpload r.write s = some w)
      (heq : r' = { r with write := w })
  | runExport {s : ExportStep} {e : WorkspaceExport.Router} (hs : runExport r.exports s = some e)
      (heq : r' = { r with exports := e })

inductive Control (r r' : Router) : Label → Prop
  | same {label : Label} (hclosed : r'.closed = r.closed) (hshutdowns : r'.shutdowns = r.shutdowns) :
      Control r r' label
  | shutdown {order : List Victim} (hs : r.shutdown order = some r') :
      Control r r' (.shutdown order)
  | attempt {k : Nat} (hs : r.runShutdownAttempt k = some r') : Control r r' (.shutdownAttempt k)

structure Stepped (r r' : Router) (label : Label) : Prop where
  preparations : r.PreparationsGrow r'
  prompts : r.PromptsGrow r'
  transfers : r.Transfers r'
  control : r.Control r' label

theorem Stepped.same (hp : r'.preparations = r.preparations) (hq : r'.prompts = r.prompts)
    (hwrite : r'.write = r.write) (hexports : r'.exports = r.exports)
    (hclosed : r'.closed = r.closed) (hshutdowns : r'.shutdowns = r.shutdowns) :
    r.Stepped r' label :=
  ⟨.same hp, .same hq, .same hwrite hexports, .same hclosed hshutdowns⟩

theorem Stepped.reject (requestID : String) (operation : Operation) (code : RejectionCode) :
    r.Stepped (r.reject requestID operation code) label :=
  .same rfl rfl rfl rfl rfl rfl

theorem Stepped.of_preparation {i : Nat} {l : Preparation.Label}
    (hs : r.stepPreparation i l = some r') : r.Stepped r' label := by
  have hgrow := PreparationsGrow.one hs
  obtain ⟨p, p', -, -, rfl⟩ := stepPreparation_eq hs
  exact ⟨hgrow, .same rfl, .same rfl rfl, .same rfl rfl⟩

theorem Stepped.of_prompt {i : Nat} {f : Prompt → Option Prompt} (hs : r.withPrompt i f = some r')
    (hf : ∀ q q', f q = some q' → q.Moved r.closed q') : r.Stepped r' label := by
  have hgrow := PromptsGrow.one hs hf
  obtain ⟨q, q', -, -, rfl⟩ := withPrompt_eq hs
  exact ⟨.same rfl, hgrow, .same rfl rfl, .same rfl rfl⟩

theorem Stepped.handleExecutionPrepare {requestID handle : String} {readOnly known : Bool}
    {expiresAt : Int}
    (hs : r.handleExecutionPrepare requestID handle readOnly known expiresAt = some r') :
    r.Stepped r' label := by
  unfold Router.handleExecutionPrepare at hs
  split at hs
  · cases hs
  · rename_i hclosed
    split at hs
    · cases hs
      exact .reject ..
    · rename_i hfree
      split at hs
      · split at hs
        · exact .of_preparation hs
        · cases hs
          exact .reject ..
      · unfold admitPreparation at hs
        split at hs
        · cases hs
          exact .reject ..
        · split at hs
          · cases hs
          · rename_i hfresh
            cases hs
            refine ⟨.append .refl ⟨requestID, handle, readOnly, expiresAt, rfl, ?_, ?_, ?_⟩,
              .same rfl, .same rfl rfl, .same rfl rfl⟩
            · simpa using hclosed
            · intro htransfer
              simpa [htransfer] using hfree
            · simpa using hfresh

theorem Stepped.handleExecutionStart {requestID handle runID : String} {known : Bool}
    (hs : r.handleExecutionStart requestID handle runID known = some r') : r.Stepped r' label := by
  unfold Router.handleExecutionStart at hs
  split at hs
  · cases hs
  · split at hs
    · cases hs
      exact .reject ..
    · split at hs
      · cases hs
        exact .reject ..
      · simp only [Option.bind_eq_bind, Option.bind_eq_some_iff] at hs
        obtain ⟨p, -, r'', hr'', hs⟩ := hs
        have hgrow := PreparationsGrow.one hr''
        obtain ⟨q, q', -, -, rfl⟩ := stepPreparation_eq hr''
        split at hs <;> cases hs <;> exact ⟨hgrow, .same rfl, .same rfl rfl, .same rfl rfl⟩

theorem Stepped.handlePromptCancel {runID : String} (hs : r.handlePromptCancel runID = some r') :
    r.Stepped r' label := by
  unfold Router.handlePromptCancel at hs
  split at hs
  · cases hs
  · split at hs
    · obtain ⟨q, hq, hs⟩ := Option.bind_eq_some_iff.mp hs
      cases hs
      exact ⟨.same rfl, .set (fun _ => .same) hq .cancel, .same rfl rfl, .same rfl rfl⟩
    · obtain ⟨i, -, hs⟩ := Option.bind_eq_some_iff.mp hs
      exact .of_preparation hs

inductive Advanced (r : Router) (attempt : ShutdownAttempt) :
    List Prompt → ShutdownAttempt → Prop
  | dispatched (hphase : attempt.phase = .cancelling) (hnil : attempt.victims = []) :
      Advanced r attempt r.prompts { attempt with
        phase := if attempt.releaseErr then .finished true else .waiting }
  | skip {i : Nat} {rest : List Victim} (hphase : attempt.phase = .cancelling)
      (hvictims : attempt.victims = .prompt i [] :: rest) :
      Advanced r attempt r.prompts { attempt with victims := rest }
  | cancel {i : Nat} {s : CancelStep} {steps : List CancelStep} {rest : List Victim} {q : Prompt}
      (hphase : attempt.phase = .cancelling)
      (hvictims : attempt.victims = .prompt i (s :: steps) :: rest) (hq : r.prompts[i]? = some q) :
      Advanced r attempt (r.prompts.set i (q.perform s))
        { attempt with victims := .prompt i steps :: rest }
  | await {i j : Nat} {rest : List Victim} {ok : Bool} (hphase : attempt.phase = .cancelling)
      (hvictims : attempt.victims = .handoff i j :: rest) (hok : r.awaitRelease i j = some ok) :
      Advanced r attempt r.prompts { attempt with
        victims := rest
        releaseErr := attempt.releaseErr || !ok }
  | quiet (hphase : attempt.phase = .waiting) (hquiet : r.quiet) :
      Advanced r attempt r.prompts { attempt with phase := .checking }
  | check (hphase : attempt.phase = .checking) :
      Advanced r attempt r.prompts { attempt with phase := .finished r.unsettled }

theorem runShutdownAttempt_advanced {k : Nat} (hs : r.runShutdownAttempt k = some r') :
    ∃ attempt prompts attempt', r.shutdowns[k]? = some attempt ∧
      r.Advanced attempt prompts attempt' ∧
      r' = { r with prompts := prompts, shutdowns := r.shutdowns.set k attempt' } := by
  obtain ⟨attempt, hattempt, hs⟩ := Option.bind_eq_some_iff.mp hs
  split at hs
  · rename_i hphase
    unfold cancelVictim at hs
    split at hs
    · rename_i hnil
      cases hs
      exact ⟨attempt, _, _, hattempt, .dispatched hphase hnil, rfl⟩
    · rename_i hvictims
      cases hs
      exact ⟨attempt, _, _, hattempt, .skip hphase hvictims, rfl⟩
    · rename_i hvictims
      obtain ⟨q, hq, hs⟩ := Option.bind_eq_some_iff.mp hs
      cases hs
      exact ⟨attempt, _, _, hattempt, .cancel hphase hvictims hq, rfl⟩
    · rename_i hvictims
      obtain ⟨ok, hok, hs⟩ := Option.bind_eq_some_iff.mp hs
      cases hs
      exact ⟨attempt, _, _, hattempt, .await hphase hvictims hok, rfl⟩
  · rename_i hphase
    split at hs <;> cases hs
    rename_i hquiet
    exact ⟨attempt, _, _, hattempt, .quiet hphase hquiet, rfl⟩
  · rename_i hphase
    cases hs
    exact ⟨attempt, _, _, hattempt, .check hphase, rfl⟩
  · cases hs

theorem Stepped.runShutdownAttempt {k : Nat} (hs : r.runShutdownAttempt k = some r') :
    r.Stepped r' (.shutdownAttempt k) := by
  have hcontrol : r.Control r' _ := .attempt hs
  obtain ⟨attempt, prompts, attempt', -, hadvanced, rfl⟩ := runShutdownAttempt_advanced hs
  refine ⟨.same rfl, ?_, .same rfl rfl, hcontrol⟩
  cases hadvanced with
  | cancel _ _ hq => exact .set (fun _ => .same) hq (.perform _)
  | _ => exact .same rfl

theorem Control.closed_le (hc : r.Control r' label) : r.closed → r'.closed := by
  intro hclosed
  cases hc with
  | same heq => rwa [heq]
  | shutdown hs =>
    simp only [Router.shutdown] at hs
    split at hs <;> cases hs
    rfl
  | attempt hs =>
    obtain ⟨_, _, _, -, -, rfl⟩ := runShutdownAttempt_advanced hs
    exact hclosed

theorem Stepped.step {l : Label} (hs : r.step l = some r') : r.Stepped r' l := by
  cases l with
  | reject requestID operation code =>
    simp only [Router.step] at hs
    split at hs <;> cases hs
    exact .reject ..
  | executionPrepare requestID handle readOnly known expiresAt => exact .handleExecutionPrepare hs
  | executionStart requestID handle runID known => exact .handleExecutionStart hs
  | executionRelease requestID =>
    simp only [Router.step, handleExecutionRelease] at hs
    split at hs
    · cases hs
    · split at hs
      · cases hs
        exact .reject ..
      · exact .of_preparation hs
  | promptRequest runID stateKey release =>
    simp only [Router.step, handlePromptRequest] at hs
    split at hs <;> cases hs
    rename_i hadmitted
    simp only [not_or, Bool.not_eq_true] at hadmitted
    exact ⟨.same rfl, .append (fun _ => .same)
      ⟨runID, stateKey, release, rfl, hadmitted.1, hadmitted.2.1⟩, .same rfl rfl, .same rfl rfl⟩
  | promptCancel runID => exact .handlePromptCancel hs
  | workspaceWrite env accepts =>
    cases hs
    exact ⟨.same rfl, .same rfl, .write rfl, .same rfl rfl⟩
  | workspaceExport env can stream =>
    cases hs
    exact ⟨.same rfl, .same rfl, .beginExport rfl, .same rfl rfl⟩
  | deviceShutdown =>
    simp only [Router.step, handleDeviceShutdown] at hs
    split at hs <;> cases hs
    exact ⟨.map (Preparation.goes_shutDown r.closed), .map fun _ => .interrupt, .same rfl rfl,
      .same rfl rfl⟩
  | shutdown order =>
    have hcontrol : r.Control r' _ := .shutdown hs
    simp only [Router.step, Router.shutdown] at hs
    split at hs <;> cases hs
    exact ⟨.map (Preparation.goes_shutDown r.closed), .map fun _ => .letGo, .close rfl rfl, hcontrol⟩
  | preparation i l =>
    simp only [Router.step] at hs
    split at hs
    · exact .of_preparation hs
    · cases hs
  | beginPrompt i ok => exact .of_prompt hs fun _ _ hq => .begin hq
  | pump i e => exact .of_prompt hs fun _ _ hq => .pump hq
  | continueCall i j => exact .of_prompt hs fun _ _ hq => .call hq
  | expireIdle i => exact .of_prompt hs fun _ _ hq => .expire hq
  | upload s =>
    simp only [Router.step, Option.map_eq_some_iff] at hs
    obtain ⟨w, hw, rfl⟩ := hs
    exact ⟨.same rfl, .same rfl, .upload hw rfl, .same rfl rfl⟩
  | runExport s =>
    simp only [Router.step, Option.map_eq_some_iff] at hs
    obtain ⟨e, he, rfl⟩ := hs
    exact ⟨.same rfl, .same rfl, .runExport he rfl, .same rfl rfl⟩
  | sendRejection i ok =>
    obtain ⟨rejection, -, hs⟩ := Option.bind_eq_some_iff.mp hs
    cases hs
    exact .same rfl rfl rfl rfl rfl rfl
  | shutdownAttempt k => exact .runShutdownAttempt hs

structure Sound (r : Router) : Prop where
  each : ∀ p ∈ r.preparations, p.Sound
  prompts : ∀ q ∈ r.prompts, q.Ok
  handles : ∀ (i j : Nat) (p q : Preparation), r.preparations[i]? = some p →
    r.preparations[j]? = some q → p.status.handle = q.status.handle → i = j

theorem Sound.step (hr : r.Sound) {l : Label} (hs : r.step l = some r') : r'.Sound := by
  have hgrows := (Stepped.step hs).preparations
  have hsound {i : Nat} {p : Preparation} (hp : r.preparations[i]? = some p) : p.Sound :=
    hr.each p (List.mem_of_getElem? hp)
  refine ⟨?_, ?_, ?_⟩
  · refine hgrows.forall_mem (fun p p' hp hgoes => hp.goes hgoes) ?_ hr.each
    rintro p ⟨requestID, handle, readOnly, expiresAt, rfl, -⟩
    exact .new ..
  · refine (Stepped.step hs).prompts.forall_mem (fun q q' hq hm => hq.moved hm) ?_ hr.prompts
    rintro q ⟨runID, stateKey, releaseOnCompletion, rfl, -⟩
    exact Prompt.ok_new ..
  · -- a handle stays with its preparation, and a new one is fresh
    intro i j p' q' hp' hq' hhandle
    rcases hgrows.cases hp' with ⟨p, hp, hpgoes⟩ | ⟨hi, hpnew⟩
    · rw [Preparation.goes_handle (hsound hp) hpgoes] at hhandle
      rcases hgrows.cases hq' with ⟨q, hq, hqgoes⟩ | ⟨-, hqnew⟩
      · rw [Preparation.goes_handle (hsound hq) hqgoes] at hhandle
        exact hr.handles i j p q hp hq hhandle
      · obtain ⟨_, handle, _, _, rfl, -, -, hfresh⟩ := hqnew
        exact absurd hhandle (hfresh p (List.mem_of_getElem? hp))
    · rcases hgrows.cases hq' with ⟨q, hq, hqgoes⟩ | ⟨hj, -⟩
      · rw [Preparation.goes_handle (hsound hq) hqgoes] at hhandle
        obtain ⟨_, handle, _, _, rfl, -, -, hfresh⟩ := hpnew
        exact absurd hhandle.symm (hfresh q (List.mem_of_getElem? hq))
      · omega

theorem sound_of_run {as : List Label} (hr : r.Sound) (hrun : runTrace Router.step r as = some r') :
    r'.Sound :=
  runTrace_invariant (I := Sound) (fun _ _ _ _ hs hr => hr.step hs) (stepsMeet_true r as) hrun hr

theorem sound_of_reaches {as : List Label} (hrun : Reaches as r) : r.Sound :=
  sound_of_run ⟨by simp, by simp, by simp⟩ hrun

end Router

end Parsar.Dispatch
