import Parsar.WorkspaceWrite.Rejection

namespace Parsar.WorkspaceWrite

open GoStd

instance (v : View) (env : Frame) : Decidable (Timely v env) :=
  decidable_of_iff
    (env.request = none → ∀ c ∈ v.calls env.id, c.hasReturned = false →
      ∀ u ∈ v.router.retired, u.id = env.id → ∀ w ∈ u.calls, w.wrote = false) Iff.rfl

instance (v : View) (a : Label) : Decidable (Fair v a) :=
  match a with
  | .handleWorkspaceWrite _ => inferInstanceAs (Decidable (∀ env ∈ v.frames.head?, Timely v env))
  | .writeLocal answer => inferInstanceAs
      (Decidable ((answer.err.bind WriteError.code).isSome = true → answer.wrote = false))
  | .writeWorkspaceFile .. | .send .. | .receive .. | .giveUp .. | .dispatchWorkspaceWrite | .close
  | .closeWorkspaceWrites | .loseFrame .. | .loseReply .. | .strayFrame .. | .strayReply ..
  | .handle | .sendWorkspaceWrite .. | .takeBody | .recordResult | .sendResult .. | .shutdown =>
    inferInstanceAs (Decidable True)

theorem linked_reachable {own : String → Bool} {trace : List Label} {st : System}
    (hreach : System.Reaches own trace st) : Linked own st.view := by
  have hsteps : StepsMeet (System.step own) (fun _ _ => True) {} trace := stepsMeet_true _ trace
  refine runTrace_invariant (I := fun st => Linked own st.view) ?_ hsteps hreach (linked_init own)
  intro st a t _ hstep h
  exact h.step (System.step_change hstep)

theorem truthful_reachable {own : String → Bool} {trace : List Label} {st : System}
    (hfair : StepsMeet (System.step own) (fun st a => Fair st.view a) {} trace)
    (hreach : System.Reaches own trace st) : Truthful st.view := by
  have hboth : Linked own st.view ∧ Truthful st.view := by
    refine runTrace_invariant (I := fun st => Linked own st.view ∧ Truthful st.view) ?_ hfair hreach
      ⟨linked_init own, truthful_init⟩
    intro st a t hok hstep h
    have hchange := System.step_change hstep
    exact ⟨h.1.step hchange, h.2.step h.1 hok hchange⟩
  exact hboth.2

namespace Linked

variable {own : String → Bool} {v : View}

theorem unique (h : Linked own v) {u : WorkspaceUpload} (hu : u ∈ v.router.admitted)
    (hown : own u.id = true) : v.router.admitted.filter (·.id = u.id) = [u] := by
  have hone := (h.single u.id hown).1
  have hmem : u ∈ v.router.admitted.filter (·.id = u.id) := by simp [hu]
  have hlength : (v.router.admitted.filter (·.id = u.id)).length ≤ 1 := by
    rw [← List.countP_eq_length_filter]
    have hcount : v.router.admitted.countP (·.id = u.id) =
        (v.router.admitted.map (·.id)).count u.id := by
      simp only [List.count_eq_countP, List.countP_map, Function.comp_def]
      congr
    simp only [admissions, List.count_append] at hone
    omega
  obtain ⟨w, hw⟩ := List.length_eq_one_iff.mp
    (Nat.le_antisymm hlength (List.length_pos_of_mem hmem))
  rw [hw] at hmem ⊢
  rw [List.mem_singleton.mp hmem]

theorem callsFor_eq (h : Linked own v) {u : WorkspaceUpload} (hu : u ∈ v.router.admitted)
    (hown : own u.id = true) : v.router.callsFor u.id = u.calls := by
  simp [Router.callsFor, h.unique hu hown]

theorem calls_eq (h : Linked own v) {u : WorkspaceUpload} (hu : u ∈ v.router.admitted) {c : Call}
    (hc : v.calls u.id = some c) (hcalls : u.calls ≠ []) :
    ∃ wrote, u.calls = [⟨c.request.path, c.data, wrote⟩] := by
  obtain ⟨hok, hmade⟩ := h.uploads u hu
  obtain ⟨c', hc', hmade⟩ := hmade (h.owned u.id c hc)
  cases hc.symm.trans hc'
  obtain ⟨w, hw⟩ := List.length_eq_one_iff.mp
    (Nat.le_antisymm hok.once (List.length_pos_iff.mpr hcalls))
  have hmem : w ∈ u.calls := by simp [hw]
  obtain ⟨-, hpath, hlength, -⟩ := hok.calls w hmem
  have hprefix := hmade.bodies w.data (WorkspaceUpload.mem_bodies.mpr (.inr (.inr ⟨w, hmem, rfl⟩)))
  have hdata : w.data = c.data := by
    refine hprefix.eq_of_length ?_
    rw [hmade.request, c.sized] at hlength
    omega
  refine ⟨w.wrote, ?_⟩
  rw [hw, ← hdata, ← hmade.request, ← hpath]

end Linked

/-- A call that returns `completed` had its data written by one call of the local writer; one that
returns `rejected` had nothing written if writer and malformed frames are fair; no upload calls the
writer twice or with another body. -/
theorem transfer_agrees (own : String → Bool) (trace : List Label) (st : System)
    (hreach : System.Reaches own trace st) :
    (∀ id c result, st.calls id = some c → c.status = .returned (some result) →
      result.outcome = .completed →
        ∃ wrote, st.router.callsFor id = [⟨c.request.path, c.data, wrote⟩]) ∧
    (StepsMeet (System.step own) (fun st a => Fair st.view a) {} trace →
      ∀ id c result, st.calls id = some c → c.status = .returned (some result) →
        result.outcome = .rejected → ∀ w ∈ st.router.callsFor id, w.wrote = false) ∧
    (∀ u ∈ st.router.admitted, u.calls.length ≤ 1 ∧
      ∀ w ∈ u.calls, w.path = u.request.path ∧ u.Matches w.data) := by
  have hlinked := linked_reachable hreach
  refine ⟨?_, ?_, ?_⟩
  · intro id c result hc hstatus hcompleted
    obtain ⟨u, hu, rfl, hcalls⟩ := hlinked.returned id c result hc hstatus hcompleted
    have hfor : st.router.callsFor u.id = u.calls :=
      hlinked.callsFor_eq hu (hlinked.owned u.id c hc)
    rw [hfor]
    exact hlinked.calls_eq hu hc hcalls
  · intro hfair id c result hc hstatus hrejected w hw
    have htruthful := truthful_reachable hfair hreach
    have hown := hlinked.owned id c hc
    simp only [Router.callsFor, List.mem_flatMap, List.mem_filter, decide_eq_true_eq] at hw
    obtain ⟨u, ⟨hu, rfl⟩, hw⟩ := hw
    -- the commit was sent, so the rejection is final; and there is no other upload
    have hcommitted : c.committed = true := by
      obtain ⟨c', hc', hmade⟩ := (hlinked.uploads u hu).2 hown
      cases hc.symm.trans hc'
      exact hmade.committed ((hlinked.uploads u hu).1.calls w hw).1
    obtain ⟨u', hu', hid, hfinal⟩ := htruthful.returned u.id c result hc hstatus hrejected hcommitted
    have hsame : u' ∈ st.view.router.admitted.filter (·.id = u.id) :=
      List.mem_filter.mpr ⟨List.mem_append_left _ hu', by simpa using hid⟩
    rw [hlinked.unique hu hown, List.mem_singleton] at hsame
    exact hfinal w (hsame ▸ hw)
  · intro u hu
    have hok := (hlinked.uploads u hu).1
    exact ⟨hok.once, fun w hw => (hok.calls w hw).2⟩

def opA : String := "00000000-0000-0000-0000-00000000000a"

def noteRequest : WorkspaceWritePayload where
  step := .begin
  environmentID := "00000000-0000-0000-0000-0000000000e1"
  sessionID := "00000000-0000-0000-0000-0000000000f1"
  path := "note.txt"

def exchangeSteps (size : Nat) : List Label :=
  [.send opA size, .handle, .handleWorkspaceWrite {}, .sendWorkspaceWrite true,
    .dispatchWorkspaceWrite, .receive opA]

def writtenTrace : List Label :=
  .writeWorkspaceFile opA noteRequest (utf8 "hi") :: exchangeSteps 300 ++ exchangeSteps 60 ++
    [.send opA 20, .handle, .handleWorkspaceWrite {}, .takeBody,
      .writeLocal { sizeBytes := 2, wrote := true }, .recordResult]

def gapTrace : List Label :=
  writtenTrace ++ [.strayFrame ⟨opA, 10, none⟩, .handle, .handleWorkspaceWrite {},
    .sendWorkspaceWrite true, .dispatchWorkspaceWrite, .receive opA]

def returnedWith (st : System) (id : String) (result : WorkspaceWriteResultPayload) : Bool :=
  (st.calls id).any (·.status = .returned (some result))

theorem of_returnedWith {st : System} {id : String} {result : WorkspaceWriteResultPayload}
    (h : returnedWith st id result = true) :
    ∃ c, st.calls id = some c ∧ c.status = .returned (some result) := by
  simpa [returnedWith, Option.any_eq_true] using h

theorem rejected_after_write :
    ∃ st c, System.Reaches (fun _ => true) gapTrace st ∧ st.calls opA = some c ∧
      c.status = .returned (some (rejectedWorkspaceWrite .invalidRequest)) ∧
      st.router.callsFor opA = [⟨"note.txt", utf8 "hi", true⟩] := by
  have hrun : (runTrace (System.step fun _ => true) {} gapTrace).map (fun st =>
      returnedWith st opA (rejectedWorkspaceWrite .invalidRequest) &&
        st.router.callsFor opA == [⟨"note.txt", utf8 "hi", true⟩]) = some true := by decide +kernel
  obtain ⟨st, hreach, hcheck⟩ := exists_of_runTrace_map hrun
  simp only [Bool.and_eq_true, beq_iff_eq] at hcheck
  obtain ⟨c, hc, hstatus⟩ := of_returnedWith hcheck.1
  exact ⟨st, c, hreach, hc, hstatus, hcheck.2⟩

def completedTrace : List Label :=
  writtenTrace ++ [.strayFrame ⟨opA, 10, none⟩, .sendResult 0 true, .dispatchWorkspaceWrite,
    .receive opA, .handle, .handleWorkspaceWrite {}]

def refusedTrace : List Label :=
  [.writeWorkspaceFile opA noteRequest (utf8 "hi"), .send opA 300, .handle,
    .handleWorkspaceWrite { sessions := true }, .sendWorkspaceWrite true, .dispatchWorkspaceWrite,
    .receive opA]

theorem transfer_agrees_both_ways :
    (∃ st wrote, System.Reaches (fun _ => true) completedTrace st ∧
      st.router.callsFor opA = [⟨"note.txt", utf8 "hi", wrote⟩]) ∧
    ∃ st, System.Reaches (fun _ => true) refusedTrace st ∧
      returnedWith st opA (rejectedWorkspaceWrite .resourceUnavailable) = true ∧
      ∀ w ∈ st.router.callsFor opA, w.wrote = false := by
  constructor
  · have hrun : (runTrace (System.step fun _ => true) {} completedTrace).map (fun st =>
        returnedWith st opA { outcome := .completed, sizeBytes := 2 } &&
          (st.calls opA).all (fun c => c.request.path = "note.txt" ∧ c.data = utf8 "hi")) =
        some true := by decide +kernel
    obtain ⟨st, hreach, hcheck⟩ := exists_of_runTrace_map hrun
    simp only [Bool.and_eq_true] at hcheck
    obtain ⟨c, hc, hstatus⟩ := of_returnedWith hcheck.1
    obtain ⟨hpath, hdata⟩ : c.request.path = "note.txt" ∧ c.data = utf8 "hi" := by
      simpa [hc] using hcheck.2
    obtain ⟨wrote, hcalls⟩ := (transfer_agrees (fun _ => true) completedTrace st hreach).1 opA c _
      hc hstatus rfl
    exact ⟨st, wrote, hreach, by rw [hcalls, hpath, hdata]⟩
  · obtain ⟨hrun, hfair⟩ : (runTrace (System.step fun _ => true) {} refusedTrace).map (fun st =>
        returnedWith st opA (rejectedWorkspaceWrite .resourceUnavailable)) = some true ∧
        meetsCheck (System.step fun _ => true) (fun st a => decide (Fair st.view a)) {}
          refusedTrace = true := by decide +kernel
    obtain ⟨st, hreach, hcheck⟩ := exists_of_runTrace_map hrun
    obtain ⟨c, hc, hstatus⟩ := of_returnedWith hcheck
    exact ⟨st, hreach, hcheck, (transfer_agrees (fun _ => true) refusedTrace st hreach).2.1
      (stepsMeet_of_check hfair) opA c _ hc hstatus rfl⟩

end Parsar.WorkspaceWrite
