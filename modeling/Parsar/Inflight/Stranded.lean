import Parsar.Inflight.Invariants

namespace Parsar.Inflight

open GoStd

def TailLeft (events : EventLog) (_log : List Action) (slot : WorkingInflightSlot) : Prop :=
  ∀ run : RunID, slot.agentRunID = run.text → (∃ ev ∈ events run, ev.kind.terminal = true) →
    ∃ ev ∈ events run, ev.kind.renderable = true ∧ slot.seqEmitted < ev.sequence

theorem tailLeft_property : SlotProperty TailLeft where
  blank := by
    rintro events log owner run - ⟨ev, hev, hterm⟩
    exact ⟨ev, hev, EventKind.renderable_of_terminal hterm, ev.sequence_pos⟩
  reread := by
    intro events log slot hsane h run hrun hterm
    rw [WorkingInflightSlot.reread_agentRunID] at hrun
    rw [WorkingInflightSlot.reread_seqEmitted hsane.exact]
    exact h run hrun hterm
  bumped := by
    intro events log slot now msg h run hrun hterm
    rw [WorkingInflightSlot.bumped_agentRunID] at hrun
    rw [WorkingInflightSlot.bumped_seqEmitted]
    exact h run hrun hterm
  record := by
    intro events log slot run ev hsane hnew h r hr hterm
    by_cases hold : ∃ e ∈ events r, e.kind.terminal = true
    · obtain ⟨e, he, hrender, hlt⟩ := h r hr hold
      exact ⟨e, EventLog.mem_record.mpr (.inl he), hrender, hlt⟩
    · -- the terminal event is the new one, and it lies past every cursor
      obtain ⟨e, he, hkind⟩ := hterm
      rcases EventLog.mem_record.mp he with he | ⟨rfl, rfl⟩
      · exact absurd ⟨e, he, hkind⟩ hold
      · exact ⟨e, EventLog.mem_record.mpr (.inr ⟨rfl, rfl⟩),
          EventKind.renderable_of_terminal hkind, (hsane.onLog r hr).lt hnew⟩
  suffix := fun _ _ _ _ _ h => h

/-- A tick claimed before its run finished delivers before the terminal event is recorded, or stops
short of a renderable event. -/
def PageStopsShort (s : System) : Label → Prop
  | .deliver i _ =>
    match s.ticks[i]? with
    | some ⟨row, some page⟩ => row.runStatus.terminal = false →
        s.world.store.TerminalRecorded row.agentRunID →
        ∃ ev ∈ s.world.store.events row.agentRunID, ev.kind.renderable = true ∧
          latestSeq page (row.working.forRun row.agentRunID).seqEmitted < ev.sequence
    | _ => True
  | _ => True

instance (s : System) : ∀ a, Decidable (PageStopsShort s a)
  | .deliver i _ => by
    dsimp only [PageStopsShort]
    exact match s.ticks[i]? with
    | some ⟨_, some _⟩ => inferInstanceAs (Decidable (_ → _ → _))
    | some ⟨_, none⟩ | none => instDecidableTrue
  | .record .. | .start .. | .finish .. | .cancel _ | .claim .. | .list _ | .drop _
  | .clearPermission | .clearChoice => instDecidableTrue

def FinishRecorded (s : System) : Prop :=
  ∀ run, (s.world.store.runs run).status.terminal = true → s.world.store.TerminalRecorded run

theorem finishRecorded_of_eq {s t : System} (h : FinishRecorded s)
    (hruns : t.world.store.runs = s.world.store.runs)
    (hevents : t.world.store.events = s.world.store.events) : FinishRecorded t := by
  intro run hrun
  rw [hruns] at hrun
  obtain ⟨ev, hev, hterm⟩ := h run hrun
  exact ⟨ev, hevents ▸ hev, hterm⟩

theorem finishRecorded_setRun {s : System} {run : RunID} {row : AgentRun} (h : FinishRecorded s)
    (hrow : row.status.terminal = true → s.world.store.TerminalRecorded run) :
    FinishRecorded (s.withStore (s.world.store.setRun run row)) := by
  intro r hr
  simp only [System.withStore, World.setStore_store, Store.setRun] at hr
  split at hr
  · rename_i heq
    subst heq
    exact hrow hr
  · exact h r hr

theorem finishRecorded_step {s t : System} {a : Label} (hstep : s.step a = some t)
    (h : FinishRecorded s) : FinishRecorded t := by
  cases a with
  | record run ev =>
    obtain ⟨-, rfl⟩ := System.step_record hstep
    intro r hr
    obtain ⟨e, he, hterm⟩ := h r hr
    exact ⟨e, EventLog.mem_record.mpr (.inl he), hterm⟩
  | start run agentName =>
    obtain ⟨-, rfl⟩ := System.step_start hstep
    exact finishRecorded_setRun h (by simp [RunStatus.terminal])
  | cancel run =>
    obtain ⟨-, rfl⟩ := System.step_cancel hstep
    exact finishRecorded_setRun h (by simp [RunStatus.terminal])
  | finish run status output =>
    obtain ⟨-, -, hrec, rfl⟩ := System.step_finish hstep
    exact finishRecorded_setRun h fun _ => hrec
  | claim now runs =>
    obtain ⟨-, rfl⟩ := System.step_claim hstep
    exact h
  | list i =>
    obtain ⟨row, -, rfl⟩ := System.step_list hstep
    exact h
  | deliver i env =>
    obtain ⟨row, page, -, rfl⟩ := System.step_deliver hstep
    have htouch := handle_effect env row page s.world
    exact finishRecorded_of_eq h htouch.runs htouch.events
  | drop i =>
    obtain rfl := System.step_drop hstep
    exact h
  | clearPermission | clearChoice =>
    cases hstep
    exact h

theorem tailLeft_step {s t : System} {a : Label} (hok : PageStopsShort s a)
    (hstep : s.step a = some t) (hbase : Base s) (h : SlotsSatisfy TailLeft s) :
    SlotsSatisfy TailLeft t := by
  refine tailLeft_property.step hstep hbase ?_ h
  rintro i env row page slot rfl hget hcom run hrun hterm
  have heq : run = row.agentRunID := Ident.ext_text (hrun.symm.trans hcom.agentRunID)
  subst heq
  rw [hcom.seqEmitted]
  simp only [PageStopsShort, hget] at hok
  exact hok hcom.midRun hterm

/-- If all ticks stop short, a finished run stays claimable until its terminal card is delivered. -/
theorem finished_run_claimable (conv : ConversationInfo) (trace : List Label) (s : System)
    (hok : StepsMeet System.step PageStopsShort { conv := conv } trace)
    (hreach : System.Reaches conv trace s) (run : RunID)
    (hfinished : (s.world.store.runs run).status.terminal = true) :
    s.world.store.EventSlotClaimable run := by
  have hinv : Base s ∧ FinishRecorded s ∧ SlotsSatisfy TailLeft s := by
    refine runTrace_invariant (I := fun s => Base s ∧ FinishRecorded s ∧ SlotsSatisfy TailLeft s)
      ?_ hok hreach ⟨Base.init conv, ?_, tailLeft_property.init conv⟩
    · rintro s a t hok hstep ⟨hbase, hrec, hslots⟩
      exact ⟨System.base_step hstep hbase, finishRecorded_step hstep hrec,
        tailLeft_step hok hstep hbase hslots⟩
    · intro run hrun
      cases hrun
  obtain ⟨-, hrec, hslots⟩ := hinv
  have hterm := hrec run hfinished
  by_cases howner : s.world.store.working.agentRunID = run.text
  · have htail := hslots.1 run howner hterm
    obtain ⟨m, hm, hlt⟩ := (lt_maxRenderableSeq_iff _ _).mpr htail
    exact ⟨m, hm, .inl ⟨howner, hlt⟩⟩
  · obtain ⟨ev, hev, hkind⟩ := hterm
    obtain ⟨m, hm, -⟩ := (lt_maxRenderableSeq_iff _ 0).mpr
      ⟨ev, hev, EventKind.renderable_of_terminal hkind, ev.sequence_pos⟩
    exact ⟨m, hm, .inr howner⟩

/-- The worker's page takes in `run.completed` and moves the cursor past it before the row is
flipped. -/
def racingTrace : List Label :=
  [.record runA startedEvent, .start runA "agent", .claim Time.zero [runA], .record runA completedEvent,
    .list 0, .deliver 0 okEnv, .finish runA .completed "out-a"]

def strandedCheck (s : System) : Bool :=
  s.world.log.all (fun a => !a.failed) && (s.world.store.runs runA).status == .completed &&
    s.world.store.terminalDelivered.isEmpty && !decide (s.world.store.OutputDelivered runA) &&
    !decide (s.world.store.EventSlotClaimable runA)

theorem finished_run_stranded :
    ∃ s, System.Reaches {} racingTrace s ∧ (∀ a ∈ s.world.log, a.failed = false) ∧
      (s.world.store.runs runA).status = .completed ∧ runA ∉ s.world.store.terminalDelivered ∧
      ¬ s.world.store.OutputDelivered runA ∧ ¬ s.world.store.EventSlotClaimable runA := by
  have hrun : (runTrace System.step {} racingTrace).map strandedCheck = some true := by decide
  obtain ⟨s, hreach, hcheck⟩ := exists_of_runTrace_map hrun
  simp only [strandedCheck, Bool.and_eq_true, List.all_eq_true, Bool.not_eq_true', beq_iff_eq,
    decide_eq_false_iff_not, List.isEmpty_iff] at hcheck
  obtain ⟨⟨⟨⟨hlog, hstatus⟩, hfp⟩, hout⟩, hslot⟩ := hcheck
  exact ⟨s, hreach, hlog, hstatus, by simp [hfp], hout, hslot⟩

def orderlyTrace : List Label :=
  [.record runA startedEvent, .start runA "agent", .claim Time.zero [runA], .list 0, .deliver 0 okEnv,
    .record runA completedEvent, .finish runA .completed "out-a"]

theorem finished_run_claimable_orderly :
    ∃ s, System.Reaches {} orderlyTrace s ∧ (s.world.store.runs runA).status.terminal = true ∧
      s.world.store.EventSlotClaimable runA := by
  have hrun : (runTrace System.step {} orderlyTrace).map
      (fun s => (s.world.store.runs runA).status.terminal) = some true := by decide
  obtain ⟨s, hreach, hfinished⟩ := exists_of_runTrace_map hrun
  exact ⟨s, hreach, hfinished,
    finished_run_claimable {} orderlyTrace s (stepsMeet_of_check (by decide)) hreach runA hfinished⟩

end Parsar.Inflight
