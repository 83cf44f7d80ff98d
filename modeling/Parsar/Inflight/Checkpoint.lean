import Parsar.Inflight.Invariants

namespace Parsar.Inflight

open GoStd

theorem cardFromPayload_of_normalize {c d : CardState} (hd : d.Encodable)
    (h : c.normalize = d.normalize) : cardFromPayload (slotPayload c) = d.normalize := by
  have hc : c.Encodable := by
    have hsteps : c.steps.getD [] = d.steps.getD [] := 
      Option.some.inj (congrArg (·.steps) h)
    have herror : c.errorMessage = d.errorMessage := congrArg (·.errorMessage) h
    have hraw : c.rawError = d.rawError := congrArg (·.rawError) h
    exact ⟨hsteps ▸ hd.steps, herror ▸ hd.errorMessage, hraw ▸ hd.rawError⟩
  rw [cardFromPayload_slotPayload hc, h]

def DecodesTo (_run : RunID) (_log : List Action) (payload : Object)
    (events : List AgentRunEvent) : Prop :=
  cardFromPayload payload = (CardState.empty.applyEvents events).normalize

def LogClean (s : System) : Prop := ∀ run, ∀ ev ∈ s.world.store.events run, ev.CutClean

def RecordsClean (_ : System) : Label → Prop
  | .record _ ev => ev.CutClean
  | _ => True

instance (s : System) (a : Label) : Decidable (RecordsClean s a) := by
  unfold RecordsClean
  split <;> infer_instance

theorem logClean_step {s t : System} {a : Label} (hok : RecordsClean s a)
    (hstep : s.step a = some t) (h : LogClean s) : LogClean t := by
  intro run ev hev
  rcases System.step_events hstep with heq | ⟨r, e, rfl, heq⟩
  · rw [heq] at hev
    exact h run ev hev
  · rw [heq] at hev
    rcases EventLog.mem_record.mp hev with hev | ⟨rfl, rfl⟩
    · exact h run ev hev
    · exact hok

theorem checkpoint_step {s t : System} {a : Label} (hstep : s.step a = some t) (hbase : Base s)
    (hclean : LogClean s) (h : SlotsSatisfy (Consumed DecodesTo) s) :
    SlotsSatisfy (Consumed DecodesTo) t := by
  refine consumed_step (fun _ _ _ _ _ _ h => h) hstep hbase ?_ h
  intro i env row page slot evs _ _ hcom hlog hprior
  -- what the tick folds its page onto is, up to the nil list of steps, the card of `evs`
  have hcard : (cardFromPayload (row.working.forRun row.agentRunID).payload).normalize =
      (CardState.empty.applyEvents evs).normalize := by
    rcases hprior with ⟨howned, hdecodes⟩ | ⟨hfresh, rfl⟩
    · rw [WorkingInflightSlot.forRun_of_has howned, hdecodes, CardState.normalize_normalize]
    · rw [WorkingInflightSlot.forRun_of_not hfresh]
      show (cardFromPayload []).normalize = _
      rw [cardFromPayload_nil]
      rfl
  have hencodable : (CardState.empty.applyEvents (evs ++ page)).Encodable := by
    apply CardState.applyEvents_encodable CardState.empty_encodable
    intro ev hev
    rw [← hlog] at hev
    exact hclean _ ev (List.mem_of_mem_filter hev)
  rw [hcom.payload]
  apply cardFromPayload_of_normalize hencodable
  rw [CardState.applyEvents_append, ← CardState.applyEvents_normalize, hcard,
    CardState.applyEvents_normalize]

theorem foldEventsIntoCardState_card (events : List AgentRunEvent) :
    (foldEventsIntoCardState {} events).card = CardState.empty.applyEvents events := by
  rw [foldEventsIntoCardState_eq]
  show (cardFromPayload []).applyEvents events = CardState.empty.applyEvents events
  rw [cardFromPayload_nil]

/-- If recorded tool calls are clean, the persisted slot decodes to the fold of the events before
its cursor, and writing and reading it back at any event changes nothing. -/
theorem working_slot_checkpoint (conv : ConversationInfo) (trace : List Label) (s : System)
    (hok : StepsMeet System.step RecordsClean { conv := conv } trace)
    (hreach : System.Reaches conv trace s) (run : RunID) :
    (s.world.store.working.hasWorkingSlotForRun run →
      cardFromPayload s.world.store.working.payload = (foldEventsIntoCardState {}
        (upTo (s.world.store.events run) s.world.store.working.seqEmitted)).card.normalize) ∧
    ∀ (xs ys : List AgentRunEvent) (slot : WorkingInflightSlot), s.world.store.events run = xs ++ ys →
      slot.payload = slotPayload (foldEventsIntoCardState {} xs).card →
      (foldEventsIntoCardState slot.reread ys).card =
        (foldEventsIntoCardState {} (xs ++ ys)).card.normalize := by
  have hinv : Base s ∧ LogClean s ∧ SlotsSatisfy (Consumed DecodesTo) s := by
    refine runTrace_invariant
      (I := fun s => Base s ∧ LogClean s ∧ SlotsSatisfy (Consumed DecodesTo) s) ?_ hok hreach
      ⟨Base.init conv, ?_, (consumed_property fun _ _ _ _ _ _ h => h).init conv⟩
    · rintro s a t hok hstep ⟨hbase, hclean, hslots⟩
      exact ⟨System.base_step hstep hbase, logClean_step hok hstep hclean,
        checkpoint_step hstep hbase hclean hslots⟩
    · intro run ev hev
      cases hev
  obtain ⟨-, hclean, hslots⟩ := hinv
  refine ⟨fun hhas => ?_, fun xs ys slot hlog hslot => ?_⟩
  · rw [foldEventsIntoCardState_card]
    exact hslots.1 run hhas
  · have hxs : ∀ ev ∈ xs, ev.CutClean := by
      intro ev hev
      apply hclean run ev
      rw [hlog]
      exact List.mem_append_left ys hev
    rw [foldEventsIntoCardState_eq slot.reread, WorkingInflightSlot.reread_payload, hslot,
      foldEventsIntoCardState_card, foldEventsIntoCardState_card]
    exact applyEvents_cardFromPayload_slotPayload hxs ys

def shellEvent (command : String) : AgentRunEvent :=
  ⟨1, .toolCall, [("id", .str "t1"), ("name", .str "Bash"),
    ("args", .obj [("command", .str command)])], Time.zero, startedEvent.sequence_pos,
    startedEvent.sequence_exact, startedEvent.occurredAt_layout⟩

def shellTrace (command : String) : List Label :=
  [.record runA (shellEvent command), .start runA "agent", .claim Time.zero [runA], .list 0,
    .deliver 0 okEnv]

def wideCommand : String := "日日日日日日日日日日日日日日日日日日日日日"

def driftCheck (s : System) : Bool :=
  decide (s.world.store.working.hasWorkingSlotForRun runA) &&
    decide (cardFromPayload s.world.store.working.payload ≠ (foldEventsIntoCardState {}
      (upTo (s.world.store.events runA) s.world.store.working.seqEmitted)).card.normalize)

theorem working_slot_drifts :
    ∃ s, System.Reaches {} (shellTrace wideCommand) s ∧
      s.world.store.working.hasWorkingSlotForRun runA ∧
      cardFromPayload s.world.store.working.payload ≠ (foldEventsIntoCardState {}
        (upTo (s.world.store.events runA) s.world.store.working.seqEmitted)).card.normalize := by
  have hrun : (runTrace System.step {} (shellTrace wideCommand)).map driftCheck = some true := by
    decide +kernel
  obtain ⟨s, hreach, hcheck⟩ := exists_of_runTrace_map hrun
  simp only [driftCheck, Bool.and_eq_true, decide_eq_true_eq] at hcheck
  exact ⟨s, hreach, hcheck.1, hcheck.2⟩

def narrowCommand : String := "find . -name go.mod -not -path ./vendor -exec dirname [] + | sort -u"

theorem working_slot_checkpoint_narrow :
    ∃ s, System.Reaches {} (shellTrace narrowCommand) s ∧
      s.world.store.working.hasWorkingSlotForRun runA ∧
      cardFromPayload s.world.store.working.payload = (foldEventsIntoCardState {}
        (upTo (s.world.store.events runA) s.world.store.working.seqEmitted)).card.normalize := by
  have hrun : (runTrace System.step {} (shellTrace narrowCommand)).map
      (fun s => decide (s.world.store.working.hasWorkingSlotForRun runA)) = some true := by
    decide +kernel
  obtain ⟨s, hreach, hhas⟩ := exists_of_runTrace_map hrun
  have hok : StepsMeet System.step RecordsClean {} (shellTrace narrowCommand) :=
    stepsMeet_of_check (by decide +kernel)
  have hhas := of_decide_eq_true hhas
  exact ⟨s, hreach, hhas, (working_slot_checkpoint {} _ s hok hreach runA).1 hhas⟩

end Parsar.Inflight
