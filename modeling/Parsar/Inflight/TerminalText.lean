import Parsar.Inflight.Invariants

namespace Parsar.Inflight

open GoStd

def HoldsTexts (_run : RunID) (_log : List Action) (payload : Object)
    (events : List AgentRunEvent) : Prop :=
  ∃ card, payload = slotPayload card ∧
    card.streamingText = joinText AgentRunEvent.delta events ∧
    card.thinkingText = joinText AgentRunEvent.thinking events

variable {row : FeishuInflightConversation} {evs : List AgentRunEvent}

theorem prior_texts {log : List Action} (h : row.working.hasWorkingSlotForRun row.agentRunID ∧
        HoldsTexts row.agentRunID log row.working.payload evs ∨
      ¬ row.working.hasWorkingSlotForRun row.agentRunID ∧ evs = []) :
    (cardFromPayload (row.working.forRun row.agentRunID).payload).streamingText =
        joinText AgentRunEvent.delta evs ∧
      (cardFromPayload (row.working.forRun row.agentRunID).payload).thinkingText =
        joinText AgentRunEvent.thinking evs := by
  rcases h with ⟨howned, card, hpayload, hstream, hthink⟩ | ⟨hfresh, rfl⟩
  · have htexts := texts_slotPayload card
    rw [WorkingInflightSlot.forRun_of_has howned, hpayload, ← hstream, ← hthink]
    exact ⟨htexts.1, htexts.2.1⟩
  · rw [WorkingInflightSlot.forRun_of_not hfresh]
    exact ⟨rfl, rfl⟩

theorem tickCard_texts {log : List Action} (page : List AgentRunEvent)
    (h : row.working.hasWorkingSlotForRun row.agentRunID ∧
        HoldsTexts row.agentRunID log row.working.payload evs ∨
      ¬ row.working.hasWorkingSlotForRun row.agentRunID ∧ evs = []) :
    (tickCard row page).streamingText = joinText AgentRunEvent.delta (evs ++ page) ∧
      (tickCard row page).thinkingText = joinText AgentRunEvent.thinking (evs ++ page) := by
  obtain ⟨hstream, hthink⟩ := prior_texts h
  rw [tickCard, foldEventsIntoCardState_eq]
  dsimp only
  rw [CardState.applyEvents_streamingText, CardState.applyEvents_thinkingText, hstream, hthink,
    joinText_append, joinText_append]
  exact ⟨rfl, rfl⟩

theorem holdsTexts_step {s t : System} {a : Label} (hstep : s.step a = some t) (hbase : Base s)
    (h : SlotsSatisfy (Consumed HoldsTexts) s) : SlotsSatisfy (Consumed HoldsTexts) t := by
  refine consumed_step (fun _ _ _ _ _ _ h => h) hstep hbase ?_ h
  intro i env row page slot evs _ _ hcom _ hprior
  obtain ⟨hstream, hthink⟩ := tickCard_texts page hprior
  refine ⟨tickCard row page, ?_, hstream, hthink⟩
  rw [hcom.payload, tickCard, foldEventsIntoCardState_eq]

theorem holdsTexts_reachable {conv : ConversationInfo} {trace : List Label} {s : System}
    (hreach : System.Reaches conv trace s) : Base s ∧ SlotsSatisfy (Consumed HoldsTexts) s := by
  refine runTrace_invariant (I := fun s => Base s ∧ SlotsSatisfy (Consumed HoldsTexts) s) ?_
    (stepsMeet_true _ _) hreach
    ⟨Base.init conv, (consumed_property fun _ _ _ _ _ _ h => h).init conv⟩
  rintro s a t - hstep ⟨hbase, hslots⟩
  exact ⟨System.base_step hstep hbase, holdsTexts_step hstep hbase hslots⟩

def NoStep (page : List AgentRunEvent) : Prop :=
  ∀ ev ∈ page, ev.kind = .toolCall → stepFromToolCallPayload ev.payload ev.occurredAt = none

instance (page : List AgentRunEvent) : Decidable (NoStep page) :=
  inferInstanceAs (Decidable (∀ ev ∈ page, _))

theorem applyEvent_steps_eq_none (c : CardState) (ev : AgentRunEvent) :
    (c.applyEvent ev).steps = none ↔ c.steps = none ∧
      (ev.kind = .toolCall → stepFromToolCallPayload ev.payload ev.occurredAt = none) := by
  cases hk : ev.kind <;> simp only [CardState.applyEvent, hk, reduceCtorEq, false_implies, and_true,
    forall_const]
  case toolCall =>
    cases stepFromToolCallPayload ev.payload ev.occurredAt <;> simp
  case toolResult =>
    split <;> simp

theorem applyEvents_steps_eq_none (c : CardState) (page : List AgentRunEvent) :
    (c.applyEvents page).steps = none ↔ c.steps = none ∧ NoStep page := by
  induction page generalizing c with
  | nil => simp [CardState.applyEvents, NoStep]
  | cons ev page ih =>
    have hstep := ih (c.applyEvent ev)
    simp only [CardState.applyEvents, List.foldl_cons] at hstep ⊢
    rw [hstep, applyEvent_steps_eq_none]
    simp only [NoStep, List.forall_mem_cons, and_assoc]

/-- A pinned slot carries steps, so the terminal tick reads again only without a slot and with a
page without steps. -/
theorem tickCard_steps_eq_none {log : List Action} (page : List AgentRunEvent)
    (h : row.working.hasWorkingSlotForRun row.agentRunID ∧
        HoldsTexts row.agentRunID log row.working.payload evs ∨
      ¬ row.working.hasWorkingSlotForRun row.agentRunID ∧ evs = []) :
    (tickCard row page).steps = none ↔
      ¬ row.working.hasWorkingSlotForRun row.agentRunID ∧ NoStep page := by
  rw [tickCard, foldEventsIntoCardState_eq]
  dsimp only
  rw [applyEvents_steps_eq_none]
  apply and_congr_left'
  rcases h with ⟨howned, card, hpayload, -⟩ | ⟨hfresh, -⟩
  · rw [WorkingInflightSlot.forRun_of_has howned, hpayload]
    simp [cardFromPayload, stepsFromPayload, Object.array?, slotPayload, howned]
  · rw [WorkingInflightSlot.forRun_of_not hfresh]
    exact iff_of_true rfl hfresh

theorem listAgentRunEventsAfterSeq_zero (events : List AgentRunEvent) (limit : Nat) :
    listAgentRunEventsAfterSeq events 0 limit = events.take limit := by
  have hall : events.filter (fun ev => 0 < ev.sequence) = events := by
    rw [List.filter_eq_self]
    intro ev _
    simpa using ev.sequence_pos
  rw [listAgentRunEventsAfterSeq, hall]

theorem assembleDoneCardData_thinking (env : TickEnv) (card : CardState)
    (events : List AgentRunEvent) :
    (assembleDoneCardData env card events).thinking =
      if card.steps = none ∧ card.thinkingText = "" ∧ env.doneData.isSome ∧ env.doneEvents then
        joinText AgentRunEvent.thinking (events.take 500)
      else card.thinkingText := by
  rw [← listAgentRunEventsAfterSeq_zero]
  unfold assembleDoneCardData
  cases hdata : env.doneData <;> cases hsteps : card.steps <;> cases hevents : env.doneEvents <;>
    simp

def Silent (f : AgentRunEvent → String) (events : List AgentRunEvent) : Prop :=
  ∀ ev ∈ events, f ev = ""

instance (f : AgentRunEvent → String) (events : List AgentRunEvent) :
    Decidable (Silent f events) :=
  inferInstanceAs (Decidable (∀ ev ∈ events, _))

theorem joinText_eq_empty_iff (f : AgentRunEvent → String) (events : List AgentRunEvent) :
    joinText f events = "" ↔ Silent f events := by
  induction events with
  | nil => simp [joinText, Silent]
  | cons ev events ih =>
    have hcons : joinText f (ev :: events) = f ev ++ joinText f events := rfl
    rw [hcons, String.append_eq_empty_iff, ih, Silent, Silent, List.forall_mem_cons]

def leftBehind (events : List AgentRunEvent) (row : FeishuInflightConversation)
    (page : List AgentRunEvent) : List AgentRunEvent :=
  events.filter fun ev => latestSeq page (row.working.forRun row.agentRunID).seqEmitted < ev.sequence

def ReadsAgain (env : TickEnv) (row : FeishuInflightConversation) (page : List AgentRunEvent) :
    Prop :=
  ¬ row.working.hasWorkingSlotForRun row.agentRunID ∧ NoStep page ∧
    Silent AgentRunEvent.thinking page ∧ env.doneData.isSome = true ∧ env.doneEvents = true

instance (env : TickEnv) (row : FeishuInflightConversation) (page : List AgentRunEvent) :
    Decidable (ReadsAgain env row page) :=
  inferInstanceAs (Decidable (_ ∧ _))

/-- No text lies where the terminal tick does not look. -/
def TextsInReach (env : TickEnv) (row : FeishuInflightConversation)
    (page events : List AgentRunEvent) : Prop :=
  Silent AgentRunEvent.delta (leftBehind events row page) ∧
    (Silent AgentRunEvent.thinking (leftBehind events row page) ∨
      ReadsAgain env row page ∧ Silent AgentRunEvent.thinking (events.drop 500))

instance (env : TickEnv) (row : FeishuInflightConversation) (page events : List AgentRunEvent) :
    Decidable (TextsInReach env row page events) :=
  inferInstanceAs (Decidable (_ ∧ _))

theorem eq_append_right_iff_empty (a b : String) : a = a ++ b ↔ b = "" := by
  constructor
  · intro h
    apply String.toList_injective
    have hlist := congrArg String.toList h
    rw [String.toList_append] at hlist
    simpa using hlist
  · rintro rfl
    rw [String.append_empty]

theorem rendered_texts {s : System} {page : List AgentRunEvent}
    (hbase : Base s) (hslots : SlotsSatisfy (Consumed HoldsTexts) s)
    (hmem : (⟨row, some page⟩ : Tick) ∈ s.ticks) (hcompleted : row.runStatus = .completed)
    (env : TickEnv) {result : TerminalResult}
    (hrender : result = buildFinalCardForRun env row (tickCard row page)
      (s.world.store.events row.agentRunID)) :
    ∃ seen, s.world.store.events row.agentRunID =
        seen ++ leftBehind (s.world.store.events row.agentRunID) row page ∧
      (ReadsAgain env row page → Silent AgentRunEvent.thinking seen) ∧
      result.streamingText = joinText AgentRunEvent.delta seen ∧
      result.thinking =
        if ReadsAgain env row page then
          joinText AgentRunEvent.thinking ((s.world.store.events row.agentRunID).take 500)
        else joinText AgentRunEvent.thinking seen := by
  obtain ⟨events, hevents⟩ : ∃ events, s.world.store.events row.agentRunID = events := ⟨_, rfl⟩
  obtain ⟨evs, hevs⟩ : ∃ evs, upTo events (row.working.forRun row.agentRunID).seqEmitted = evs :=
    ⟨_, rfl⟩
  have hprior : row.working.hasWorkingSlotForRun row.agentRunID ∧
        HoldsTexts row.agentRunID s.world.log row.working.payload evs ∨
      ¬ row.working.hasWorkingSlotForRun row.agentRunID ∧ evs = [] := by
    by_cases howned : row.working.hasWorkingSlotForRun row.agentRunID
    · rw [← hevs, ← hevents, WorkingInflightSlot.forRun_of_has howned]
      exact .inl ⟨howned, hslots.2 _ hmem _ howned⟩
    · rw [← hevs, WorkingInflightSlot.forRun_of_not howned]
      exact .inr ⟨howned, upTo_zero _⟩
  obtain ⟨hstream, hthink⟩ := tickCard_texts page hprior
  have hsteps := tickCard_steps_eq_none page hprior
  have hconsumed := (hbase.pages _ hmem page rfl).consumed
  have hsplit := upTo_append_after (hbase.ordered row.agentRunID)
    (latestSeq page (row.working.forRun row.agentRunID).seqEmitted)
  rw [hconsumed, hevents, hevs] at hsplit
  have hnone : ¬ row.working.hasWorkingSlotForRun row.agentRunID → evs = [] := fun hfresh =>
    hprior.elim (fun h => absurd h.1 hfresh) (fun h => h.2)
  have hreads : ReadsAgain env row page ↔ (tickCard row page).steps = none ∧
      (tickCard row page).thinkingText = "" ∧ env.doneData.isSome ∧ env.doneEvents := by
    rw [hsteps, hthink, joinText_eq_empty_iff, ReadsAgain, and_assoc]
    refine and_congr_right fun hfresh => ?_
    rw [hnone hfresh, List.nil_append]
  have hnotfailed : ¬ row.runStatus = .failed := by
    rw [hcompleted]
    decide
  rw [hevents] at hrender ⊢
  refine ⟨evs ++ page, hsplit.symm, ?_, ?_, ?_⟩
  · intro hagain
    rw [hnone hagain.1]
    exact hagain.2.2.1
  · rw [hrender, buildFinalCardForRun, if_neg hnotfailed]
    exact hstream
  · rw [hrender, buildFinalCardForRun, if_neg hnotfailed]
    show (assembleDoneCardData env (tickCard row page) events).thinking = _
    rw [assembleDoneCardData_thinking, hthink]
    simp only [hreads, hthink]

/-- A terminal card shows the whole run exactly when no text lies past what its tick reads. -/
theorem terminal_card_whole (conv : ConversationInfo) (trace : List Label) (s : System)
    (hreach : System.Reaches conv trace s) (row : FeishuInflightConversation)
    (page : List AgentRunEvent) (hmem : (⟨row, some page⟩ : Tick) ∈ s.ticks)
    (hcompleted : row.runStatus = .completed) (env : TickEnv) (result : TerminalResult)
    (hrender : .renderTerminal row.agentRunID result ∈
      (handleInflightConversation env row page { store := s.world.store }).log) :
    (result.streamingText =
        joinText AgentRunEvent.delta (s.world.store.events row.agentRunID) ∧
      result.thinking =
        joinText AgentRunEvent.thinking (s.world.store.events row.agentRunID)) ↔
      TextsInReach env row page (s.world.store.events row.agentRunID) := by
  obtain ⟨hbase, hslots⟩ := holdsTexts_reachable hreach
  have hresult : result = buildFinalCardForRun env row (tickCard row page)
      (s.world.store.events row.agentRunID) := by
    obtain ⟨acts, hlog, hacts⟩ := (handle_effect env row page { store := s.world.store }).log
    rw [hlog, List.append_nil] at hrender
    rcases hacts _ hrender with hnew | hprompt
    · cases hnew with
      | rendered => rfl
      | other _ h => cases h
    · cases hprompt
  obtain ⟨seen, hevents, hsilent, hstream, hthink⟩ :=
    rendered_texts hbase hslots hmem hcompleted env hresult
  generalize s.world.store.events row.agentRunID = events at *
  have hdelta := congrArg (joinText AgentRunEvent.delta) hevents
  have hthinking := congrArg (joinText AgentRunEvent.thinking) hevents
  rw [joinText_append] at hdelta hthinking
  refine and_congr ?_ ?_
  · rw [hstream, hdelta, eq_append_right_iff_empty, joinText_eq_empty_iff]
  · by_cases hreads : ReadsAgain env row page
    · rw [if_pos hreads] at hthink
      have hcut : joinText AgentRunEvent.thinking events =
          joinText AgentRunEvent.thinking (events.take 500) ++
            joinText AgentRunEvent.thinking (events.drop 500) := by
        rw [← joinText_append, List.take_append_drop]
      rw [hthink, hcut, eq_append_right_iff_empty, joinText_eq_empty_iff]
      refine ⟨fun h => .inr ⟨hreads, h⟩, fun h => h.elim (fun hrest => ?_) fun h => h.2⟩
      intro ev hev
      have hmem := List.mem_of_mem_drop hev
      rw [hevents] at hmem
      exact (List.mem_append.mp hmem).elim (hsilent hreads ev) (hrest ev)
    · rw [if_neg hreads] at hthink
      rw [hthink, hthinking, eq_append_right_iff_empty, joinText_eq_empty_iff]
      exact ⟨.inl, fun h => h.resolve_right fun h => hreads h.1⟩

def deltaEvent (n : Fin 1000) (text : String) : AgentRunEvent :=
  ⟨n + 1, .messageDelta, [("delta", .str text)], Time.zero, by omega,
    by have := n.isLt; unfold maxExactInt; omega, startedEvent.occurredAt_layout⟩

def backlogTrace (n : Fin 998) : List Label :=
  List.ofFn (fun i : Fin n => .record runA (deltaEvent ⟨i, by omega⟩ ".")) ++
    [.record runA (deltaEvent ⟨n, by omega⟩ "end"),
      .record runA (bareEvent (n + 2) .runCompleted (by omega)
        (by have := n.isLt; unfold maxExactInt; omega)),
      .start runA "agent", .finish runA .completed "out-a", .claim Time.zero [runA], .list 0]

def shownText (log : List Action) : Option String :=
  log.findSome? fun
    | .renderTerminal _ result => some result.streamingText
    | _ => none

def truncatedCheck (s : System) : Bool :=
  (s.world.store.runs runA).status == .completed && s.world.store.terminalDelivered.contains runA &&
    (shownText s.world.log).any fun text =>
      text != joinText AgentRunEvent.delta (s.world.store.events runA)

theorem terminal_card_truncated :
    ∃ s text, System.Reaches {} (backlogTrace 200 ++ [.deliver 0 okEnv]) s ∧
      (s.world.store.runs runA).status = .completed ∧ runA ∈ s.world.store.terminalDelivered ∧
      shownText s.world.log = some text ∧
      text ≠ joinText AgentRunEvent.delta (s.world.store.events runA) := by
  have hrun : (runTrace System.step {} (backlogTrace 200 ++ [.deliver 0 okEnv])).map
      truncatedCheck = some true := by decide +kernel
  obtain ⟨s, hreach, hcheck⟩ := exists_of_runTrace_map hrun
  simp only [truncatedCheck, Bool.and_eq_true, beq_iff_eq, List.contains_iff_mem,
    Option.any_eq_true, bne_iff_ne] at hcheck
  obtain ⟨⟨hstatus, hdelivered⟩, text, hshown, hne⟩ := hcheck
  exact ⟨s, text, hreach, hstatus, hdelivered, hshown, hne⟩

def shortResult : TerminalResult :=
  { success := true, title := "agent", streamingText := "..end", steps := some [] }

def shortCheck (s : System) : Bool :=
  s.ticks.any fun
    | ⟨row, some page⟩ => row.agentRunID == runA && row.runStatus == .completed &&
        decide (TextsInReach okEnv row page (s.world.store.events row.agentRunID)) &&
        (handleInflightConversation okEnv row page { store := s.world.store }).log.contains
          (.renderTerminal row.agentRunID shortResult)
    | _ => false

theorem terminal_card_whole_short :
    ∃ s, System.Reaches {} (backlogTrace 2) s ∧
      shortResult.streamingText = joinText AgentRunEvent.delta (s.world.store.events runA) ∧
      shortResult.thinking = joinText AgentRunEvent.thinking (s.world.store.events runA) := by
  have hrun : (runTrace System.step {} (backlogTrace 2)).map shortCheck = some true := by
    decide +kernel
  obtain ⟨s, hreach, hcheck⟩ := exists_of_runTrace_map hrun
  obtain ⟨⟨row, page⟩, hmem, htick⟩ := List.any_eq_true.mp hcheck
  cases page with
  | none => cases htick
  | some page =>
    simp only [Bool.and_eq_true, beq_iff_eq, decide_eq_true_eq, List.contains_iff_mem] at htick
    obtain ⟨⟨⟨hrun, hcompleted⟩, htexts⟩, hrender⟩ := htick
    have hwhole := terminal_card_whole {} _ s hreach row page hmem hcompleted okEnv _ hrender
    rw [← hrun]
    exact ⟨s, hreach, hwhole.mpr htexts⟩

end Parsar.Inflight
