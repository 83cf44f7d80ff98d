import Mathlib.Data.List.Pairwise
import Parsar.Inflight.System

namespace Parsar.Inflight

open GoStd

def Ordered (events : List AgentRunEvent) : Prop :=
  events.Pairwise fun a b => a.sequence < b.sequence

def upTo (events : List AgentRunEvent) (k : Nat) : List AgentRunEvent :=
  events.filter fun ev => ev.sequence ≤ k

/-- A cursor rests on an event of the log, or before all of them. -/
def OnLog (events : List AgentRunEvent) (k : Nat) : Prop :=
  k = 0 ∨ ∃ ev ∈ events, ev.sequence = k

variable {events page : List AgentRunEvent} {row : FeishuInflightConversation}

theorem OnLog.append {k : Nat} (h : OnLog events k)
    (more : List AgentRunEvent) : OnLog (events ++ more) k :=
  h.imp_right fun ⟨ev, hev, hk⟩ => ⟨ev, List.mem_append_left more hev, hk⟩

theorem OnLog.exact {k : Nat} (h : OnLog events k) :
    k ≤ maxExactInt := by
  rcases h with rfl | ⟨ev, -, rfl⟩
  · exact Nat.zero_le _
  · exact ev.sequence_exact

theorem OnLog.lt {k : Nat} (h : OnLog events k) {ev : AgentRunEvent}
    (hnew : ∀ e ∈ events, e.sequence < ev.sequence) : k < ev.sequence := by
  rcases h with rfl | ⟨e, he, rfl⟩
  · exact ev.sequence_pos
  · exact hnew e he

theorem upTo_zero (events : List AgentRunEvent) : upTo events 0 = [] := by
  rw [upTo, List.filter_eq_nil_iff]
  intro ev _
  have := ev.sequence_pos
  simp only [decide_eq_true_eq]
  omega

theorem upTo_append_of_lt {ev : AgentRunEvent} {k : Nat}
    (h : k < ev.sequence) : upTo (events ++ [ev]) k = upTo events k := by
  simp [upTo, List.filter_append, h]

theorem upTo_append_after (h : Ordered events) (k : Nat) :
    upTo events k ++ events.filter (fun ev => k < ev.sequence) = events := by
  induction events with
  | nil => rfl
  | cons ev events ih =>
    obtain ⟨hhead, htail⟩ := List.pairwise_cons.mp h
    by_cases hk : ev.sequence ≤ k
    · have hnot : ¬ k < ev.sequence := by omega
      simp only [upTo, List.filter_cons, hk, hnot, decide_true, decide_false, if_true,
        Bool.false_eq_true, if_false, List.cons_append] at ih ⊢
      rw [ih htail]
    · have hafter : ∀ e ∈ events, k < e.sequence := fun e he => by
        have := hhead e he
        omega
      have hnone : upTo (ev :: events) k = [] := by
        rw [upTo, List.filter_eq_nil_iff]
        intro e he
        rcases List.mem_cons.mp he with rfl | he
        · simpa using hk
        · have := hafter e he
          simp only [decide_eq_true_eq]
          omega
      rw [hnone, List.nil_append, List.filter_eq_self]
      intro e he
      rcases List.mem_cons.mp he with rfl | he
      · simpa using hk
      · simpa using hafter e he

theorem upTo_latestSeq (h : Ordered events) (k limit : Nat) :
    upTo events (latestSeq (listAgentRunEventsAfterSeq events k limit) k) =
      upTo events k ++ listAgentRunEventsAfterSeq events k limit := by
  obtain ⟨page, hpage⟩ : ∃ page, listAgentRunEventsAfterSeq events k limit = page := ⟨_, rfl⟩
  obtain ⟨rest, hrest⟩ : ∃ rest, events.filter (fun ev => k < ev.sequence) = page ++ rest := by
    rw [← hpage]
    exact ⟨_, (List.take_append_drop limit _).symm⟩
  rw [hpage]
  have hall : upTo events k ++ page ++ rest = events := by
    rw [List.append_assoc, ← hrest]
    exact upTo_append_after h k
  have hsplit : Ordered (upTo events k ++ page ++ rest) := by
    rw [hall]
    exact h
  obtain ⟨-, -, hcross⟩ := List.pairwise_append.mp hsplit
  have hold : ∀ ev ∈ upTo events k ++ page, ev.sequence ≤ latestSeq page k := by
    intro ev hev
    rcases List.mem_append.mp hev with hev | hev
    · have hle : ev.sequence ≤ k := by simpa using (List.mem_filter.mp hev).2
      exact hle.trans (latestSeq_ge page k)
    · exact sequence_le_latestSeq hev k
  have hnew : ∀ ev ∈ rest, ¬ ev.sequence ≤ latestSeq page k := by
    intro ev hev
    rcases latestSeq_mem page k with heq | ⟨e, he, heq⟩
    · rw [heq]
      have hmem : ev ∈ events.filter (fun ev => k < ev.sequence) := by
        rw [hrest]
        exact List.mem_append_right page hev
      have hlt : k < ev.sequence := by simpa using (List.mem_filter.mp hmem).2
      omega
    · have hlt := hcross e (List.mem_append_right _ he) ev hev
      omega
  have hfilter : upTo (upTo events k ++ page ++ rest) (latestSeq page k) =
      upTo events k ++ page := by
    rw [upTo, List.filter_append, List.filter_eq_self.mpr (by simpa using hold),
      List.filter_eq_nil_iff.mpr (by simpa using hnew), List.append_nil]
  rwa [hall] at hfilter

theorem listAgentRunEventsAfterSeq_subset (events : List AgentRunEvent) (k limit : Nat) :
    ∀ ev ∈ listAgentRunEventsAfterSeq events k limit, ev ∈ events := by
  intro ev hev
  exact (List.mem_filter.mp (List.mem_of_mem_take hev)).1

theorem OnLog.latestSeq {k : Nat} (h : OnLog events k)
    (hpage : ∀ ev ∈ page, ev ∈ events) : OnLog events (latestSeq page k) := by
  rcases latestSeq_mem page k with heq | ⟨ev, hev, heq⟩
  · rwa [heq]
  · exact .inr ⟨ev, hpage ev hev, heq⟩

structure SlotSane (events : EventLog) (slot : WorkingInflightSlot) : Prop where
  onLog : ∀ run : RunID, slot.agentRunID = run.text → OnLog (events run) slot.seqEmitted
  exact : slot.seqEmitted ≤ maxExactInt
  trimmed : trimSpace slot.agentRunID = slot.agentRunID

namespace SlotSane

variable {events : EventLog} {slot : WorkingInflightSlot} {run : RunID}

theorem has_iff (h : SlotSane events slot) :
    slot.hasWorkingSlotForRun run ↔
      trimSpace slot.externalMsgID ≠ "" ∧ slot.agentRunID = run.text := by
  rw [WorkingInflightSlot.hasWorkingSlotForRun, h.trimmed, run.trimmed]

theorem blank {owner : String} (h : trimSpace owner = owner) :
    SlotSane events { agentRunID := owner } :=
  ⟨fun _ _ => .inl rfl, Nat.zero_le _, h⟩

theorem empty : SlotSane events {} := blank trimSpace_empty

theorem reread (h : SlotSane events slot) : SlotSane events slot.reread := by
  refine ⟨fun run hrun => ?_, ?_, ?_⟩
  · rw [WorkingInflightSlot.reread_agentRunID] at hrun
    rw [WorkingInflightSlot.reread_seqEmitted h.exact]
    exact h.onLog run hrun
  · rw [WorkingInflightSlot.reread_seqEmitted h.exact]
    exact h.exact
  · rw [WorkingInflightSlot.reread_agentRunID]
    exact h.trimmed

theorem forRun (h : SlotSane events slot) (run : RunID) : SlotSane events (slot.forRun run) := by
  by_cases hhas : slot.hasWorkingSlotForRun run
  · rwa [WorkingInflightSlot.forRun_of_has hhas]
  · rw [WorkingInflightSlot.forRun_of_not hhas]
    exact blank h.trimmed

theorem forRun_onLog (h : SlotSane events slot) (run : RunID) :
    OnLog (events run) (slot.forRun run).seqEmitted := by
  by_cases hhas : slot.hasWorkingSlotForRun run
  · rw [WorkingInflightSlot.forRun_of_has hhas]
    exact h.onLog run (h.has_iff.mp hhas).2
  · rw [WorkingInflightSlot.forRun_of_not hhas]
    exact .inl rfl

theorem of_run {k : Nat} (hrun : slot.agentRunID = run.text) (hk : slot.seqEmitted = k)
    (hlog : OnLog (events run) k) : SlotSane events slot := by
  refine ⟨fun r hr => ?_, ?_, ?_⟩
  · have heq : r = run := Ident.ext_text (hr.symm.trans hrun)
    rw [heq, hk]
    exact hlog
  · rw [hk]
    exact hlog.exact
  · rw [hrun]
    exact run.trimmed

theorem record {ev : AgentRunEvent} (h : SlotSane events slot) :
    SlotSane (events.record run ev) slot := by
  refine ⟨fun r hr => ?_, h.exact, h.trimmed⟩
  by_cases heq : r = run
  · subst heq
    rw [EventLog.record_same]
    exact (h.onLog r hr).append [ev]
  · rw [EventLog.record_ne events ev heq]
    exact h.onLog r hr

theorem bumped {now : Time} {msg : String} (h : SlotSane events slot) :
    SlotSane events (slot.bumped now msg) := by
  refine ⟨?_, ?_, ?_⟩
  · rw [WorkingInflightSlot.bumped_agentRunID, WorkingInflightSlot.bumped_seqEmitted]
    exact h.onLog
  · rw [WorkingInflightSlot.bumped_seqEmitted]
    exact h.exact
  · rw [WorkingInflightSlot.bumped_agentRunID]
    exact h.trimmed

theorem newSlot {c : FeishuInflightConversation} {page : List AgentRunEvent}
    {before : WorkingInflightSlot} (h : SlotSane events c.working)
    (hpage : ∀ ev ∈ page, ev ∈ events c.agentRunID) (hnew : NewSlot c page before slot) :
    SlotSane events slot := by
  have hcursor := (h.forRun_onLog c.agentRunID).latestSeq hpage
  cases hnew with
  | cleared => exact empty
  | bumped now msg cas =>
    exact (h.forRun c.agentRunID).bumped
  | sent appID id midRun fresh cas => exact of_run rfl rfl hcursor
  | patched midRun owned cas =>
    refine of_run ?_ rfl hcursor
    rw [WorkingInflightSlot.forRun_of_has owned]
    exact (h.has_iff.mp owned).2

end SlotSane

structure PageSane (events : EventLog) (row : FeishuInflightConversation)
    (page : List AgentRunEvent) : Prop where
  mem : ∀ ev ∈ page, ev ∈ events row.agentRunID
  consumed : upTo (events row.agentRunID)
      (latestSeq page (row.working.forRun row.agentRunID).seqEmitted) =
    upTo (events row.agentRunID) (row.working.forRun row.agentRunID).seqEmitted ++ page

theorem PageSane.record {events : EventLog} {run : RunID} {ev : AgentRunEvent}
    (h : PageSane events row page) (hslot : SlotSane events row.working)
    (hnew : ∀ e ∈ events run, e.sequence < ev.sequence) :
    PageSane (events.record run ev) row page := by
  by_cases heq : row.agentRunID = run
  · subst heq
    have hcursor := hslot.forRun_onLog row.agentRunID
    have hlast := (hcursor.latestSeq h.mem).lt hnew
    constructor
    · rw [EventLog.record_same]
      exact fun e he => List.mem_append_left _ (h.mem e he)
    · rw [EventLog.record_same, upTo_append_of_lt hlast, upTo_append_of_lt (hcursor.lt hnew)]
      exact h.consumed
  · constructor
    · rw [EventLog.record_ne events ev heq]
      exact h.mem
    · rw [EventLog.record_ne events ev heq]
      exact h.consumed

structure Base (s : System) : Prop where
  ordered : ∀ run, Ordered (s.world.store.events run)
  working : SlotSane s.world.store.events s.world.store.working
  rows : ∀ tick ∈ s.ticks, SlotSane s.world.store.events tick.row.working
  pages : ∀ tick ∈ s.ticks, ∀ page, tick.page = some page →
    PageSane s.world.store.events tick.row page

theorem Base.init (conv : ConversationInfo) : Base { conv := conv } :=
  ⟨fun _ => .nil, .empty, by simp, by simp⟩

namespace System

variable {s t : System}

theorem base_of_eq (h : Base s) (hevents : t.world.store.events = s.world.store.events)
    (hworking : t.world.store.working = s.world.store.working)
    (hticks : ∀ tick ∈ t.ticks, tick ∈ s.ticks) : Base t := by
  refine ⟨?_, ?_, ?_, ?_⟩
  · rw [hevents]
    exact h.ordered
  · rw [hevents, hworking]
    exact h.working
  · rw [hevents]
    exact fun tick htick => h.rows tick (hticks tick htick)
  · rw [hevents]
    exact fun tick htick => h.pages tick (hticks tick htick)

theorem base_record {run : RunID} {ev : AgentRunEvent} (h : Base s)
    (hstep : s.step (.record run ev) = some t) : Base t := by
  obtain ⟨hnew, rfl⟩ := step_record hstep
  refine ⟨?_, h.working.record, fun tick htick => (h.rows tick htick).record,
    fun tick htick page hpage => (h.pages tick htick page hpage).record (h.rows tick htick) hnew⟩
  intro r
  show Ordered (s.world.store.events.record run ev r)
  by_cases heq : r = run
  · subst heq
    rw [EventLog.record_same]
    exact pairwise_concat (h.ordered r) hnew
  · rw [EventLog.record_ne _ _ heq]
    exact h.ordered r

theorem base_claim {now : Time} {runs : List RunID} (h : Base s)
    (hstep : s.step (.claim now runs) = some t) : Base t := by
  obtain ⟨-, rfl⟩ := step_claim hstep
  refine ⟨h.ordered, h.working, ?_, ?_⟩
  · intro tick htick
    rcases List.mem_append.mp htick with htick | htick
    · exact h.rows tick htick
    · obtain ⟨run, -, rfl⟩ := List.mem_map.mp htick
      exact h.working.reread
  · intro tick htick page hpage
    rcases List.mem_append.mp htick with htick | htick
    · exact h.pages tick htick page hpage
    · obtain ⟨run, -, rfl⟩ := List.mem_map.mp htick
      cases hpage

theorem base_list {i : Nat} (h : Base s) (hstep : s.step (.list i) = some t) : Base t := by
  obtain ⟨row, hget, rfl⟩ := step_list hstep
  have hmem : (⟨row, none⟩ : Tick) ∈ s.ticks := List.mem_of_getElem? hget
  refine ⟨h.ordered, h.working, ?_, ?_⟩
  · intro tick htick
    rcases List.mem_or_eq_of_mem_set htick with htick | rfl
    · exact h.rows tick htick
    · exact h.rows ⟨row, none⟩ hmem
  · intro tick htick page hpage
    rcases List.mem_or_eq_of_mem_set htick with htick | rfl
    · exact h.pages tick htick page hpage
    · cases hpage
      exact ⟨listAgentRunEventsAfterSeq_subset _ _ _, upTo_latestSeq (h.ordered _) _ _⟩

theorem base_deliver {i : Nat} {env : TickEnv} (h : Base s)
    (hstep : s.step (.deliver i env) = some t) : Base t := by
  obtain ⟨row, page, hget, rfl⟩ := step_deliver hstep
  have hmem : (⟨row, some page⟩ : Tick) ∈ s.ticks := List.mem_of_getElem? hget
  have hrow := h.rows _ hmem
  have hpage := h.pages _ hmem page rfl
  have htouch := handle_effect env row page s.world
  have hworking : SlotSane s.world.store.events
      (handleInflightConversation env row page s.world).store.working := by
    rcases htouch.working with heq | hnew
    · rw [heq]
      exact h.working
    · exact hrow.newSlot hpage.mem hnew
  have hticks : ∀ tick ∈ s.ticks.eraseIdx i, tick ∈ s.ticks := fun _ => List.mem_of_mem_eraseIdx
  refine ⟨?_, ?_, ?_, ?_⟩ <;> dsimp only <;> rw [htouch.events]
  · exact h.ordered
  · exact hworking
  · exact fun tick htick => h.rows tick (hticks tick htick)
  · exact fun tick htick => h.pages tick (hticks tick htick)

theorem base_step {a : Label} (hstep : s.step a = some t) (h : Base s) : Base t := by
  cases a with
  | record run ev => exact base_record h hstep
  | claim now runs => exact base_claim h hstep
  | list i => exact base_list h hstep
  | deliver i env => exact base_deliver h hstep
  | drop i =>
    obtain rfl := step_drop hstep
    exact base_of_eq h rfl rfl fun _ => List.mem_of_mem_eraseIdx
  | start run agentName | finish run status output | cancel run | clearPermission | clearChoice =>
    obtain ⟨hevents, hworking, hticks, -⟩ := step_rows hstep trivial
    exact base_of_eq h hevents hworking fun tick htick => hticks ▸ htick

end System

structure Committed (row : FeishuInflightConversation) (page : List AgentRunEvent)
    (slot : WorkingInflightSlot) : Prop where
  midRun : row.runStatus.terminal = false
  agentRunID : slot.agentRunID = row.agentRunID.text
  seqEmitted : slot.seqEmitted =
    latestSeq page (row.working.forRun row.agentRunID).seqEmitted
  payload : slot.payload = slotPayload
    ((cardFromPayload (row.working.forRun row.agentRunID).payload).applyEvents page)

theorem committed_progressSlot (page : List AgentRunEvent)
    {events : EventLog} (hrow : SlotSane events row.working)
    (hmid : row.runStatus.terminal = false) (appID : String) (id : MsgID) :
    Committed row page (progressSlot row page appID (row.working.forRun row.agentRunID)
      (tickCard row page) id) := by
  have hcard : slotPayload (tickCard row page) = slotPayload
      ((cardFromPayload (row.working.forRun row.agentRunID).payload).applyEvents page) := by
    rw [tickCard, foldEventsIntoCardState_eq]
  unfold progressSlot
  split
  · rename_i hhas
    have howned := (WorkingInflightSlot.forRun_has_iff _ _).mp hhas
    refine ⟨hmid, ?_, rfl, hcard⟩
    rw [WorkingInflightSlot.forRun_of_has howned]
    exact (hrow.has_iff.mp howned).2
  · exact ⟨hmid, rfl, rfl, hcard⟩

/-- A tick that stored a slot, and went on to the prompts of its page. -/
structure Commits (env : TickEnv) (row : FeishuInflightConversation) (page : List AgentRunEvent)
    (w v : World) (slot : WorkingInflightSlot) : Prop extends Committed row page slot where
  called : ∃ id, env.call = .ok id
  stored : env.faults.upsertWorking = false
  cas : w.store.working.agentRunID = row.working.agentRunID
  handed : ∃ appID u, u.store = { w.store with working := slot } ∧ w.log <:+ u.log ∧
    v = deliverPrompts env appID (permissionFailure env row) row page
      (latestOf AgentRunEvent.permission? page) u

theorem Outcome.slot {env : TickEnv} {w v : World} {events : EventLog}
    (hrow : SlotSane events row.working) (h : Outcome env row page w v) :
    v.store.working = w.store.working ∨ v.store.working = {} ∨
      (∃ msg, v.store.working = (row.working.forRun row.agentRunID).bumped env.now msg) ∨
      Commits env row page w v v.store.working := by
  cases h with
  | settled htouch =>
    rcases htouch.working with heq | heq | ⟨-, msg, heq⟩
    · exact .inl heq
    · exact .inr (.inl heq)
    · exact .inr (.inr (.inl ⟨msg, heq⟩))
  | @prompted u appID midRun id called hlog hstore =>
    have hprompts := prompts_deliverPrompts env row page u appID
      (prompts_permissionFailure env row) (latestOf AgentRunEvent.permission? page)
    rcases hstore with heq | ⟨slotApp, hfault, hcas, heq⟩
    · exact .inl (hprompts.working.trans (congrArg Store.working heq))
    · have hslot := hprompts.working.trans (congrArg Store.working heq)
      dsimp only at hslot
      have hcom := committed_progressSlot page hrow midRun slotApp id
      rw [← hslot] at hcom heq
      refine .inr (.inr (.inr ⟨hcom, ⟨id, called⟩, hfault, hcas, appID, u, heq, ?_, rfl⟩))
      rw [hlog]
      exact List.suffix_cons _ _

/-- What a property of slots needs to survive everything but a commit. -/
structure SlotProperty (Q : EventLog → List Action → WorkingInflightSlot → Prop) : Prop where
  blank : ∀ events log owner, Q events log { agentRunID := owner }
  reread : ∀ events log slot, SlotSane events slot → Q events log slot → Q events log slot.reread
  bumped : ∀ events log slot now msg, Q events log slot → Q events log (slot.bumped now msg)
  record : ∀ events log slot run ev, SlotSane events slot →
    (∀ e ∈ events run, e.sequence < ev.sequence) → Q events log slot →
    Q (events.record run ev) log slot
  suffix : ∀ events log log' slot, log <:+ log' → Q events log slot → Q events log' slot

def SlotsSatisfy (Q : EventLog → List Action → WorkingInflightSlot → Prop) (s : System) : Prop :=
  Q s.world.store.events s.world.log s.world.store.working ∧
    ∀ tick ∈ s.ticks, Q s.world.store.events s.world.log tick.row.working

namespace SlotProperty

variable {Q : EventLog → List Action → WorkingInflightSlot → Prop} {s t : System}

theorem init (hQ : SlotProperty Q) (conv : ConversationInfo) : SlotsSatisfy Q { conv := conv } :=
  ⟨hQ.blank _ _ "", by simp⟩

theorem forRun (hQ : SlotProperty Q) {events : EventLog} {log : List Action}
    {slot : WorkingInflightSlot} (h : Q events log slot) (run : RunID) :
    Q events log (slot.forRun run) := by
  by_cases hhas : slot.hasWorkingSlotForRun run
  · rwa [WorkingInflightSlot.forRun_of_has hhas]
  · rw [WorkingInflightSlot.forRun_of_not hhas]
    exact hQ.blank _ _ _

theorem deliver (hQ : SlotProperty Q) {i : Nat} {env : TickEnv}
    (hstep : s.step (.deliver i env) = some t) (hbase : Base s) (h : SlotsSatisfy Q s)
    (hcommit : ∀ row page slot, s.ticks[i]? = some ⟨row, some page⟩ →
      Commits env row page s.world t.world slot → Q s.world.store.events t.world.log slot) :
    SlotsSatisfy Q t := by
  obtain ⟨row, page, hget, rfl⟩ := System.step_deliver hstep
  have hmem : (⟨row, some page⟩ : Tick) ∈ s.ticks := List.mem_of_getElem? hget
  have heffect := handle_effect env row page s.world
  have hgrow := fun slot => hQ.suffix s.world.store.events _ _ slot heffect.log.suffix
  constructor
  · show Q (handleInflightConversation env row page s.world).store.events _ _
    rw [heffect.events]
    rcases (handle_outcome env row page s.world).slot (hbase.rows _ hmem) with
      heq | heq | ⟨msg, heq⟩ | hcom
    · rw [heq]
      exact hgrow _ h.1
    · rw [heq]
      exact hQ.blank _ _ ""
    · rw [heq]
      exact hQ.bumped _ _ _ env.now msg (hQ.forRun (hgrow _ (h.2 _ hmem)) _)
    · exact hcommit row page _ hget hcom
  · intro tick htick
    show Q (handleInflightConversation env row page s.world).store.events _ _
    rw [heffect.events]
    exact hgrow _ (h.2 tick (List.mem_of_mem_eraseIdx htick))

/-- The step rule: only a commit has to be checked. -/
theorem step (hQ : SlotProperty Q) {a : Label} (hstep : s.step a = some t) (hbase : Base s)
    (hcommit : ∀ i env row page slot, a = .deliver i env → s.ticks[i]? = some ⟨row, some page⟩ →
      Commits env row page s.world t.world slot → Q s.world.store.events t.world.log slot)
    (h : SlotsSatisfy Q s) : SlotsSatisfy Q t := by
  cases a with
  | deliver i env =>
    exact hQ.deliver hstep hbase h fun row page slot => hcommit i env row page slot rfl
  | record run ev =>
    obtain ⟨hnew, rfl⟩ := System.step_record hstep
    exact ⟨hQ.record _ _ _ run ev hbase.working hnew h.1,
      fun tick htick => hQ.record _ _ _ run ev (hbase.rows tick htick) hnew (h.2 tick htick)⟩
  | claim now runs =>
    obtain ⟨-, rfl⟩ := System.step_claim hstep
    refine ⟨h.1, fun tick htick => ?_⟩
    rcases List.mem_append.mp htick with htick | htick
    · exact h.2 tick htick
    · obtain ⟨run, -, rfl⟩ := List.mem_map.mp htick
      exact hQ.reread _ _ _ hbase.working h.1
  | list i =>
    obtain ⟨row, hget, rfl⟩ := System.step_list hstep
    refine ⟨h.1, fun tick htick => ?_⟩
    rcases List.mem_or_eq_of_mem_set htick with htick | rfl
    · exact h.2 tick htick
    · exact h.2 ⟨row, none⟩ (List.mem_of_getElem? hget)
  | drop i =>
    obtain rfl := System.step_drop hstep
    exact ⟨h.1, fun tick htick => h.2 tick (List.mem_of_mem_eraseIdx htick)⟩
  | start run agentName | finish run status output | cancel run | clearPermission | clearChoice =>
    obtain ⟨hevents, hworking, hticks, hlog⟩ := System.step_rows hstep trivial
    unfold SlotsSatisfy
    rw [hevents, hworking, hticks, hlog]
    exact h

end SlotProperty

def Consumed (R : RunID → List Action → Object → List AgentRunEvent → Prop) (events : EventLog)
    (log : List Action) (slot : WorkingInflightSlot) : Prop :=
  ∀ run, slot.hasWorkingSlotForRun run →
    R run log slot.payload (upTo (events run) slot.seqEmitted)

section Consumed

variable {R : RunID → List Action → Object → List AgentRunEvent → Prop}
  (hgrow : ∀ run log log' payload evs, log <:+ log' → R run log payload evs →
    R run log' payload evs)

include hgrow

theorem consumed_property : SlotProperty (Consumed R) where
  blank := by
    intro events log owner run hhas
    exact absurd hhas (WorkingInflightSlot.not_has_blank run owner)
  reread := by
    intro events log slot hsane h run hhas
    rw [WorkingInflightSlot.reread_has_iff] at hhas
    rw [WorkingInflightSlot.reread_payload, WorkingInflightSlot.reread_seqEmitted hsane.exact]
    exact h run hhas
  bumped := by
    intro events log slot now msg h run hhas
    rw [WorkingInflightSlot.bumped_has_iff] at hhas
    rw [WorkingInflightSlot.bumped_payload, WorkingInflightSlot.bumped_seqEmitted]
    exact h run hhas
  record := by
    intro events log slot run ev hsane hnew h r hhas
    by_cases heq : r = run
    · subst heq
      have hcursor := hsane.onLog r (hsane.has_iff.mp hhas).2
      rw [EventLog.record_same, upTo_append_of_lt (hcursor.lt hnew)]
      exact h r hhas
    · rw [EventLog.record_ne events ev heq]
      exact h r hhas
  suffix := fun events log log' slot hsuffix h run hhas => hgrow _ _ _ _ _ hsuffix (h run hhas)

theorem consumed_step {s t : System} {a : Label} (hstep : s.step a = some t) (hbase : Base s)
    (hcommit : ∀ i env row page slot evs, a = .deliver i env →
      s.ticks[i]? = some ⟨row, some page⟩ → Commits env row page s.world t.world slot →
      upTo (s.world.store.events row.agentRunID) slot.seqEmitted = evs ++ page →
      (row.working.hasWorkingSlotForRun row.agentRunID ∧
          R row.agentRunID s.world.log row.working.payload evs ∨
        ¬ row.working.hasWorkingSlotForRun row.agentRunID ∧ evs = []) →
      R row.agentRunID t.world.log slot.payload (evs ++ page))
    (h : SlotsSatisfy (Consumed R) s) : SlotsSatisfy (Consumed R) t := by
  refine (consumed_property hgrow).step hstep hbase ?_ h
  intro i env row page slot ha hget hcom run hhas
  have hmem : (⟨row, some page⟩ : Tick) ∈ s.ticks := List.mem_of_getElem? hget
  have hrun : run = row.agentRunID := by
    apply Ident.ext_text
    have htrim := hhas.2
    rwa [hcom.agentRunID, row.agentRunID.trimmed, run.trimmed, eq_comm] at htrim
  subst hrun
  have hconsumed : upTo (s.world.store.events row.agentRunID) slot.seqEmitted =
      upTo (s.world.store.events row.agentRunID)
        (row.working.forRun row.agentRunID).seqEmitted ++ page := by
    rw [hcom.seqEmitted]
    exact (hbase.pages _ hmem page rfl).consumed
  rw [hconsumed]
  refine hcommit i env row page slot _ ha hget hcom hconsumed ?_
  by_cases howned : row.working.hasWorkingSlotForRun row.agentRunID
  · rw [WorkingInflightSlot.forRun_of_has howned]
    exact .inl ⟨howned, h.2 _ hmem _ howned⟩
  · rw [WorkingInflightSlot.forRun_of_not howned]
    exact .inr ⟨howned, upTo_zero _⟩

end Consumed

end Parsar.Inflight
