import Parsar.Inflight.Effects

namespace Parsar.Inflight

open GoStd

structure Tick where
  row : FeishuInflightConversation
  page : Option (List AgentRunEvent) := none

structure System where
  conv : ConversationInfo := {}
  world : World := {}
  ticks : List Tick := []

/-- The steps of the dispatcher and of any number of workers; `drop` ends a tick before its first
call. -/
inductive Label where
  | record (run : RunID) (ev : AgentRunEvent)
  | start (run : RunID) (agentName : String)
  | finish (run : RunID) (status : RunStatus) (output : String)
  | cancel (run : RunID)
  | claim (now : Time) (runs : List RunID)
  | list (i : Nat)
  | deliver (i : Nat) (env : TickEnv)
  | drop (i : Nat)
  | clearPermission
  | clearChoice

namespace System

def withStore (s : System) (st : Store) : System := { s with world := s.world.setStore st }

def claimRow (s : System) (run : RunID) : FeishuInflightConversation where
  conv := s.conv
  agentName := (s.world.store.runs run).agentName
  agentRunID := run
  runStatus := (s.world.store.runs run).status
  outputMessageID := (s.world.store.runs run).outputMessageID
  working := s.world.store.working.reread
  permission := s.world.store.permission
  choice := s.world.store.choice

def fetch (s : System) (row : FeishuInflightConversation) : List AgentRunEvent :=
  listAgentRunEventsAfterSeq (s.world.store.events row.agentRunID)
    (row.working.forRun row.agentRunID).seqEmitted agentEventsTickFetchLimit

def step (s : System) : Label → Option System
  | .record run ev => (s.world.store.recordAgentRunEvent run ev).map s.withStore
  | .start run agentName =>
    if (s.world.store.runs run).status = .queued then
      some (s.withStore (s.world.store.setRun run
        { s.world.store.runs run with status := .running, agentName := agentName }))
    else none
  | .finish run status output => (s.world.store.finishRun run status output).map s.withStore
  | .cancel run =>
    if (s.world.store.runs run).status.finished = false then
      some (s.withStore (s.world.store.setRun run
        { s.world.store.runs run with status := .cancelled }))
    else none
  | .claim now runs =>
    if ∀ run ∈ runs, s.world.store.Claimable now run then
      some { s with ticks := s.ticks ++ runs.map fun run => { row := s.claimRow run } }
    else none
  | .list i =>
    match s.ticks[i]? with
    | some ⟨row, none⟩ => some { s with ticks := s.ticks.set i ⟨row, some (s.fetch row)⟩ }
    | _ => none
  | .deliver i env =>
    match s.ticks[i]? with
    | some ⟨row, some page⟩ => some { s with
        world := handleInflightConversation env row page s.world
        ticks := s.ticks.eraseIdx i }
    | _ => none
  | .drop i => if i < s.ticks.length then some { s with ticks := s.ticks.eraseIdx i } else none
  | .clearPermission => some (s.withStore { s.world.store with permission := {} })
  | .clearChoice => some (s.withStore { s.world.store with choice := {} })

def Reaches (conv : ConversationInfo) (trace : List Label) (s : System) : Prop :=
  runTrace step { conv := conv } trace = some s

variable {s t : System}

theorem step_deliver {i : Nat} {env : TickEnv} (h : s.step (.deliver i env) = some t) :
    ∃ row page, s.ticks[i]? = some ⟨row, some page⟩ ∧
      t = { s with
        world := handleInflightConversation env row page s.world
        ticks := s.ticks.eraseIdx i } := by
  simp only [step] at h
  split at h
  · rename_i row page hget
    exact ⟨row, page, hget, (Option.some.inj h).symm⟩
  · cases h

theorem step_list {i : Nat} (h : s.step (.list i) = some t) :
    ∃ row, s.ticks[i]? = some ⟨row, none⟩ ∧
      t = { s with ticks := s.ticks.set i ⟨row, some (s.fetch row)⟩ } := by
  simp only [step] at h
  split at h
  · rename_i row hget
    exact ⟨row, hget, (Option.some.inj h).symm⟩
  · cases h

theorem step_record {run : RunID} {ev : AgentRunEvent} (h : s.step (.record run ev) = some t) :
    (∀ e ∈ s.world.store.events run, e.sequence < ev.sequence) ∧
      t = s.withStore { s.world.store with events := s.world.store.events.record run ev } := by
  simp only [step, Store.recordAgentRunEvent] at h
  split at h
  · rename_i hguard
    exact ⟨hguard.1, (Option.some.inj h).symm⟩
  · cases h

theorem step_claim {now : Time} {runs : List RunID} (h : s.step (.claim now runs) = some t) :
    (∀ run ∈ runs, s.world.store.Claimable now run) ∧
      t = { s with ticks := s.ticks ++ runs.map fun run => { row := s.claimRow run } } := by
  simp only [step] at h
  split at h
  · rename_i hguard
    exact ⟨hguard, (Option.some.inj h).symm⟩
  · cases h

theorem step_finish {run : RunID} {status : RunStatus} {output : String}
    (h : s.step (.finish run status output) = some t) :
    (s.world.store.runs run).status.finished = false ∧ status.terminal = true ∧
      s.world.store.TerminalRecorded run ∧
      t = s.withStore (s.world.store.setRun run
        { s.world.store.runs run with status := status, outputMessageID := output }) := by
  simp only [step, Store.finishRun] at h
  split at h
  · rename_i hguard
    exact ⟨hguard.1, hguard.2.1, hguard.2.2, (Option.some.inj h).symm⟩
  · cases h

theorem step_start {run : RunID} {agentName : String} (h : s.step (.start run agentName) = some t) :
    (s.world.store.runs run).status = .queued ∧
      t = s.withStore (s.world.store.setRun run
        { s.world.store.runs run with status := .running, agentName := agentName }) := by
  simp only [step] at h
  split at h
  · rename_i hguard
    exact ⟨hguard, (Option.some.inj h).symm⟩
  · cases h

theorem step_cancel {run : RunID} (h : s.step (.cancel run) = some t) :
    (s.world.store.runs run).status.finished = false ∧
      t = s.withStore (s.world.store.setRun run
        { s.world.store.runs run with status := .cancelled }) := by
  simp only [step] at h
  split at h
  · rename_i hguard
    exact ⟨hguard, (Option.some.inj h).symm⟩
  · cases h

theorem step_drop {i : Nat} (h : s.step (.drop i) = some t) :
    t = { s with ticks := s.ticks.eraseIdx i } := by
  simp only [step] at h
  split at h
  · exact (Option.some.inj h).symm
  · cases h

theorem step_rows {a : Label} (h : s.step a = some t) (ha : match a with
      | .start _ _ | .finish _ _ _ | .cancel _ | .clearPermission | .clearChoice => True
      | _ => False) :
    t.world.store.events = s.world.store.events ∧ t.world.store.working = s.world.store.working ∧
      t.ticks = s.ticks ∧ t.world.log = s.world.log := by
  cases a <;> try exact ha.elim
  case start run agentName =>
    obtain ⟨-, rfl⟩ := step_start h
    exact ⟨rfl, rfl, rfl, rfl⟩
  case finish run status output =>
    obtain ⟨-, -, -, rfl⟩ := step_finish h
    exact ⟨rfl, rfl, rfl, rfl⟩
  case cancel run =>
    obtain ⟨-, rfl⟩ := step_cancel h
    exact ⟨rfl, rfl, rfl, rfl⟩
  case clearPermission =>
    cases h
    exact ⟨rfl, rfl, rfl, rfl⟩
  case clearChoice =>
    cases h
    exact ⟨rfl, rfl, rfl, rfl⟩

theorem step_conv {a : Label} (h : s.step a = some t) : t.conv = s.conv := by
  cases a with
  | record run ev =>
    obtain ⟨-, rfl⟩ := step_record h
    rfl
  | start run agentName =>
    obtain ⟨-, rfl⟩ := step_start h
    rfl
  | finish run status output =>
    obtain ⟨-, -, -, rfl⟩ := step_finish h
    rfl
  | cancel run =>
    obtain ⟨-, rfl⟩ := step_cancel h
    rfl
  | claim now runs =>
    obtain ⟨-, rfl⟩ := step_claim h
    rfl
  | list i =>
    obtain ⟨row, -, rfl⟩ := step_list h
    rfl
  | deliver i env =>
    obtain ⟨row, page, -, rfl⟩ := step_deliver h
    rfl
  | drop i =>
    obtain rfl := step_drop h
    rfl
  | clearPermission | clearChoice =>
    cases h
    rfl

theorem step_events {a : Label} (h : s.step a = some t) :
    t.world.store.events = s.world.store.events ∨ ∃ run ev, a = .record run ev ∧
      t.world.store.events = s.world.store.events.record run ev := by
  cases a with
  | record run ev =>
    obtain ⟨-, rfl⟩ := step_record h
    exact .inr ⟨run, ev, rfl, rfl⟩
  | claim now runs =>
    obtain ⟨-, rfl⟩ := step_claim h
    exact .inl rfl
  | list i =>
    obtain ⟨row, -, rfl⟩ := step_list h
    exact .inl rfl
  | deliver i env =>
    obtain ⟨row, page, -, rfl⟩ := step_deliver h
    exact .inl (handle_effect env row page s.world).events
  | drop i =>
    obtain rfl := step_drop h
    exact .inl rfl
  | start run agentName | finish run status output | cancel run | clearPermission | clearChoice =>
    exact .inl (step_rows h trivial).1

end System

def runA : RunID := ⟨"run-a", by decide, by decide⟩

def msgA : MsgID := ⟨"om-a", by decide, by decide⟩

def bareEvent (n : Nat) (kind : EventKind) (hpos : 0 < n) (hexact : n ≤ maxExactInt) :
    AgentRunEvent :=
  ⟨n, kind, [], Time.zero, hpos, hexact, by decide⟩

def startedEvent : AgentRunEvent := bareEvent 1 .runStarted (by decide) (by decide)

def completedEvent : AgentRunEvent := bareEvent 2 .runCompleted (by decide) (by decide)

def okEnv : TickEnv := { call := .ok msgA, permissionCall := .sent msgA, choiceCall := .sent msgA }

end Parsar.Inflight
