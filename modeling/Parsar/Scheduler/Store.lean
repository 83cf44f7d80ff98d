import Mathlib.Data.List.Sort
import Parsar.GoStd.Time

namespace Parsar.Scheduler

open GoStd

inductive RunStatus where
  | queued
  | running
  | completed
  | failed
  | cancelled
  | interrupted
  deriving DecidableEq, Repr

def RunStatus.active : RunStatus → Bool
  | queued | running => true
  | completed | failed | cancelled | interrupted => false

def RunStatus.failing : RunStatus → Bool
  | failed | cancelled | interrupted => true
  | queued | running | completed => false

/-- A run of a task; its id is its place in the table. -/
structure AgentRun where
  taskID : Nat
  status : RunStatus
  deriving DecidableEq, Repr

inductive LastStatus where
  | none
  | queued
  | skippedOverlap
  | autoDisabled
  deriving DecidableEq, Repr

structure ScheduledTask where
  id : Nat
  cronExpr : String
  timezone : String
  enabled : Bool
  nextRunAt : Time
  lastRunAt : Option Time := none
  lastRunID : Option Nat := none
  lastStatus : LastStatus := .none
  consecutiveFailures : Nat := 0
  claimedAt : Option Time := none
  claimedBy : String := ""
  deleted : Bool := false
  /-- The runs that fires have dispatched since the task was created or last enabled again, as
  history. -/
  cronRuns : List Nat := []
  deriving DecidableEq, Repr

structure Tables where
  tasks : List ScheduledTask := []
  runs : List AgentRun := []
  deriving DecidableEq, Repr

namespace ScheduledTask

variable (t : ScheduledTask)

/-- `AdvanceScheduledTaskAfterSkip`. -/
def advance (nextRunAt : Time) : ScheduledTask :=
  { t with
    nextRunAt := nextRunAt
    lastStatus := .skippedOverlap
    claimedAt := none
    claimedBy := "" }

/-- `DisableScheduledTaskForFailures`. -/
def disable (failures : Nat) (nextRunAt : Time) : ScheduledTask :=
  { t with
    enabled := false
    lastStatus := .autoDisabled
    consecutiveFailures := failures
    nextRunAt := nextRunAt
    claimedAt := none
    claimedBy := "" }

/-- `MarkScheduledTaskDispatched`. -/
def markDispatched (runID failures : Nat) (nextRunAt now : Time) : ScheduledTask :=
  { t with
    lastRunAt := some now
    lastRunID := some runID
    lastStatus := .queued
    consecutiveFailures := failures
    nextRunAt := nextRunAt
    claimedAt := none
    claimedBy := ""
    cronRuns := t.cronRuns ++ [runID] }

/-- `MarkScheduledTaskRunNow`. -/
def markRunNow (runID : Nat) (now : Time) : ScheduledTask :=
  { t with
    lastRunAt := some now
    lastRunID := some runID
    lastStatus := .queued }

/-- `UpdateScheduledTask`. -/
def update (cronExpr timezone : String) (enabled : Bool) (nextRunAt : Time) : ScheduledTask :=
  let again := !t.enabled && enabled
  { t with
    cronExpr := cronExpr
    timezone := timezone
    enabled := enabled
    nextRunAt := nextRunAt
    consecutiveFailures := if again then 0 else t.consecutiveFailures
    lastStatus := if again then .none else t.lastStatus
    cronRuns := if again then [] else t.cronRuns }

def claimable (now staleBefore : Time) (claimedBy : String) : Bool :=
  t.enabled && !t.deleted && decide (t.nextRunAt.nanos ≤ now.nanos) &&
    (t.claimedAt.all (fun at' => decide (at'.nanos < staleBefore.nanos)) ||
      t.claimedBy == claimedBy)

def claim (now : Time) (claimedBy : String) : ScheduledTask :=
  { t with claimedAt := some now, claimedBy := claimedBy }

end ScheduledTask

def scheduledTaskFailureThreshold : Nat := 5

def countFailures (failures : Nat) : Option RunStatus → Nat
  | some .failed | some .cancelled | some .interrupted => failures + 1
  | some .completed => 0
  | some .queued | some .running | none => failures

structure FireScheduledTaskResult where
  runID : Option Nat := none
  skipped : Bool := false
  skipReason : String := ""
  disabled : Bool := false
  deriving DecidableEq, Repr

inductive TaskError where
  | unknownScheduledTask
  | scheduledTaskBusy
  | dispatch
  deriving DecidableEq, Repr

structure DueScheduledTask where
  id : Nat
  cronExpr : String
  timezone : String
  deriving DecidableEq, Repr

namespace Tables

variable (db : Tables)

def task (id : Nat) : Option ScheduledTask := db.tasks.find? (fun t => t.id == id && !t.deleted)

def put (t : ScheduledTask) : Tables :=
  { db with tasks := db.tasks.map (fun u => if u.id = t.id then t else u) }

def runStatus (id : Nat) : Option RunStatus := db.runs[id]?.map AgentRun.status

def lastRunStatus (t : ScheduledTask) : Option RunStatus := t.lastRunID.bind db.runStatus

def addRun (taskID : Nat) : Tables := { db with runs := db.runs ++ [⟨taskID, .queued⟩] }

/-- The order of `next_run_at`. -/
def sooner (t u : ScheduledTask) : Prop := t.nextRunAt.nanos ≤ u.nextRunAt.nanos

instance : DecidableRel sooner := fun _ _ => inferInstanceAs (Decidable (_ ≤ _))

def picked (now staleBefore : Time) (claimedBy : String) (limit : Nat) (locked : List Nat) :
    List ScheduledTask :=
  ((db.tasks.filter (fun t => t.claimable now staleBefore claimedBy && t.id ∉ locked)).insertionSort
    sooner).take limit

def claimDueScheduledTasks (now staleBefore : Time) (claimedBy : String) (limit : Nat)
    (locked : List Nat) : Tables × List DueScheduledTask :=
  let picked := db.picked now staleBefore claimedBy limit locked
  ({ db with
      tasks := db.tasks.map (fun t =>
        if t.id ∈ picked.map ScheduledTask.id then t.claim now claimedBy else t) },
    picked.map (fun t => ⟨t.id, t.cronExpr, t.timezone⟩))

/-- A fire; `dispatches` says that the agent of the task is found. -/
def fireScheduledTaskRun (taskID : Nat) (nextRunAt now : Time) (dispatches : Bool) :
    Except TaskError (Tables × FireScheduledTaskResult) :=
  match db.task taskID with
  | none => .error .unknownScheduledTask
  | some t =>
    if !t.enabled then
      .ok (db.put (t.advance nextRunAt), { skipped := true, skipReason := "disabled" })
    else if (db.lastRunStatus t).any RunStatus.active then
      .ok (db.put (t.advance nextRunAt), { skipped := true, skipReason := "self_overlap" })
    else
      let failures := countFailures t.consecutiveFailures (db.lastRunStatus t)
      if scheduledTaskFailureThreshold ≤ failures then
        .ok (db.put (t.disable failures nextRunAt), { disabled := true })
      else if dispatches then
        .ok ((db.addRun taskID).put (t.markDispatched db.runs.length failures nextRunAt now),
          { runID := some db.runs.length })
      else .error .dispatch

def runScheduledTaskNow (taskID : Nat) (now : Time) (dispatches : Bool) :
    Except TaskError (Tables × Nat) :=
  match db.task taskID with
  | none => .error .unknownScheduledTask
  | some t =>
    if (db.lastRunStatus t).any RunStatus.active then .error .scheduledTaskBusy
    else if dispatches then
      .ok ((db.addRun taskID).put (t.markRunNow db.runs.length now), db.runs.length)
    else .error .dispatch

end Tables

inductive Change where
  | create (cronExpr timezone : String) (enabled : Bool) (nextRunAt : Time)
  | update (taskID : Nat) (cronExpr timezone : String) (enabled : Bool) (nextRunAt : Time)
  | delete (taskID : Nat)
  | runNow (taskID : Nat) (now : Time) (dispatches : Bool)
  | start (runID : Nat)
  | finish (runID : Nat) (status : RunStatus)

namespace Tables

variable (db : Tables)

def setRunStatus (runID : Nat) (status : RunStatus) : Tables :=
  { db with runs := db.runs.modify runID (fun r => { r with status := status }) }

/-- A call that fails leaves the tables as they are. -/
def change : Change → Option Tables
  | .create cronExpr timezone enabled nextRunAt =>
    some { db with tasks := db.tasks ++
      [{ id := db.tasks.length, cronExpr, timezone, enabled, nextRunAt }] }
  | .update taskID cronExpr timezone enabled nextRunAt =>
    some (match db.task taskID with
      | none => db
      | some t => db.put (t.update cronExpr timezone enabled nextRunAt))
  | .delete taskID =>
    some (match db.task taskID with
      | none => db
      | some t => db.put { t with deleted := true })
  | .runNow taskID now dispatches =>
    some (match db.runScheduledTaskNow taskID now dispatches with
      | .error _ => db
      | .ok (db', _) => db')
  | .start runID =>
    if db.runStatus runID = some .queued then some (db.setRunStatus runID .running) else none
  | .finish runID status =>
    if (db.runStatus runID).any RunStatus.active ∧ status.active = false then
      some (db.setRunStatus runID status)
    else none

end Tables

def Tables.failures (db : Tables) (t : ScheduledTask) : Nat :=
  countFailures t.consecutiveFailures (db.lastRunStatus t)

inductive Fired (db : Tables) (t : ScheduledTask) (nextRunAt now : Time) :
    Tables → FireScheduledTaskResult → Prop where
  | disabled : t.enabled = false → Fired db t nextRunAt now (db.put (t.advance nextRunAt))
      { skipped := true, skipReason := "disabled" }
  | overlap : t.enabled = true → (db.lastRunStatus t).any RunStatus.active = true →
    Fired db t nextRunAt now (db.put (t.advance nextRunAt))
      { skipped := true, skipReason := "self_overlap" }
  | tripped : t.enabled = true → (db.lastRunStatus t).any RunStatus.active = false →
    scheduledTaskFailureThreshold ≤ db.failures t →
    Fired db t nextRunAt now (db.put (t.disable (db.failures t) nextRunAt)) { disabled := true }
  | dispatched : t.enabled = true → (db.lastRunStatus t).any RunStatus.active = false →
    db.failures t < scheduledTaskFailureThreshold →
    Fired db t nextRunAt now
      ((db.addRun t.id).put (t.markDispatched db.runs.length (db.failures t) nextRunAt now))
      { runID := some db.runs.length }

theorem task_some {db : Tables} {id : Nat} {t : ScheduledTask} (h : db.task id = some t) :
    t ∈ db.tasks ∧ t.id = id ∧ t.deleted = false := by
  have hp := List.find?_some h
  simp only [Bool.and_eq_true, beq_iff_eq, Bool.not_eq_true'] at hp
  exact ⟨List.mem_of_find?_eq_some h, hp.1, hp.2⟩

theorem fireScheduledTaskRun_eq {db : Tables} {id : Nat} {t : ScheduledTask}
    (ht : db.task id = some t) (nextRunAt now : Time) (dispatches : Bool) :
    db.fireScheduledTaskRun id nextRunAt now dispatches =
      if t.enabled = false then
        .ok (db.put (t.advance nextRunAt), { skipped := true, skipReason := "disabled" })
      else if (db.lastRunStatus t).any RunStatus.active = true then
        .ok (db.put (t.advance nextRunAt), { skipped := true, skipReason := "self_overlap" })
      else if scheduledTaskFailureThreshold ≤ db.failures t then
        .ok (db.put (t.disable (db.failures t) nextRunAt), { disabled := true })
      else if dispatches = true then
        .ok ((db.addRun t.id).put (t.markDispatched db.runs.length (db.failures t) nextRunAt now),
          { runID := some db.runs.length })
      else .error .dispatch := by
  simp only [Tables.fireScheduledTaskRun, ht, Bool.not_eq_true', Tables.failures,
    (task_some ht).2.1]

theorem fireScheduledTaskRun_ok {db db' : Tables} {id : Nat} {nextRunAt now : Time}
    {dispatches : Bool} {result : FireScheduledTaskResult}
    (h : db.fireScheduledTaskRun id nextRunAt now dispatches = .ok (db', result)) :
    ∃ t, db.task id = some t ∧ Fired db t nextRunAt now db' result := by
  cases ht : db.task id with
  | none =>
    rw [Tables.fireScheduledTaskRun, ht] at h
    cases h
  | some t =>
    rw [fireScheduledTaskRun_eq ht] at h
    refine ⟨t, rfl, ?_⟩
    split_ifs at h with henabled hactive hlimit hdispatch
    · cases h
      exact .disabled henabled
    · cases h
      exact .overlap (by simpa using henabled) hactive
    · cases h
      exact .tripped (by simpa using henabled) (by simpa using hactive) hlimit
    · cases h
      exact .dispatched (by simpa using henabled) (by simpa using hactive) (Nat.lt_of_not_le hlimit)

theorem task_put {db : Tables} {id : Nat} {t u : ScheduledTask} (ht : db.task id = some t)
    (hid : u.id = id) (hdeleted : u.deleted = false) : (db.put u).task id = some u := by
  obtain ⟨hmem, htid, -⟩ := task_some ht
  rw [Tables.task, Tables.put, List.find?_map]
  generalize hfound : db.tasks.find? _ = found
  cases found with
  | none =>
    refine absurd ?_ (List.find?_eq_none.1 hfound t hmem)
    simp [htid, hid, hdeleted]
  | some v =>
    have hv := List.find?_some hfound
    by_cases h : v.id = u.id
    · simp [h]
    · simp [h, hid ▸ h] at hv

/-- The row of the task after a fire. -/
theorem Fired.row {db db' : Tables} {id : Nat} {t : ScheduledTask} {nextRunAt now : Time}
    {result : FireScheduledTaskResult} (h : Fired db t nextRunAt now db' result)
    (ht : db.task id = some t) : ∃ u, db'.tasks = (db.put u).tasks ∧ db'.task id = some u ∧
      u.nextRunAt = nextRunAt ∧ (t.enabled = true → (u.enabled = false ↔ result.disabled = true)) ∧
      ∀ r ∈ result.runID, db'.runs[r]? = some ⟨id, .queued⟩ := by
  obtain ⟨-, hid, hdeleted⟩ := task_some ht
  have hrow : ∀ u : ScheduledTask, u.id = t.id → u.deleted = t.deleted →
      (db.put u).task id = some u :=
    fun u hu hkept => task_put ht (hu.trans hid) (hkept.trans hdeleted)
  cases h with
  | disabled henabled => exact ⟨_, rfl, hrow _ rfl rfl, rfl, by simp [henabled], nofun⟩
  | overlap henabled => exact ⟨_, rfl, hrow _ rfl rfl, rfl, by simp [ScheduledTask.advance], nofun⟩
  | tripped => exact ⟨_, rfl, hrow _ rfl rfl, rfl, fun _ => iff_of_true rfl rfl, nofun⟩
  | dispatched henabled =>
    refine ⟨_, rfl, hrow _ rfl rfl, rfl, by simp [ScheduledTask.markDispatched], ?_⟩
    simp [Tables.put, Tables.addRun, hid]

end Parsar.Scheduler
