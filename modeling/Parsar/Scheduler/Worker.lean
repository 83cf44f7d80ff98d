import Mathlib.Algebra.Group.Int.Defs
import Parsar.Scheduler.Store

namespace Parsar.Scheduler

open GoStd

/-- `NextRun`: the next time of an expression in a time zone, which is after the given one. -/
structure Cron where
  next : String → String → Time → Option Time
  after : ∀ expr zone t u, next expr zone t = some u → t.nanos < u.nanos

def hourly : Cron := ⟨fun _ _ t => some (t.add (3600 * 10 ^ 9)), by
  intro _ _ t u h
  cases h
  simp only [Time.add]
  omega⟩

structure Options where
  claimStaleAfter : Int := 0
  claimBatch : Int := 0
  claimedBy : String := ""
  deriving DecidableEq

def Options.withDefaults (o : Options) : Options where
  claimStaleAfter := if o.claimStaleAfter ≤ 0 then 60 * 10 ^ 9 else o.claimStaleAfter
  claimBatch := if o.claimBatch ≤ 0 then 50 else o.claimBatch
  claimedBy := if o.claimedBy = "" then "scheduler" else o.claimedBy

def Options.picked (o : Options) (db : Tables) (now : Time) (locked : List Nat) :
    List ScheduledTask :=
  db.picked now (now.add (-o.claimStaleAfter)) o.claimedBy o.claimBatch.toNat locked

def Options.claim (o : Options) (db : Tables) (now : Time) (locked : List Nat) :
    Tables × List DueScheduledTask :=
  db.claimDueScheduledTasks now (now.add (-o.claimStaleAfter)) o.claimedBy o.claimBatch.toNat locked

def Tables.process (db : Tables) (cron : Cron) (tick : Time) (due : DueScheduledTask) (now : Time)
    (dispatches : Bool) : Tables × Option FireScheduledTaskResult :=
  match cron.next due.cronExpr due.timezone tick with
  | none => (db, none)
  | some next =>
    match db.fireScheduledTaskRun due.id next now dispatches with
    | .error _ => (db, none)
    | .ok (db', result) => (db', some result)

variable {db db' : Tables} {now tick : Time} {due : DueScheduledTask} {dispatches : Bool}

theorem process_some {cron : Cron} {result : FireScheduledTaskResult}
    (h : db.process cron tick due now dispatches = (db', some result)) :
    ∃ next, cron.next due.cronExpr due.timezone tick = some next ∧
      db.fireScheduledTaskRun due.id next now dispatches = .ok (db', result) := by
  unfold Tables.process at h
  split at h
  · cases h
  next next hnext =>
    split at h
    · cases h
    next hfire =>
      cases h
      exact ⟨next, hnext, hfire⟩

theorem process_none {cron : Cron} (h : db.process cron tick due now dispatches = (db', none)) :
    db' = db := by
  unfold Tables.process at h
  split at h
  · cases h
    rfl
  · split at h
    · cases h
      rfl
    · cases h

def Tables.Numbered (db : Tables) : Prop :=
  db.tasks.map ScheduledTask.id = List.range db.tasks.length

theorem numbered_map (db : Tables) {f : ScheduledTask → ScheduledTask}
    (htasks : db'.tasks = db.tasks.map f) (hid : ∀ t, (f t).id = t.id) (h : db.Numbered) :
    db'.Numbered := by
  have hcomp : ScheduledTask.id ∘ f = ScheduledTask.id := funext hid
  rw [Tables.Numbered, htasks, List.map_map, hcomp, List.length_map]
  exact h

theorem Tables.Numbered.put (h : db.Numbered) (t : ScheduledTask) :
    (db.put t).Numbered := by
  refine numbered_map db rfl (fun u => ?_) h
  split_ifs with hid
  · exact hid.symm
  · rfl

theorem Tables.Numbered.nodup (h : db.Numbered) :
    (db.tasks.map ScheduledTask.id).Nodup := by
  rw [h]
  exact List.nodup_range

theorem Tables.Numbered.fire (h : db.Numbered) {id : Nat} {nextRunAt : Time}
    {result : FireScheduledTaskResult}
    (hfire : db.fireScheduledTaskRun id nextRunAt now dispatches = .ok (db', result)) :
    db'.Numbered := by
  obtain ⟨t, -, hfired⟩ := fireScheduledTaskRun_ok hfire
  cases hfired with
  | disabled | overlap | tripped => exact h.put _
  | dispatched =>
    have hrun : (db.addRun t.id).Numbered := h
    exact hrun.put _

theorem Tables.Numbered.process (h : db.Numbered) {cron : Cron}
    {result : Option FireScheduledTaskResult}
    (hprocess : db.process cron tick due now dispatches = (db', result)) : db'.Numbered := by
  cases result with
  | none =>
    rw [process_none hprocess]
    exact h
  | some result =>
    obtain ⟨next, -, hfire⟩ := process_some hprocess
    exact h.fire hfire

theorem Tables.Numbered.claim (h : db.Numbered) (o : Options) (now : Time)
    (locked : List Nat) : (o.claim db now locked).1.Numbered := by
  refine numbered_map db rfl (fun t => ?_) h
  split_ifs <;> rfl

theorem Tables.Numbered.change (h : db.Numbered) {c : Change}
    (hchange : db.change c = some db') : db'.Numbered := by
  cases c with
  | create cronExpr timezone enabled nextRunAt =>
    cases hchange
    rw [Tables.Numbered, List.map_append, h, List.length_append, List.length_singleton,
      List.range_succ]
    rfl
  | update | delete =>
    cases hchange
    split
    · exact h
    · exact h.put _
  | runNow id now dispatches =>
    cases hchange
    split
    · exact h
    next db' runID hrun =>
      unfold Tables.runScheduledTaskNow at hrun
      split at hrun
      · cases hrun
      · split_ifs at hrun
        cases hrun
        have hadded : (db.addRun id).Numbered := h
        exact hadded.put _
  | start | finish =>
    simp only [Tables.change] at hchange
    split_ifs at hchange
    cases hchange
    exact h

theorem picked_nodup (h : db.Numbered) (now staleBefore : Time) (claimedBy : String)
    (limit : Nat) (locked : List Nat) :
    ((db.picked now staleBefore claimedBy limit locked).map ScheduledTask.id).Nodup := by
  have hrows : ((db.tasks.filter (fun t => t.claimable now staleBefore claimedBy &&
      t.id ∉ locked)).map ScheduledTask.id).Nodup :=
    h.nodup.sublist (List.filter_sublist.map _)
  have hsorted := ((List.perm_insertionSort Tables.sooner _).map ScheduledTask.id).nodup_iff.2 hrows
  exact hsorted.sublist ((List.take_sublist _ _).map _)

theorem mem_picked {staleBefore : Time} {claimedBy : String} {limit : Nat}
    {locked : List Nat} {t : ScheduledTask}
    (h : t ∈ db.picked now staleBefore claimedBy limit locked) :
    t ∈ db.tasks ∧ t.claimable now staleBefore claimedBy = true := by
  have hmem := (List.perm_insertionSort Tables.sooner _).mem_iff.1 (List.mem_of_mem_take h)
  simp only [List.mem_filter, Bool.and_eq_true] at hmem
  exact ⟨hmem.1, hmem.2.1⟩

end Parsar.Scheduler
