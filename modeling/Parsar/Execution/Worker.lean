import Mathlib.Algebra.Group.Int.Defs
import Mathlib.Data.List.Nodup
import Mathlib.Data.List.Perm.Basic
import Parsar.Framework.Trace
import Parsar.GoStd.Time

namespace Parsar.Execution

open GoStd

/-- The id of a session is a UUID; the empty text stands for no session. -/
abbrev SessionID := { s : String // s ≠ "" }

structure ExecutionWork where
  tenantID : String
  sessionID : SessionID
  turnID : String
  deriving DecidableEq

structure EnvironmentInputWork where
  tenantID : String
  sessionID : SessionID
  reservationID : String
  deriving DecidableEq

/-- A queued turn, or a reservation if there is the id of one. -/
structure ScheduledWork where
  tenantID : String
  sessionID : SessionID
  turnID : String := ""
  reservationID : String := ""
  deriving DecidableEq

inductive BindError where
  | notFound
  | deviceBindingConflict
  | other
  deriving DecidableEq

abbrev Active := List String

def Active.mark (active : Active) (id : String) : Active :=
  if id ∈ active then active else active ++ [id]

def Active.delete (active : Active) (id : String) : Active := active.filter (fun s => s != id)

structure WorkerSchedule where
  turnCursor : String := ""
  environmentCursor : String := ""
  nextEnvironmentScan : Time := ⟨0⟩
  environmentFirst : Bool := false
  deriving DecidableEq

namespace WorkerSchedule

variable (s : WorkerSchedule)

def takeTurn (turn : ExecutionWork) : ScheduledWork × WorkerSchedule :=
  (⟨turn.tenantID, turn.sessionID, turn.turnID, ""⟩,
    { s with turnCursor := turn.turnID, environmentFirst := true })

def takeEnvironment (value : EnvironmentInputWork) : ScheduledWork × WorkerSchedule :=
  (⟨value.tenantID, value.sessionID, "", value.reservationID⟩,
    { s with environmentCursor := value.reservationID, environmentFirst := false })

def next : List ExecutionWork → List EnvironmentInputWork →
    Option ((ScheduledWork × WorkerSchedule) × List ExecutionWork × List EnvironmentInputWork)
  | [], [] => none
  | turn :: turns, [] => some (s.takeTurn turn, turns, [])
  | [], value :: environments => some (s.takeEnvironment value, [], environments)
  | turn :: turns, value :: environments =>
    if s.environmentFirst then some (s.takeEnvironment value, turn :: turns, environments)
    else some (s.takeTurn turn, turns, value :: environments)

end WorkerSchedule

structure Selection where
  schedule : WorkerSchedule
  active : Active
  work : Option (List ScheduledWork)

/-- The loop of `selectWork`; each round takes one item off the lists, whose lengths bound the
rounds. -/
def selectLoop (ready : ScheduledWork → Except BindError Bool) : Nat → WorkerSchedule →
    List ExecutionWork → List EnvironmentInputWork → Active → List ScheduledWork → Selection
  | 0, s, _, _, active, selected => ⟨s, active, some selected⟩
  | rounds + 1, s, turns, environments, active, selected =>
    if active.length < 4 then
      match s.next turns environments with
      | none => ⟨s, active, some selected⟩
      | some ((item, s), turns, environments) =>
        if item.sessionID.1 ∈ active then
          selectLoop ready rounds s turns environments active selected
        else
          match ready item with
          | .error e =>
            if item.reservationID ≠ "" ∧ (e = .notFound ∨ e = .deviceBindingConflict) then
              selectLoop ready rounds s turns environments active selected
            else ⟨s, active, none⟩
          | .ok false => selectLoop ready rounds s turns environments active selected
          | .ok true =>
            selectLoop ready rounds s turns environments (active.mark item.sessionID.1)
              (selected ++ [item])
    else ⟨s, active, some selected⟩

structure Tick where
  ping : Bool := true
  expire : Bool := true
  devices : Bool := true
  turns : Option (List ExecutionWork)
  scanAt : Time
  environments : Option (List EnvironmentInputWork)
  scannedAt : Time
  ready : ScheduledWork → Except BindError Bool

def selectWork (s : WorkerSchedule) (t : Tick) (active : Active) : Selection :=
  match t.turns with
  | none => ⟨s, active, none⟩
  | some turns =>
    let s := if turns.isEmpty then { s with turnCursor := "" } else s
    if t.scanAt.nanos < s.nextEnvironmentScan.nanos then
      selectLoop t.ready turns.length s turns [] active []
    else
      match t.environments with
      | none => ⟨s, active, none⟩
      | some environments =>
        let s := { s with nextEnvironmentScan := t.scannedAt.add (5 * 10 ^ 9) }
        let s := if environments.isEmpty then { s with environmentCursor := "" } else s
        selectLoop t.ready (turns.length + environments.length) s turns environments active []

inductive Job where
  | execution (item : ScheduledWork)
  | fileWrite (sessionID : SessionID)
  | directoryRead (sessionID : SessionID) (reserved : Bool)
  deriving DecidableEq

namespace Job

def owned : Job → Option String
  | execution item => some item.sessionID.1
  | fileWrite sessionID => some sessionID.1
  | directoryRead sessionID reserved => if reserved then some sessionID.1 else none

def isRead : Job → Bool
  | directoryRead .. => true
  | execution _ | fileWrite _ => false

end Job

/-- A job that was started and whose completion has not been received; the result is that of the
completion which it has sent. -/
structure Task where
  job : Job
  failed : Option Bool := none
  deriving DecidableEq

structure Worker where
  active : Active := []
  reads : Nat := 0
  schedule : WorkerSchedule := {}
  tasks : List Task := []
  returned : Bool := false
  deriving DecidableEq

namespace Worker

variable (w : Worker)

def start (job : Job) : Worker := { w with tasks := w.tasks ++ [⟨job, none⟩] }

def fileWrite (sessionID : SessionID) (cancelled : Bool) : Worker :=
  if cancelled ∨ sessionID.1 ∈ w.active ∨ w.active.length = 4 then w
  else { w.start (.fileWrite sessionID) with active := w.active.mark sessionID.1 }

def directoryRead (sessionID : SessionID) (cancelled : Bool) : Worker :=
  if cancelled ∨ w.reads = 4 ∨ (sessionID.1 ∉ w.active ∧ w.active.length = 4) then w
  else
    let reserved := decide (sessionID.1 ∉ w.active)
    { w.start (.directoryRead sessionID reserved) with
      active := if reserved then w.active.mark sessionID.1 else w.active
      reads := w.reads + 1 }

def complete (job : Job) (failed : Bool) : Worker :=
  match job with
  | .fileWrite sessionID => { w with active := w.active.delete sessionID.1 }
  | .directoryRead sessionID reserved =>
    let id := if reserved then sessionID.1 else ""
    { w with reads := w.reads - 1, active := if id ≠ "" then w.active.delete id else w.active }
  | .execution item =>
    { w with active := w.active.delete item.sessionID.1, returned := failed }

def tick (t : Tick) : Worker :=
  if !t.ping || !t.expire then { w with returned := true }
  else if w.active.length = 4 ∨ !t.devices then w
  else
    let selection := selectWork w.schedule t w.active
    match selection.work with
    | none =>
      { w with schedule := selection.schedule, active := selection.active, returned := true }
    | some work =>
      { w with
        schedule := selection.schedule
        active := selection.active
        tasks := w.tasks ++ work.map (fun item => ⟨.execution item, none⟩) }

end Worker

inductive WorkerAction where
  | fileWrite (sessionID : SessionID) (cancelled : Bool)
  | directoryRead (sessionID : SessionID) (cancelled : Bool)
  | tick (t : Tick)
  | finish (k : Nat) (failed : Bool)
  | receive (k : Nat)
  | stop

def Worker.step (w : Worker) : WorkerAction → Option Worker
  | .finish k failed =>
    match w.tasks[k]? with
    | some ⟨job, none⟩ => some { w with tasks := w.tasks.set k ⟨job, some failed⟩ }
    | _ => none
  | .receive k =>
    if w.returned then none
    else
      match w.tasks[k]? with
      | some ⟨job, some failed⟩ =>
        some ({ w with tasks := w.tasks.eraseIdx k }.complete job failed)
      | _ => none
  | .fileWrite sessionID cancelled =>
    if w.returned then none else some (w.fileWrite sessionID cancelled)
  | .directoryRead sessionID cancelled =>
    if w.returned then none else some (w.directoryRead sessionID cancelled)
  | .tick t => if w.returned then none else some (w.tick t)
  | .stop => if w.returned then none else some { w with returned := true }

namespace Active

theorem mark_of_not_mem {active : Active} {id : String} (h : id ∉ active) :
    active.mark id = active ++ [id] := if_neg h

theorem mem_delete {active : Active} {id s : String} :
    s ∈ active.delete id ↔ s ∈ active ∧ s ≠ id := by
  rw [delete, List.mem_filter, bne_iff_ne]

theorem delete_perm {active owners : Active} {id : String} (hnodup : (id :: owners).Nodup)
    (h : active.Perm (id :: owners)) : (active.delete id).Perm owners := by
  have hfilter := h.filter (fun s => s != id)
  have hrest : owners.filter (fun s => s != id) = owners := by
    rw [List.filter_eq_self]
    intro s hs
    rw [bne_iff_ne]
    rintro rfl
    exact (List.nodup_cons.1 hnodup).1 hs
  rw [List.filter_cons_of_neg (by simp), hrest] at hfilter
  exact hfilter

end Active

def Worker.owners (w : Worker) : List String := w.tasks.filterMap (fun t => t.job.owned)

def Worker.readTasks (w : Worker) : Nat := w.tasks.countP (fun t => t.job.isRead)

def Selected (active : Active) (selected : List ScheduledWork) (selection : Selection) : Prop :=
  ∀ work, selection.work = some work → ∃ new, work = selected ++ new ∧
    selection.active = active ++ new.map (fun item => item.sessionID.1) ∧
    selection.active.Nodup ∧ selection.active.length ≤ 4

theorem Selected.done {active : Active} (hnodup : active.Nodup) (hlen : active.length ≤ 4)
    (s : WorkerSchedule) (selected : List ScheduledWork) :
    Selected active selected ⟨s, active, some selected⟩ := by
  intro work h
  cases h
  exact ⟨[], (List.append_nil _).symm, (List.append_nil _).symm, hnodup, hlen⟩

theorem Selected.more {active : Active} {selected : List ScheduledWork} {selection : Selection}
    {item : ScheduledWork} (h : Selected (active ++ [item.sessionID.1]) (selected ++ [item]) selection) :
    Selected active selected selection := by
  intro work hwork
  obtain ⟨new, hnew, hactive, hrest⟩ := h work hwork
  refine ⟨item :: new, ?_, ?_, hrest⟩
  · rw [hnew, List.append_assoc]
    rfl
  · rw [hactive, List.append_assoc]
    rfl

theorem selectLoop_selected (ready : ScheduledWork → Except BindError Bool) (rounds : Nat)
    (s : WorkerSchedule) (turns : List ExecutionWork) (environments : List EnvironmentInputWork)
    {active : Active} (selected : List ScheduledWork) (hnodup : active.Nodup)
    (hlen : active.length ≤ 4) :
    Selected active selected (selectLoop ready rounds s turns environments active selected) := by
  induction rounds generalizing s turns environments active selected with
  | zero => exact .done hnodup hlen s selected
  | succ rounds ih =>
    rw [selectLoop]
    split_ifs with hroom
    · split
      · exact .done hnodup hlen s selected
      next item s turns environments _ =>
        split_ifs with hmem
        · exact ih s turns environments selected hnodup hlen
        · split
          · split_ifs
            · exact ih s turns environments selected hnodup hlen
            · exact nofun
          · exact ih s turns environments selected hnodup hlen
          · rw [Active.mark_of_not_mem hmem]
            have hnodup' : (active ++ [item.sessionID.1]).Nodup := by
              rw [List.nodup_append_comm]
              exact List.nodup_cons.2 ⟨hmem, hnodup⟩
            have hlen' : (active ++ [item.sessionID.1]).length ≤ 4 := by
              rw [List.length_append, List.length_singleton]
              omega
            exact (ih s turns environments (selected ++ [item]) hnodup' hlen').more
    · exact .done hnodup hlen s selected

theorem selectWork_selected (s : WorkerSchedule) (t : Tick) {active : Active}
    (hnodup : active.Nodup) (hlen : active.length ≤ 4) :
    Selected active [] (selectWork s t active) := by
  unfold selectWork
  split
  · exact nofun
  · dsimp only
    split_ifs
    · exact selectLoop_selected _ _ _ _ _ _ hnodup hlen
    · split
      · exact nofun
      · exact selectLoop_selected _ _ _ _ _ _ hnodup hlen
    · exact selectLoop_selected _ _ _ _ _ _ hnodup hlen
    · split
      · exact nofun
      · exact selectLoop_selected _ _ _ _ _ _ hnodup hlen

structure Worker.Live (w : Worker) : Prop where
  owners : w.active.Perm w.owners
  room : w.active.length ≤ 4
  reads : w.reads = w.readTasks

structure Worker.Ok (w : Worker) : Prop where
  owners_nodup : w.owners.Nodup
  readTasks_le : w.readTasks ≤ 4
  live : w.returned = false → w.Live

namespace Worker

variable {w w' : Worker}

theorem Live.nodup (h : w.Live) (hok : w.Ok) : w.active.Nodup :=
  h.owners.nodup_iff.2 hok.owners_nodup

theorem owners_start {job : Job} (htasks : w'.tasks = w.tasks ++ [⟨job, none⟩]) :
    w'.owners = w.owners ++ job.owned.toList := by
  rw [owners, htasks, List.filterMap_append, owners]
  cases h : job.owned <;> simp [h]

theorem readTasks_start {job : Job} (htasks : w'.tasks = w.tasks ++ [⟨job, none⟩]) :
    w'.readTasks = w.readTasks + job.isRead.toNat := by
  rw [readTasks, htasks, List.countP_append, List.countP_singleton, readTasks]
  cases job.isRead <;> rfl

theorem Live.start (h : w.Live) (hok : w.Ok) {job : Job} {id : String}
    (howned : job.owned = some id) (hfree : id ∉ w.active) (hroom : w.active.length ≠ 4)
    (htasks : w'.tasks = w.tasks ++ [⟨job, none⟩]) (hactive : w'.active = w.active.mark id)
    (hreads : w'.reads = w.reads + job.isRead.toNat) (hread : w'.reads ≤ 4) : w'.Ok := by
  have howners := owners_start htasks
  rw [howned, Option.toList_some] at howners
  have hcount : w'.readTasks = w'.reads := by
    rw [readTasks_start htasks, hreads, h.reads]
  rw [Active.mark_of_not_mem hfree] at hactive
  refine ⟨?_, hcount ▸ hread, fun _ => ⟨?_, ?_, hcount.symm⟩⟩
  · rw [howners, List.nodup_append_comm]
    exact List.nodup_cons.2 ⟨fun hmem => hfree (h.owners.mem_iff.2 hmem), hok.owners_nodup⟩
  · rw [howners, hactive]
    exact h.owners.append_right [id]
  · have hlen := h.room
    rw [hactive, List.length_append, List.length_singleton]
    omega

theorem fileWrite_ok (hok : w.Ok) (hlive : w.returned = false) (sessionID : SessionID)
    (cancelled : Bool) : (w.fileWrite sessionID cancelled).Ok := by
  have h := hok.live hlive
  have hle := hok.readTasks_le
  rw [← h.reads] at hle
  unfold fileWrite
  split_ifs with hrefused
  · exact hok
  · push Not at hrefused
    exact h.start hok rfl hrefused.2.1 hrefused.2.2 rfl rfl rfl hle

theorem directoryRead_ok (hok : w.Ok) (hlive : w.returned = false) (sessionID : SessionID)
    (cancelled : Bool) : (w.directoryRead sessionID cancelled).Ok := by
  have h := hok.live hlive
  have hle := hok.readTasks_le
  rw [← h.reads] at hle
  unfold directoryRead
  split_ifs with hrefused
  · exact hok
  · push Not at hrefused
    obtain ⟨-, hreads, hroom⟩ := hrefused
    dsimp only
    by_cases hmem : sessionID.1 ∈ w.active
    · -- the session is reserved by another job: the read is counted, and owns nothing
      have hnot : decide (sessionID.1 ∉ w.active) = false := by simpa using hmem
      rw [hnot, if_neg Bool.false_ne_true]
      generalize hw : ({ w.start (.directoryRead sessionID false) with
        active := w.active, reads := w.reads + 1 } : Worker) = v
      have htasks : v.tasks = w.tasks ++ [⟨.directoryRead sessionID false, none⟩] := by
        rw [← hw]
        rfl
      have howners : v.owners = w.owners := by
        rw [owners_start htasks]
        exact List.append_nil _
      have hcount : v.readTasks = w.reads + 1 := by
        rw [readTasks_start htasks, h.reads]
        rfl
      refine ⟨howners ▸ hok.owners_nodup, by omega, fun _ => ⟨?_, ?_, ?_⟩⟩
      · rw [howners, ← hw]
        exact h.owners
      · rw [← hw]
        exact h.room
      · rw [hcount, ← hw]
    · have hfree : decide (sessionID.1 ∉ w.active) = true := by simpa using hmem
      rw [hfree, if_pos rfl]
      exact h.start hok rfl hmem (hroom hmem) rfl rfl rfl (Nat.lt_of_le_of_ne hle hreads)

theorem tick_ok (hok : w.Ok) (hlive : w.returned = false) (t : Tick) : (w.tick t).Ok := by
  have h := hok.live hlive
  unfold tick
  split_ifs
  · exact ⟨hok.owners_nodup, hok.readTasks_le, nofun⟩
  · exact hok
  · dsimp only
    split
    · exact ⟨hok.owners_nodup, hok.readTasks_le, nofun⟩
    next work hwork =>
      obtain ⟨new, hnew, hactive, hnodup, hlen⟩ :=
        selectWork_selected w.schedule t (h.nodup hok) h.room work hwork
      rw [List.nil_append] at hnew
      generalize hw : ({ w with
        schedule := (selectWork w.schedule t w.active).schedule
        active := (selectWork w.schedule t w.active).active
        tasks := w.tasks ++ work.map (fun item => ⟨.execution item, none⟩) } : Worker) = v
      have howners : v.owners = w.owners ++ new.map (fun item => item.sessionID.1) := by
        rw [← hw, owners, List.filterMap_append, hnew, List.filterMap_map, owners]
        exact congrArg _ (congrFun List.filterMap_eq_map new)
      have hreads : v.readTasks = w.readTasks := by
        rw [← hw, readTasks, List.countP_append, List.countP_map, readTasks, Nat.add_eq_left,
          List.countP_eq_zero]
        exact fun _ _ => Bool.false_ne_true
      have hactive : v.active = w.active ++ new.map (fun item => item.sessionID.1) := by
        rw [← hw]
        exact hactive
      have hperm : v.active.Perm v.owners := by
        rw [hactive, howners]
        exact h.owners.append_right _
      have hv : v.active.Nodup ∧ v.active.length ≤ 4 := by
        rw [← hw]
        exact ⟨hnodup, hlen⟩
      refine ⟨hperm.nodup_iff.1 hv.1, hreads ▸ hok.readTasks_le, fun _ => ⟨hperm, hv.2, ?_⟩⟩
      rw [hreads, ← h.reads, ← hw]

theorem owners_eraseIdx {k : Nat} {t : Task} (ht : w.tasks[k]? = some t) :
    w.owners.Perm (t.job.owned.toList ++ (w.tasks.eraseIdx k).filterMap (fun t => t.job.owned)) ∧
      w.readTasks = t.job.isRead.toNat + (w.tasks.eraseIdx k).countP (fun t => t.job.isRead) := by
  obtain ⟨hk, rfl⟩ := List.getElem?_eq_some_iff.1 ht
  have hperm : w.tasks.Perm (w.tasks[k] :: w.tasks.eraseIdx k) :=
    (List.perm_cons_erase (List.getElem_mem hk)).trans ((List.erase_getElem hk).cons _)
  constructor
  · refine (hperm.filterMap _).trans ?_
    rw [List.filterMap_cons]
    cases (w.tasks[k]).job.owned <;> exact .refl _
  · rw [readTasks, hperm.countP_eq, List.countP_cons, Nat.add_comm]
    cases (w.tasks[k]).job.isRead <;> rfl

theorem complete_active (job : Job) (failed : Bool) (w : Worker) :
    (w.complete job failed).active = (job.owned.elim w.active w.active.delete) ∧
      (w.complete job failed).reads = w.reads - job.isRead.toNat ∧
      (w.complete job failed).tasks = w.tasks := by
  cases job with
  | execution | fileWrite => exact ⟨rfl, rfl, rfl⟩
  | directoryRead sessionID reserved =>
    cases reserved with
    | false => exact ⟨rfl, rfl, rfl⟩
    | true =>
      refine ⟨?_, rfl, rfl⟩
      simp only [complete, if_true]
      rw [if_pos sessionID.2]
      rfl

theorem receive_ok (hok : w.Ok) (hlive : w.returned = false) {k : Nat} {job : Job} {failed : Bool}
    (ht : w.tasks[k]? = some ⟨job, some failed⟩) :
    ({ w with tasks := w.tasks.eraseIdx k }.complete job failed).Ok := by
  have h := hok.live hlive
  have hle := hok.readTasks_le
  obtain ⟨howners, hcount⟩ := owners_eraseIdx ht
  obtain ⟨hactive, hreads, htasks⟩ :=
    complete_active job failed { w with tasks := w.tasks.eraseIdx k }
  generalize Worker.complete _ job failed = v at hactive hreads htasks ⊢
  have hvowners : v.owners = (w.tasks.eraseIdx k).filterMap (fun t => t.job.owned) := by
    rw [owners, htasks]
  have hvcount : v.readTasks = (w.tasks.eraseIdx k).countP (fun t => t.job.isRead) := by
    rw [readTasks, htasks]
  rw [← hvowners] at howners
  rw [← hvcount] at hcount
  have hnodup : (job.owned.toList ++ v.owners).Nodup := howners.nodup_iff.1 hok.owners_nodup
  refine ⟨hnodup.of_append_right, by omega, fun _ => ⟨?_, ?_, ?_⟩⟩
  · rw [hactive]
    cases howned : job.owned with
    | none =>
      rw [howned] at howners
      exact h.owners.trans howners
    | some id =>
      rw [howned] at howners hnodup
      exact Active.delete_perm hnodup (h.owners.trans howners)
  · rw [hactive]
    cases job.owned with
    | none => exact h.room
    | some id => exact Nat.le_trans (List.length_filter_le _ _) h.room
  · have hwreads : w.reads = job.isRead.toNat + v.readTasks := h.reads.trans hcount
    rw [hreads]
    exact (congrArg (· - job.isRead.toNat) hwreads).trans (Nat.add_sub_cancel_left ..)

theorem finish_ok (hok : w.Ok) {k : Nat} {job : Job} (ht : w.tasks[k]? = some ⟨job, none⟩)
    (failed : Bool) : Ok { w with tasks := w.tasks.set k ⟨job, some failed⟩ } := by
  have hjobs : (w.tasks.set k ⟨job, some failed⟩).map Task.job = w.tasks.map Task.job := by
    have hjob : (w.tasks.map Task.job)[k]? = some job := by
      rw [List.getElem?_map, ht]
      rfl
    obtain ⟨hk, heq⟩ := List.getElem?_eq_some_iff.1 hjob
    rw [List.map_set]
    exact (congrArg _ heq.symm).trans (List.set_getElem_self hk)
  have howners : owners { w with tasks := w.tasks.set k ⟨job, some failed⟩ } = w.owners := by
    have hmap (tasks : List Task) : tasks.filterMap (fun t => t.job.owned) =
        (tasks.map Task.job).filterMap Job.owned := by
      rw [List.filterMap_map]
      rfl
    rw [owners, owners, hmap, hmap, hjobs]
  have hreads : readTasks { w with tasks := w.tasks.set k ⟨job, some failed⟩ } = w.readTasks := by
    have hmap (tasks : List Task) : tasks.countP (fun t => t.job.isRead) =
        (tasks.map Task.job).countP Job.isRead := by
      rw [List.countP_map]
      rfl
    rw [readTasks, readTasks, hmap, hmap, hjobs]
  refine ⟨howners ▸ hok.owners_nodup, hreads ▸ hok.readTasks_le, fun hlive => ?_⟩
  have h := hok.live hlive
  exact ⟨howners ▸ h.owners, h.room, hreads ▸ h.reads⟩

theorem step_ok (hok : w.Ok) {a : WorkerAction} (hstep : w.step a = some w') : w'.Ok := by
  cases a with
  | finish k failed =>
    simp only [Worker.step] at hstep
    split at hstep
    next job ht =>
      cases hstep
      exact finish_ok hok ht failed
    · cases hstep
  | receive k =>
    simp only [Worker.step] at hstep
    split_ifs at hstep with hreturned
    split at hstep
    next job failed ht =>
      cases hstep
      exact receive_ok hok (by simpa using hreturned) ht
    · cases hstep
  | fileWrite sessionID cancelled =>
    simp only [Worker.step] at hstep
    split_ifs at hstep with hreturned
    cases hstep
    exact fileWrite_ok hok (by simpa using hreturned) sessionID cancelled
  | directoryRead sessionID cancelled =>
    simp only [Worker.step] at hstep
    split_ifs at hstep with hreturned
    cases hstep
    exact directoryRead_ok hok (by simpa using hreturned) sessionID cancelled
  | tick t =>
    simp only [Worker.step] at hstep
    split_ifs at hstep with hreturned
    cases hstep
    exact tick_ok hok (by simpa using hreturned) t
  | stop =>
    simp only [Worker.step] at hstep
    split_ifs at hstep
    cases hstep
    exact ⟨hok.owners_nodup, hok.readTasks_le, nofun⟩

end Worker

theorem Worker.Ok.owner_unique {w : Worker} (hok : w.Ok) {i j : Nat} {t u : Task} {s : String}
    (hi : w.tasks[i]? = some t) (hj : w.tasks[j]? = some u) (ht : t.job.owned = some s)
    (hu : u.job.owned = some s) : i = j := by
  have hpairwise := List.pairwise_filterMap.1 hok.owners_nodup
  rw [List.pairwise_iff_getElem] at hpairwise
  obtain ⟨hilt, rfl⟩ := List.getElem?_eq_some_iff.1 hi
  obtain ⟨hjlt, rfl⟩ := List.getElem?_eq_some_iff.1 hj
  rcases Nat.lt_trichotomy i j with hlt | heq | hgt
  · exact absurd rfl (hpairwise i j hilt hjlt hlt s ht s hu)
  · exact heq
  · exact absurd rfl (hpairwise j i hjlt hilt hgt s hu s ht)

/-- At most four sessions are active, each with one job that owns it, at most four jobs are reads,
and a completion takes out only the session that its job owns. -/
theorem worker_exclusive (actions : List WorkerAction) (w : Worker)
    (hrun : runTrace Worker.step {} actions = some w) :
    (w.returned = false → w.active.Nodup ∧ w.active.length ≤ 4 ∧
      ∀ s ∈ w.active, ∃! k : Nat, ∃ t : Task, w.tasks[k]? = some t ∧ t.job.owned = some s) ∧
    (∀ (i j : Nat) (t u : Task) (s : String), w.tasks[i]? = some t → w.tasks[j]? = some u →
      t.job.owned = some s → u.job.owned = some s → i = j) ∧
    w.tasks.countP (fun t => t.job.isRead) ≤ 4 ∧
    ∀ (k : Nat) (t : Task) (w' : Worker), w.tasks[k]? = some t → w.step (.receive k) = some w' →
      ∀ s, s ∈ w'.active ↔ s ∈ w.active ∧ t.job.owned ≠ some s := by
  have hok : w.Ok := by
    refine runTrace_invariant (I := Worker.Ok) (fun _ _ _ _ hstep hs => Worker.step_ok hs hstep)
      (stepsMeet_true _ _) hrun ?_
    exact ⟨List.nodup_nil, Nat.zero_le _, fun _ => ⟨.refl _, Nat.zero_le _, rfl⟩⟩
  refine ⟨fun hlive => ?_, fun i j t u s => hok.owner_unique, hok.readTasks_le, ?_⟩
  · have h := hok.live hlive
    refine ⟨h.nodup hok, h.room, fun s hs => ?_⟩
    obtain ⟨t, ht, howned⟩ := List.mem_filterMap.1 (h.owners.mem_iff.1 hs)
    obtain ⟨k, hk⟩ := List.mem_iff_getElem?.1 ht
    refine ⟨k, ⟨t, hk, howned⟩, ?_⟩
    rintro j ⟨u, hu, hown⟩
    exact hok.owner_unique hu hk hown howned
  · intro k t w' ht hstep s
    simp only [Worker.step, ht] at hstep
    split_ifs at hstep
    split at hstep
    next job failed heq =>
      cases heq
      cases hstep
      rw [(Worker.complete_active job failed _).1]
      cases job.owned with
      | none => simp
      | some id =>
        rw [Option.elim_some, Active.mem_delete]
        simp [eq_comm]
    · cases hstep

def someSession : SessionID := ⟨"s", by decide⟩

def oneQueued : Tick where
  turns := some [⟨"t", someSession, "turn"⟩]
  scanAt := ⟨0⟩
  environments := some []
  scannedAt := ⟨0⟩
  ready := fun _ => .ok true

def joinedRead : List WorkerAction :=
  [.fileWrite someSession false, .directoryRead someSession false, .finish 0 false, .receive 0,
    .tick oneQueued, .finish 0 false]

theorem worker_exclusive_joined : ∃ w w', runTrace Worker.step {} joinedRead = some w ∧
    w.step (.receive 0) = some w' ∧ w.tasks.length = 2 ∧ "s" ∈ w'.active := by
  have hrun : (runTrace Worker.step {} joinedRead).map (fun w =>
      decide (w.tasks[0]? = some ⟨.directoryRead someSession false, some false⟩) &&
      (w.step (.receive 0)).isSome && w.tasks.length == 2 && decide ("s" ∈ w.active)) =
      some true := by
    decide +kernel
  obtain ⟨w, hw, hcheck⟩ := exists_of_runTrace_map hrun
  simp only [Bool.and_eq_true, decide_eq_true_eq, beq_iff_eq] at hcheck
  obtain ⟨⟨⟨htask, hreceive⟩, hlen⟩, hactive⟩ := hcheck
  obtain ⟨w', hw'⟩ := Option.isSome_iff_exists.1 hreceive
  obtain ⟨-, -, -, hcomplete⟩ := worker_exclusive joinedRead w hw
  exact ⟨w, w', hw, hw', hlen, (hcomplete 0 _ w' htask hw' "s").2 ⟨hactive, nofun⟩⟩

end Parsar.Execution
