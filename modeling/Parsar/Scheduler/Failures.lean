import Mathlib.Data.List.Induction
import Parsar.Framework.Trace
import Parsar.Scheduler.Store

namespace Parsar.Scheduler

open GoStd

inductive Op where
  | change (c : Change)
  | fire (taskID : Nat) (nextRunAt now : Time) (dispatches : Bool)

def Tables.step (db : Tables) : Op → Option Tables
  | .change c => db.change c
  | .fire taskID nextRunAt now dispatches =>
    some (match db.fireScheduledTaskRun taskID nextRunAt now dispatches with
      | .error _ => db
      | .ok (db', _) => db')

def statusIn (runs : List AgentRun) (r : Nat) : Option RunStatus := runs[r]?.map AgentRun.status

def streakIn (runs : List AgentRun) (ids : List Nat) : Nat :=
  (ids.reverse.takeWhile (fun r => statusIn runs r ≠ some .completed)).countP
    (fun r => (statusIn runs r).any RunStatus.failing)

/-- The failures in a row of the cron runs since the task was created or last enabled again. -/
def Tables.failureStreak (db : Tables) (t : ScheduledTask) : Nat := streakIn db.runs t.cronRuns

/-- Manual runs only without failures in a row, and no enabled task is left with a last run that
failed uncounted. -/
def Fair (db : Tables) : Op → Prop
  | .change (.runNow taskID _ _) => ∀ t ∈ db.task taskID, t.enabled = true →
    (db.lastRunStatus t).any RunStatus.active = false → db.failureStreak t = 0
  | .change (.finish runID status) => ∀ t ∈ db.tasks, t.enabled = true → t.deleted = false →
    t.lastRunID = some runID → runID ∈ t.cronRuns ∨ status.failing = false
  | .change (.update taskID _ _ enabled _) => ∀ t ∈ db.task taskID, t.enabled = false →
    enabled = true → (db.lastRunStatus t).any RunStatus.failing = false
  | .change (.create ..) | .change (.delete _) | .change (.start _) | .fire .. => True

theorem streakIn_concat (runs : List AgentRun) (ids : List Nat) (r : Nat) :
    streakIn runs (ids ++ [r]) = countFailures (streakIn runs ids) (statusIn runs r) := by
  rw [streakIn, List.reverse_append, List.reverse_singleton, List.singleton_append,
    List.takeWhile_cons]
  cases hs : statusIn runs r with
  | none => simp [countFailures, streakIn, hs]
  | some s => cases s <;> simp [countFailures, streakIn, RunStatus.failing, hs]

theorem streakIn_congr {ids : List Nat}
    (h : ∀ r ∈ ids, statusIn runs' r = statusIn runs r) :
    streakIn runs' ids = streakIn runs ids := by
  induction ids using List.reverseRecOn with
  | nil => rfl
  | append_singleton ids r ih =>
    rw [streakIn_concat, streakIn_concat, h r (by simp), ih (fun r hr => h r (by simp [hr]))]

/-- The counter lacks the last cron run at most, or there are no failures in a row. -/
def Counted (runs : List AgentRun) (t : ScheduledTask) : Prop :=
  (∃ ids r, t.cronRuns = ids ++ [r] ∧ t.lastRunID = some r ∧ r ∉ ids ∧
    t.consecutiveFailures = streakIn runs ids) ∨
  (streakIn runs t.cronRuns = 0 ∧
    (∀ r ∈ t.lastRunID, r ∉ t.cronRuns ∧ (statusIn runs r).any RunStatus.failing = false) ∧
    (t.lastRunID = none → t.consecutiveFailures = 0))

structure RowOk (runs : List AgentRun) (t : ScheduledTask) : Prop where
  last_lt : ∀ r ∈ t.lastRunID, r < runs.length
  cron_lt : ∀ r ∈ t.cronRuns, r < runs.length
  nodup : t.cronRuns.Nodup
  ended : ∀ r ∈ t.cronRuns, t.lastRunID ≠ some r →
    (statusIn runs r).any RunStatus.active = false
  counted : t.enabled = true → t.deleted = false → Counted runs t

variable {runs runs' : List AgentRun} {t : ScheduledTask}

theorem RowOk.idle (h : RowOk runs t)
    (hidle : (t.lastRunID.bind (statusIn runs)).any RunStatus.active = false) :
    ∀ r ∈ t.cronRuns, (statusIn runs r).any RunStatus.active = false := by
  intro r hr
  by_cases hlast : t.lastRunID = some r
  · rwa [hlast, Option.bind_some] at hidle
  · exact h.ended r hr hlast

theorem RowOk.count (h : RowOk runs t) (henabled : t.enabled = true) (hdeleted : t.deleted = false)
    (hidle : (t.lastRunID.bind (statusIn runs)).any RunStatus.active = false) :
    countFailures t.consecutiveFailures (t.lastRunID.bind (statusIn runs)) =
      streakIn runs t.cronRuns := by
  obtain ⟨ids, r, hcron, hlast, -, hcount⟩ | ⟨hzero, hlast, hnone⟩ := h.counted henabled hdeleted
  · rw [hcron, streakIn_concat, hlast, hcount, Option.bind_some]
  · rw [hzero]
    cases hid : t.lastRunID with
    | none => exact hnone hid
    | some r =>
      -- a last run that has ended and is no failure is completed
      obtain ⟨-, hfailing⟩ := hlast r hid
      rw [hid, Option.bind_some] at hidle
      have hlt := h.last_lt r hid
      have hstatus : statusIn runs r = some runs[r].status := by simp [statusIn, hlt]
      rw [hstatus] at hidle hfailing
      rw [Option.bind_some, hstatus]
      cases hs : runs[r].status <;> simp_all [RunStatus.active, RunStatus.failing, countFailures]

theorem RowOk.congr (h : RowOk runs t) (hlength : runs.length ≤ runs'.length)
    (hsame : ∀ r < runs.length, statusIn runs' r = statusIn runs r) : RowOk runs' t := by
  have hcron : ∀ r ∈ t.cronRuns, statusIn runs' r = statusIn runs r :=
    fun r hr => hsame r (h.cron_lt r hr)
  refine ⟨fun r hr => (h.last_lt r hr).trans_le hlength,
    fun r hr => (h.cron_lt r hr).trans_le hlength, h.nodup,
    fun r hr hlast => by rw [hcron r hr]; exact h.ended r hr hlast, ?_⟩
  intro henabled hdeleted
  obtain ⟨ids, r, hids, hlast, hnew, hcount⟩ | ⟨hzero, hlast, hnone⟩ := h.counted henabled hdeleted
  · refine .inl ⟨ids, r, hids, hlast, hnew, ?_⟩
    rw [hcount, streakIn_congr (fun q hq => hcron q (by simp [hids, hq]))]
  · refine .inr ⟨by rw [streakIn_congr hcron, hzero], fun r hr => ?_, hnone⟩
    rw [hsame r (h.last_lt r hr)]
    exact hlast r hr

theorem statusIn_append_of_lt {r : Nat} (hr : r < runs.length) (a : AgentRun) :
    statusIn (runs ++ [a]) r = statusIn runs r := by
  rw [statusIn, List.getElem?_append_left hr, statusIn]

theorem RowOk.addRun (h : RowOk runs t) (a : AgentRun) : RowOk (runs ++ [a]) t :=
  h.congr (by simp) (fun _ hr => statusIn_append_of_lt hr a)

theorem statusIn_modify (runs : List AgentRun) (r q : Nat) (s : RunStatus) :
    statusIn (runs.modify r (fun a => { a with status := s })) q =
      if q = r then (statusIn runs q).map (fun _ => s) else statusIn runs q := by
  rw [statusIn, List.getElem?_modify]
  split_ifs with hr hq hq
  · cases hrun : runs[q]? <;> simp [statusIn, hrun]
  · exact absurd hr.symm hq
  · exact absurd hq.symm hr
  · simp [statusIn]

theorem RowOk.setStatus (h : RowOk runs t) {r : Nat} {s : RunStatus}
    (hactive : (statusIn runs r).any RunStatus.active = true)
    (hfair : t.enabled = true → t.deleted = false → t.lastRunID = some r →
      r ∈ t.cronRuns ∨ s.failing = false) :
    RowOk (runs.modify r (fun a => { a with status := s })) t := by
  have hother {q : Nat} (hq : q ≠ r) :
      statusIn (runs.modify r (fun a => { a with status := s })) q = statusIn runs q := by
    rw [statusIn_modify, if_neg hq]
  -- a cron run that is active is the last run
  have hlastRun (hr : r ∈ t.cronRuns) : t.lastRunID = some r := by
    by_contra hne
    have hended := h.ended r hr hne
    rw [hactive] at hended
    cases hended
  have hstreak {ids : List Nat} (hids : r ∉ ids) :
      streakIn (runs.modify r (fun a => { a with status := s })) ids = streakIn runs ids :=
    streakIn_congr (fun q hq => hother (fun heq => hids (heq ▸ hq)))
  refine ⟨by simpa using h.last_lt, by simpa using h.cron_lt, h.nodup, ?_, ?_⟩
  · intro q hq hlast
    have hqr : q ≠ r := fun heq => hlast (heq ▸ hlastRun (heq ▸ hq))
    rw [hother hqr]
    exact h.ended q hq hlast
  · intro henabled hdeleted
    obtain ⟨ids, q, hids, hlast, hnew, hcount⟩ | ⟨hzero, hlast, hnone⟩ :=
      h.counted henabled hdeleted
    · refine .inl ⟨ids, q, hids, hlast, hnew, ?_⟩
      rw [hcount, hstreak]
      intro hr
      have heq := hlastRun (by simp [hids, hr])
      rw [hlast] at heq
      exact hnew (Option.some.inj heq ▸ hr)
    · have hr : r ∉ t.cronRuns := fun hr => (hlast r (hlastRun hr)).1 hr
      refine .inr ⟨by rw [hstreak hr, hzero], fun q hq => ⟨(hlast q hq).1, ?_⟩, hnone⟩
      by_cases hqr : q = r
      · subst hqr
        rw [statusIn_modify, if_pos rfl]
        have hs := (hfair henabled hdeleted hq).resolve_left hr
        cases statusIn runs q <;> simp [hs]
      · rw [hother hqr]
        exact (hlast q hq).2

def TablesOk (db : Tables) : Prop := ∀ t ∈ db.tasks, RowOk db.runs t

variable {db db' : Tables}

theorem TablesOk.put (h : TablesOk db) (ht : RowOk db.runs t) :
    TablesOk (db.put t) := by
  intro u hu
  obtain ⟨v, hv, rfl⟩ := List.mem_map.1 hu
  split_ifs
  · exact ht
  · exact h v hv

theorem RowOk.newRun (h : RowOk runs t)
    (hidle : (t.lastRunID.bind (statusIn runs)).any RunStatus.active = false) (a : AgentRun)
    {u : ScheduledTask} (hlast : u.lastRunID = some runs.length)
    (hcron : ∀ r ∈ u.cronRuns, r ∈ t.cronRuns ∨ r = runs.length) (hnodup : u.cronRuns.Nodup)
    (hcounted : u.enabled = true → u.deleted = false → Counted (runs ++ [a]) u) :
    RowOk (runs ++ [a]) u := by
  refine ⟨?_, ?_, hnodup, ?_, hcounted⟩
  · intro r hr
    rw [hlast] at hr
    cases hr
    simp
  · intro r hr
    rcases hcron r hr with hold | rfl
    · exact (h.cron_lt r hold).trans_le (by simp)
    · simp
  · intro r hr hne
    rcases hcron r hr with hold | rfl
    · rw [statusIn_append_of_lt (h.cron_lt r hold)]
      exact h.idle hidle r hold
    · exact absurd hlast hne

theorem TablesOk.fire (h : TablesOk db) {id : Nat} {nextRunAt now : Time}
    {dispatches : Bool} {result : FireScheduledTaskResult}
    (hfire : db.fireScheduledTaskRun id nextRunAt now dispatches = .ok (db', result)) :
    TablesOk db' := by
  obtain ⟨t, ht, hfired⟩ := fireScheduledTaskRun_ok hfire
  obtain ⟨hmem, -, hdeleted⟩ := task_some ht
  have hrow := h t hmem
  cases hfired with
  | disabled | overlap =>
    exact h.put { hrow with }
  | tripped =>
    exact h.put { hrow with counted := fun h => nomatch h }
  | dispatched henabled hidle =>
    have hcount := hrow.count henabled hdeleted hidle
    have hnew : db.runs.length ∉ t.cronRuns := fun hr => Nat.lt_irrefl _ (hrow.cron_lt _ hr)
    have hbefore : TablesOk (db.addRun t.id) := fun u hu => (h u hu).addRun _
    refine hbefore.put (hrow.newRun hidle _ rfl ?_ ?_ ?_)
    · exact fun r hr => mem_concat hr
    · exact pairwise_concat hrow.nodup fun r hr heq => hnew (heq ▸ hr)
    · intro _ _
      refine .inl ⟨t.cronRuns, db.runs.length, rfl, rfl, hnew, ?_⟩
      rw [streakIn_congr (fun r hr => statusIn_append_of_lt (hrow.cron_lt r hr) _), ← hcount]
      rfl

theorem TablesOk.runNow (h : TablesOk db) {id : Nat} {now : Time} {dispatches : Bool} {runID : Nat}
    (hfair : ∀ t ∈ db.task id, t.enabled = true →
      (db.lastRunStatus t).any RunStatus.active = false → db.failureStreak t = 0)
    (hrun : db.runScheduledTaskNow id now dispatches = .ok (db', runID)) : TablesOk db' := by
  unfold Tables.runScheduledTaskNow at hrun
  split at hrun
  · cases hrun
  next t ht =>
    have hrow := h t (task_some ht).1
    split_ifs at hrun with hactive hdispatch
    cases hrun
    have hidle : (db.lastRunStatus t).any RunStatus.active = false := by simpa using hactive
    have hbefore : TablesOk (db.addRun id) := fun u hu => (h u hu).addRun _
    refine hbefore.put (hrow.newRun hidle _ rfl (fun r hr => .inl hr) hrow.nodup ?_)
    intro henabled _
    refine .inr ⟨?_, ?_, fun hnone => nomatch hnone⟩
    · have hzero := hfair t ht henabled hidle
      rw [Tables.failureStreak, ← streakIn_congr
        (fun r hr => statusIn_append_of_lt (hrow.cron_lt r hr) ⟨id, .queued⟩)] at hzero
      exact hzero
    · intro r hr
      cases hr
      refine ⟨fun hmem => Nat.lt_irrefl _ (hrow.cron_lt _ hmem), ?_⟩
      simp [statusIn, RunStatus.failing]

theorem TablesOk.update (h : TablesOk db) {id : Nat}
    (ht : db.task id = some t) {cronExpr timezone : String} {enabled : Bool} {nextRunAt : Time}
    (hfair : t.enabled = false → enabled = true →
      (db.lastRunStatus t).any RunStatus.failing = false) :
    TablesOk (db.put (t.update cronExpr timezone enabled nextRunAt)) := by
  have hrow := h t (task_some ht).1
  refine h.put ?_
  by_cases hagain : (!t.enabled && enabled) = true
  · -- the history begins anew
    have hcron : (t.update cronExpr timezone enabled nextRunAt).cronRuns = [] := if_pos hagain
    have hzero : (t.update cronExpr timezone enabled nextRunAt).consecutiveFailures = 0 :=
      if_pos hagain
    simp only [Bool.and_eq_true, Bool.not_eq_true'] at hagain
    have hlast := hfair hagain.1 hagain.2
    refine ⟨hrow.last_lt, by simp [hcron], by simp [hcron], by simp [hcron], fun _ _ =>
      .inr ⟨by simp [hcron, streakIn], fun r hr => ⟨by simp [hcron], ?_⟩, fun _ => hzero⟩⟩
    rw [Tables.lastRunStatus, show t.lastRunID = some r from hr, Option.bind_some] at hlast
    exact hlast
  · have hcron : (t.update cronExpr timezone enabled nextRunAt).cronRuns = t.cronRuns :=
      if_neg hagain
    have hsame : (t.update cronExpr timezone enabled nextRunAt).consecutiveFailures =
        t.consecutiveFailures := if_neg hagain
    refine ⟨hrow.last_lt, by rw [hcron]; exact hrow.cron_lt, by rw [hcron]; exact hrow.nodup,
      by rw [hcron]; exact hrow.ended, ?_⟩
    intro henabled hdeleted
    have hbefore : t.enabled = true := by
      cases hb : t.enabled with
      | true => rfl
      | false => exact absurd (by simp [hb, show enabled = true from henabled]) hagain
    rw [Counted, hcron, hsame]
    exact hrow.counted hbefore hdeleted

theorem TablesOk.step {op : Op} (h : TablesOk db) (hfair : Fair db op)
    (hstep : db.step op = some db') : TablesOk db' := by
  cases op with
  | fire id nextRunAt now dispatches =>
    cases hstep
    split
    · exact h
    next db' result hfire => exact h.fire hfire
  | change c =>
    cases c with
    | create cronExpr timezone enabled nextRunAt =>
      cases hstep
      refine forall_mem_concat h ?_
      exact ⟨(fun r hr => nomatch hr), (fun r hr => nomatch hr), .nil, (fun r hr => nomatch hr),
        fun _ _ => .inr ⟨rfl, (fun r hr => nomatch hr), fun _ => rfl⟩⟩
    | update id cronExpr timezone enabled nextRunAt =>
      cases hstep
      split
      · exact h
      next t ht => exact h.update ht (hfair t ht)
    | delete id =>
      cases hstep
      split
      · exact h
      next t ht =>
        have hrow := h t (task_some ht).1
        exact h.put { hrow with counted := fun _ hdeleted => nomatch hdeleted }
    | runNow id now dispatches =>
      cases hstep
      split
      · exact h
      next db' runID hrun => exact h.runNow hfair hrun
    | start r =>
      simp only [Tables.step, Tables.change] at hstep
      split_ifs at hstep with hqueued
      cases hstep
      have hactive : (statusIn db.runs r).any RunStatus.active = true := by
        rw [show statusIn db.runs r = some .queued from hqueued]
        rfl
      exact fun t ht => (h t ht).setStatus hactive (fun _ _ _ => .inr rfl)
    | finish r s =>
      simp only [Tables.step, Tables.change] at hstep
      split_ifs at hstep with hactive
      cases hstep
      exact fun t ht => (h t ht).setStatus hactive.1 (hfair t ht)

/-- A fire counts the failures in a row of the cron runs, each once, and disables the task exactly
at the threshold. -/
theorem failure_accounting_exact (ops : List Op) (db : Tables)
    (hfair : StepsMeet Tables.step Fair {} ops) (hrun : runTrace Tables.step {} ops = some db)
    (taskID : Nat) (t : ScheduledTask) (ht : db.task taskID = some t) (henabled : t.enabled = true)
    (hidle : (db.lastRunStatus t).any RunStatus.active = false) :
    db.failures t = db.failureStreak t ∧ t.cronRuns.Nodup ∧
    ∀ nextRunAt now dispatches,
      ((∃ db' result, db.fireScheduledTaskRun taskID nextRunAt now dispatches = .ok (db', result) ∧
        result.disabled = true) ↔ scheduledTaskFailureThreshold ≤ db.failureStreak t) ∧
      ∀ db' result, db.fireScheduledTaskRun taskID nextRunAt now dispatches = .ok (db', result) →
        ∃ u, db'.task taskID = some u ∧ (u.enabled = false ↔ result.disabled = true) := by
  have hok : TablesOk db :=
    runTrace_invariant (fun _ _ _ hmeet hstep hs => TablesOk.step hs hmeet hstep) hfair hrun
      (fun t ht => nomatch ht)
  obtain ⟨hmem, -, hdeleted⟩ := task_some ht
  have hcount : db.failures t = db.failureStreak t := (hok t hmem).count henabled hdeleted hidle
  refine ⟨hcount, (hok t hmem).nodup, fun nextRunAt now dispatches => ?_⟩
  rw [← hcount]
  refine ⟨⟨?_, ?_⟩, ?_⟩
  · rintro ⟨db', result, hfire, hdisabled⟩
    obtain ⟨u, hu, hfired⟩ := fireScheduledTaskRun_ok hfire
    rw [ht] at hu
    cases hu
    cases hfired with
    | tripped _ _ hlimit => exact hlimit
    | disabled | overlap | dispatched => cases hdisabled
  · intro hlimit
    refine ⟨db.put (t.disable (db.failures t) nextRunAt), { disabled := true }, ?_, rfl⟩
    rw [fireScheduledTaskRun_eq ht, if_neg (by simp [henabled]), if_neg (by simp [hidle]),
      if_pos hlimit]
  · intro db' result hfire
    obtain ⟨v, hv, hfired⟩ := fireScheduledTaskRun_ok hfire
    rw [ht] at hv
    cases hv
    obtain ⟨u, -, hu, -, hdisabled, -⟩ := hfired.row ht
    exact ⟨u, hu, hdisabled henabled⟩

instance : ∀ (db : Tables) (op : Op), Decidable (Fair db op)
  | db, .change (.runNow taskID _ _) => inferInstanceAs (Decidable (∀ t ∈ db.task taskID,
      t.enabled = true → (db.lastRunStatus t).any RunStatus.active = false →
      db.failureStreak t = 0))
  | db, .change (.finish runID status) => inferInstanceAs (Decidable (∀ t ∈ db.tasks,
      t.enabled = true → t.deleted = false → t.lastRunID = some runID →
      runID ∈ t.cronRuns ∨ status.failing = false))
  | db, .change (.update taskID _ _ enabled _) => inferInstanceAs (Decidable (∀ t ∈ db.task taskID,
      t.enabled = false → enabled = true → (db.lastRunStatus t).any RunStatus.failing = false))
  | _, .change (.create ..) | _, .change (.delete _) | _, .change (.start _) | _, .fire .. =>
    .isTrue trivial

def createDaily : Op := .change (.create "0 9 * * *" "UTC" true ⟨10⟩)

def fireEnding (runID : Nat) (status : RunStatus) : List Op :=
  [.fire 0 ⟨20⟩ ⟨10⟩ true, .change (.start runID), .change (.finish runID status)]

def fiveFailures : List Op :=
  [createDaily, .change (.runNow 0 ⟨1⟩ true), .change (.finish 0 .completed)] ++
    fireEnding 1 .failed ++ fireEnding 2 .cancelled ++ fireEnding 3 .failed ++
    fireEnding 4 .interrupted ++ fireEnding 5 .failed

theorem failure_accounting_exact_five : ∃ db t,
    runTrace Tables.step {} fiveFailures = some db ∧ db.task 0 = some t ∧ db.failures t = 5 ∧
    db.failureStreak t = 5 ∧
    ∃ db' result u, db.fireScheduledTaskRun 0 ⟨20⟩ ⟨10⟩ true = .ok (db', result) ∧
      db'.task 0 = some u ∧ u.enabled = false := by
  have hrun : (runTrace Tables.step {} fiveFailures).map (fun db => (db.task 0).any (fun t =>
      t.enabled && !(db.lastRunStatus t).any RunStatus.active && db.failures t == 5)) =
      some true := by
    decide +kernel
  obtain ⟨db, hdb, hcheck⟩ := exists_of_runTrace_map hrun
  simp only [Option.any_eq_true, Bool.and_eq_true, Bool.not_eq_true', beq_iff_eq] at hcheck
  obtain ⟨t, ht, ⟨henabled, hidle⟩, hfailures⟩ := hcheck
  have hfair : StepsMeet Tables.step Fair {} fiveFailures := stepsMeet_of_check (by decide +kernel)
  obtain ⟨hcount, -, htrips⟩ :=
    failure_accounting_exact fiveFailures db hfair hdb 0 t ht henabled hidle
  have hstreak : db.failureStreak t = 5 := hcount.symm.trans hfailures
  obtain ⟨hexact, hrow⟩ := htrips ⟨20⟩ ⟨10⟩ true
  obtain ⟨db', result, hfire, hdisabled⟩ := hexact.2 hstreak.ge
  obtain ⟨u, hu, henabled'⟩ := hrow db' result hfire
  exact ⟨db, t, hdb, ht, hfailures, hstreak, db', result, u, hfire, hu, henabled'.2 hdisabled⟩

def completedByHand : List Op :=
  [createDaily] ++ fireEnding 0 .failed ++
    [.change (.runNow 0 ⟨15⟩ true), .change (.finish 1 .completed)]

def enabledAgain : List Op :=
  [createDaily] ++ fireEnding 0 .failed ++
    [.change (.update 0 "0 9 * * *" "UTC" false ⟨20⟩),
      .change (.update 0 "0 9 * * *" "UTC" true ⟨20⟩)]

/-- The next fire counts no failure where there is one, or one where there is none. -/
theorem failures_miscounted :
    (∃ db t, runTrace Tables.step {} completedByHand = some db ∧ db.task 0 = some t ∧
      t.enabled = true ∧ (db.lastRunStatus t).any RunStatus.active = false ∧ db.failures t = 0 ∧
      db.failureStreak t = 1) ∧
    ∃ db t, runTrace Tables.step {} enabledAgain = some db ∧ db.task 0 = some t ∧
      t.enabled = true ∧ (db.lastRunStatus t).any RunStatus.active = false ∧ db.failures t = 1 ∧
      db.failureStreak t = 0 := by
  have hcheck (ops : List Op) (m n : Nat) (h : (runTrace Tables.step {} ops).map (fun db =>
      (db.task 0).any (fun t => t.enabled && !(db.lastRunStatus t).any RunStatus.active &&
        db.failures t == m && db.failureStreak t == n)) = some true) :
      ∃ db t, runTrace Tables.step {} ops = some db ∧ db.task 0 = some t ∧ t.enabled = true ∧
        (db.lastRunStatus t).any RunStatus.active = false ∧ db.failures t = m ∧
        db.failureStreak t = n := by
    obtain ⟨db, hdb, hcheck⟩ := exists_of_runTrace_map h
    simp only [Option.any_eq_true, Bool.and_eq_true, Bool.not_eq_true', beq_iff_eq] at hcheck
    obtain ⟨t, ht, ⟨⟨henabled, hidle⟩, hm⟩, hn⟩ := hcheck
    exact ⟨db, t, hdb, ht, henabled, hidle, hm, hn⟩
  exact ⟨hcheck _ 0 1 (by decide +kernel), hcheck _ 1 0 (by decide +kernel)⟩

end Parsar.Scheduler
