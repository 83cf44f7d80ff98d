import Mathlib.Data.List.Induction
import Parsar.Framework.Pool
import Parsar.Scheduler.Worker

namespace Parsar.Scheduler

open GoStd

/-- What schedulers and users have done, as history: a claim, with the time for which the task was
due, the dispatch of a run, with the next time that it leaves in the row, and a next time that a
user has set. -/
inductive Entry where
  | claimed (worker taskID : Nat) (due now : Time)
  | fired (worker taskID runID : Nat) (next : Time)
  | scheduled (taskID : Nat)
  deriving DecidableEq

/-- The task that a scheduler has worked on. -/
def Entry.taskID : Entry → Option Nat
  | claimed _ taskID _ _ | fired _ taskID _ _ => some taskID
  | scheduled _ => none

structure Board where
  db : Tables := {}
  log : List Entry := []

structure Worker where
  opts : Options
  tick : Time := ⟨0⟩
  pending : List DueScheduledTask := []

inductive WorkerAction where
  | tick (now : Time) (locked : List Nat)
  /-- The loop takes up a task of the batch. -/
  | fire (k : Nat) (now : Time) (dispatches : Bool)
  | crash

def newWorker (opts : Options) : Worker := ⟨opts.withDefaults, ⟨0⟩, []⟩

def Board.fired (s : Board) (i : Nat) (due : DueScheduledTask)
    (r : Tables × Option FireScheduledTaskResult) : Board :=
  ⟨r.1, s.log ++ ((r.2.bind FireScheduledTaskResult.runID).bind (fun runID =>
    (r.1.task due.id).map (fun t => .fired i due.id runID t.nextRunAt))).toList⟩

def Worker.step (cron : Cron) (i : Nat) (s : Board) (w : Worker) :
    WorkerAction → Option (Board × Worker)
  | .tick now locked =>
    if w.pending = [] then
      let claimed := w.opts.claim s.db now locked
      some (⟨claimed.1, s.log ++ (w.opts.picked s.db now locked).map (fun t =>
          .claimed i t.id t.nextRunAt now)⟩, { w with tick := now, pending := claimed.2 })
    else none
  | .fire k now dispatches =>
    w.pending[k]?.map (fun due =>
      (s.fired i due (s.db.process cron w.tick due now dispatches),
        { w with pending := w.pending.eraseIdx k }))
  | .crash => some (s, { w with pending := [] })

def Change.schedules (db : Tables) : Change → Option Nat
  | .create .. => some db.tasks.length
  | .update taskID .. => some taskID
  | .delete _ | .runNow .. | .start _ | .finish .. => none

def Board.change (s : Board) (c : Change) : Option Board :=
  (s.db.change c).map (fun db => ⟨db, s.log ++ ((c.schedules s.db).map .scheduled).toList⟩)

abbrev Schedulers := Pool Board Worker

abbrev SchedulersAction := Pool.Action Options WorkerAction Change

def Schedulers.step (cron : Cron) : Schedulers → SchedulersAction → Option Schedulers :=
  Pool.step newWorker (Worker.step cron) Board.change

/-- Between two cron runs of a task the scheduler of the second has claimed the task, which was due
again: for the next time that the first has left in the row or a later one, unless a user has set
another. -/
def Reclaimed (log : List Entry) : Prop :=
  ∀ earlier j k r' next' between i r next after,
    log = earlier ++ .fired j k r' next' :: (between ++ .fired i k r next :: after) →
      ∃ due now, .claimed i k due now ∈ between ∧ due.nanos ≤ now.nanos ∧ now.nanos < next.nanos ∧
        (next'.nanos ≤ due.nanos ∨ .scheduled k ∈ between)

def Exclusive (p : Schedulers) : SchedulersAction → Prop
  | .run i (.tick now locked) => ∀ w ∈ p.threads[i]?, ∀ t ∈ w.opts.picked p.shared.db now locked,
    ∀ j u, j ≠ i → p.threads[j]? = some u → ∀ due ∈ u.pending, due.id ≠ t.id
  | .run _ (.fire ..) | .run _ .crash | .spawn _ | .env _ => True

/-- The next times that fires have set are over at `due`, unless a user has set another since. -/
def Passed (log : List Entry) (k : Nat) (due : Time) : Prop :=
  ∀ earlier j r next between, log = earlier ++ .fired j k r next :: between →
    next.nanos ≤ due.nanos ∨ .scheduled k ∈ between

def LastClaim (log : List Entry) (i k : Nat) (now : Time) : Prop :=
  ∃ before due after, log = before ++ .claimed i k due now :: after ∧ due.nanos ≤ now.nanos ∧
    Passed before k due ∧ ∀ e ∈ after, e.taskID ≠ some k

def Claimed (log : List Entry) : Prop :=
  ∀ before i k r next after, log = before ++ .fired i k r next :: after →
    ∃ now, LastClaim before i k now ∧ now.nanos < next.nanos

section Log

variable {log entries : List Entry} {i j k : Nat} {now next due : Time}

theorem Passed.append (h : Passed log k due)
    (hentries : ∀ i r next, .fired i k r next ∉ entries) : Passed (log ++ entries) k due := by
  intro earlier j r next between heq
  obtain ⟨rest, hlog, rfl⟩ | ⟨first, rfl, -⟩ := append_split heq
  · exact (h _ _ _ _ _ hlog).imp_right (List.mem_append_left _)
  · exact absurd (by simp) (hentries j r next)

theorem passed_scheduled (log : List Entry) (k : Nat) (due : Time) :
    Passed (log ++ [.scheduled k]) k due := by
  intro earlier j r next between heq
  obtain ⟨-, hsame, -⟩ | ⟨rest, rfl, -⟩ := append_singleton_split heq
  · cases hsame
  · exact .inr (by simp)

theorem Passed.fired (h : Passed log k next) (r : Nat) :
    Passed (log ++ [.fired i k r next]) k next := by
  intro earlier j q next' between heq
  obtain ⟨-, hsame, -⟩ | ⟨rest, rfl, hlog⟩ := append_singleton_split heq
  · cases hsame
    exact .inl le_rfl
  · exact (h _ _ _ _ _ hlog).imp_right (List.mem_append_left _)

theorem LastClaim.append (h : LastClaim log i k now) (hentries : ∀ e ∈ entries, e.taskID ≠ some k) :
    LastClaim (log ++ entries) i k now := by
  obtain ⟨before, due, after, rfl, hdue, hpassed, hafter⟩ := h
  refine ⟨before, due, after ++ entries, by simp, hdue, hpassed, ?_⟩
  intro e he
  rcases List.mem_append.1 he with he | he
  · exact hafter e he
  · exact hentries e he

/-- A fire of the task stands before the last claim. -/
theorem LastClaim.split (h : LastClaim log i k now) {earlier between : List Entry} {j r : Nat}
    (hlog : log = earlier ++ .fired j k r next :: between) : ∃ due,
      .claimed i k due now ∈ between ∧ due.nanos ≤ now.nanos ∧
        (next.nanos ≤ due.nanos ∨ .scheduled k ∈ between) := by
  obtain ⟨before, due, after, heq, hdue, hpassed, hafter⟩ := h
  obtain ⟨mid, -, rfl⟩ | ⟨-, hsame, -⟩ | ⟨mid, rfl, rfl⟩ := cons_split (heq.symm.trans hlog)
  · exact absurd rfl (hafter (.fired j k r next) (by simp))
  · cases hsame
  · exact ⟨due, by simp, hdue, (hpassed _ _ _ _ _ rfl).imp_right (List.mem_append_left _)⟩

theorem LastClaim.passed (h : LastClaim log i k now) (hnext : now.nanos ≤ next.nanos) :
    Passed log k next := by
  intro earlier j r next' between hlog
  obtain ⟨due, -, hdue, hover | hset⟩ := h.split hlog
  · exact .inl (hover.trans (hdue.trans hnext))
  · exact .inr hset

theorem LastClaim.worker_eq {now' : Time} (hi : LastClaim log i k now)
    (hj : LastClaim log j k now') : i = j := by
  obtain ⟨before, due, after, heq, -, -, hafter⟩ := hi
  obtain ⟨before', due', after', heq', -, -, hafter'⟩ := hj
  obtain ⟨mid, -, rfl⟩ | ⟨-, hsame, -⟩ | ⟨mid, -, rfl⟩ := cons_split (heq.symm.trans heq')
  · exact absurd rfl (hafter (.claimed j k due' now') (by simp))
  · cases hsame
    rfl
  · exact absurd rfl (hafter' (.claimed i k due now) (by simp))

theorem lastClaim_batch {batch : List ScheduledTask} (hnodup : (batch.map ScheduledTask.id).Nodup)
    (hdue : ∀ t ∈ batch, t.nextRunAt.nanos ≤ now.nanos ∧ Passed log t.id t.nextRunAt)
    {t : ScheduledTask} (ht : t ∈ batch) :
    LastClaim (log ++ batch.map (fun t => .claimed i t.id t.nextRunAt now)) i t.id now := by
  obtain ⟨first, rest, rfl⟩ := List.append_of_mem ht
  refine ⟨log ++ first.map (fun t => .claimed i t.id t.nextRunAt now), t.nextRunAt,
    rest.map (fun t => .claimed i t.id t.nextRunAt now), by simp, (hdue t ht).1,
    (hdue t ht).2.append (by simp), ?_⟩
  intro e he
  obtain ⟨u, hu, rfl⟩ := List.mem_map.1 he
  intro heq
  rw [List.map_append, List.map_cons] at hnodup
  have hcons := (List.nodup_append.1 hnodup).2.1
  exact (List.nodup_cons.1 hcons).1 (List.mem_map.2 ⟨u, hu, Option.some.inj heq⟩)

theorem Claimed.append (h : Claimed log) (hentries : ∀ i k r next, .fired i k r next ∉ entries) :
    Claimed (log ++ entries) := by
  intro before i k r next after heq
  obtain ⟨rest, hlog, -⟩ | ⟨first, rfl, -⟩ := append_split heq
  · exact h _ _ _ _ _ _ hlog
  · exact absurd (by simp) (hentries i k r next)

theorem Claimed.fired (h : Claimed log) (hclaim : LastClaim log i k now)
    (hnext : now.nanos < next.nanos) (r : Nat) : Claimed (log ++ [.fired i k r next]) := by
  intro before i' k' r' next' after heq
  obtain ⟨rfl, hsame, -⟩ | ⟨rest, -, hlog⟩ := append_singleton_split heq
  · cases hsame
    exact ⟨now, hclaim, hnext⟩
  · exact h _ _ _ _ _ _ hlog

theorem Claimed.reclaimed (h : Claimed log) : Reclaimed log := by
  intro earlier j k r' next' between i r next after hlog
  obtain ⟨now, hclaim, hnext⟩ := h (earlier ++ .fired j k r' next' :: between) i k r next after
    (by simp [hlog])
  obtain ⟨due, hmem, hdue, hover⟩ := hclaim.split rfl
  exact ⟨due, now, hmem, hdue, hnext, hover⟩

end Log

def TasksPassed (log : List Entry) (db : Tables) : Prop :=
  ∀ t ∈ db.tasks, Passed log t.id t.nextRunAt

theorem TasksPassed.put {log : List Entry} {db : Tables} (h : TasksPassed log db)
    {u : ScheduledTask} (hu : Passed log u.id u.nextRunAt) : TasksPassed log (db.put u) := by
  intro t ht
  obtain ⟨v, hv, rfl⟩ := List.mem_map.1 ht
  split_ifs
  · exact hu
  · exact h v hv

structure BoardOk (s : Board) : Prop where
  numbered : s.db.Numbered
  claimed : Claimed s.log
  passed : TasksPassed s.log s.db

structure WorkerOk (s : Board) (i : Nat) (w : Worker) : Prop where
  nodup : (w.pending.map DueScheduledTask.id).Nodup
  claims : ∀ due ∈ w.pending, LastClaim s.log i due.id w.tick

theorem Options.claim_snd (o : Options) (db : Tables) (now : Time) (locked : List Nat) :
    (o.claim db now locked).2 =
      (o.picked db now locked).map (fun t => ⟨t.id, t.cronExpr, t.timezone⟩) := rfl

theorem picked_due {o : Options} {db : Tables} {now : Time} {locked : List Nat} {t : ScheduledTask}
    (h : t ∈ o.picked db now locked) : t.nextRunAt.nanos ≤ now.nanos := by
  have hclaimable := (mem_picked h).2
  simp only [ScheduledTask.claimable, Bool.and_eq_true, decide_eq_true_eq] at hclaimable
  exact hclaimable.1.2

section Step

variable {cron : Cron} {p : Schedulers} {i : Nat} {w w' : Worker} {s' : Board}

theorem tick_ok (hp : Pool.Holds (fun s _ => BoardOk s) WorkerOk p) {now : Time} {locked : List Nat}
    (hexclusive : ∀ t ∈ w.opts.picked p.shared.db now locked, ∀ j u, j ≠ i →
      p.threads[j]? = some u → ∀ due ∈ u.pending, due.id ≠ t.id)
    (hstep : w.step cron i p.shared (.tick now locked) = some (s', w')) :
    BoardOk s' ∧ WorkerOk s' i w' ∧
      ∀ j u, j ≠ i → p.threads[j]? = some u → WorkerOk s' j u := by
  simp only [Worker.step] at hstep
  split_ifs at hstep with hidle
  cases hstep
  have hnodup := picked_nodup hp.shared.numbered now (now.add (-w.opts.claimStaleAfter))
    w.opts.claimedBy w.opts.claimBatch.toNat locked
  refine ⟨⟨hp.shared.numbered.claim w.opts now locked, hp.shared.claimed.append (by simp), ?_⟩,
    ⟨?_, ?_⟩, ?_⟩
  · intro u hu
    obtain ⟨t, ht, rfl⟩ := List.mem_map.1 hu
    have hpassed : Passed (p.shared.log ++ (w.opts.picked p.shared.db now locked).map (fun t =>
        .claimed i t.id t.nextRunAt now)) t.id t.nextRunAt :=
      (hp.shared.passed t ht).append (by simp)
    split_ifs <;> exact hpassed
  · rw [Options.claim_snd, List.map_map]
    exact hnodup
  · intro due hdue
    rw [Options.claim_snd] at hdue
    obtain ⟨t, ht, rfl⟩ := List.mem_map.1 hdue
    exact lastClaim_batch hnodup
      (fun t ht => ⟨picked_due ht, hp.shared.passed t (mem_picked ht).1⟩) ht
  · intro j u hj hu
    have hother := hp.threads j u hu
    refine ⟨hother.nodup, fun due hdue => (hother.claims due hdue).append ?_⟩
    intro e he
    obtain ⟨t, ht, rfl⟩ := List.mem_map.1 he
    exact fun heq => hexclusive t ht j u hj hu due hdue (Option.some.inj heq).symm

theorem fired_ok {s : Board} (hs : BoardOk s) {tick now : Time} {due : DueScheduledTask}
    (hclaim : LastClaim s.log i due.id tick) (dispatches : Bool) :
    BoardOk (s.fired i due (s.db.process cron tick due now dispatches)) := by
  cases hprocess : s.db.process cron tick due now dispatches with
  | mk db result =>
    have hnumbered := hs.numbered.process hprocess
    cases result with
    | none =>
      obtain rfl := process_none hprocess
      simpa [Board.fired] using hs
    | some result =>
      obtain ⟨next, hnext, hfire⟩ := process_some hprocess
      obtain ⟨t, ht, hfired⟩ := fireScheduledTaskRun_ok hfire
      obtain ⟨u, htasks, hu, rfl, -, -⟩ := hfired.row ht
      have hlt := cron.after _ _ _ _ hnext
      have hid := (task_some hu).2.1
      rw [← hid] at hclaim
      have hpassed := hclaim.passed hlt.le
      cases hrun : result.runID with
      | none =>
        have hlog : (s.fired i due (db, some result)).log = s.log := by simp [Board.fired, hrun]
        refine ⟨hnumbered, hlog ▸ hs.claimed, ?_⟩
        rw [hlog, TasksPassed, Board.fired, htasks]
        exact hs.passed.put hpassed
      | some r =>
        have hlog : (s.fired i due (db, some result)).log =
            s.log ++ [.fired i u.id r u.nextRunAt] := by
          simp [Board.fired, hrun, hu, hid]
        refine ⟨hnumbered, hlog ▸ hs.claimed.fired hclaim hlt r, ?_⟩
        rw [hlog, TasksPassed, Board.fired, htasks]
        intro v hv
        obtain ⟨x, hx, rfl⟩ := List.mem_map.1 hv
        split_ifs with hother
        · exact hpassed.fired r
        · exact (hs.passed x hx).append (by simp [hother])

theorem fire_ok (hp : Pool.Holds (fun s _ => BoardOk s) WorkerOk p) (hw : p.threads[i]? = some w)
    {k : Nat} {now : Time} {dispatches : Bool}
    (hstep : w.step cron i p.shared (.fire k now dispatches) = some (s', w')) :
    BoardOk s' ∧ WorkerOk s' i w' ∧
      ∀ j u, j ≠ i → p.threads[j]? = some u → WorkerOk s' j u := by
  obtain ⟨due, hdue, heq⟩ := Option.map_eq_some_iff.1 hstep
  cases heq
  have hself := hp.threads i w hw
  have hmem : due ∈ w.pending := List.mem_of_getElem? hdue
  have hclaim := hself.claims due hmem
  have hperm : (due :: w.pending.eraseIdx k).Perm w.pending := by
    obtain ⟨hk, rfl⟩ := List.getElem?_eq_some_iff.1 hdue
    exact ((List.perm_cons_erase hmem).trans ((List.erase_getElem hk).cons _)).symm
  -- the task that is taken up is not in the batch again
  obtain ⟨hgone, hnodup⟩ := List.nodup_cons.1
    ((hperm.map DueScheduledTask.id).nodup_iff.2 hself.nodup)
  have hkept {j : Nat} {d : DueScheduledTask} {tick : Time} (hd : d.id ≠ due.id)
      (h : LastClaim p.shared.log j d.id tick) : LastClaim (p.shared.fired i due
        (p.shared.db.process cron w.tick due now dispatches)).log j d.id tick := by
    refine h.append (fun e he => ?_)
    simp only [Option.mem_toList, Option.bind_eq_some_iff, Option.map_eq_some_iff] at he
    obtain ⟨-, -, -, -, rfl⟩ := he
    exact fun heq => hd (Option.some.inj heq).symm
  refine ⟨fired_ok hp.shared hclaim dispatches, ⟨hnodup, fun d hd => ?_⟩, fun j u hj hu => ?_⟩
  · exact hkept (fun heq => hgone (List.mem_map.2 ⟨d, hd, heq⟩))
      (hself.claims d ((List.eraseIdx_sublist _ _).subset hd))
  · have hother := hp.threads j u hu
    refine ⟨hother.nodup, fun d hd => hkept ?_ (hother.claims d hd)⟩
    intro heq
    exact hj ((hother.claims d hd).worker_eq (heq ▸ hclaim))

theorem change_ok {s t : Board} (hs : BoardOk s) {c : Change} (h : s.change c = some t) :
    BoardOk t := by
  obtain ⟨db, hdb, rfl⟩ := Option.map_eq_some_iff.1 h
  have hpassed : TasksPassed (s.log ++ ((c.schedules s.db).map .scheduled).toList) s.db :=
    fun t ht => (hs.passed t ht).append (by simp)
  refine ⟨hs.numbered.change hdb, hs.claimed.append (by simp), ?_⟩
  cases c with
  | create cronExpr timezone enabled nextRunAt =>
    cases hdb
    exact forall_mem_concat hpassed (passed_scheduled _ _ _)
  | update id cronExpr timezone enabled nextRunAt =>
    cases hdb
    split
    · exact hpassed
    next t ht =>
      refine hpassed.put ?_
      obtain ⟨-, rfl, -⟩ := task_some ht
      exact passed_scheduled _ _ _
  | delete id =>
    cases hdb
    split
    · exact hpassed
    next t ht => exact hpassed.put (hpassed t (task_some ht).1)
  | runNow id now dispatches =>
    cases hdb
    split
    · exact hpassed
    next db' runID hrun =>
      unfold Tables.runScheduledTaskNow at hrun
      split at hrun
      · cases hrun
      next t ht =>
        split_ifs at hrun
        cases hrun
        have hadded : TasksPassed _ (s.db.addRun id) := hpassed
        exact hadded.put (hpassed t (task_some ht).1)
  | start | finish =>
    simp only [Tables.change] at hdb
    split_ifs at hdb
    cases hdb
    exact hpassed

end Step

theorem schedulers_keep (cron : Cron) : Pool.Keeps newWorker
    (Worker.step cron) Board.change Exclusive
    (fun s _ => BoardOk s) WorkerOk where
  spawn := fun p opts _ hp => ⟨hp.shared, .nil, (fun due hdue => nomatch hdue)⟩
  run := by
    intro p i w a s' w' hok hp hw hstep
    cases a with
    | tick now locked => exact tick_ok hp (hok w hw) hstep
    | fire k now dispatches => exact fire_ok hp hw hstep
    | crash =>
      cases hstep
      exact ⟨hp.shared, ⟨.nil, (fun due hdue => nomatch hdue)⟩, fun j u _ hu => hp.threads j u hu⟩
  env := by
    intro p c s' _ hp hchange
    refine ⟨change_ok hp.shared hchange, fun j u hu => ⟨(hp.threads j u hu).nodup, ?_⟩⟩
    intro due hdue
    obtain ⟨db, -, rfl⟩ := Option.map_eq_some_iff.1 hchange
    exact ((hp.threads j u hu).claims due hdue).append (by simp [Entry.taskID])

/-- If no task of a claimed batch waits in another tick, every cron run of a task after the first
follows a new claim of its scheduler, for a later time. -/
theorem occurrence_fires_once (cron : Cron) (actions : List SchedulersAction) (p : Schedulers)
    (hok : StepsMeet (Schedulers.step cron) Exclusive ⟨{}, []⟩ actions)
    (hrun : runTrace (Schedulers.step cron) ⟨{}, []⟩ actions = some p) :
    Reclaimed p.shared.log := by
  have hempty : Claimed [] := by
    intro before i k r next after hlog
    simp at hlog
  exact ((schedulers_keep cron).run_holds hok hrun ⟨⟨rfl, hempty, fun t ht => nomatch ht⟩,
    (fun i w hw => nomatch hw)⟩).shared.claimed.reclaimed

instance : ∀ (p : Schedulers) (a : SchedulersAction), Decidable (Exclusive p a)
  | p, .run i (.tick now locked) => decidable_of_iff
      (∀ w ∈ p.threads[i]?, ∀ t ∈ w.opts.picked p.shared.db now locked,
        ∀ j < p.threads.length, j ≠ i → ∀ u ∈ p.threads[j]?, ∀ due ∈ u.pending, due.id ≠ t.id)
      ⟨fun h w hw t ht j u hj hu => h w hw t ht j (List.getElem?_eq_some_iff.1 hu).1 hj u hu,
        fun h w hw t ht j _ hj u hu => h w hw t ht j u hj hu⟩
  | _, .run _ (.fire ..) | _, .run _ .crash | _, .spawn _ | _, .env _ => .isTrue trivial

def createHourly : SchedulersAction := .env (.create "0 * * * *" "UTC" true ⟨10⟩)

def firedInTurn : List SchedulersAction :=
  [createHourly, .spawn { claimedBy := "a" }, .spawn { claimedBy := "b" }, .run 0 (.tick ⟨10⟩ []),
    .run 0 (.fire 0 ⟨11⟩ true), .env (.finish 0 .completed),
    .run 1 (.tick ⟨3600000000010⟩ []), .run 1 (.fire 0 ⟨3600000000011⟩ true)]

theorem occurrence_fires_once_turns : ∃ p,
    runTrace (Schedulers.step hourly) ⟨{}, []⟩ firedInTurn = some p ∧
    p.shared.log = [.scheduled 0, .claimed 0 0 ⟨10⟩ ⟨10⟩, .fired 0 0 0 ⟨3600000000010⟩,
      .claimed 1 0 ⟨3600000000010⟩ ⟨3600000000010⟩, .fired 1 0 1 ⟨7200000000010⟩] ∧
    Reclaimed p.shared.log := by
  have hrun : (runTrace (Schedulers.step hourly) ⟨{}, []⟩ firedInTurn).map (fun p =>
      decide (p.shared.log = [.scheduled 0, .claimed 0 0 ⟨10⟩ ⟨10⟩, .fired 0 0 0 ⟨3600000000010⟩,
        .claimed 1 0 ⟨3600000000010⟩ ⟨3600000000010⟩, .fired 1 0 1 ⟨7200000000010⟩])) =
      some true := by
    decide +kernel
  obtain ⟨p, hp, hcheck⟩ := exists_of_runTrace_map hrun
  have hok : StepsMeet (Schedulers.step hourly) Exclusive ⟨{}, []⟩ firedInTurn :=
    stepsMeet_of_check (by decide +kernel)
  exact ⟨p, hp, of_decide_eq_true hcheck, occurrence_fires_once hourly firedInTurn p hok hp⟩

def firedLate : List SchedulersAction :=
  [createHourly, .spawn { claimedBy := "a" }, .spawn { claimedBy := "b" }, .run 0 (.tick ⟨10⟩ []),
    .run 1 (.tick ⟨60000000011⟩ []), .run 1 (.fire 0 ⟨60000000012⟩ true),
    .env (.finish 0 .completed), .run 0 (.fire 0 ⟨60000000020⟩ true)]

theorem stale_claim_fires_again : ∃ p,
    runTrace (Schedulers.step hourly) ⟨{}, []⟩ firedLate = some p ∧
    p.shared.log = [.scheduled 0, .claimed 0 0 ⟨10⟩ ⟨10⟩, .claimed 1 0 ⟨10⟩ ⟨60000000011⟩,
      .fired 1 0 0 ⟨3660000000011⟩, .fired 0 0 1 ⟨3600000000010⟩] ∧ ¬Reclaimed p.shared.log := by
  have hrun : (runTrace (Schedulers.step hourly) ⟨{}, []⟩ firedLate).map (fun p =>
      decide (p.shared.log = [.scheduled 0, .claimed 0 0 ⟨10⟩ ⟨10⟩, .claimed 1 0 ⟨10⟩ ⟨60000000011⟩,
        .fired 1 0 0 ⟨3660000000011⟩, .fired 0 0 1 ⟨3600000000010⟩])) = some true := by
    decide +kernel
  obtain ⟨p, hp, hcheck⟩ := exists_of_runTrace_map hrun
  have hlog := of_decide_eq_true hcheck
  refine ⟨p, hp, hlog, fun hreclaimed => ?_⟩
  rw [hlog] at hreclaimed
  obtain ⟨due, now, hmem, -⟩ := hreclaimed
    [.scheduled 0, .claimed 0 0 ⟨10⟩ ⟨10⟩, .claimed 1 0 ⟨10⟩ ⟨60000000011⟩] 1 0 0 ⟨3660000000011⟩ []
    0 1 ⟨3600000000010⟩ [] rfl
  cases hmem

end Parsar.Scheduler
