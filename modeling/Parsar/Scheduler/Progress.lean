import Mathlib.Data.Finset.Card
import Parsar.Framework.Progress
import Parsar.Scheduler.Worker

namespace Parsar.Scheduler

open GoStd

def Change.ofRuns : Change → Bool
  | runNow .. | start _ | finish .. => true
  | create .. | update .. | delete _ => false

def Tables.apply (db : Tables) (changes : List Change) : Tables :=
  changes.foldl (fun db c => (db.change c).getD db) db

/-- What a tick meets: its clock, the runs before each fire, the dispatches, and the order of the
batch. -/
structure Round where
  now : Time
  between : List Change
  during : Nat → List Change
  stamp : Nat → Time
  dispatches : Nat → Bool
  arrange : List DueScheduledTask → List DueScheduledTask
  arranged : ∀ batch, (arrange batch).Perm batch
  between_ofRuns : ∀ c ∈ between, c.ofRuns = true
  during_ofRuns : ∀ id, ∀ c ∈ during id, c.ofRuns = true

def Round.loop (r : Round) (cron : Cron) :
    Tables → List DueScheduledTask → Tables × List (Nat × FireScheduledTaskResult)
  | db, [] => (db, [])
  | db, due :: rest =>
    let one := (db.apply (r.during due.id)).process cron r.now due (r.stamp due.id)
      (r.dispatches due.id)
    let others := r.loop cron one.1 rest
    (others.1, (one.2.map (fun result => (due.id, result))).toList ++ others.2)

def Options.tick (o : Options) (cron : Cron) (db : Tables) (r : Round) :
    Tables × List (Nat × FireScheduledTaskResult) :=
  let claimed := o.claim (db.apply r.between) r.now []
  r.loop cron claimed.1 (r.arrange claimed.2)

def Options.tables (o : Options) (cron : Cron) (rounds : Nat → Round) (db : Tables) : Nat → Tables
  | 0 => db
  | k + 1 => (o.tick cron (o.tables cron rounds db k) (rounds k)).1

def Options.processed (o : Options) (cron : Cron) (rounds : Nat → Round) (db : Tables) (k : Nat) :
    List (Nat × FireScheduledTaskResult) :=
  (o.tick cron (o.tables cron rounds db k) (rounds k)).2

/-- The task has been fired, skipped for overlap or disabled; the run of a fire is in the tables, as
`Fired.row` says. -/
def FireScheduledTaskResult.settles (result : FireScheduledTaskResult) : Prop :=
  result.runID.isSome = true ∨ result.skipReason = "self_overlap" ∨ result.disabled = true

def Works (cron : Cron) (rounds : Nat → Round) (t : ScheduledTask) : Prop :=
  ∀ k, (cron.next t.cronExpr t.timezone (rounds k).now).isSome = true ∧
    (rounds k).dispatches t.id = true

structure Slot where
  cronExpr : String
  timezone : String
  enabled : Bool
  deleted : Bool
  nextRunAt : Time
  claimedAt : Option Time
  claimedBy : String
  deriving DecidableEq

def ScheduledTask.slot (t : ScheduledTask) : Slot :=
  ⟨t.cronExpr, t.timezone, t.enabled, t.deleted, t.nextRunAt, t.claimedAt, t.claimedBy⟩

def Tables.slot (db : Tables) (id : Nat) : Option Slot := db.tasks[id]?.map ScheduledTask.slot

def Slot.fired (s : Slot) (enabled : Bool) (nextRunAt : Time) : Slot :=
  { s with enabled := enabled, nextRunAt := nextRunAt, claimedAt := none, claimedBy := "" }

structure Slot.Descends (s s' : Slot) : Prop where
  cronExpr : s'.cronExpr = s.cronExpr
  timezone : s'.timezone = s.timezone
  deleted : s'.deleted = s.deleted
  enabled : s'.enabled = true → s.enabled = true

structure Slot.Moves (now : Time) (s s' : Slot) : Prop extends s.Descends s' where
  nextRunAt : s'.nextRunAt = s.nextRunAt ∨ now.nanos < s'.nextRunAt.nanos

theorem Slot.Descends.refl (s : Slot) : s.Descends s := ⟨rfl, rfl, rfl, id⟩

theorem Slot.Descends.trans {s t u : Slot} (hst : s.Descends t) (htu : t.Descends u) :
    s.Descends u where
  cronExpr := htu.cronExpr.trans hst.cronExpr
  timezone := htu.timezone.trans hst.timezone
  deleted := htu.deleted.trans hst.deleted
  enabled := hst.enabled ∘ htu.enabled

theorem Slot.Moves.refl (now : Time) (s : Slot) : s.Moves now s := ⟨.refl s, .inl rfl⟩

theorem Slot.Moves.trans {now : Time} {s t u : Slot} (hst : s.Moves now t) (htu : t.Moves now u) :
    s.Moves now u where
  toDescends := hst.toDescends.trans htu.toDescends
  nextRunAt := by
    rcases htu.nextRunAt with hu | hu
    · rw [hu]
      exact hst.nextRunAt
    · exact .inr hu

section Rows

variable {db : Tables}

variable (h : db.Numbered)

include h

theorem Tables.Numbered.row {k : Nat} {t : ScheduledTask} (ht : db.tasks[k]? = some t) :
    t.id = k := by
  have hmap : (db.tasks.map ScheduledTask.id)[k]? = some t.id := by
    rw [List.getElem?_map, ht]
    rfl
  rw [h, List.getElem?_eq_some_iff] at hmap
  obtain ⟨hk, heq⟩ := hmap
  rw [List.getElem_range] at heq
  exact heq.symm

theorem Tables.Numbered.mem {t : ScheduledTask} (ht : t ∈ db.tasks) : db.tasks[t.id]? = some t := by
  obtain ⟨k, hk⟩ := List.mem_iff_getElem?.1 ht
  rw [h.row hk]
  exact hk

theorem Tables.Numbered.slot_mem {t : ScheduledTask} (ht : t ∈ db.tasks) :
    db.slot t.id = some t.slot := by
  rw [Tables.slot, h.mem ht]
  rfl

theorem Tables.Numbered.task {id : Nat} {s : Slot} (hs : db.slot id = some s)
    (hdeleted : s.deleted = false) : ∃ t, db.task id = some t ∧ t.slot = s := by
  obtain ⟨t, ht, rfl⟩ := Option.map_eq_some_iff.1 hs
  have hid := h.row ht
  have hsome : (db.task id).isSome = true := by
    rw [Tables.task, List.find?_isSome]
    refine ⟨t, List.mem_of_getElem? ht, ?_⟩
    have hkept : t.deleted = false := hdeleted
    simp [hid, hkept]
  obtain ⟨u, hu⟩ := Option.isSome_iff_exists.1 hsome
  obtain ⟨hmem, huid, -⟩ := task_some hu
  have hrow := h.mem hmem
  rw [huid, ht] at hrow
  cases hrow
  exact ⟨t, hu, rfl⟩

theorem put_slot {t u : ScheduledTask} (hu : db.task t.id = some u) (k : Nat) :
    (db.put t).slot k = if k = t.id then some t.slot else db.slot k := by
  obtain ⟨hmem, hid, -⟩ := task_some hu
  rw [Tables.slot, Tables.put, List.getElem?_map]
  split_ifs with hk
  · have hrow := h.mem hmem
    rw [hid] at hrow
    rw [hk, hrow, Option.map_some, if_pos hid]
    rfl
  · rw [Tables.slot]
    cases hrow : db.tasks[k]? with
    | none => rfl
    | some v =>
      have hv : v.id ≠ t.id := by
        rw [h.row hrow]
        exact hk
      rw [Option.map_some, if_neg hv]

theorem change_slot {c : Change} (hc : c.ofRuns = true) {db' : Tables}
    (hchange : db.change c = some db') (k : Nat) : db'.slot k = db.slot k := by
  cases c with
  | create | update | delete => cases hc
  | runNow id now dispatches =>
    cases hchange
    split
    · rfl
    next db' runID hrun =>
      unfold Tables.runScheduledTaskNow at hrun
      split at hrun
      · cases hrun
      next t ht =>
        split_ifs at hrun
        cases hrun
        obtain ⟨hmem, hid, -⟩ := task_some ht
        have hadded : (db.addRun id).Numbered := h
        have htask : (db.addRun id).task (t.markRunNow db.runs.length now).id = some t := by
          rw [show (t.markRunNow db.runs.length now).id = id from hid]
          exact ht
        rw [put_slot hadded htask]
        split_ifs with hk
        · rw [hk]
          exact (h.slot_mem hmem).symm
        · rfl
  | start | finish =>
    simp only [Tables.change] at hchange
    split_ifs at hchange
    cases hchange
    rfl

theorem apply_slot {changes : List Change} (hchanges : ∀ c ∈ changes, c.ofRuns = true) :
    (db.apply changes).Numbered ∧ ∀ k, (db.apply changes).slot k = db.slot k := by
  induction changes generalizing db with
  | nil => exact ⟨h, fun _ => rfl⟩
  | cons c changes ih =>
    have hrest := fun c' hc' => hchanges c' (List.mem_cons_of_mem _ hc')
    rw [Tables.apply, List.foldl_cons]
    cases hchange : db.change c with
    | none => exact ih h hrest
    | some db' =>
      obtain ⟨hnumbered, hslot⟩ := ih (h.change hchange) hrest
      refine ⟨hnumbered, fun k => (hslot k).trans ?_⟩
      exact change_slot h (hchanges c List.mem_cons_self) hchange k

theorem fire_slot {id : Nat} {nextRunAt now : Time} {dispatches : Bool} {db' : Tables}
    {result : FireScheduledTaskResult}
    (hfire : db.fireScheduledTaskRun id nextRunAt now dispatches = .ok (db', result)) :
    ∃ s enabled, db.slot id = some s ∧ (enabled = true → s.enabled = true) ∧
      (s.enabled = true → result.settles) ∧
      ∀ k, db'.slot k = if k = id then some (s.fired enabled nextRunAt) else db.slot k := by
  obtain ⟨t, ht, hfired⟩ := fireScheduledTaskRun_ok hfire
  obtain ⟨hmem, rfl, -⟩ := task_some ht
  refine ⟨t.slot, ?_⟩
  cases hfired with
  | disabled hoff =>
    refine ⟨t.enabled, h.slot_mem hmem, id, fun hon => ?_, put_slot h (by exact ht)⟩
    rw [show t.slot.enabled = t.enabled from rfl, hoff] at hon
    cases hon
  | overlap =>
    exact ⟨t.enabled, h.slot_mem hmem, id, fun _ => .inr (.inl rfl), put_slot h (by exact ht)⟩
  | tripped =>
    exact ⟨false, h.slot_mem hmem, nofun, fun _ => .inr (.inr rfl), put_slot h (by exact ht)⟩
  | dispatched =>
    have hadded : (db.addRun t.id).Numbered := h
    exact ⟨t.enabled, h.slot_mem hmem, id, fun _ => .inl rfl, put_slot hadded (by exact ht)⟩

theorem fire_commits {id : Nat} {s : Slot} (hs : db.slot id = some s) (hdeleted : s.deleted = false)
    (nextRunAt now : Time) :
    ∃ db' result, db.fireScheduledTaskRun id nextRunAt now true = .ok (db', result) := by
  obtain ⟨t, ht, -⟩ := h.task hs hdeleted
  rw [fireScheduledTaskRun_eq ht]
  split_ifs
  · exact ⟨_, _, rfl⟩
  · exact ⟨_, _, rfl⟩
  · exact ⟨_, _, rfl⟩
  · exact ⟨_, _, rfl⟩
  · contradiction

end Rows

/-- Of the slots only those of the given tasks have moved. -/
structure Tables.Kept (now : Time) (ids : List Nat) (db db' : Tables) : Prop where
  numbered : db'.Numbered
  others : ∀ k, k ∉ ids → db'.slot k = db.slot k
  moves : ∀ k s', db'.slot k = some s' → ∃ s, db.slot k = some s ∧ s.Moves now s'

namespace Tables.Kept

variable {now : Time} {ids : List Nat} {db db' db'' : Tables}

theorem of_slots (hnumbered : db'.Numbered) (hslot : ∀ k, db'.slot k = db.slot k) :
    Kept now ids db db' where
  numbered := hnumbered
  others := fun k _ => hslot k
  moves := fun k s' hs' => ⟨s', hslot k ▸ hs', .refl now s'⟩

theorem trans (h : Kept now ids db db') (h' : Kept now ids db' db'') : Kept now ids db db'' where
  numbered := h'.numbered
  others := fun k hk => (h'.others k hk).trans (h.others k hk)
  moves := by
    intro k u hu
    obtain ⟨t, ht, htu⟩ := h'.moves k u hu
    obtain ⟨s, hs, hst⟩ := h.moves k t ht
    exact ⟨s, hs, hst.trans htu⟩

theorem mono {ids' : List Nat} (h : Kept now ids db db') (hids : ∀ k ∈ ids, k ∈ ids') :
    Kept now ids' db db' where
  numbered := h.numbered
  others := fun k hk => h.others k (fun hmem => hk (hids k hmem))
  moves := h.moves

theorem of_write {id : Nat} {s s' : Slot} (hnumbered : db'.Numbered) (hs : db.slot id = some s)
    (hmoves : s.Moves now s')
    (hslot : ∀ k, db'.slot k = if k = id then some s' else db.slot k) : Kept now [id] db db' where
  numbered := hnumbered
  others := by
    intro k hk
    rw [hslot, if_neg (by simpa using hk)]
  moves := by
    intro k u hu
    rw [hslot] at hu
    split_ifs at hu with hk
    · cases hu
      exact ⟨s, hk ▸ hs, hmoves⟩
    · exact ⟨u, hu, .refl now u⟩

end Tables.Kept

theorem process_kept {db : Tables} (h : db.Numbered) (cron : Cron) (tick : Time)
    (due : DueScheduledTask) (now : Time) (dispatches : Bool) :
    Tables.Kept tick [due.id] db (db.process cron tick due now dispatches).1 := by
  cases hprocess : db.process cron tick due now dispatches with
  | mk db' result =>
    cases result with
    | none =>
      rw [process_none hprocess]
      exact .of_slots h (fun _ => rfl)
    | some result =>
      obtain ⟨next, hnext, hfire⟩ := process_some hprocess
      obtain ⟨s, enabled, hs, henabled, -, hslot⟩ := fire_slot h hfire
      have hmoves : s.Moves tick (s.fired enabled next) :=
        ⟨⟨rfl, rfl, rfl, henabled⟩, .inr (cron.after _ _ _ _ hnext)⟩
      exact .of_write (h.fire hfire) hs hmoves hslot

section Loop

variable {cron : Cron} {r : Round} {db : Tables} {due : DueScheduledTask} {s : Slot}

theorem process_works (h : db.Numbered) {tick next : Time} (now : Time) {dispatches : Bool}
    (hs : db.slot due.id = some s) (hdeleted : s.deleted = false) (henabled : s.enabled = true)
    (hnext : cron.next due.cronExpr due.timezone tick = some next)
    (hdispatches : dispatches = true) :
    ∃ result s', (db.process cron tick due now dispatches).2 = some result ∧ result.settles ∧
      (db.process cron tick due now dispatches).1.slot due.id = some s' ∧ s'.nextRunAt = next := by
  obtain ⟨db', result, hfire⟩ := fire_commits h hs hdeleted next now
  obtain ⟨t, enabled, ht, -, hsettles, hslot⟩ := fire_slot h hfire
  rw [hs] at ht
  cases ht
  have hprocess : db.process cron tick due now dispatches = (db', some result) := by
    rw [Tables.process, hnext, hdispatches]
    simp only [hfire]
  rw [hprocess]
  exact ⟨result, s.fired enabled next, rfl, hsettles henabled, (hslot _).trans (if_pos rfl), rfl⟩

theorem loop_kept (cron : Cron) (r : Round) (h : db.Numbered) (batch : List DueScheduledTask) :
    Tables.Kept r.now (batch.map DueScheduledTask.id) db (r.loop cron db batch).1 := by
  induction batch generalizing db with
  | nil => exact .of_slots h (fun _ => rfl)
  | cons due rest ih =>
    obtain ⟨hnumbered, hslot⟩ := apply_slot h (r.during_ofRuns due.id)
    have hone := process_kept hnumbered cron r.now due (r.stamp due.id) (r.dispatches due.id)
    have hrest := ih hone.numbered
    refine (Tables.Kept.of_slots hnumbered hslot).trans ((hone.mono ?_).trans (hrest.mono ?_))
    · intro k hk
      rw [List.mem_singleton.1 hk]
      exact List.mem_cons_self
    · exact fun k hk => List.mem_cons_of_mem _ hk

theorem loop_works (h : db.Numbered) {batch : List DueScheduledTask} {next : Time}
    (hnodup : (batch.map DueScheduledTask.id).Nodup) (hdue : due ∈ batch)
    (hs : db.slot due.id = some s) (hdeleted : s.deleted = false) (henabled : s.enabled = true)
    (hnext : cron.next due.cronExpr due.timezone r.now = some next)
    (hdispatches : r.dispatches due.id = true) :
    ∃ result s', (due.id, result) ∈ (r.loop cron db batch).2 ∧ result.settles ∧
      (r.loop cron db batch).1.slot due.id = some s' ∧ s'.nextRunAt = next := by
  induction batch generalizing db with
  | nil => cases hdue
  | cons d rest ih =>
    obtain ⟨hgone, hrest⟩ := List.nodup_cons.1 hnodup
    obtain ⟨hnumbered, hslot⟩ := apply_slot h (r.during_ofRuns d.id)
    have hone := process_kept hnumbered cron r.now d (r.stamp d.id) (r.dispatches d.id)
    simp only [Round.loop]
    rcases List.mem_cons.1 hdue with rfl | hdue
    · obtain ⟨result, s', hresult, hsettles, hs', hat⟩ :=
        process_works hnumbered (r.stamp due.id) ((hslot _).trans hs) hdeleted henabled hnext
          hdispatches
      refine ⟨result, s', ?_, hsettles, ?_, hat⟩
      · rw [hresult]
        exact List.mem_cons_self
      · rw [(loop_kept cron r hone.numbered rest).others _ hgone]
        exact hs'
    · have hne : due.id ∉ [d.id] := by
        intro hmem
        rw [← List.mem_singleton.1 hmem] at hgone
        exact hgone (List.mem_map_of_mem hdue)
      obtain ⟨result, s', hmem, hfound⟩ := ih hone.numbered hrest hdue
        ((hone.others _ hne).trans ((hslot _).trans hs))
      exact ⟨result, s', List.mem_append_right _ hmem, hfound⟩

end Loop

theorem claim_slot (o : Options) (db : Tables) (now : Time) (k : Nat) :
    (o.claim db now []).1.slot k = db.tasks[k]?.map (fun t =>
      if t.id ∈ (o.picked db now []).map ScheduledTask.id then (t.claim now o.claimedBy).slot
      else t.slot) := by
  rw [Tables.slot, Options.claim, Tables.claimDueScheduledTasks, List.getElem?_map, Option.map_map]
  congr 1
  funext t
  exact apply_ite ScheduledTask.slot _ _ _

theorem claim_kept {db : Tables} (h : db.Numbered) (o : Options) (now : Time) :
    Tables.Kept now ((o.picked db now []).map ScheduledTask.id) db (o.claim db now []).1 := by
  refine ⟨h.claim o now [], ?_, ?_⟩
  · intro k hk
    rw [claim_slot, Tables.slot]
    refine Option.map_congr (fun t ht => ?_)
    rw [if_neg]
    rw [h.row ht]
    exact hk
  · intro k s' hs'
    rw [claim_slot] at hs'
    obtain ⟨t, ht, rfl⟩ := Option.map_eq_some_iff.1 hs'
    refine ⟨t.slot, by rw [Tables.slot, ht]; rfl, ?_⟩
    split_ifs
    · exact ⟨⟨rfl, rfl, rfl, id⟩, .inl rfl⟩
    · exact .refl now _

def Options.batch (o : Options) (db : Tables) (r : Round) : List ScheduledTask :=
  o.picked (db.apply r.between) r.now []

section Tick

variable {o : Options} {cron : Cron} {db : Tables} {r : Round} {t : ScheduledTask}

theorem mem_batch (h : db.Numbered) (ht : t ∈ o.batch db r) :
    db.slot t.id = some t.slot ∧ t.enabled = true ∧ t.deleted = false := by
  obtain ⟨hmem, hclaimable⟩ := mem_picked ht
  obtain ⟨hnumbered, hslot⟩ := apply_slot h r.between_ofRuns
  rw [← hslot]
  simp only [ScheduledTask.claimable, Bool.and_eq_true, Bool.not_eq_true'] at hclaimable
  exact ⟨hnumbered.slot_mem hmem, hclaimable.1.1.1, hclaimable.1.1.2⟩

theorem batch_nodup (h : db.Numbered) : ((o.batch db r).map ScheduledTask.id).Nodup :=
  picked_nodup (apply_slot h r.between_ofRuns).1 _ _ _ _ _

theorem arrange_ids (o : Options) (db : Tables) (r : Round) :
    ((r.arrange (o.claim (db.apply r.between) r.now []).2).map DueScheduledTask.id).Perm
      ((o.batch db r).map ScheduledTask.id) := by
  have hperm := (r.arranged (o.claim (db.apply r.between) r.now []).2).map DueScheduledTask.id
  have hids : (o.claim (db.apply r.between) r.now []).2.map DueScheduledTask.id =
      (o.batch db r).map ScheduledTask.id := by
    rw [Options.claim, Tables.claimDueScheduledTasks, List.map_map]
    rfl
  rw [hids] at hperm
  exact hperm

theorem tick_kept (o : Options) (cron : Cron) (r : Round) (h : db.Numbered) :
    Tables.Kept r.now ((o.batch db r).map ScheduledTask.id) db (o.tick cron db r).1 := by
  obtain ⟨hnumbered, hslot⟩ := apply_slot h r.between_ofRuns
  have hclaim := claim_kept hnumbered o r.now
  have hloop := loop_kept cron r hclaim.numbered
    (r.arrange (o.claim (db.apply r.between) r.now []).2)
  refine (Tables.Kept.of_slots hnumbered hslot).trans (hclaim.trans (hloop.mono ?_))
  exact fun k hk => (arrange_ids o db r).mem_iff.1 hk

theorem tick_works (h : db.Numbered) (ht : t ∈ o.batch db r)
    (hnext : (cron.next t.cronExpr t.timezone r.now).isSome = true)
    (hdispatches : r.dispatches t.id = true) :
    ∃ result s', (t.id, result) ∈ (o.tick cron db r).2 ∧ result.settles ∧
      (o.tick cron db r).1.slot t.id = some s' ∧ r.now.nanos < s'.nextRunAt.nanos := by
  obtain ⟨next, hnext⟩ := Option.isSome_iff_exists.1 hnext
  obtain ⟨hnumbered, hslot⟩ := apply_slot h r.between_ofRuns
  obtain ⟨hs, henabled, hdeleted⟩ := mem_batch h ht
  have hclaim := claim_kept hnumbered o r.now
  -- the claim writes the slot, but neither its cron nor its flags
  have hclaimed : (o.claim (db.apply r.between) r.now []).1.slot t.id =
      some (t.claim r.now o.claimedBy).slot := by
    rw [claim_slot, hnumbered.mem (mem_picked ht).1, Option.map_some]
    exact congrArg some (if_pos (List.mem_map_of_mem ht))
  have hdue : (⟨t.id, t.cronExpr, t.timezone⟩ : DueScheduledTask) ∈
      r.arrange (o.claim (db.apply r.between) r.now []).2 := by
    rw [(r.arranged _).mem_iff]
    exact List.mem_map.2 ⟨t, ht, rfl⟩
  have hnodup := (arrange_ids o db r).nodup_iff.2 (batch_nodup h)
  obtain ⟨result, s', hmem, hsettles, hs', hat⟩ :=
    loop_works hclaim.numbered hnodup hdue hclaimed hdeleted henabled hnext hdispatches
  exact ⟨result, s', hmem, hsettles, hs', hat ▸ cron.after _ _ _ _ hnext⟩

theorem batch_full {s : Slot} {id : Nat} (h : db.Numbered) (hs : db.slot id = some s)
    (henabled : s.enabled = true) (hdeleted : s.deleted = false)
    (hdue : s.nextRunAt.nanos ≤ r.now.nanos)
    (hfree : ∀ c ∈ s.claimedAt, c.nanos < r.now.nanos - o.claimStaleAfter)
    (hout : id ∉ (o.batch db r).map ScheduledTask.id) :
    (o.batch db r).length = o.claimBatch.toNat ∧
      ∀ t ∈ o.batch db r, t.nextRunAt.nanos ≤ s.nextRunAt.nanos := by
  obtain ⟨hnumbered, hslot⟩ := apply_slot h r.between_ofRuns
  rw [← hslot] at hs
  obtain ⟨t, ht, rfl⟩ := Option.map_eq_some_iff.1 hs
  have hid := hnumbered.row ht
  have hclaimable : t.claimable r.now (r.now.add (-o.claimStaleAfter)) o.claimedBy = true := by
    have hstale : t.claimedAt.all (fun c =>
        decide (c.nanos < (r.now.add (-o.claimStaleAfter)).nanos)) = true := by
      rw [Option.all_eq_true]
      intro c hc
      rw [decide_eq_true_eq, Time.add]
      exact hfree c hc
    have hrow : t.enabled = true ∧ t.deleted = false ∧ t.nextRunAt.nanos ≤ r.now.nanos :=
      ⟨henabled, hdeleted, hdue⟩
    simp [ScheduledTask.claimable, hrow.1, hrow.2.1, hrow.2.2, hstale]
  let rows := ((db.apply r.between).tasks.filter (fun t =>
    t.claimable r.now (r.now.add (-o.claimStaleAfter)) o.claimedBy &&
      t.id ∉ ([] : List Nat))).insertionSort Tables.sooner
  have hbatch : o.batch db r = rows.take o.claimBatch.toNat := rfl
  have hsorted : rows.Pairwise Tables.sooner := by
    have : IsTrans ScheduledTask Tables.sooner := ⟨fun _ _ _ => Int.le_trans⟩
    have : Std.Total Tables.sooner := ⟨fun _ _ => Int.le_total _ _⟩
    exact List.pairwise_insertionSort _ _
  have hmem : t ∈ rows := by
    rw [List.mem_insertionSort, List.mem_filter]
    exact ⟨List.mem_of_getElem? ht, by simp [hclaimable]⟩
  have hlate : t ∈ rows.drop o.claimBatch.toNat := by
    rw [← List.take_append_drop o.claimBatch.toNat rows, List.mem_append] at hmem
    refine hmem.resolve_left (fun hin => hout ?_)
    rw [hbatch, ← hid]
    exact List.mem_map_of_mem hin
  constructor
  · have hpos := List.length_pos_of_mem hlate
    rw [List.length_drop] at hpos
    rw [hbatch, List.length_take]
    omega
  · intro u hu
    rw [← List.take_append_drop o.claimBatch.toNat rows, List.pairwise_append] at hsorted
    exact hsorted.2.2 u hu t hlate

end Tick

def Tables.ahead (db : Tables) (ids : Nat) (by' : Time) : Finset Nat :=
  (Finset.range ids).filter (fun id => (db.slot id).any (fun s =>
    s.enabled && !s.deleted && decide (s.nextRunAt.nanos ≤ by'.nanos)))

theorem mem_ahead {db : Tables} {ids id : Nat} {by' : Time} : id ∈ db.ahead ids by' ↔ id < ids ∧
    ∃ s, db.slot id = some s ∧ s.enabled = true ∧ s.deleted = false ∧
      s.nextRunAt.nanos ≤ by'.nanos := by
  simp [Tables.ahead, Option.any_eq_true, and_assoc]

theorem ahead_subset {db db' : Tables} {now by' : Time} {moved : List Nat}
    (h : db.Kept now moved db') (hnow : by'.nanos ≤ now.nanos) (ids : Nat) :
    db'.ahead ids by' ⊆ db.ahead ids by' := by
  intro id hid
  obtain ⟨hlt, s', hs', henabled, hdeleted, hat⟩ := mem_ahead.1 hid
  obtain ⟨s, hs, hmoves⟩ := h.moves id s' hs'
  refine mem_ahead.2 ⟨hlt, s, hs, hmoves.enabled henabled, hmoves.deleted ▸ hdeleted, ?_⟩
  rcases hmoves.nextRunAt with hsame | hlater
  · exact hsame ▸ hat
  · omega

section Run

variable {o : Options} {cron : Cron} {rounds : Nat → Round} {db : Tables} {fails : Nat → Bool}

theorem tables_descend (o : Options) (cron : Cron) (rounds : Nat → Round) (h : db.Numbered)
    (k : Nat) : (o.tables cron rounds db k).Numbered ∧
    ∀ id s', (o.tables cron rounds db k).slot id = some s' →
      ∃ s, db.slot id = some s ∧ s.Descends s' := by
  induction k with
  | zero => exact ⟨h, fun _ s' hs' => ⟨s', hs', .refl s'⟩⟩
  | succ k ih =>
    have hkept := tick_kept o cron (rounds k) ih.1
    refine ⟨hkept.numbered, fun id s' hs' => ?_⟩
    obtain ⟨t, ht, hmoves⟩ := hkept.moves id s' hs'
    obtain ⟨s, hs, hdescends⟩ := ih.2 id t ht
    exact ⟨s, hs, hdescends.trans hmoves.toDescends⟩

theorem batch_origin (h : db.Numbered) {k : Nat} {t : ScheduledTask}
    (ht : t ∈ o.batch (o.tables cron rounds db k) (rounds k)) :
    ∃ u ∈ db.tasks, u.id = t.id ∧ u.enabled = true ∧ u.deleted = false ∧
      u.cronExpr = t.cronExpr ∧ u.timezone = t.timezone := by
  obtain ⟨hnumbered, hdescend⟩ := tables_descend o cron rounds h k
  obtain ⟨hs, henabled, hdeleted⟩ := mem_batch hnumbered ht
  obtain ⟨s, hs, hdescends⟩ := hdescend t.id t.slot hs
  obtain ⟨u, hu, rfl⟩ := Option.map_eq_some_iff.1 hs
  exact ⟨u, List.mem_of_getElem? hu, h.row hu, hdescends.enabled henabled,
    hdescends.deleted.symm.trans hdeleted, hdescends.cronExpr.symm, hdescends.timezone.symm⟩

theorem batch_works (h : db.Numbered)
    (hworks : ∀ t ∈ db.tasks, fails t.id = false → Works cron rounds t) {k : Nat}
    {t : ScheduledTask} (ht : t ∈ o.batch (o.tables cron rounds db k) (rounds k))
    (hfails : fails t.id = false) :
    ∃ result s', (t.id, result) ∈ o.processed cron rounds db k ∧ result.settles ∧
      (o.tables cron rounds db (k + 1)).slot t.id = some s' ∧
      (rounds k).now.nanos < s'.nextRunAt.nanos := by
  obtain ⟨u, hu, hid, -, -, hcron, hzone⟩ := batch_origin h ht
  obtain ⟨hnext, hdispatches⟩ := hworks u hu (hid ▸ hfails) k
  rw [hcron, hzone] at hnext
  rw [hid] at hdispatches
  exact tick_works (tables_descend o cron rounds h k).1 ht hnext hdispatches

theorem exists_working (h : db.Numbered)
    (hfew : (db.tasks.filter (fun t => t.enabled && !t.deleted && fails t.id)).length <
      o.claimBatch.toNat) {k : Nat}
    (hfull : (o.batch (o.tables cron rounds db k) (rounds k)).length = o.claimBatch.toNat) :
    ∃ t ∈ o.batch (o.tables cron rounds db k) (rounds k), fails t.id = false := by
  by_contra hnone
  push Not at hnone
  have hsubset : (o.batch (o.tables cron rounds db k) (rounds k)).map ScheduledTask.id ⊆
      (db.tasks.filter (fun t => t.enabled && !t.deleted && fails t.id)).map ScheduledTask.id := by
    intro id hid
    obtain ⟨t, ht, rfl⟩ := List.mem_map.1 hid
    obtain ⟨u, hu, huid, henabled, hdeleted, -, -⟩ := batch_origin h ht
    have hfails : fails u.id = true := huid ▸ by simpa using hnone t ht
    refine List.mem_map.2 ⟨u, List.mem_filter.2 ⟨hu, ?_⟩, huid⟩
    simp [henabled, hdeleted, hfails]
  have hle := ((batch_nodup (tables_descend o cron rounds h k).1).subperm hsubset).length_le
  rw [List.length_map, List.length_map, hfull] at hle
  omega

theorem settled_or_waits (h : db.Numbered)
    (hworks : ∀ t ∈ db.tasks, fails t.id = false → Works cron rounds t) {id : Nat}
    (hfails : fails id = false) (k : Nat) :
    (∃ result, (id, result) ∈ o.processed cron rounds db k ∧ result.settles) ∨
      id ∉ (o.batch (o.tables cron rounds db k) (rounds k)).map ScheduledTask.id ∧
      (o.tables cron rounds db (k + 1)).slot id = (o.tables cron rounds db k).slot id := by
  by_cases hmem : id ∈ (o.batch (o.tables cron rounds db k) (rounds k)).map ScheduledTask.id
  · obtain ⟨t, ht, rfl⟩ := List.mem_map.1 hmem
    obtain ⟨result, -, hresult, hsettles, -⟩ := batch_works h hworks ht hfails
    exact .inl ⟨result, hresult, hsettles⟩
  · have hkept := tick_kept o cron (rounds k) (tables_descend o cron rounds h k).1
    exact .inr ⟨hmem, hkept.others id hmem⟩

theorem ahead_descends (h : db.Numbered)
    (hworks : ∀ t ∈ db.tasks, fails t.id = false → Works cron rounds t)
    (hfew : (db.tasks.filter (fun t => t.enabled && !t.deleted && fails t.id)).length <
      o.claimBatch.toNat)
    {k id : Nat} {s : Slot} (hs : (o.tables cron rounds db k).slot id = some s)
    (henabled : s.enabled = true) (hdeleted : s.deleted = false)
    (hdue : s.nextRunAt.nanos ≤ (rounds k).now.nanos)
    (hfree : ∀ c ∈ s.claimedAt, c.nanos < (rounds k).now.nanos - o.claimStaleAfter)
    (hout : id ∉ (o.batch (o.tables cron rounds db k) (rounds k)).map ScheduledTask.id) :
    ((o.tables cron rounds db (k + 1)).ahead db.tasks.length s.nextRunAt).card <
      ((o.tables cron rounds db k).ahead db.tasks.length s.nextRunAt).card := by
  have hnumbered := (tables_descend o cron rounds h k).1
  have hkept : Tables.Kept _ _ _ (o.tables cron rounds db (k + 1)) :=
    tick_kept o cron (rounds k) hnumbered
  obtain ⟨hfull, hsooner⟩ := batch_full hnumbered hs henabled hdeleted hdue hfree hout
  obtain ⟨u, hu, hufails⟩ := exists_working h hfew hfull
  obtain ⟨-, s', -, -, hs', hlater⟩ := batch_works h hworks hu hufails
  obtain ⟨v, hv, hvid, -⟩ := batch_origin h hu
  obtain ⟨huslot, huenabled, hudeleted⟩ := mem_batch hnumbered hu
  have hlt : u.id < db.tasks.length := by
    rw [← hvid]
    exact (List.getElem?_eq_some_iff.1 (h.mem hv)).1
  refine Finset.card_lt_card ((Finset.ssubset_iff_of_subset (ahead_subset hkept hdue _)).2
    ⟨u.id, ?_, ?_⟩)
  · exact mem_ahead.2 ⟨hlt, u.slot, huslot, huenabled, hudeleted, hsooner u hu⟩
  · intro hahead
    obtain ⟨-, s'', hs'', -, -, hat⟩ := mem_ahead.1 hahead
    rw [hs'] at hs''
    cases hs''
    omega

end Run

/-- If fewer tasks fail than a batch holds, every task that is due and does not fail is settled in
some tick. -/
theorem no_task_starves (o : Options) (cron : Cron) (rounds : Nat → Round) (db : Tables)
    (fails : Nat → Bool) (hnumbered : db.Numbered)
    (hclock : ∀ k, (rounds k).now.nanos ≤ (rounds (k + 1)).now.nanos)
    (hforever : ∀ at' : Int, ∃ k, at' < (rounds k).now.nanos)
    (hworks : ∀ t ∈ db.tasks, fails t.id = false → Works cron rounds t)
    (hfew : (db.tasks.filter (fun t => t.enabled && !t.deleted && fails t.id)).length <
      o.claimBatch.toNat)
    (k : Nat) (t : ScheduledTask) (ht : t ∈ (o.tables cron rounds db k).tasks)
    (henabled : t.enabled = true) (hdeleted : t.deleted = false)
    (hdue : t.nextRunAt.nanos ≤ (rounds k).now.nanos) (hfails : fails t.id = false) :
    ∃ j, k ≤ j ∧ ∃ result, (t.id, result) ∈ o.processed cron rounds db j ∧ result.settles := by
  have hmono {i j : Nat} (hij : i ≤ j) : (rounds i).now.nanos ≤ (rounds j).now.nanos :=
    monotone_nat_of_le_succ hclock hij
  -- a claim of another scheduler is stale from some tick on
  obtain ⟨start, hstart⟩ : ∃ start, ∀ j, start ≤ j → ∀ c ∈ t.slot.claimedAt,
      c.nanos < (rounds j).now.nanos - o.claimStaleAfter := by
    cases hclaimed : t.slot.claimedAt with
    | none => exact ⟨0, fun _ _ c hc => nomatch hc⟩
    | some c =>
      obtain ⟨start, hstart⟩ := hforever (c.nanos + o.claimStaleAfter)
      refine ⟨start, fun j hj c' hc' => ?_⟩
      cases hc'
      have hlater := hmono hj
      omega
  have hslot := (tables_descend o cron rounds hnumbered k).1.slot_mem ht
  refine exists_of_rank
    (fun j => ((o.tables cron rounds db j).ahead db.tasks.length t.nextRunAt).card) start
    (P := fun j => k ≤ j ∧ (o.tables cron rounds db j).slot t.id = some t.slot) ?_ ?_
    ⟨Nat.le_refl k, hslot⟩
  · rintro j ⟨hj, hs⟩
    rcases settled_or_waits hnumbered hworks hfails j with hsettled | ⟨-, hsame⟩
    · exact .inl hsettled
    · exact .inr ⟨Nat.le_succ_of_le hj, hsame.trans hs⟩
  · rintro j hj ⟨hkj, hs⟩
    rcases settled_or_waits hnumbered hworks hfails j with hsettled | ⟨hout, -⟩
    · exact .inl hsettled
    · have hdescends := ahead_descends hnumbered hworks hfew hs henabled hdeleted
        (hdue.trans (hmono hkj)) (hstart j hj) hout
      exact .inr hdescends

def brokenRound (k : Nat) : Round where
  now := ⟨10 + 15 * 10 ^ 9 * k⟩
  between := []
  during := fun _ => []
  stamp := fun _ => ⟨10 + 15 * 10 ^ 9 * k⟩
  dispatches := fun id => id != 0
  arrange := id
  arranged := fun _ => .refl _
  between_ofRuns := nofun
  during_ofRuns := nofun

def firstDue (claimedAt : Option Time) (claimedBy : String) : ScheduledTask :=
  { id := 0, cronExpr := "0 * * * *", timezone := "UTC", enabled := true, nextRunAt := ⟨5⟩,
    claimedAt, claimedBy }

def secondDue : ScheduledTask :=
  { id := 1, cronExpr := "0 * * * *", timezone := "UTC", enabled := true, nextRunAt := ⟨6⟩ }

def twoDue (claimedAt : Option Time) (claimedBy : String) : Tables :=
  { tasks := [firstDue claimedAt claimedBy, secondDue] }

theorem brokenRound_clock (k : Nat) :
    (brokenRound k).now.nanos ≤ (brokenRound (k + 1)).now.nanos := by
  simp only [brokenRound]
  omega

theorem brokenRound_forever (at' : Int) : ∃ k, at' < (brokenRound k).now.nanos := by
  refine ⟨at'.toNat, ?_⟩
  simp only [brokenRound]
  omega

theorem hourly_works {t : ScheduledTask} (hid : (t.id == 0) = false) :
    Works hourly brokenRound t :=
  fun _ => ⟨rfl, by simpa [brokenRound] using hid⟩

theorem no_task_starves_two : ∃ j result,
    (1, result) ∈ ({ claimBatch := 2 } : Options).withDefaults.processed hourly brokenRound
      (twoDue none "") j ∧ result.settles := by
  obtain ⟨j, -, result, hresult⟩ := no_task_starves ({ claimBatch := 2 } : Options).withDefaults
    hourly brokenRound (twoDue none "") (fun id => id == 0) rfl brokenRound_clock
      brokenRound_forever
    (fun _ _ => hourly_works) (by decide) 0 secondDue
    (List.mem_cons_of_mem _ List.mem_cons_self) rfl rfl (by decide) rfl
  exact ⟨j, result, hresult⟩

theorem twoDue_picked (now : Time) (hnow : 6 ≤ now.nanos) {claimedAt : Option Time}
    {claimedBy : String} (hfree : claimedAt = none ∨ claimedBy = "scheduler") :
    ({ claimBatch := 1 } : Options).withDefaults.picked (twoDue claimedAt claimedBy) now [] =
      [firstDue claimedAt claimedBy] := by
  have hfirst (staleBefore : Time) :
      (firstDue claimedAt claimedBy).claimable now staleBefore "scheduler" = true := by
    have hdue : (5 : Int) ≤ now.nanos := by omega
    rcases hfree with rfl | rfl <;> simp [ScheduledTask.claimable, firstDue, hdue]
  have hsecond (staleBefore : Time) : secondDue.claimable now staleBefore "scheduler" = true := by
    simp [ScheduledTask.claimable, secondDue, hnow]
  have hfilter (staleBefore : Time) : (twoDue claimedAt claimedBy).tasks.filter (fun t =>
      t.claimable now staleBefore "scheduler" && t.id ∉ ([] : List Nat)) =
      [firstDue claimedAt claimedBy, secondDue] := by
    simp [twoDue, hfirst, hsecond]
  have hname : ({ claimBatch := 1 } : Options).withDefaults.claimedBy = "scheduler" := rfl
  rw [Options.picked, Tables.picked, hname, hfilter]
  rfl

theorem twoDue_tick (k : Nat) {claimedAt : Option Time} {claimedBy : String}
    (hfree : claimedAt = none ∨ claimedBy = "scheduler") :
    ({ claimBatch := 1 } : Options).withDefaults.tick hourly (twoDue claimedAt claimedBy)
      (brokenRound k) = (twoDue (some (brokenRound k).now) "scheduler", []) := by
  have hpicked := twoDue_picked (brokenRound k).now (by simp only [brokenRound]; omega) hfree
  have hclaim : ({ claimBatch := 1 } : Options).withDefaults.claim (twoDue claimedAt claimedBy)
      (brokenRound k).now [] = (twoDue (some (brokenRound k).now) "scheduler",
        [⟨0, "0 * * * *", "UTC"⟩]) := by
    rw [Options.picked] at hpicked
    rw [Options.claim, Tables.claimDueScheduledTasks, hpicked]
    rfl
  have hbetween : (twoDue claimedAt claimedBy).apply (brokenRound k).between =
      twoDue claimedAt claimedBy := rfl
  rw [Options.tick, hbetween, hclaim]
  rfl

/-- With batches of one, the task that cannot be dispatched is claimed in every tick and the second
never settled. -/
theorem second_task_starves :
    (∀ k, (brokenRound k).now.nanos ≤ (brokenRound (k + 1)).now.nanos) ∧
    (∀ at' : Int, ∃ k, at' < (brokenRound k).now.nanos) ∧
    secondDue ∈ (twoDue none "").tasks ∧ secondDue.enabled = true ∧ secondDue.deleted = false ∧
    secondDue.nextRunAt.nanos ≤ (brokenRound 0).now.nanos ∧ Works hourly brokenRound secondDue ∧
    ∀ k, ({ claimBatch := 1 } : Options).withDefaults.processed hourly brokenRound
      (twoDue none "") k = [] := by
  have htables (k : Nat) : ∃ claimedAt claimedBy, (claimedAt = none ∨ claimedBy = "scheduler") ∧
      ({ claimBatch := 1 } : Options).withDefaults.tables hourly brokenRound (twoDue none "") k =
        twoDue claimedAt claimedBy := by
    induction k with
    | zero => exact ⟨none, "", .inl rfl, rfl⟩
    | succ k ih =>
      obtain ⟨claimedAt, claimedBy, hfree, heq⟩ := ih
      refine ⟨some (brokenRound k).now, "scheduler", .inr rfl, ?_⟩
      rw [Options.tables, heq, twoDue_tick k hfree]
  refine ⟨brokenRound_clock, brokenRound_forever, List.mem_cons_of_mem _ List.mem_cons_self, rfl,
    rfl, by decide, hourly_works rfl, fun k => ?_⟩
  obtain ⟨claimedAt, claimedBy, hfree, heq⟩ := htables k
  rw [Options.processed, heq, twoDue_tick k hfree]

end Parsar.Scheduler
