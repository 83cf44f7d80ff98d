import Parsar.Inflight.Invariants

namespace Parsar.Inflight

open GoStd

def Action.failsFor (run : RunID) : Action → Bool
  | .create r landed => r = run && landed.isNone
  | .edit r _ ok => r = run && !ok
  | _ => false

def Action.deadLettersFor (run : RunID) : Action → Bool
  | .deadLetterWorking r _ => r = run
  | _ => false

def failures (run : RunID) (log : List Action) : Nat := log.countP (·.failsFor run)

def deadLetterings (run : RunID) (log : List Action) : Nat := log.countP (·.deadLettersFor run)

theorem failures_cons (run : RunID) (a : Action) (log : List Action) :
    failures run (a :: log) = failures run log + if a.failsFor run then 1 else 0 :=
  List.countP_cons

theorem deadLetterings_cons (run : RunID) (a : Action) (log : List Action) :
    deadLetterings run (a :: log) = deadLetterings run log + if a.deadLettersFor run then 1 else 0 :=
  List.countP_cons

def FormOutcome.landed (form : FormOutcome) : Bool := form.shipped.getD "" != ""

section Tick

variable (env : TickEnv) (c : FeishuInflightConversation) (page : List AgentRunEvent) (w : World)

structure CallFailed (u : World) : Prop where
  store : u.store = w.store
  failures : failures c.agentRunID u.log = failures c.agentRunID w.log + 1
  deadLetterings : deadLetterings c.agentRunID u.log = deadLetterings c.agentRunID w.log

theorem callFailed_progress : CallFailed c w
    (w.act (progressAction c (c.working.forRun c.agentRunID) none)) := by
  have hfails : (progressAction c (c.working.forRun c.agentRunID) none).failsFor c.agentRunID =
      true := by
    unfold progressAction
    split <;> simp [Action.failsFor]
  have hdead : (progressAction c (c.working.forRun c.agentRunID) none).deadLettersFor
      c.agentRunID = false := by
    unfold progressAction
    split <;> rfl
  refine ⟨rfl, ?_, ?_⟩
  · rw [World.act_log, failures_cons, hfails, if_pos rfl]
  · rw [World.act_log, deadLetterings_cons, hdead, if_neg Bool.false_ne_true, Nat.add_zero]

theorem callFailed_rendered {card : CardState} {u : World}
    (h : CallFailed c (renderFinalCard env c card w) u) : CallFailed c w u := by
  refine ⟨h.store, ?_, ?_⟩
  · rw [h.failures, renderFinalCard, World.act_log, failures_cons]
    rfl
  · rw [h.deadLetterings, renderFinalCard, World.act_log, deadLetterings_cons]
    rfl

theorem deliverFeishuTerminal_failing {err : String} (hcall : env.call = .error err)
    (hform : env.form.landed = false) (card : CardState) :
    (¬ c.working.hasWorkingSlotForRun c.agentRunID ∧ ∃ u, CallFailed c w u ∧
        deliverFeishuTerminal env c (c.working.forRun c.agentRunID) card w =
          (stampTerminal env c u).1) ∨
      ∃ stage u, CallFailed c w u ∧
        deliverFeishuTerminal env c (c.working.forRun c.agentRunID) card w =
          handleUpstreamWorkingFailure env c.agentRunID (c.working.forRun c.agentRunID) stage err
            u := by
  have hexisting : ¬ env.form.shipped.getD "" ≠ "" := by
    simpa [FormOutcome.landed] using hform
  obtain ⟨u, hu⟩ : ∃ u, (if env.form.shipped.isSome then w else renderFinalCard env c card w) = u :=
    ⟨_, rfl⟩
  have hfailed : CallFailed c w (u.act (progressAction c (c.working.forRun c.agentRunID) none)) := by
    rw [← hu]
    split
    · exact callFailed_progress c w
    · exact callFailed_rendered env c w (callFailed_progress c _)
  unfold deliverFeishuTerminal
  dsimp only
  rw [hu, if_neg hexisting, hcall]
  by_cases hhas : (c.working.forRun c.agentRunID).hasWorkingSlotForRun c.agentRunID
  · rw [progressAction, if_pos hhas] at hfailed
    rw [if_pos hhas]
    exact .inr ⟨_, _, hfailed, rfl⟩
  · rw [progressAction, if_neg hhas] at hfailed
    rw [if_neg hhas]
    dsimp only
    by_cases hshipped : env.form.shipped.isSome = true
    · rw [if_pos hshipped]
      rw [WorkingInflightSlot.forRun_has_iff] at hhas
      exact .inl ⟨hhas, _, hfailed, rfl⟩
    · rw [if_neg hshipped]
      exact .inr ⟨_, _, hfailed, rfl⟩

theorem handle_failing (hfeishu : c.conv.platform.isFeishu = true)
    (happ : trimSpace c.conv.sourceAppID ≠ "") {err : String} (hcall : env.call = .error err)
    (hchannel : env.channel.isSome = true) (hform : env.form.landed = false) :
    (¬ c.working.hasWorkingSlotForRun c.agentRunID ∧
        (handleInflightConversation env c page w).store.working = w.store.working ∧
        deadLetterings c.agentRunID (handleInflightConversation env c page w).log =
          deadLetterings c.agentRunID w.log) ∨
      ∃ stage u, CallFailed c w u ∧ handleInflightConversation env c page w =
        handleUpstreamWorkingFailure env c.agentRunID (c.working.forRun c.agentRunID) stage err
          u := by
  obtain ⟨appID, happID⟩ := Option.isSome_iff_exists.mp hchannel
  unfold handleInflightConversation handleFeishuInflightConversation
  rw [if_pos hfeishu, happID]
  dsimp only
  rw [if_neg happ]
  split
  · rename_i hidle
    exact .inl ⟨mt (WorkingInflightSlot.forRun_has_iff _ _).mpr hidle.2.2, rfl, rfl⟩
  · split
    · rcases deliverFeishuTerminal_failing env c w hcall hform
        (foldEventsIntoCardState (c.working.forRun c.agentRunID) page).card with
        ⟨hfresh, u, hfailed, heq⟩ | ⟨stage, u, hfailed, heq⟩
      · have hstamp : (stampTerminal env c u).1.store.working = u.store.working ∧
            (stampTerminal env c u).1.log = u.log := by
          unfold stampTerminal
          split <;> exact ⟨rfl, rfl⟩
        rw [heq, hstamp.1, hstamp.2, hfailed.store]
        exact .inl ⟨hfresh, rfl, hfailed.deadLetterings⟩
      · exact .inr ⟨stage, u, hfailed, heq⟩
    · rcases deliverProgress_cases env c page w appID
        (handleUpstreamWorkingFailure env c.agentRunID (c.working.forRun c.agentRunID))
        (c.working.forRun c.agentRunID) (tickCard c page) with
        ⟨stage, err', herr, heq⟩ | ⟨id, p, hok, -, -⟩ | ⟨id, hok, -, -, -⟩
      · obtain rfl : err = err' := Except.error.inj (hcall.symm.trans herr)
        rw [heq]
        exact .inr ⟨stage, _, callFailed_progress c w, rfl⟩
      · rw [hcall] at hok
        cases hok
      · rw [hcall] at hok
        cases hok

theorem handleUpstreamWorkingFailure_spec (prev : WorkingInflightSlot) (stage err : String)
    (hfaults : env.faults = {}) (hcas : w.store.working.agentRunID = prev.agentRunID) :
    ∃ msg, (prev.attempts + 1 < maxDriverAttempts →
        handleUpstreamWorkingFailure env c.agentRunID prev stage err w =
          w.setStore { w.store with working := prev.bumped env.now msg }) ∧
      (maxDriverAttempts ≤ prev.attempts + 1 →
        handleUpstreamWorkingFailure env c.agentRunID prev stage err w =
          deadLetterWorking env c.agentRunID (prev.bumped env.now msg)
            (w.setStore { w.store with working := prev.bumped env.now msg })) := by
  refine ⟨stage ++ ": " ++ err, ?_⟩
  unfold handleUpstreamWorkingFailure
  generalize stage ++ ": " ++ err = msg
  rcases upstreamFailure_cases env prev msg w with ⟨hrefused, -⟩ | ⟨-, heq⟩
  · rw [hfaults] at hrefused
    exact absurd hcas (hrefused.resolve_left (by decide))
  · dsimp only
    rw [heq]
    constructor
    · intro hbudget
      rw [decide_eq_false (by omega)]
    · intro hbudget
      rw [decide_eq_true hbudget]

end Tick

theorem deadLetterWorking_spec (env : TickEnv) (run : RunID) (slot : WorkingInflightSlot)
    (w : World) (hfaults : env.faults = {}) (howner : w.store.working.agentRunID = run.text) :
    failures run (deadLetterWorking env run slot w).log = failures run w.log ∧
      deadLetterings run (deadLetterWorking env run slot w).log = deadLetterings run w.log + 1 ∧
      (deadLetterWorking env run slot w).store.working = {} := by
  have hclear : w.store.clearWorkingSlot run = { w.store with working := {} } := if_pos howner
  unfold deadLetterWorking
  dsimp only
  rw [hfaults, if_neg (by decide)]
  simp only [World.setStore_log, World.setStore_store, World.act_log, World.act_store, hclear]
  refine ⟨?_, ?_, trivial⟩
  · rw [failures_cons]
    rfl
  · rw [deadLetterings_cons]
    simp [Action.deadLettersFor]

/-- One run is ticked, one tick at a time, its calls fail, the store works, and no tick patches a
credential form that already has its message. -/
def FailingTicks (run : RunID) (s : System) : Label → Prop
  | .claim _ runs => s.ticks = [] ∧ runs = [run]
  | .deliver _ env => env.call.isOk = false ∧ env.channel.isSome = true ∧ env.faults = {} ∧
      env.form.landed = false
  | _ => True

structure Alive (run : RunID) (start : Nat) (s : System) : Prop where
  deadLetterings : deadLetterings run s.world.log = 0
  owner : s.world.store.working.agentRunID = run.text
  pinned : trimSpace s.world.store.working.externalMsgID ≠ ""
  attempts : s.world.store.working.attempts = start + failures run s.world.log
  budget : s.world.store.working.attempts < maxDriverAttempts

structure Spent (run : RunID) (s : System) : Prop where
  deadLetterings : deadLetterings run s.world.log = 1
  fresh : ¬ s.world.store.working.hasWorkingSlotForRun run

structure Budget (run : RunID) (start : Nat) (s : System) : Prop where
  feishu : s.conv.platform.isFeishu = true
  app : trimSpace s.conv.sourceAppID ≠ ""
  tick : ∀ tick ∈ s.ticks, s.ticks = [tick] ∧ tick.row.conv = s.conv ∧
    tick.row.agentRunID = run ∧ tick.row.working = s.world.store.working.reread
  phase : Alive run start s ∨ Spent run s

/-- What one failing delivery does to a slot that is still alive. -/
structure FailureCounted (run : RunID) (env : TickEnv) (s t : System) : Prop where
  failures : failures run t.world.log = failures run s.world.log + 1
  deadLetterings : deadLetterings run t.world.log = deadLetterings run s.world.log
  attempts : t.world.store.working.attempts = s.world.store.working.attempts + 1
  nextRetryAt : t.world.store.working.nextRetryAt =
    env.now.add (driverBackoffSchedule.getD s.world.store.working.attempts 0)

structure FailureDeadLettered (run : RunID) (s t : System) : Prop where
  failures : failures run t.world.log = failures run s.world.log + 1
  deadLetterings : deadLetterings run t.world.log = deadLetterings run s.world.log + 1
  cleared : t.world.store.working = {}

theorem retryAt_schedule (now : Time) {attempts : Nat} (h : attempts + 1 < maxDriverAttempts) :
    retryAt now (attempts + 1) = now.add (driverBackoffSchedule.getD attempts 0) := by
  have hlength : maxDriverAttempts = 5 := rfl
  have hidx : min (max (attempts + 1) 1 - 1) (driverBackoffSchedule.length - 1) = attempts := by
    show min (max (attempts + 1) 1 - 1) (5 - 1) = attempts
    omega
  rw [retryAt, if_neg (by omega), nextRetryAfter, hidx]

theorem exists_error_of_not_isOk {ε α : Type} {r : Except ε α} (h : r.isOk = false) :
    ∃ err, r = .error err := by
  cases r with
  | error err => exact ⟨err, rfl⟩
  | ok a => cases h

theorem Alive.deliver {run : RunID} {start : Nat} {s t : System} {i : Nat} {env : TickEnv}
    (h : Alive run start s) (hbudget : Budget run start s)
    (hok : FailingTicks run s (.deliver i env)) (hstep : s.step (.deliver i env) = some t) :
    s.world.store.working.attempts + 1 < maxDriverAttempts ∧ FailureCounted run env s t ∧
        t.world.store.working.agentRunID = run.text ∧
        trimSpace t.world.store.working.externalMsgID ≠ "" ∨
      s.world.store.working.attempts + 1 = maxDriverAttempts ∧ FailureDeadLettered run s t := by
  obtain ⟨row, page, hget, rfl⟩ := System.step_deliver hstep
  obtain ⟨-, hconv, hrun, hsnap⟩ := hbudget.tick _ (List.mem_of_getElem? hget)
  dsimp only at hconv hrun hsnap
  subst hrun
  obtain ⟨hcall, hchannel, hfaults, hform⟩ := hok
  obtain ⟨err, herr⟩ := exists_error_of_not_isOk hcall
  have hsmall : s.world.store.working.attempts ≤ maxExactInt := by
    have hlt := h.budget
    have hfive : maxDriverAttempts = 5 := rfl
    unfold maxExactInt
    omega
  have hattempts : row.working.attempts = s.world.store.working.attempts := by
    rw [hsnap, WorkingInflightSlot.reread_attempts hsmall]
  have howner : row.working.agentRunID = row.agentRunID.text := by
    rw [hsnap, WorkingInflightSlot.reread_agentRunID, h.owner]
  have howned : row.working.hasWorkingSlotForRun row.agentRunID := by
    refine ⟨?_, by rw [howner]⟩
    rw [hsnap, WorkingInflightSlot.reread_externalMsgID]
    exact h.pinned
  rcases handle_failing env row page s.world (hconv ▸ hbudget.feishu) (hconv ▸ hbudget.app) herr
    hchannel hform with ⟨hfresh, -⟩ | ⟨stage, u, hfailed, heq⟩
  · exact absurd howned hfresh
  · rw [WorkingInflightSlot.forRun_of_has howned] at heq
    have hcas : u.store.working.agentRunID = row.working.agentRunID := by
      rw [hfailed.store, howner, h.owner]
    obtain ⟨msg, hcounted, hdead⟩ := handleUpstreamWorkingFailure_spec env row u row.working stage
      err hfaults hcas
    rw [hattempts] at hcounted hdead
    dsimp only
    rw [heq]
    by_cases hlt : s.world.store.working.attempts + 1 < maxDriverAttempts
    · rw [hcounted hlt]
      refine .inl ⟨hlt, ⟨hfailed.failures, hfailed.deadLetterings, ?_, ?_⟩, howner, howned.1⟩
      · show row.working.attempts + 1 = _
        rw [hattempts]
      · show retryAt env.now (row.working.attempts + 1) = _
        rw [hattempts]
        exact retryAt_schedule env.now hlt
    · have hlast : s.world.store.working.attempts + 1 = maxDriverAttempts := by
        have := h.budget
        omega
      rw [hdead hlast.ge]
      obtain ⟨hfailures, hdead, hcleared⟩ := deadLetterWorking_spec env row.agentRunID
        (row.working.bumped env.now msg)
        (u.setStore { u.store with working := row.working.bumped env.now msg }) hfaults howner
      exact .inr ⟨hlast, hfailures.trans hfailed.failures,
        hdead.trans (congrArg (· + 1) hfailed.deadLetterings), hcleared⟩

theorem Spent.deliver {run : RunID} {start : Nat} {s t : System} {i : Nat} {env : TickEnv}
    (h : Spent run s) (hbudget : Budget run start s)
    (hok : FailingTicks run s (.deliver i env)) (hstep : s.step (.deliver i env) = some t) :
    Spent run t := by
  obtain ⟨row, page, hget, rfl⟩ := System.step_deliver hstep
  obtain ⟨-, hconv, hrun, hsnap⟩ := hbudget.tick _ (List.mem_of_getElem? hget)
  dsimp only at hconv hrun hsnap
  subst hrun
  obtain ⟨hcall, hchannel, hfaults, hform⟩ := hok
  obtain ⟨err, herr⟩ := exists_error_of_not_isOk hcall
  have hfresh : ¬ row.working.hasWorkingSlotForRun row.agentRunID := by
    rw [hsnap, WorkingInflightSlot.reread_has_iff]
    exact h.fresh
  rcases handle_failing env row page s.world (hconv ▸ hbudget.feishu) (hconv ▸ hbudget.app) herr
    hchannel hform with ⟨-, hworking, hdead⟩ | ⟨stage, u, hfailed, heq⟩
  · refine ⟨hdead.trans h.deadLetterings, ?_⟩
    dsimp only
    rw [hworking]
    exact h.fresh
  · rw [WorkingInflightSlot.forRun_of_not hfresh] at heq
    have hcas : u.store.working.agentRunID = row.working.agentRunID := by
      rw [hfailed.store, hsnap, WorkingInflightSlot.reread_agentRunID]
    obtain ⟨msg, hcounted, -⟩ := handleUpstreamWorkingFailure_spec env row u
      { agentRunID := row.working.agentRunID } stage err hfaults hcas
    have hfirst : (0 : Nat) + 1 < maxDriverAttempts := by decide
    constructor
    · dsimp only
      rw [heq, hcounted hfirst]
      exact hfailed.deadLetterings.trans h.deadLetterings
    · dsimp only
      rw [heq, hcounted hfirst]
      show ¬ (WorkingInflightSlot.bumped _ env.now msg).hasWorkingSlotForRun row.agentRunID
      rw [WorkingInflightSlot.bumped_has_iff]
      exact WorkingInflightSlot.not_has_blank _ _

section Step

variable {run : RunID} {start : Nat} {s t : System}

theorem Budget.of_world_eq (h : Budget run start s) (hconv : t.conv = s.conv)
    (hworking : t.world.store.working = s.world.store.working) (hlog : t.world.log = s.world.log)
    (htick : ∀ tick ∈ t.ticks, t.ticks = [tick] ∧ tick.row.conv = s.conv ∧
      tick.row.agentRunID = run ∧ tick.row.working = s.world.store.working.reread) :
    Budget run start t := by
  refine ⟨hconv ▸ h.feishu, hconv ▸ h.app, ?_, ?_⟩
  · rw [hconv, hworking]
    exact htick
  · rcases h.phase with halive | hspent
    · refine .inl ⟨?_, ?_, ?_, ?_, ?_⟩
      · rw [hlog]
        exact halive.deadLetterings
      · rw [hworking]
        exact halive.owner
      · rw [hworking]
        exact halive.pinned
      · rw [hworking, hlog]
        exact halive.attempts
      · rw [hworking]
        exact halive.budget
    · refine .inr ⟨?_, ?_⟩
      · rw [hlog]
        exact hspent.deadLetterings
      · rw [hworking]
        exact hspent.fresh

theorem Budget.deliver {i : Nat} {env : TickEnv} (h : Budget run start s)
    (hok : FailingTicks run s (.deliver i env)) (hstep : s.step (.deliver i env) = some t) :
    Budget run start t := by
  have hphase : Alive run start t ∨ Spent run t := by
    rcases h.phase with halive | hspent
    · rcases halive.deliver h hok hstep with ⟨hlt, hcount, howner, hpinned⟩ | ⟨-, hdead⟩
      · refine .inl ⟨hcount.deadLetterings.trans halive.deadLetterings, howner, hpinned, ?_, ?_⟩
        · rw [hcount.attempts, hcount.failures, halive.attempts, Nat.add_assoc]
        · rw [hcount.attempts]
          exact hlt
      · refine .inr ⟨?_, ?_⟩
        · rw [hdead.deadLetterings, halive.deadLetterings]
        · rw [hdead.cleared]
          exact WorkingInflightSlot.not_has_blank run ""
    · exact .inr (hspent.deliver h hok hstep)
  obtain ⟨row, page, hget, rfl⟩ := System.step_deliver hstep
  refine ⟨h.feishu, h.app, fun tick htick => ?_, hphase⟩
  have hone := (h.tick _ (List.mem_of_getElem? hget)).1
  have hempty : s.ticks.eraseIdx i = [] := by
    rw [hone] at hget ⊢
    cases i with
    | zero => rfl
    | succ i => cases hget
  dsimp only at htick
  rw [hempty] at htick
  cases htick

theorem Budget.step {a : Label} (h : Budget run start s) (hok : FailingTicks run s a)
    (hstep : s.step a = some t) : Budget run start t := by
  cases a with
  | deliver i env => exact h.deliver hok hstep
  | record r ev =>
    obtain ⟨-, rfl⟩ := System.step_record hstep
    exact h.of_world_eq rfl rfl rfl h.tick
  | claim now runs =>
    obtain ⟨-, rfl⟩ := System.step_claim hstep
    obtain ⟨hidle, rfl⟩ := hok
    refine h.of_world_eq rfl rfl rfl fun tick htick => ?_
    simp only [hidle, List.nil_append, List.map_cons, List.map_nil, List.mem_singleton] at htick ⊢
    subst htick
    exact ⟨rfl, rfl, rfl, rfl⟩
  | list i =>
    obtain ⟨row, hget, rfl⟩ := System.step_list hstep
    obtain ⟨hone, hconv, hrun, hsnap⟩ := h.tick _ (List.mem_of_getElem? hget)
    refine h.of_world_eq rfl rfl rfl fun tick htick => ?_
    have hset : s.ticks.set i ⟨row, some (s.fetch row)⟩ = [⟨row, some (s.fetch row)⟩] := by
      rw [hone] at hget ⊢
      cases i with
      | zero => rfl
      | succ i => cases hget
    dsimp only at htick ⊢
    rw [hset] at htick ⊢
    obtain rfl := List.mem_singleton.mp htick
    exact ⟨rfl, hconv, hrun, hsnap⟩
  | drop i =>
    obtain rfl := System.step_drop hstep
    refine h.of_world_eq rfl rfl rfl fun tick htick => ?_
    dsimp only at htick ⊢
    obtain ⟨hone, hrow⟩ := h.tick tick (List.mem_of_mem_eraseIdx htick)
    rw [hone] at htick ⊢
    cases i with
    | zero => cases htick
    | succ i => exact ⟨rfl, hrow⟩
  | start r agentName | finish r status output | cancel r | clearPermission | clearChoice =>
    obtain ⟨-, hworking, hticks, hlog⟩ := System.step_rows hstep trivial
    exact h.of_world_eq (System.step_conv hstep) hworking hlog (hticks ▸ h.tick)

end Step

/-- Over every sequence of failing ticks the `k`-th failure raises the persisted counter and waits
out the `k`-th entry of the schedule; the last of the budget, and no other, dead-letters the run and
clears its slot. -/
theorem retry_budget (run : RunID) (s₀ : System) (hfeishu : s₀.conv.platform.isFeishu = true)
    (happ : trimSpace s₀.conv.sourceAppID ≠ "") (hidle : s₀.ticks = [])
    (hlog : s₀.world.log = []) (howner : s₀.world.store.working.agentRunID = run.text)
    (hpinned : trimSpace s₀.world.store.working.externalMsgID ≠ "")
    (hbudget : s₀.world.store.working.attempts < maxDriverAttempts) (trace : List Label)
    (s t : System) (i : Nat) (env : TickEnv)
    (hok : StepsMeet System.step (FailingTicks run) s₀ trace)
    (hreach : runTrace System.step s₀ trace = some s)
    (hfails : FailingTicks run s (.deliver i env)) (hstep : s.step (.deliver i env) = some t) :
    (deadLetterings run s.world.log = 0 →
      s.world.store.working.attempts =
          s₀.world.store.working.attempts + failures run s.world.log ∧
        (s.world.store.working.attempts + 1 < maxDriverAttempts ∧ FailureCounted run env s t ∨
          s.world.store.working.attempts + 1 = maxDriverAttempts ∧
            FailureDeadLettered run s t)) ∧
      (deadLetterings run s.world.log ≠ 0 →
        deadLetterings run s.world.log = 1 ∧ deadLetterings run t.world.log = 1) := by
  have hstart : Budget run s₀.world.store.working.attempts s₀ := by
    refine ⟨hfeishu, happ, by simp [hidle], .inl ⟨?_, howner, hpinned, ?_, hbudget⟩⟩
    · rw [hlog]
      rfl
    · rw [hlog]
      rfl
  have hinv : Budget run s₀.world.store.working.attempts s :=
    runTrace_invariant (fun s a t hok hstep h => h.step hok hstep) hok hreach hstart
  refine ⟨fun hnone => ?_, fun hsome => ?_⟩
  · rcases hinv.phase with halive | hspent
    · refine ⟨halive.attempts, ?_⟩
      rcases halive.deliver hinv hfails hstep with ⟨hlt, hcount, -⟩ | hdead
      · exact .inl ⟨hlt, hcount⟩
      · exact .inr hdead
    · rw [hspent.deadLetterings] at hnone
      cases hnone
  · rcases hinv.phase with halive | hspent
    · exact absurd halive.deadLetterings hsome
    · exact ⟨hspent.deadLetterings, (hspent.deliver hinv hfails hstep).deadLetterings⟩

def refusedCall (now : Time) : TickEnv :=
  { now := now, call := .error "502", permissionCall := .buildError, choiceCall := .buildError }

def refusedTick (n : Nat) : List Label :=
  [.claim (Time.zero.add (n * 10 ^ 9)) [runA], .list 0,
    .deliver 0 (refusedCall (Time.zero.add (n * 10 ^ 9)))]

def unpinnedTrace : List Label :=
  [.record runA startedEvent, .start runA "agent"] ++
    (List.range 6).flatMap fun n => refusedTick (2 * n)

theorem retry_budget_unpinned :
    ∃ s, System.Reaches {} unpinnedTrace s ∧ failures runA s.world.log = 6 ∧
      s.world.store.working.attempts = 1 ∧ deadLetterings runA s.world.log = 0 := by
  have hrun : (runTrace System.step {} unpinnedTrace).map (fun s =>
      decide (failures runA s.world.log = 6 ∧ s.world.store.working.attempts = 1 ∧
        deadLetterings runA s.world.log = 0)) = some true := by decide +kernel
  obtain ⟨s, hreach, hcheck⟩ := exists_of_runTrace_map hrun
  exact ⟨s, hreach, of_decide_eq_true hcheck⟩

/-- A run whose card is pinned and whose last four patches failed. -/
def almostSpent : System :=
  { world := { store := {
      working := { externalMsgID := "om-a", agentRunID := "run-a", attempts := 4 }
      events := fun _ => [startedEvent]
      runs := fun _ => { status := .running } } } }

theorem retry_budget_last :
    ∃ s t, runTrace System.step almostSpent [.claim Time.zero [runA], .list 0] = some s ∧
      s.step (.deliver 0 (refusedCall Time.zero)) = some t ∧ FailureDeadLettered runA s t := by
  have hrun : (runTrace System.step almostSpent [.claim Time.zero [runA], .list 0]).map
      (fun s => (s.step (.deliver 0 (refusedCall Time.zero))).isSome &&
        decide (deadLetterings runA s.world.log = 0 ∧ s.world.store.working.attempts = 4)) =
      some true := by decide
  obtain ⟨s, hreach, hcheck⟩ := exists_of_runTrace_map hrun
  simp only [Bool.and_eq_true, decide_eq_true_eq] at hcheck
  obtain ⟨hsome, hnone, hfour⟩ := hcheck
  obtain ⟨t, hstep⟩ := Option.isSome_iff_exists.mp hsome
  have hok : StepsMeet System.step (FailingTicks runA) almostSpent
      [.claim Time.zero [runA], .list 0] :=
    ⟨⟨rfl, rfl⟩, fun _ _ => ⟨trivial, fun _ _ => trivial⟩⟩
  have hlast := retry_budget runA almostSpent rfl (by decide) rfl rfl rfl (by decide) (by decide) _
    s t 0 _ hok hreach ⟨rfl, rfl, rfl, rfl⟩ hstep
  refine ⟨s, t, hreach, hstep, ?_⟩
  rcases (hlast.1 hnone).2 with ⟨hlt, -⟩ | ⟨-, hdead⟩
  · rw [hfour] at hlt
    exact absurd hlt (by decide)
  · exact hdead

end Parsar.Inflight
