import Mathlib.Data.List.Chain
import Parsar.Framework.Trace
import Parsar.Turns.Session

namespace Parsar.Connectivity

open Turns (EnvironmentStatus)

/-- The row of `environment_connections`. -/
structure Connection (γ : Type*) where
  generation : γ
  revision : Int
  deriving DecidableEq

structure Environment (γ : Type*) where
  status : EnvironmentStatus := .pending
  connection : Option (Connection γ) := none
  events : List Bool := []
  deriving DecidableEq

/-- The generations of calls are the parsed ones, without one where the text is not a UUID or the
zero one. -/
inductive Call (γ : Type*) where
  | replace (generation : Option γ)
  | observe (generation : Option γ) (revision : Int) (connected : Bool)
  /-- `ReconcileEnvironmentConnections`, when a new owner starts. -/
  | reconcile

inductive StoreError where
  | invalidInput
  deriving DecidableEq

variable {γ : Type*}

def statusOf (connected : Bool) : EnvironmentStatus :=
  if connected then .connected else .disconnected

namespace Environment

variable (e : Environment γ)

def recordEnvironmentConnection (connected : Bool) : Environment γ :=
  { e with status := statusOf connected, events := e.events ++ [connected] }

def disconnect : Environment γ :=
  if e.status = .connected then e.recordEnvironmentConnection false else e

variable [DecidableEq γ]

def replaceEnvironmentConnection (generation : Option γ) : Except StoreError (Environment γ) :=
  match generation with
  | none => .error .invalidInput
  | some gen =>
    if e.status.ended then .error .invalidInput
    else if e.connection.map Connection.generation = some gen then .ok e
    else .ok { e with connection := some ⟨gen, 0⟩ }.disconnect

def observeEnvironmentConnection (generation : Option γ) (revision : Int) (connected : Bool) :
    Except StoreError (Environment γ) :=
  match generation with
  | none => .error .invalidInput
  | some gen =>
    if revision ≤ 0 then .error .invalidInput
    else
      match e.connection with
      | none => .ok e
      | some current =>
        if current.generation ≠ gen ∨ revision ≤ current.revision then .ok e
        else if e.status.ended then .error .invalidInput
        else
          let e := { e with connection := some { current with revision := revision } }
          if e.status = statusOf connected then .ok e
          else .ok (e.recordEnvironmentConnection connected)

def call : Call γ → Except StoreError (Environment γ)
  | .replace generation => e.replaceEnvironmentConnection generation
  | .observe generation revision connected =>
    e.observeEnvironmentConnection generation revision connected
  | .reconcile => .ok { e with connection := none }.disconnect

def after (c : Call γ) : Environment γ :=
  match e.call c with
  | .ok e' => e'
  | .error _ => e

def run (calls : List (Call γ)) : Environment γ := calls.foldl (fun e c => e.after c) {}

end Environment

structure Era (γ : Type*) where
  generation : Option γ := none
  observations : List (Int × Bool) := []

def Era.after [DecidableEq γ] (x : Era γ) : Call γ → Era γ
  | .replace none => x
  | .replace (some gen) => if x.generation = some gen then x else ⟨some gen, []⟩
  | .observe generation revision connected =>
    if x.generation.isSome ∧ generation = x.generation ∧ 0 < revision then
      { x with observations := x.observations ++ [(revision, connected)] }
    else x
  | .reconcile => {}

def Era.run [DecidableEq γ] (calls : List (Call γ)) : Era γ := calls.foldl Era.after {}

def Leads (observations : List (Int × Bool)) (o : Int × Bool) : Prop :=
  ∃ before after, observations = before ++ o :: after ∧ (∀ x ∈ before, x.1 < o.1) ∧
    ∀ x ∈ after, x.1 ≤ o.1

variable {observations : List (Int × Bool)}

theorem Leads.of_greater {o : Int × Bool} (h : ∀ x ∈ observations, x.1 < o.1) :
    Leads (observations ++ [o]) o :=
  ⟨observations, [], rfl, h, nofun⟩

theorem Leads.append {o x : Int × Bool} (h : Leads observations o) (hx : x.1 ≤ o.1) :
    Leads (observations ++ [x]) o := by
  obtain ⟨before, after, rfl, hbefore, hafter⟩ := h
  refine ⟨before, after ++ [x], by simp, hbefore, ?_⟩
  exact forall_mem_concat hafter hx

theorem Leads.le {o x : Int × Bool} (h : Leads observations o) (hx : x ∈ observations) :
    x.1 ≤ o.1 := by
  obtain ⟨before, after, rfl, hbefore, hafter⟩ := h
  rcases List.mem_append.1 hx with hx | hx
  · exact Int.le_of_lt (hbefore x hx)
  · rcases List.mem_cons.1 hx with rfl | hx
    · exact Int.le_refl _
    · exact hafter x hx

theorem Leads.mem {o : Int × Bool} (h : Leads observations o) : o ∈ observations := by
  obtain ⟨before, after, rfl, -, -⟩ := h
  exact List.mem_append_right _ List.mem_cons_self

theorem Leads.unique {o x : Int × Bool} (ho : Leads observations o) (hx : Leads observations x) :
    o = x := by
  have hle := ho.le hx.mem
  have hge := hx.le ho.mem
  obtain ⟨before, after, heq, hbefore, -⟩ := ho
  obtain ⟨before', after', heq', hbefore', -⟩ := hx
  -- whichever stands first in the list has a smaller revision, unless they are the same
  obtain ⟨mid, rfl, -⟩ | ⟨-, rfl, -⟩ | ⟨mid, rfl, -⟩ := cons_split (heq.symm.trans heq')
  · have hlt := hbefore' o (by simp)
    omega
  · rfl
  · have hlt := hbefore x (by simp)
    omega

/-- The events alternate, and the last one is the status. -/
structure Told (e : Environment γ) : Prop where
  alternate : e.events.IsChain (· ≠ ·)
  last : ∀ b, e.events.getLast? = some b → e.status = statusOf b
  connected : e.status = .connected → e.events.getLast? = some true
  open' : e.status.ended = false

theorem Told.record {e : Environment γ} (h : Told e) {connected : Bool}
    (hnew : e.status ≠ statusOf connected) : Told (e.recordEnvironmentConnection connected) where
  alternate := by
    rw [Environment.recordEnvironmentConnection, List.isChain_append]
    refine ⟨h.alternate, List.isChain_singleton _, ?_⟩
    intro x hx y hy
    cases hy
    rintro rfl
    exact hnew (h.last x hx)
  last := by
    intro b hb
    rw [Environment.recordEnvironmentConnection, List.getLast?_concat] at hb
    cases hb
    rfl
  connected := by
    intro hstatus
    cases connected with
    | true => exact List.getLast?_concat
    | false => cases hstatus
  open' := by cases connected <;> rfl

theorem Told.disconnect {e : Environment γ} (h : Told e) : Told e.disconnect := by
  unfold Environment.disconnect
  split_ifs with hconnected
  · refine h.record ?_
    rw [hconnected]
    decide
  · exact h

theorem disconnect_status (e : Environment γ) : e.disconnect.status ≠ .connected := by
  unfold Environment.disconnect
  split_ifs with hconnected
  · exact nofun
  · exact hconnected

theorem disconnect_connection (e : Environment γ) : e.disconnect.connection = e.connection := by
  unfold Environment.disconnect
  split_ifs <;> rfl

structure Follows (e : Environment γ) (x : Era γ) : Prop where
  generation : e.connection.map Connection.generation = x.generation
  silent : x.observations = [] → e.status ≠ .connected ∧ ∀ row ∈ e.connection, row.revision = 0
  leader : x.observations ≠ [] → ∃ o row, Leads x.observations o ∧ e.connection = some row ∧
    row.revision = o.1 ∧ (e.status = .connected ↔ o.2 = true)
  positive : ∀ o ∈ x.observations, 0 < o.1

theorem Follows.begin {e : Environment γ} {generation : Option γ}
    (hgeneration : e.connection.map Connection.generation = generation)
    (hrevision : ∀ row ∈ e.connection, row.revision = 0) :
    Follows e.disconnect ⟨generation, []⟩ where
  generation := by
    rw [disconnect_connection]
    exact hgeneration
  silent := by
    rw [disconnect_connection]
    exact fun _ => ⟨disconnect_status e, hrevision⟩
  leader := fun hne => absurd rfl hne
  positive := nofun

section Calls

variable [DecidableEq γ] {e : Environment γ} {x : Era γ}

theorem follows_replace (htold : Told e) (h : Follows e x) (generation : Option γ) :
    Told (e.after (.replace generation)) ∧
      Follows (e.after (.replace generation)) (x.after (.replace generation)) := by
  cases generation with
  | none => exact ⟨htold, h⟩
  | some gen =>
    by_cases hsame : x.generation = some gen
    · have hafter : e.after (.replace (some gen)) = e := by
        simp [Environment.after, Environment.call, Environment.replaceEnvironmentConnection,
          htold.open', h.generation, hsame]
      rw [hafter, Era.after, if_pos hsame]
      exact ⟨htold, h⟩
    · have hafter : e.after (.replace (some gen)) =
          { e with connection := some ⟨gen, 0⟩ }.disconnect := by
        simp [Environment.after, Environment.call, Environment.replaceEnvironmentConnection,
          htold.open', h.generation, hsame]
      rw [hafter, Era.after, if_neg hsame]
      have hnew : Told { e with connection := some ⟨gen, 0⟩ } :=
        { htold with }
      refine ⟨hnew.disconnect, .begin rfl ?_⟩
      intro row hrow
      cases hrow
      rfl

theorem follows_reconcile (htold : Told e) :
    Told (e.after .reconcile) ∧ Follows (e.after .reconcile) (x.after .reconcile) := by
  have hnew : Told ({ e with connection := none } : Environment γ) :=
    { htold with }
  exact ⟨hnew.disconnect, .begin rfl nofun⟩

theorem after_observe_other (h : Follows e x) {generation : Option γ} {revision : Int}
    (hother : ¬(x.generation.isSome ∧ generation = x.generation ∧ 0 < revision))
    (connected : Bool) :
    e.after (.observe generation revision connected) = e := by
  simp only [Environment.after, Environment.call, Environment.observeEnvironmentConnection]
  cases generation with
  | none => rfl
  | some gen =>
    by_cases hrevision : revision ≤ 0
    · simp [hrevision]
    · cases hrow : e.connection with
      | none => simp [hrevision]
      | some row =>
        have hgen : row.generation ≠ gen := by
          rintro rfl
          apply hother
          rw [← h.generation, hrow]
          exact ⟨rfl, rfl, by omega⟩
        simp [hrevision, hgen]

theorem after_observe_current {row : Connection γ} (htold : Told e) (hrow : e.connection = some row)
    {revision : Int} (hrevision : 0 < revision) (connected : Bool) :
    e.after (.observe (some row.generation) revision connected) =
      if revision ≤ row.revision then e
      else if e.status = statusOf connected then
        { e with connection := some { row with revision := revision } }
      else { e with connection := some { row with revision := revision } }.recordEnvironmentConnection
        connected := by
  have hpos : ¬revision ≤ 0 := by omega
  simp only [Environment.after, Environment.call, Environment.observeEnvironmentConnection, hrow, hpos,
    if_false, ne_eq, not_true_eq_false, false_or, htold.open', Bool.false_eq_true]
  split_ifs <;> rfl

theorem statusOf_eq_connected {connected : Bool} :
    statusOf connected = .connected ↔ connected = true := by
  cases connected <;> decide

theorem follows_observe (htold : Told e) (h : Follows e x) (generation : Option γ) (revision : Int)
    (connected : Bool) :
    Told (e.after (.observe generation revision connected)) ∧
      Follows (e.after (.observe generation revision connected))
        (x.after (.observe generation revision connected)) := by
  by_cases hcurrent : x.generation.isSome ∧ generation = x.generation ∧ 0 < revision
  · obtain ⟨hsome, rfl, hrevision⟩ := hcurrent
    rw [Era.after, if_pos ⟨hsome, rfl, hrevision⟩]
    cases hrow : e.connection with
    | none =>
      rw [← h.generation, hrow] at hsome
      cases hsome
    | some row =>
      have hgen : x.generation = some row.generation := by
        rw [← h.generation, hrow]
        rfl
      have hpositive : ∀ o ∈ x.observations ++ [(revision, connected)], 0 < o.1 := by
        exact forall_mem_concat h.positive hrevision
      rw [hgen, after_observe_current htold hrow hrevision]
      split_ifs with hlate hsame
      · -- late: an earlier observation leads
        refine ⟨htold, h.generation.trans hgen, fun hnil => absurd hnil (by simp), fun _ => ?_, hpositive⟩
        by_cases hnone : x.observations = []
        · have hzero := (h.silent hnone).2 row hrow
          omega
        · obtain ⟨o, row', ho, hrow', hrev, hstatus⟩ := h.leader hnone
          rw [hrow] at hrow'
          cases hrow'
          exact ⟨o, row, ho.append (by rw [← hrev]; exact hlate), hrow, hrev, hstatus⟩
      all_goals
        have hleads : Leads (x.observations ++ [(revision, connected)]) (revision, connected) := by
          refine .of_greater (fun o ho => ?_)
          obtain ⟨o', row', ho', hrow', hrev, -⟩ := h.leader (List.ne_nil_of_mem ho)
          rw [hrow] at hrow'
          cases hrow'
          have hle := ho'.le ho
          dsimp only
          omega
      · refine ⟨{ htold with }, rfl,
          fun hnil => absurd hnil (by simp), fun _ => ⟨_, _, hleads, rfl, rfl, ?_⟩, hpositive⟩
        dsimp only
        rw [hsame]
        exact statusOf_eq_connected
      · have hnew : Told { e with connection := some { row with revision := revision } } :=
          { htold with }
        exact ⟨hnew.record hsame, rfl, fun hnil => absurd hnil (by simp),
          fun _ => ⟨_, _, hleads, rfl, rfl, statusOf_eq_connected⟩, hpositive⟩
  · rw [after_observe_other h hcurrent, Era.after, if_neg hcurrent]
    exact ⟨htold, h⟩

theorem follows_run (calls : List (Call γ)) :
    Told (Environment.run calls) ∧ Follows (Environment.run calls) (Era.run calls) := by
  induction calls using List.reverseRecOn with
  | nil =>
    exact ⟨⟨.nil, nofun, nofun, rfl⟩, rfl, fun _ => ⟨nofun, nofun⟩, fun hne => absurd rfl hne, nofun⟩
  | append_singleton calls c ih =>
    obtain ⟨htold, h⟩ := ih
    rw [Environment.run, Era.run, List.foldl_concat, List.foldl_concat]
    cases c with
    | replace generation => exact follows_replace htold h generation
    | observe generation revision connected =>
      exact follows_observe htold h generation revision connected
    | reconcile => exact follows_reconcile htold

end Calls

/-- The Environment is connected exactly if the observation that leads the era says so, other
generations change nothing, and the events alternate. -/
theorem connectivity_fenced [DecidableEq γ] (calls : List (Call γ)) :
    ((Environment.run calls).status = .connected ↔
      ∃ o, Leads (Era.run calls).observations o ∧ o.2 = true) ∧
    (∀ generation revision connected, some generation ≠ (Era.run calls).generation →
      (Environment.run calls).after (.observe (some generation) revision connected) =
        Environment.run calls) ∧
    (Environment.run calls).events.IsChain (· ≠ ·) := by
  obtain ⟨htold, h⟩ := follows_run calls
  refine ⟨⟨fun hconnected => ?_, ?_⟩, fun generation revision connected hother => ?_, htold.alternate⟩
  · have hsome : (Era.run calls).observations ≠ [] :=
      fun hnone => (h.silent hnone).1 hconnected
    obtain ⟨o, row, ho, -, -, hstatus⟩ := h.leader hsome
    exact ⟨o, ho, hstatus.1 hconnected⟩
  · rintro ⟨o, ho, hsays⟩
    obtain ⟨o', row, ho', -, -, hstatus⟩ := h.leader (List.ne_nil_of_mem ho.mem)
    rw [ho'.unique ho] at hstatus
    exact hstatus.2 hsays
  · exact after_observe_other h (fun hsame => hother hsame.2.1) connected

/-- The only observation of the generation says connected, with a revision that is refused. -/
theorem revision_zero_refused :
    (Environment.run [.replace (some 1), .observe (some 1) 0 true]).status = .pending ∧
    Leads [(0, true)] (0, true) :=
  ⟨by decide, [], [], rfl, nofun, nofun⟩

end Parsar.Connectivity
