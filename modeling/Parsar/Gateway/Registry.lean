import Parsar.GoStd.Map

namespace Parsar.Gateway

/-- Sessions and subscriptions are told apart by their addresses. -/
abbrev SessionID := Nat

abbrev SubID := Nat

abbrev Index := String → Option SessionID

namespace Index

/-- An attach: blank keys are ignored. -/
def put (m : Index) (key : String) (s : SessionID) : Index :=
  if key = "" then m else Function.update m key (some s)

/-- A detach, whoever the key belongs to. -/
def remove (m : Index) (key : String) : Index :=
  if key = "" then m else Function.update m key none

def evict (m : Index) (s : SessionID) : Index := fun key => if m key = some s then none else m key

variable {m : Index} {key k : String} {s t : SessionID}

theorem put_same (h : key ≠ "") : m.put key s key = some s := by
  simp [put, h]

theorem put_ne (h : k ≠ key) : m.put key s k = m k := by
  by_cases hblank : key = "" <;> simp [put, hblank, h]

theorem put_eq_some (h : m.put key s k = some t) : (k = key ∧ t = s) ∨ m k = some t := by
  by_cases hk : k = key
  · subst hk
    by_cases hblank : k = ""
    · simp only [put, hblank, if_true] at h
      exact .inr (hblank ▸ h)
    · rw [put_same hblank] at h
      exact .inl ⟨rfl, (Option.some.inj h).symm⟩
  · rw [put_ne hk] at h
    exact .inr h

theorem remove_ne (h : k ≠ key) : m.remove key k = m k := by
  by_cases hblank : key = "" <;> simp [remove, hblank, h]

theorem remove_eq_some (h : m.remove key k = some t) : m k = some t := by
  by_cases hk : k = key
  · subst hk
    by_cases hblank : k = "" <;> simp_all [remove]
  · rwa [remove_ne hk] at h

theorem evict_eq_some : m.evict s k = some t ↔ m k = some t ∧ t ≠ s := by
  by_cases h : m k = some s
  · simp [evict, h, eq_comm]
  · simp only [evict, h, if_false]
    refine ⟨fun hk => ⟨hk, ?_⟩, fun hk => hk.1⟩
    rintro rfl
    exact h hk

end Index

/-- The process-wide maps of live sessions; the waiters of `WaitForDevice` only read them. -/
structure Registry where
  byDevice : Index := fun _ => none
  byRun : Index := fun _ => none
  byPerm : Index := fun _ => none
  byAsk : Index := fun _ => none

namespace Registry

def evictRoutes (r : Registry) (s : SessionID) : Registry :=
  { r with byRun := r.byRun.evict s, byPerm := r.byPerm.evict s, byAsk := r.byAsk.evict s }

/-- The latest dial-in wins; the routes of a displaced session go with it. -/
def register (r : Registry) (s : SessionID) (device : String) : Registry :=
  let r := match r.byDevice device with
    | some previous => if previous ≠ s then r.evictRoutes previous else r
    | none => r
  { r with byDevice := Function.update r.byDevice device (some s) }

def deregister (r : Registry) (s : SessionID) (device : String) : Registry :=
  let r' := r.evictRoutes s
  if r.byDevice device = some s then
    { r' with byDevice := Function.update r.byDevice device none }
  else r'

def lookupRun (r : Registry) (run : String) : Option SessionID := r.byRun run

def attachRun (r : Registry) (run : String) (s : SessionID) : Registry :=
  { r with byRun := r.byRun.put run s }

/-- Unlike `deregister`, this does not ask whose mapping it removes. -/
def detachRun (r : Registry) (run : String) : Registry :=
  { r with byRun := r.byRun.remove run }

def attachPermission (r : Registry) (perm : String) (s : SessionID) : Registry :=
  { r with byPerm := r.byPerm.put perm s }

def detachPermission (r : Registry) (perm : String) : Registry :=
  { r with byPerm := r.byPerm.remove perm }

def attachPromptForUserChoice (r : Registry) (ask : String) (s : SessionID) : Registry :=
  { r with byAsk := r.byAsk.put ask s }

variable {r : Registry} {s t : SessionID} {device key : String}

theorem register_byDevice (h : (r.register s device).byDevice key = some t) :
    (key = device ∧ t = s) ∨ (key ≠ device ∧ r.byDevice key = some t) := by
  have hupdate : (r.register s device).byDevice = Function.update r.byDevice device (some s) := by
    unfold register
    split
    · split <;> rfl
    · rfl
  rw [hupdate] at h
  exact GoStd.GoMap.set_eq_some h

theorem register_byRun (h : r.byRun key = some t) (hkept : r.byDevice device ≠ some t) :
    (r.register s device).byRun key = some t := by
  unfold register
  split
  · rename_i previous hprevious
    have hne : t ≠ previous := by
      rintro rfl
      exact hkept hprevious
    split
    · exact Index.evict_eq_some.mpr ⟨h, hne⟩
    · exact h
  · exact h

theorem deregister_byDevice (h : (r.deregister s device).byDevice key = some t) :
    r.byDevice key = some t ∧ ¬ (key = device ∧ t = s) := by
  unfold deregister at h
  dsimp only at h
  split at h
  · obtain ⟨heq, h⟩ := GoStd.GoMap.erase_eq_some h
    exact ⟨h, fun hsame => heq hsame.1⟩
  · rename_i hnot
    refine ⟨h, ?_⟩
    rintro ⟨rfl, rfl⟩
    exact hnot h

theorem deregister_routes (r : Registry) (s : SessionID) (device : String) :
    (r.deregister s device).byRun = r.byRun.evict s ∧
      (r.deregister s device).byPerm = r.byPerm.evict s ∧
      (r.deregister s device).byAsk = r.byAsk.evict s := by
  unfold deregister
  dsimp only
  split <;> exact ⟨rfl, rfl, rfl⟩

end Registry

end Parsar.Gateway
