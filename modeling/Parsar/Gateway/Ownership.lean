import Mathlib.Algebra.Group.Nat.Defs
import Parsar.GoStd.Map
import Parsar.GoStd.Text
import Parsar.GoStd.Time

namespace Parsar.Gateway

open GoStd

inductive OwnerStatus where
  | connected
  | draining
  | expired
  deriving DecidableEq, Repr

/-- A row of `agent_daemon_device_owners`. -/
structure Owner where
  workspaceID : String
  ownerPodID : String
  ownerURL : String
  generation : Nat
  status : OwnerStatus
  connectedAt : Time
  lastSeenAt : Time
  leaseExpiresAt : Time
  updatedAt : Time
  deriving DecidableEq, Repr

abbrev Owners (D : Type*) := D → Option Owner

structure ClaimOwner (D : Type*) where
  deviceID : D
  workspaceID : String
  ownerPodID : String
  ownerURL : String
  leaseExpiresAt : Time
  now : Time

structure RenewOwner (D : Type*) where
  deviceID : D
  ownerPodID : String
  generation : Nat
  leaseExpiresAt : Time
  now : Time

structure ReleaseOwner (D : Type*) where
  deviceID : D
  ownerPodID : String
  generation : Nat

def maxGeneration : Nat := 2 ^ 63 - 1

/-- The time of the call; the zero time stands for the clock. -/
def timeOr (clock now : Time) : Time := if now.isZero then clock else now

def leaseAhead (now lease : Time) : Bool := !lease.isZero && decide (now.nanos < lease.nanos)

def nextGeneration : Option Owner → Nat
  | none => 1
  | some row => row.generation + 1

section Store

variable {D : Type*} [DecidableEq D]

def claimAgentDaemonDeviceOwner (clock : Time) (owners : Owners D) (input : ClaimOwner D) :
    Except String (Owner × Owners D) :=
  let ownerPodID := trimSpace input.ownerPodID
  let now := timeOr clock input.now
  if ownerPodID = "" then .error "agentdaemon owner: owner_pod_id is required"
  else if !leaseAhead now input.leaseExpiresAt then
    .error "agentdaemon owner: lease_expires_at must be in the future"
  else if maxGeneration < nextGeneration (owners input.deviceID) then
    .error "agentdaemon owner: claim: bigint out of range"
  else
    let row : Owner := {
      workspaceID := input.workspaceID
      ownerPodID
      ownerURL := trimSpace input.ownerURL
      generation := nextGeneration (owners input.deviceID)
      status := .connected
      connectedAt := now
      lastSeenAt := now
      leaseExpiresAt := input.leaseExpiresAt
      updatedAt := now }
    .ok (row, Function.update owners input.deviceID (some row))

/-- The row that the `where` of a renewal or a release finds. -/
def ownedRow (owners : Owners D) (deviceID : D) (ownerPodID : String) (generation : Nat) :
    Option Owner :=
  (owners deviceID).filter (fun row =>
    row.ownerPodID == trimSpace ownerPodID && row.generation == generation)

/-- The row is returned if the caller still owns the device. -/
def renewAgentDaemonDeviceOwner (clock : Time) (owners : Owners D) (input : RenewOwner D) :
    Except String (Option Owner × Owners D) :=
  let now := timeOr clock input.now
  if trimSpace input.ownerPodID = "" ∨ input.generation = 0 then
    .error "agentdaemon owner: owner_pod_id and generation are required"
  else if !leaseAhead now input.leaseExpiresAt then
    .error "agentdaemon owner: lease_expires_at must be in the future"
  else match ownedRow owners input.deviceID input.ownerPodID input.generation with
    | none => .ok (none, owners)
    | some row =>
      let renewed := { row with
        lastSeenAt := now, leaseExpiresAt := input.leaseExpiresAt, status := .connected,
        updatedAt := now }
      .ok (some renewed, Function.update owners input.deviceID (some renewed))

def releaseAgentDaemonDeviceOwner (owners : Owners D) (input : ReleaseOwner D) :
    Except String (Bool × Owners D) :=
  if trimSpace input.ownerPodID = "" ∨ input.generation = 0 then
    .error "agentdaemon owner: owner_pod_id and generation are required"
  else match ownedRow owners input.deviceID input.ownerPodID input.generation with
    | none => .ok (false, owners)
    | some _ => .ok (true, Function.update owners input.deviceID none)

/-- `ExpireAgentDaemonDeviceOwners` for one row. -/
def Owner.expire (now : Time) (row : Owner) : Owner :=
  if row.leaseExpiresAt.nanos < now.nanos ∧ row.status ≠ .expired then
    { row with status := .expired, updatedAt := now }
  else row

def expireAgentDaemonDeviceOwners (clock now : Time) (owners : Owners D) : Owners D :=
  fun d => (owners d).map (Owner.expire (timeOr clock now))

structure OwnerLease (D : Type*) where
  deviceID : D
  owner : Owner

def OwnerLease.renewal (a : OwnerLease D) (now lease : Time) : RenewOwner D :=
  ⟨a.deviceID, a.owner.ownerPodID, a.owner.generation, lease, now⟩

def OwnerLease.release (a : OwnerLease D) : ReleaseOwner D :=
  ⟨a.deviceID, a.owner.ownerPodID, a.owner.generation⟩

structure Leases (D : Type*) where
  owners : Owners D := fun _ => none
  sessions : List (OwnerLease D) := []

inductive LeaseAction (D : Type*) where
  | claim (clock : Time) (input : ClaimOwner D)
  | renew (session : Nat) (clock now lease : Time)
  | release (session : Nat)
  | expire (clock now : Time)

namespace Leases

def step (s : Leases D) : LeaseAction D → Option (Leases D)
  | .claim clock input =>
    match claimAgentDaemonDeviceOwner clock s.owners input with
    | .error _ => none
    | .ok (row, owners) => some ⟨owners, s.sessions ++ [⟨input.deviceID, row⟩]⟩
  | .renew session clock now lease => do
    let a ← s.sessions[session]?
    match renewAgentDaemonDeviceOwner clock s.owners (a.renewal now lease) with
    | .error _ => none
    | .ok (_, owners) => some { s with owners }
  | .release session => do
    let a ← s.sessions[session]?
    match releaseAgentDaemonDeviceOwner s.owners a.release with
    | .error _ => none
    | .ok (_, owners) => some { s with owners }
  | .expire clock now =>
    some { s with owners := expireAgentDaemonDeviceOwners clock now s.owners }

end Leases

end Store

section Fencing

variable {D : Type*}

structure Owner.WrittenBy (row claimed : Owner) : Prop where
  workspace : row.workspaceID = claimed.workspaceID
  pod : row.ownerPodID = claimed.ownerPodID
  url : row.ownerURL = claimed.ownerURL
  generation : row.generation = claimed.generation
  connected : row.connectedAt = claimed.connectedAt

theorem Owner.WrittenBy.refl (row : Owner) : row.WrittenBy row := ⟨rfl, rfl, rfl, rfl, rfl⟩

theorem Owner.WrittenBy.trans {a b c : Owner} (hab : a.WrittenBy b) (hbc : b.WrittenBy c) :
    a.WrittenBy c :=
  ⟨hab.workspace.trans hbc.workspace, hab.pod.trans hbc.pod, hab.url.trans hbc.url,
    hab.generation.trans hbc.generation, hab.connected.trans hbc.connected⟩

namespace Leases

structure Latest (s : Leases D) (k : Nat) (c : OwnerLease D) : Prop where
  claimed : s.sessions[k]? = some c
  last : ∀ j b, k < j → s.sessions[j]? = some b → b.deviceID ≠ c.deviceID

def Superseded (s : Leases D) (i : Nat) (a : OwnerLease D) : Prop :=
  s.sessions[i]? = some a ∧ ∃ j b, i < j ∧ s.sessions[j]? = some b ∧ b.deviceID = a.deviceID

def IncreasingGenerations (s : Leases D) : Prop :=
  s.sessions.Pairwise (fun a b =>
    a.deviceID = b.deviceID → a.owner.generation < b.owner.generation)

def LatestRow (s : Leases D) : Prop :=
  ∀ d row, s.owners d = some row →
    ∃ k c, s.Latest k c ∧ c.deviceID = d ∧ row.WrittenBy c.owner

variable {s t : Leases D} {owners owners' : Owners D}

theorem Latest.concat {k : Nat} {c b : OwnerLease D} (h : s.Latest k c)
    (hb : b.deviceID ≠ c.deviceID) (owners : Owners D) :
    Latest ⟨owners, s.sessions ++ [b]⟩ k c := by
  have hk : k < s.sessions.length := (List.getElem?_eq_some_iff.1 h.claimed).1
  refine ⟨by rw [List.getElem?_append_left hk]; exact h.claimed, ?_⟩
  intro j b' hj hb'
  rcases Nat.lt_or_ge j s.sessions.length with hlt | hge
  · rw [List.getElem?_append_left hlt] at hb'
    exact h.last j b' hj hb'
  · have hmem : b' ∈ [b] := by
      rw [List.getElem?_append_right hge] at hb'
      exact List.mem_of_getElem? hb'
    rw [List.mem_singleton.1 hmem]
    exact hb

theorem latest_concat (s : Leases D) (b : OwnerLease D) (owners : Owners D) :
    Latest ⟨owners, s.sessions ++ [b]⟩ s.sessions.length b := by
  refine ⟨by simp, ?_⟩
  intro j b' hj hb'
  have hlt := (List.getElem?_eq_some_iff.1 hb').1
  simp only [List.length_append, List.length_singleton] at hlt
  omega

def Touched (owners owners' : Owners D) : Prop :=
  ∀ d row', owners' d = some row' → ∃ row, owners d = some row ∧ row'.WrittenBy row

theorem touched_refl (owners : Owners D) : Touched owners owners :=
  fun _ row hrow => ⟨row, hrow, .refl row⟩

theorem ownedRow_some {d : D} {pod : String} {generation : Nat} {row : Owner}
    (h : ownedRow owners d pod generation = some row) :
    owners d = some row ∧ row.ownerPodID = trimSpace pod ∧ row.generation = generation := by
  simpa [ownedRow, Option.filter_eq_some_iff] using h

theorem touched_expire (clock now : Time) (owners : Owners D) :
    Touched owners (expireAgentDaemonDeviceOwners clock now owners) := by
  intro d row' hrow'
  obtain ⟨row, hrow, rfl⟩ := Option.map_eq_some_iff.1 hrow'
  refine ⟨row, hrow, ?_⟩
  unfold Owner.expire
  split_ifs <;> exact ⟨rfl, rfl, rfl, rfl, rfl⟩

def Presentable (s : Leases D) : Prop :=
  ∀ a ∈ s.sessions, trimSpace a.owner.ownerPodID = a.owner.ownerPodID ∧
    a.owner.ownerPodID ≠ "" ∧ a.owner.generation ≠ 0

structure Kept (s : Leases D) : Prop where
  presentable : s.Presentable
  increasing : s.IncreasingGenerations
  latest : s.LatestRow

theorem Kept.touched (h : s.Kept) (hsessions : t.sessions = s.sessions)
    (htouched : Touched s.owners t.owners) : t.Kept := by
  obtain ⟨owners, sessions⟩ := t
  cases hsessions
  refine ⟨h.presentable, h.increasing, ?_⟩
  intro d row' hrow'
  obtain ⟨row, hrow, hby'⟩ := htouched d row' hrow'
  obtain ⟨k, c, hlatest, hdevice, hby⟩ := h.latest d row hrow
  exact ⟨k, c, ⟨hlatest.claimed, hlatest.last⟩, hdevice, hby'.trans hby⟩

theorem Kept.generation_lt (h : s.Kept) {i j : Nat} {a b : OwnerLease D} (hij : i < j)
    (ha : s.sessions[i]? = some a) (hb : s.sessions[j]? = some b)
    (hdevice : a.deviceID = b.deviceID) : a.owner.generation < b.owner.generation := by
  obtain ⟨hi, rfl⟩ := List.getElem?_eq_some_iff.1 ha
  obtain ⟨hj, rfl⟩ := List.getElem?_eq_some_iff.1 hb
  exact List.pairwise_iff_getElem.1 h.increasing i j hi hj hij hdevice

theorem Kept.generation_le (h : s.Kept) {row : Owner} {a : OwnerLease D} (ha : a ∈ s.sessions)
    (hrow : s.owners a.deviceID = some row) : a.owner.generation ≤ row.generation := by
  obtain ⟨k, c, hlatest, hdevice, hby⟩ := h.latest _ _ hrow
  obtain ⟨i, hi⟩ := List.mem_iff_getElem?.1 ha
  rw [hby.generation]
  rcases Nat.lt_trichotomy i k with hlt | rfl | hgt
  · exact (h.generation_lt hlt hi hlatest.claimed hdevice.symm).le
  · rw [Option.some.inj (hi.symm.trans hlatest.claimed)]
  · exact absurd hdevice.symm (hlatest.last i a hgt hi)

theorem Kept.ownedRow_none (h : s.Kept) {i : Nat} {a : OwnerLease D} (ha : s.Superseded i a) :
    ownedRow s.owners a.deviceID a.owner.ownerPodID a.owner.generation = none := by
  by_contra hsome
  obtain ⟨row, hrow⟩ := Option.ne_none_iff_exists'.1 hsome
  obtain ⟨hrow, -, hgen⟩ := ownedRow_some hrow
  obtain ⟨hi, j, b, hij, hj, hdevice⟩ := ha
  have hlt := h.generation_lt hij hi hj hdevice.symm
  have hle := h.generation_le (List.mem_of_getElem? hj) (hdevice ▸ hrow)
  omega

variable [DecidableEq D]

structure Fenced (s : Leases D) : Prop where
  renew : ∀ i a, s.Superseded i a → ∀ clock now lease, leaseAhead (timeOr clock now) lease = true →
    renewAgentDaemonDeviceOwner clock s.owners (a.renewal now lease) = .ok (none, s.owners)
  release : ∀ i a, s.Superseded i a →
    releaseAgentDaemonDeviceOwner s.owners a.release = .ok (false, s.owners)
  increasing : s.IncreasingGenerations
  latest : s.LatestRow

/-- A device whose row was deleted is not claimed again. -/
def RowKept (s : Leases D) : LeaseAction D → Prop
  | .claim _ input =>
    s.owners input.deviceID = none → ∀ a ∈ s.sessions, a.deviceID ≠ input.deviceID
  | _ => True

theorem step_claim {clock : Time} {input : ClaimOwner D}
    (h : s.step (.claim clock input) = some t) : ∃ row : Owner,
      t = ⟨Function.update s.owners input.deviceID (some row),
        s.sessions ++ [⟨input.deviceID, row⟩]⟩ ∧
      row.ownerPodID = trimSpace input.ownerPodID ∧ row.ownerPodID ≠ "" ∧
      row.generation = nextGeneration (s.owners input.deviceID) := by
  simp only [step, claimAgentDaemonDeviceOwner] at h
  split at h
  · cases h
  next row owners hclaim =>
    split_ifs at hclaim with hpod
    cases hclaim
    cases h
    exact ⟨_, rfl, rfl, hpod, rfl⟩

theorem touched_update {d : D} {row : Owner} {row' : Option Owner}
    (hrow : owners d = some row) (hby : ∀ r ∈ row', r.WrittenBy row) :
    Touched owners (Function.update owners d row') := by
  intro e r hr
  by_cases he : e = d
  · subst he
    rw [Function.update_self] at hr
    exact ⟨row, hrow, hby r hr⟩
  · rw [Function.update_of_ne he] at hr
    exact ⟨r, hr, .refl r⟩

theorem touched_renew {clock : Time} {input : RenewOwner D}
    {row : Option Owner} (h : renewAgentDaemonDeviceOwner clock owners input = .ok (row, owners')) :
    Touched owners owners' := by
  simp only [renewAgentDaemonDeviceOwner] at h
  split_ifs at h
  split at h
  · cases h
    exact touched_refl owners
  next old hold =>
    cases h
    refine touched_update (ownedRow_some hold).1 ?_
    rintro r ⟨rfl⟩
    exact ⟨rfl, rfl, rfl, rfl, rfl⟩

theorem touched_release {input : ReleaseOwner D} {released : Bool}
    (h : releaseAgentDaemonDeviceOwner owners input = .ok (released, owners')) :
    Touched owners owners' := by
  simp only [releaseAgentDaemonDeviceOwner] at h
  split_ifs at h
  split at h
  · cases h
    exact touched_refl owners
  next old hold =>
    cases h
    exact touched_update (ownedRow_some hold).1 (by simp)

theorem step_cases {a : LeaseAction D} (h : s.step a = some t) :
    (∃ clock input, a = .claim clock input) ∨
      (t.sessions = s.sessions ∧ Touched s.owners t.owners) := by
  cases a with
  | claim clock input => exact .inl ⟨clock, input, rfl⟩
  | renew session clock now lease =>
    obtain ⟨a, _, h⟩ := Option.bind_eq_some_iff.1 h
    split at h
    · cases h
    next hrenew =>
      cases h
      exact .inr ⟨rfl, touched_renew hrenew⟩
  | release session =>
    obtain ⟨a, _, h⟩ := Option.bind_eq_some_iff.1 h
    split at h
    · cases h
    next hrelease =>
      cases h
      exact .inr ⟨rfl, touched_release hrelease⟩
  | expire clock now =>
    cases h
    exact .inr ⟨rfl, touched_expire clock now s.owners⟩

theorem Kept.claim (h : s.Kept) {d : D} {row : Owner}
    (htrim : trimSpace row.ownerPodID = row.ownerPodID) (hpod : row.ownerPodID ≠ "")
    (hgen : row.generation = nextGeneration (s.owners d))
    (hkept : s.owners d = none → ∀ a ∈ s.sessions, a.deviceID ≠ d) :
    Kept ⟨Function.update s.owners d (some row), s.sessions ++ [⟨d, row⟩]⟩ := by
  refine ⟨?_, ?_, ?_⟩
  · refine forall_mem_concat h.presentable ?_
    refine ⟨htrim, hpod, ?_⟩
    rw [hgen]
    cases s.owners d <;> simp [nextGeneration]
  · refine pairwise_concat h.increasing fun a ha hdevice => ?_
    rw [hgen]
    cases hrow : s.owners d with
    | none => exact absurd hdevice (hkept hrow a ha)
    | some old => exact Nat.lt_succ_of_le (h.generation_le ha (hdevice ▸ hrow))
  · intro e r hr
    rcases GoStd.GoMap.set_eq_some hr with ⟨rfl, rfl⟩ | ⟨he, hr⟩
    · exact ⟨_, _, s.latest_concat _ _, rfl, .refl r⟩
    · obtain ⟨k, c, hlatest, rfl, hby⟩ := h.latest e r hr
      exact ⟨k, c, hlatest.concat (fun heq => he heq.symm) _, rfl, hby⟩

theorem Kept.step {a : LeaseAction D} (h : s.Kept) (hok : s.RowKept a)
    (hstep : s.step a = some t) : t.Kept := by
  obtain ⟨clock, input, rfl⟩ | ⟨hsessions, htouched⟩ := step_cases hstep
  · obtain ⟨row, rfl, hpod, hne, hgen⟩ := step_claim hstep
    exact h.claim (by rw [hpod, trimSpace_trimSpace]) hne hgen hok
  · exact h.touched hsessions htouched

theorem Kept.fenced (h : s.Kept) : s.Fenced := by
  have hpresent : ∀ {i a}, s.Superseded i a →
      ¬(trimSpace a.owner.ownerPodID = "" ∨ a.owner.generation = 0) := by
    intro i a ha
    obtain ⟨htrim, hpod, hgen⟩ := h.presentable a (List.mem_of_getElem? ha.1)
    rw [htrim]
    exact not_or.2 ⟨hpod, hgen⟩
  refine ⟨?_, ?_, h.increasing, h.latest⟩
  · intro i a ha clock now lease hlease
    have hnone := h.ownedRow_none ha
    simp [renewAgentDaemonDeviceOwner, OwnerLease.renewal, hpresent ha, hlease, hnone]
  · intro i a ha
    have hnone := h.ownedRow_none ha
    simp [releaseAgentDaemonDeviceOwner, OwnerLease.release, hpresent ha, hnone]

end Leases

end Fencing

/-- If no device is claimed again after its row was deleted, a session with a later claim for its
device neither changes nor deletes the owner row. -/
theorem ownership_fenced {D : Type*} [DecidableEq D] (actions : List (LeaseAction D))
    (s : Leases D) (hok : StepsMeet Leases.step Leases.RowKept {} actions)
    (hrun : runTrace Leases.step {} actions = some s) : s.Fenced := by
  have hempty : ({} : Leases D).Kept := by
    refine ⟨?_, List.Pairwise.nil, ?_⟩
    · intro a ha
      cases ha
    · intro d row hrow
      cases hrow
  exact (runTrace_invariant (fun s a t hkept hstep hs => Leases.Kept.step hs hkept hstep) hok hrun
    hempty).fenced

instance (s : Leases Nat) : ∀ a, Decidable (s.RowKept a)
  | .claim .. => inferInstanceAs (Decidable (_ → ∀ a ∈ s.sessions, _))
  | .renew .. | .release .. | .expire .. => .isTrue trivial

def claimBy (pod : String) (now : Int) : LeaseAction Nat :=
  .claim ⟨now⟩ ⟨7, "w", pod, "", ⟨now + 90⟩, ⟨now⟩⟩

def takenOver : List (LeaseAction Nat) :=
  [claimBy "p" 10, .renew 0 ⟨20⟩ ⟨20⟩ ⟨110⟩, claimBy "q" 30, .renew 0 ⟨40⟩ ⟨40⟩ ⟨130⟩, .release 0]

theorem ownership_fenced_takenOver : ∃ s, runTrace Leases.step {} takenOver = some s ∧
    s.sessions.length = 2 ∧ s.Fenced := by
  have hrun : (runTrace Leases.step {} takenOver).map (fun s => s.sessions.length == 2) =
      some true := by
    decide +kernel
  obtain ⟨s, hs, hlen⟩ := exists_of_runTrace_map hrun
  exact ⟨s, hs, by simpa using hlen,
    ownership_fenced takenOver s (stepsMeet_of_check (by decide +kernel)) hs⟩

/-- After a release deletes the row, the third claim gets the generation of the first session again.
-/
def reclaimed : List (LeaseAction Nat) :=
  [claimBy "p" 10, claimBy "q" 20, .release 1, claimBy "p" 30]

def releaseOf (s : Leases Nat) (a : OwnerLease Nat) (d : Nat) : Option (Bool × Option Owner) :=
  (releaseAgentDaemonDeviceOwner s.owners a.release).toOption.map (fun r => (r.1, r.2 d))

theorem stale_release_deletes_owner : ∃ s a c, runTrace Leases.step {} reclaimed = some s ∧
    s.sessions[0]? = some a ∧ s.sessions[2]? = some c ∧ a.deviceID = 7 ∧ c.deviceID = 7 ∧
    s.owners 7 = some c.owner ∧ releaseOf s a 7 = some (true, none) := by
  have hrun : (runTrace Leases.step {} reclaimed).map (fun s =>
      s.sessions[0]?.any (fun a => s.sessions[2]?.any (fun c => a.deviceID == 7 &&
        c.deviceID == 7 && s.owners 7 == some c.owner && releaseOf s a 7 == some (true, none)))) =
      some true := by
    decide +kernel
  obtain ⟨s, hs, hcheck⟩ := exists_of_runTrace_map hrun
  simp only [Option.any_eq_true, Bool.and_eq_true, beq_iff_eq] at hcheck
  obtain ⟨a, ha, c, hc, ⟨⟨hda, hdc⟩, howner⟩, hrelease⟩ := hcheck
  exact ⟨s, a, c, hs, ha, hc, hda, hdc, howner, hrelease⟩

end Parsar.Gateway
