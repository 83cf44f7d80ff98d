import Parsar.Framework.Replay
import Parsar.Items.Writes

namespace Parsar.Items

open Turns

variable {J : Type}

/-- A Session with the rows of `session_events`. -/
structure Stored (J : Type) where
  stream : Stream J := {}
  log : Replay (SessionEvent J) := {}
  deleted : Bool := false

/-- The rows that `PruneSessionEvents` deletes, by their rank from the newest on and the bytes up to
them. -/
def pruned (n bytes : Nat) : Bool := n > 256 || (bytes > 67108864 && n > 1)

/-- The rows that `ListSessionEvents` leaves to the next page. -/
def deferred (n bytes : Nat) : Bool := !(n == 1 || bytes ≤ 1048576)

def pageLimit : Nat := 32

inductive ListError where
  | invalidInput
  | notFound
  | streamGap
  deriving DecidableEq

section Store

variable [DecidableEq J] (size : SessionEvent J → Nat)

/-- `withSession`: the writes of the transaction, and `PruneSessionEvents`. `size` is the length of
an event's payload: rows with equal events have equal lengths. -/
def Stored.withSession (s : Stored J) (writes : List (Action J)) : Option (Stored J) :=
  (runTrace Stream.step s.stream writes).map (fun stream =>
    { s with
      stream
      log := (s.log.append (stream.events.drop s.stream.events.length)).prune pruned size })

inductive Transaction (J : Type) where
  | run (writes : List (Action J))
  | delete (writes : List (Action J))

def Stored.step (s : Stored J) : Transaction J → Option (Stored J)
  | .run writes => s.withSession size writes
  | .delete writes => (s.withSession size writes).map (fun t => { t with deleted := true })

def Stored.emitted (s t : Stored J) : List (SessionEvent J) :=
  t.stream.events.drop s.stream.events.length

/-- `ListSessionEvents`, which reads the cursor of the Session first and its events then. -/
def listSessionEvents (first second : Stored J) (after : Int) :
    Except ListError (List (Nat × SessionEvent J)) :=
  if after < 0 then .error .invalidInput
  else if first.deleted then .error .notFound
  else
    let rows := if second.deleted then []
      else second.log.page deferred size pageLimit after.toNat
    match Replay.read first.log.latest after.toNat rows with
    | none => .error .streamGap
    | some rows => .ok rows

end Store

theorem pruned_tightens : Tightens pruned := by
  intro n n' bytes bytes' hn hle hbytes
  simp only [pruned, Bool.or_eq_true, Bool.and_eq_true, decide_eq_true_eq]
  omega

theorem pruned_first (bytes : Nat) : pruned 1 bytes = false := by
  simp [pruned]

theorem deferred_tightens : Tightens deferred := by
  intro n n' bytes bytes' hn hle hbytes
  simp only [deferred, Bool.not_eq_true', Bool.or_eq_false_iff, beq_eq_false_iff_ne,
    decide_eq_false_iff_not]
  omega

theorem deferred_first (bytes : Nat) : deferred 1 bytes = false := by
  simp [deferred]

section Log

variable [DecidableEq J] {size : SessionEvent J → Nat}

theorem Writes.events {C : Stream J → TurnID → Observation J → Prop} {turn : TurnID}
    {s t : Stream J} (h : Writes C turn s t) : s.events <+: t.events := by
  refine h.invariant (I := fun t => s.events <+: t.events) (fun u v hw hu => hu.trans ?_)
    (List.prefix_refl _)
  cases hw <;> exact List.prefix_append _ _

theorem step_events {s t : Stream J} {a : Action J} (h : s.step a = some t) :
    s.events <+: t.events := by
  have hstep : Stepped (fun _ _ _ => True) s t :=
    step_stepped (fun _ _ _ => trivial) (fun _ _ _ _ => trivial) h
  cases hstep with
  | wrote _ hwrites => exact hwrites.events
  | @ended turn status n u _ _ hwrites =>
    have hfinish : Writes (fun _ _ _ => True) turn (u.setStatus turn status)
        ((u.setStatus turn status).finishSessionItems turn) := finishSessionItems_writes _
    exact (hwrites.events.trans hfinish.events).trans (List.prefix_append _ _)
  | noted _ hevents =>
    rw [hevents]
    exact List.prefix_append _ _

theorem runTrace_events {s t : Stream J} {writes : List (Action J)}
    (h : runTrace Stream.step s writes = some t) : s.events <+: t.events :=
  runTrace_invariant (I := fun t => s.events <+: t.events)
    (fun _ _ _ _ hstep hs => hs.trans (step_events hstep)) (stepsMeet_true s writes) h
    (List.prefix_refl _)

theorem Stored.withSession_ok {s t : Stored J} {writes : List (Action J)}
    (h : s.withSession size writes = some t) :
    t.stream.events = s.stream.events ++ s.emitted t ∧ t.deleted = s.deleted ∧
      t.log = (s.log.append (s.emitted t)).prune pruned size := by
  obtain ⟨stream, hrun, rfl⟩ := Option.map_eq_some_iff.1 h
  obtain ⟨events, heq⟩ := runTrace_events hrun
  refine ⟨?_, rfl, rfl⟩
  simp [Stored.emitted, ← heq]

def Stored.Held (s : Stored J) : Prop := ∃ dropped, s.log.Holds s.stream.events dropped

theorem Stored.Held.withSession {s t : Stored J} {writes : List (Action J)} (hs : s.Held)
    (h : s.withSession size writes = some t) : t.Held := by
  obtain ⟨dropped, hs⟩ := hs
  obtain ⟨hevents, -, hlog⟩ := Stored.withSession_ok h
  rw [Stored.Held, hevents, hlog]
  exact ⟨_, (hs.append _).prune pruned_tightens pruned_first⟩

theorem Stored.Held.step {s t : Stored J} {transaction : Transaction J} (hs : s.Held)
    (h : s.step size transaction = some t) :
    t.Held ∧ s.stream.events <+: t.stream.events ∧ (t.deleted = false → s.deleted = false) := by
  cases transaction with
  | run writes =>
    obtain ⟨hevents, hdeleted, -⟩ := Stored.withSession_ok h
    exact ⟨hs.withSession h, hevents ▸ List.prefix_append _ _, fun ht => hdeleted ▸ ht⟩
  | delete writes =>
    obtain ⟨u, hu, rfl⟩ := Option.map_eq_some_iff.1 h
    obtain ⟨hevents, -, -⟩ := Stored.withSession_ok hu
    have hheld : u.Held := hs.withSession hu
    have hprefix : s.stream.events <+: u.stream.events := hevents ▸ List.prefix_append _ _
    exact ⟨hheld, hprefix, fun ht => by cases ht⟩

theorem Stored.Held.run {s t : Stored J} {transactions : List (Transaction J)} (hs : s.Held)
    (h : runTrace (Stored.step size) s transactions = some t) :
    t.Held ∧ s.stream.events <+: t.stream.events ∧ (t.deleted = false → s.deleted = false) := by
  refine runTrace_invariant (I := fun t => t.Held ∧ s.stream.events <+: t.stream.events ∧
    (t.deleted = false → s.deleted = false)) ?_ (stepsMeet_true s transactions) h
    ⟨hs, List.prefix_refl _, id⟩
  rintro u a v - hstep ⟨hu, hprefix, hdeleted⟩
  obtain ⟨hv, hnext, hkept⟩ := hu.step hstep
  exact ⟨hv, hprefix.trans hnext, fun h => hdeleted (hkept h)⟩

end Log

def Fits (size : SessionEvent J → Nat) (events : List (SessionEvent J)) : Prop :=
  events.length ≤ 256 ∧ (events.length ≤ 1 ∨ (events.map size).sum ≤ 67108864)

theorem pruned_eq_false_iff {size : SessionEvent J → Nat} {events : List (SessionEvent J)} :
    pruned events.length (events.map size).sum = false ↔ Fits size events := by
  simp only [pruned, Fits, Bool.or_eq_false_iff, Bool.and_eq_false_iff, decide_eq_false_iff_not]
  omega

def Stored.Pruned (s : Stored J) (sequence : Nat) : Prop :=
  0 < sequence ∧ sequence ≤ s.stream.events.length ∧ ∀ row ∈ s.log.rows, row.1 ≠ sequence

theorem Stored.pruned_iff {s : Stored J} {dropped sequence : Nat}
    (h : s.log.Holds s.stream.events dropped) :
    s.Pruned sequence ↔ 0 < sequence ∧ sequence ≤ dropped := by
  have hstored : (∃ row ∈ s.log.rows, row.1 = sequence) ↔
      dropped < sequence ∧ sequence ≤ s.stream.events.length := by
    rw [h.rows, exists_mem_numbered, List.length_drop]
    have := h.bound
    omega
  have hnone : (∀ row ∈ s.log.rows, row.1 ≠ sequence) ↔ ¬∃ row ∈ s.log.rows, row.1 = sequence := by
    simp only [not_exists, not_and, ne_eq]
  rw [Stored.Pruned, hnone, hstored]
  have := h.bound
  omega

theorem listSessionEvents_eq {size : SessionEvent J → Nat} {first second : Stored J}
    (hfirst : first.deleted = false)
    (hsecond : second.deleted = false) (after : Nat) :
    listSessionEvents size first second after =
      match Replay.read first.log.latest after (second.log.page deferred size pageLimit after) with
      | none => .error .streamGap
      | some rows => .ok rows := by
  have hnonneg : ¬(after : Int) < 0 := by omega
  simp only [listSessionEvents, if_neg hnonneg, hfirst, hsecond, Bool.false_eq_true, if_false,
    Int.toNat_natCast]

section Readers

variable [DecidableEq J] (size : SessionEvent J → Nat)

/-- The events from `after + 1` on without a gap, at least one if there is one, or `ErrStreamGap`
exactly if the event `after + 1` is pruned. -/
def ListsGapless (first second : Stored J) : Prop :=
  ∀ after : Nat,
    (second.Pruned (after + 1) → listSessionEvents size first second after = .error .streamGap) ∧
    (¬second.Pruned (after + 1) → ∃ n, listSessionEvents size first second after =
        .ok (numbered (after + 1) ((second.stream.events.drop after).take n)) ∧
      (after < second.stream.events.length → 0 < n))

def Stored.pages (s : Stored J) (fuel after : Nat) : Option (List (Nat × SessionEvent J)) :=
  Replay.readAll (fun after => (listSessionEvents size s s after).toOption) fuel after

variable {size}

theorem Stored.Held.listsGapless {first second : Stored J}
    {transactions : List (Transaction J)} (h : first.Held)
    (hrun : runTrace (Stored.step size) first transactions = some second)
    (hdeleted : second.deleted = false) : ListsGapless size first second := by
  obtain ⟨⟨dropped, hheld⟩, hprefix, hkept⟩ := h.run hrun
  obtain ⟨earlier, hearlier⟩ := h
  have hlatest : first.log.latest ≤ second.stream.events.length := by
    rw [hearlier.latest]
    exact hprefix.length_le
  intro after
  have hread : (after < dropped → Replay.read first.log.latest after
      (second.log.page deferred size pageLimit after) = none) ∧ (dropped ≤ after → _) :=
    hheld.read deferred_tightens deferred_first (by decide) hlatest after
  rw [listSessionEvents_eq (hkept hdeleted) hdeleted, Stored.pruned_iff hheld]
  constructor
  · rintro ⟨-, hgone⟩
    rw [hread.1 hgone]
  · intro hthere
    obtain ⟨n, hnext, hpos⟩ := hread.2 (by omega)
    exact ⟨n, by rw [hnext], hpos⟩

theorem Stored.Held.pages {s t : Stored J} {writes : List (Action J)} (h : s.Held)
    (htx : s.withSession size writes = some t) (hdeleted : t.deleted = false) {fuel : Nat}
    (hfuel : (s.emitted t).length < fuel) :
    (Fits size (s.emitted t) → t.pages size fuel s.stream.events.length =
      some (numbered (s.stream.events.length + 1) (s.emitted t))) ∧
    (¬Fits size (s.emitted t) →
      listSessionEvents size t t s.stream.events.length = .error .streamGap) := by
  obtain ⟨dropped, hs⟩ := h
  obtain ⟨hevents, -, hlog⟩ := Stored.withSession_ok htx
  obtain ⟨kept, hkept, hheld⟩ : ∃ kept,
      (s.emitted t ≠ [] → ((s.emitted t).length ≤ kept ↔ Fits size (s.emitted t))) ∧
      t.log.Holds t.stream.events (t.stream.events.length - kept) := by
    refine ⟨_, fun hne => (s.log.le_kept pruned_tightens hne).trans pruned_eq_false_iff, ?_⟩
    rw [hlog, hevents]
    exact (hs.append (s.emitted t)).prune pruned_tightens pruned_first
  have hnext : (fun after : Nat => (listSessionEvents size t t after).toOption) =
      fun after => Replay.read t.log.latest after (t.log.page deferred size pageLimit after) := by
    funext after
    rw [listSessionEvents_eq hdeleted hdeleted]
    split <;> rename_i hread <;> rw [hread] <;> rfl
  have hlen : t.stream.events.length = s.stream.events.length + (s.emitted t).length := by
    rw [hevents, List.length_append]
  constructor
  · intro hfits
    rw [Stored.pages, hnext]
    have hthere : t.stream.events.length - kept ≤ s.stream.events.length := by
      by_cases hne : s.emitted t = []
      · rw [hlen, hne, List.length_nil]
        omega
      · have := (hkept hne).2 hfits
        omega
    have hall : Replay.readAll (fun after => Replay.read t.log.latest after
        (t.log.page deferred size pageLimit after)) fuel s.stream.events.length = some _ :=
      hheld.readAll deferred_tightens deferred_first (by decide) s.stream.events.length hthere
        (by omega)
    rw [hall, Stored.emitted]
  · intro hfits
    have hne : s.emitted t ≠ [] := fun hnil => hfits (by simp [hnil, Fits])
    have hgone : s.stream.events.length < t.stream.events.length - kept := by
      have := mt (hkept hne).1 hfits
      omega
    rw [listSessionEvents_eq hdeleted hdeleted,
      (hheld.read deferred_tightens deferred_first (by decide) hheld.latest.le _).1 hgone]

/-- A reader that is caught up gets every event of the next transaction in order, if they fit into
the window of the log, and a gap at once if not. -/
theorem caught_up_reader (size : SessionEvent J → Nat) (history : List (Transaction J))
    (s : Stored J) (hs : runTrace (Stored.step size) {} history = some s) :
    (∀ writes t fuel, s.withSession size writes = some t → t.deleted = false →
      (s.emitted t).length < fuel →
      (Fits size (s.emitted t) →
        t.pages size fuel s.log.latest = some (numbered (s.log.latest + 1) (s.emitted t))) ∧
      (¬Fits size (s.emitted t) →
        listSessionEvents size t t s.log.latest = .error .streamGap)) ∧
    ∀ later t, runTrace (Stored.step size) s later = some t → t.deleted = false →
      ListsGapless size s t := by
  have hempty : ({} : Stored J).Held := ⟨0, Replay.holds_empty⟩
  have hheld := (hempty.run hs).1
  constructor
  · intro writes t fuel htx hdeleted hfuel
    obtain ⟨dropped, hlog⟩ := id hheld
    rw [hlog.latest]
    exact hheld.pages htx hdeleted hfuel
  · intro later t hrun hdeleted
    exact hheld.listsGapless hrun hdeleted

end Readers

def payloadBytes : SessionEvent Unit → Nat := fun _ => 400

def runningTurn : List (Transaction Unit) :=
    [.run [.createTurn], .run [.transition 0 .inProgress none]]

def messageBatch (n : Nat) : List (Action Unit) :=
  appendTurnEvents 0 1 ((List.range n).map (fun i =>
    .outputMessage (String.ofList (List.replicate (i + 1) 'm')) "completed" "" (some "")))

def afterBatch (n : Nat) : Option (Stored Unit × Stored Unit) := do
  let s ← runTrace (Stored.step payloadBytes) {} runningTurn
  let t ← s.withSession payloadBytes (messageBatch n)
  return (s, t)

theorem afterBatch_some {n : Nat} {p : Stored Unit × Stored Unit → Bool}
    (h : (afterBatch n).map p = some true) : ∃ s t,
      runTrace (Stored.step payloadBytes) {} runningTurn = some s ∧
      s.withSession payloadBytes (messageBatch n) = some t ∧ p (s, t) = true := by
  obtain ⟨⟨s, t⟩, hbatch, hp⟩ := Option.map_eq_some_iff.1 h
  simp only [afterBatch, Option.bind_eq_bind, Option.bind_eq_some_iff, Option.pure_def,
    Option.some.injEq, Prod.mk.injEq] at hbatch
  obtain ⟨s, hs, t, ht, rfl, rfl⟩ := hbatch
  exact ⟨s, t, hs, ht, hp⟩

theorem caught_up_reader_batch : ∃ s t,
    runTrace (Stored.step payloadBytes) {} runningTurn = some s ∧
    s.withSession payloadBytes (messageBatch 8) = some t ∧ (s.emitted t).length = 40 ∧
    t.pages payloadBytes 41 s.log.latest = some (numbered (s.log.latest + 1) (s.emitted t)) := by
  obtain ⟨s, t, hs, ht, hp⟩ := afterBatch_some
    (p := fun p => !p.2.deleted && (p.1.emitted p.2).length == 40) (n := 8) (by decide +kernel)
  simp only [Bool.and_eq_true, Bool.not_eq_true', beq_iff_eq] at hp
  have hfits : Fits payloadBytes (s.emitted t) := by
    have hbytes : (s.emitted t).map payloadBytes = List.replicate 40 400 := by
      rw [← hp.2]
      exact List.map_const' ..
    exact ⟨by omega, .inr (by simp [hbytes])⟩
  exact ⟨s, t, hs, ht, hp.2, ((caught_up_reader payloadBytes runningTurn s hs).1 _ t 41 ht hp.1
    (by omega)).1 hfits⟩

/-- `AppendTurnEvents` with 64 events loses the first of them to a reader that is caught up. -/
theorem caught_up_reader_loses_batch : (messageBatch 64).length = 64 ∧ ∃ s t,
    runTrace (Stored.step payloadBytes) {} runningTurn = some s ∧
    s.withSession payloadBytes (messageBatch 64) = some t ∧ (s.emitted t).length = 320 ∧
    listSessionEvents payloadBytes t t s.log.latest = .error .streamGap := by
  refine ⟨by decide +kernel, ?_⟩
  obtain ⟨s, t, hs, ht, hp⟩ := afterBatch_some (n := 64)
    (p := fun p => (p.1.emitted p.2).length == 320 &&
      listSessionEvents payloadBytes p.2 p.2 p.1.log.latest == .error .streamGap)
    (by decide +kernel)
  simp only [Bool.and_eq_true, beq_iff_eq] at hp
  exact ⟨s, t, hs, ht, hp.1, hp.2⟩

end Parsar.Items
