import Parsar.Items.Retention

namespace Parsar.Items

variable {J : Type}

/-- `serveSessionEvents`, with the Session it reads. It ends with an error of the store: silently
after `ErrNotFound`, else with an error event. -/
structure Live (J : Type) where
  session : Stored J
  cursor : Nat
  sent : List (Nat × SessionEvent J) := []
  ended : Option ListError := none

/-- A transaction of the Session, or one turn of the loop with those between its two reads. -/
inductive LiveStep (J : Type) where
  | write (transaction : Transaction J)
  | poll (between : List (Transaction J))

section Loop

variable [DecidableEq J] (size : SessionEvent J → Nat)

def Live.poll (l : Live J) (session : Stored J) : Live J :=
  match listSessionEvents size l.session session l.cursor with
  | .error e => { l with session, ended := some e }
  | .ok changes => { l with
      session
      cursor := Replay.advance l.cursor changes
      sent := l.sent ++ changes }

def Live.step (l : Live J) : LiveStep J → Option (Live J)
  | .write transaction => (l.session.step size transaction).map ({ l with session := · })
  | .poll between =>
    if l.ended.isSome then none
    else (runTrace (Stored.step size) l.session between).map (l.poll size)

end Loop

/-- The stream has sent `events`, the next ones that were recorded after the first `start`. -/
structure Live.Sends (l : Live J) (start : Nat) (events : List (SessionEvent J)) : Prop where
  held : l.session.Held
  cursor : l.cursor = start + events.length
  sent : l.sent = numbered (start + 1) events
  recorded : events <+: l.session.stream.events.drop start

section Run

variable [DecidableEq J] {size : SessionEvent J → Nat} {l l' : Live J} {start : Nat} {t : Stored J}
  {events : List (SessionEvent J)} {between : List (Transaction J)}

theorem Live.Sends.session (hl : l.Sends start events)
    (hrun : runTrace (Stored.step size) l.session between = some t) :
    Sends { l with session := t } start events := by
  obtain ⟨ht, ⟨more, hmore⟩, -⟩ := hl.held.run hrun
  refine ⟨ht, hl.cursor, hl.sent, hl.recorded.trans ?_⟩
  rw [← hmore, List.drop_append]
  exact List.prefix_append _ _

theorem Live.Sends.listed (hl : l.Sends start events)
    (hrun : runTrace (Stored.step size) l.session between = some t)
    {changes : List (Nat × SessionEvent J)}
    (h : listSessionEvents size l.session t l.cursor = .ok changes) :
    ∃ next, changes = numbered (l.cursor + 1) next ∧ next <+: t.stream.events.drop l.cursor := by
  cases hdeleted : t.deleted with
  | true =>
    refine ⟨[], ?_, List.nil_prefix⟩
    unfold listSessionEvents Replay.read at h
    simp only [hdeleted, if_true] at h
    split_ifs at h
    cases h
    rfl
  | false =>
    obtain ⟨hgone, hthere⟩ := hl.held.listsGapless hrun hdeleted l.cursor
    by_cases hpruned : t.Pruned (l.cursor + 1)
    · rw [hgone hpruned] at h
      cases h
    · obtain ⟨n, hn, -⟩ := hthere hpruned
      rw [hn] at h
      cases h
      exact ⟨_, rfl, List.take_prefix n _⟩

theorem Live.Sends.poll (hl : l.Sends start events)
    (hrun : runTrace (Stored.step size) l.session between = some t) :
    ∃ events, (l.poll size t).Sends start events := by
  have ht := hl.session hrun
  unfold Live.poll
  split
  · exact ⟨events, ht.held, hl.cursor, hl.sent, ht.recorded⟩
  next changes h =>
    obtain ⟨next, rfl, hnext⟩ := hl.listed hrun h
    obtain ⟨rest, hrest⟩ := ht.recorded
    rw [hl.cursor, ← List.drop_drop, ← hrest, List.drop_left] at hnext
    refine ⟨events ++ next, ht.held, ?_, ?_, ?_⟩
    · dsimp only
      rw [Replay.advance_numbered, hl.cursor, List.length_append, Nat.add_assoc]
    · rw [numbered_append, hl.sent, hl.cursor, Nat.add_right_comm]
    · rw [← hrest]
      exact (List.prefix_append_right_inj events).mpr hnext

theorem Live.Sends.step (hl : ∃ events, l.Sends start events) {a : LiveStep J}
    (h : l.step size a = some l') : ∃ events, l'.Sends start events := by
  obtain ⟨events, hl⟩ := hl
  cases a with
  | write transaction =>
    obtain ⟨t, ht, rfl⟩ := Option.map_eq_some_iff.mp h
    have hrun : runTrace (Stored.step size) l.session [transaction] = some t := by
      simp [runTrace, ht]
    exact ⟨events, hl.session hrun⟩
  | poll between =>
    simp only [Live.step, Option.ite_none_left_eq_some] at h
    obtain ⟨t, ht, rfl⟩ := Option.map_eq_some_iff.mp h.2
    exact hl.poll ht

/-- The stream has sent the first ones of the events recorded since its start, in order and each
once. Its cursor is at the last one sent; the next poll sends more if there are more, and fails exactly if
the next one is pruned. -/
structure Live.Exact (size : SessionEvent J → Nat) (l : Live J) (start : Nat) : Prop where
  sent : ∃ events, events <+: l.session.stream.events.drop start ∧
    l.sent = numbered (start + 1) events
  cursor : l.cursor = start + l.sent.length
  next : ∀ between t, l.step size (.poll between) = some t → t.session.deleted = false →
    (t.session.Pruned (l.cursor + 1) → t.ended = some .streamGap) ∧
    (¬t.session.Pruned (l.cursor + 1) → t.ended = none ∧
      (l.cursor < t.session.stream.events.length → l.sent.length < t.sent.length))

theorem live_stream_exact (history : List (Transaction J)) {s : Stored J}
    {steps : List (LiveStep J)}
    (hs : runTrace (Stored.step size) {} history = some s)
    (hrun : runTrace (Live.step size) { session := s, cursor := s.log.latest } steps = some l) :
    l.Exact size s.stream.events.length := by
  have hempty : ({} : Stored J).Held := ⟨0, Replay.holds_empty⟩
  have hheld := (hempty.run hs).1
  obtain ⟨dropped, hlog⟩ := id hheld
  obtain ⟨events, hl⟩ := runTrace_invariant (fun _ _ _ _ h hs => Live.Sends.step hs h)
    (stepsMeet_true _ steps) hrun ⟨[], hheld, hlog.latest, rfl, List.nil_prefix⟩
  have hcursor : l.cursor = s.stream.events.length + l.sent.length := by
    rw [hl.sent, length_numbered, hl.cursor]
  refine ⟨⟨events, hl.recorded, hl.sent⟩, hcursor, fun between l' hpoll hdeleted => ?_⟩
  simp only [Live.step, Option.ite_none_left_eq_some, Option.isSome_iff_ne_none, not_not] at hpoll
  obtain ⟨hlive, hpoll⟩ := hpoll
  obtain ⟨t, ht, rfl⟩ := Option.map_eq_some_iff.mp hpoll
  have hsame : (l.poll size t).session = t := by
    unfold Live.poll
    split <;> rfl
  rw [hsame] at hdeleted ⊢
  obtain ⟨hgone, hthere⟩ := hl.held.listsGapless ht hdeleted l.cursor
  refine ⟨fun hpruned => ?_, fun hpruned => ?_⟩
  · simp [Live.poll, hgone hpruned]
  · obtain ⟨n, hn, hpos⟩ := hthere hpruned
    simp only [Live.poll, hn]
    refine ⟨hlive, fun hmore => ?_⟩
    have := hpos hmore
    simp only [List.length_append, length_numbered, List.length_take, List.length_drop]
    omega

end Run

def liveSteps : List (LiveStep Unit) := [.write (.run [.createTurn]), .poll []]

theorem created_turn_sent : ∃ l, runTrace (Live.step payloadBytes) { session := {}, cursor := 0 }
    liveSteps = some l ∧ l.sent.length = 2 ∧ l.Exact payloadBytes 0 := by
  obtain ⟨l, hl⟩ : ∃ l, runTrace (Live.step payloadBytes) { session := {}, cursor := 0 }
      liveSteps = some l := ⟨_, rfl⟩
  refine ⟨l, hl, ?_, live_stream_exact [] rfl hl⟩
  cases hl
  rfl

end Parsar.Items
