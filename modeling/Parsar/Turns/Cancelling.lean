import Parsar.Turns.Lifecycle

namespace Parsar.Turns

open Tx Relation

variable {π : Type} [EmptyCollection π] {P : Permits π} {s t : Session π}
  {now : Int} {key : String}

def TurnInput.Timely (row : TurnInput π) : Prop :=
  row.input.isMessage = true → ∃ turn, row.target = some turn ∧ turn.status.active = true ∧
    turn.cancelRequestedAt = none

def Session.added (s t : Session π) : List (TurnInput π) := t.inputs.drop s.inputs.length

def messageAfterCancel : List (Input π) → Bool
  | [] => false
  | .cancel :: batch => batch.any (·.isMessage)
  | .message _ :: batch | .toolResult .. :: batch => messageAfterCancel batch

/-- No message of the batch meets a Turn that is being cancelled, also by the batch itself. -/
def Session.Calm (s : Session π) (batch : List (Input π)) : Prop :=
  ∀ active ∈ s.getActiveTurn, active.2.status ≠ .queued →
    (active.2.cancelRequestedAt = none → messageAfterCancel batch = false) ∧
      (active.2.cancelRequestedAt ≠ none → ∀ input ∈ batch, input.isMessage = false)

instance (s : Session π) (batch : List (Input π)) : Decidable (s.Calm batch) :=
  inferInstanceAs (Decidable (∀ active ∈ s.getActiveTurn, _))

/-- The call adds no message to a Turn that is being cancelled. -/
def Op.Timely (s : Session π) : Op π → Prop
  | .submitInputs _ key batch => s.inputBatch key = [] → s.Calm batch
  | .reserveEnvironmentInput _ key batch =>
    s.findReservation key = none → s.inputBatch key = [] → s.appends = true → s.Calm batch
  | _ => True

instance (s : Session π) (op : Op π) : Decidable (op.Timely s) := by
  unfold Op.Timely
  split <;> infer_instance

def Permits.uncancelled : Permits π :=
  { message := fun turn => turn.cancelRequestedAt = none, new := fun _ => rfl }

theorem Write.inputs (h : Write P s t) :
    t.inputs = s.inputs ∨ ∃ row, t.inputs = s.inputs ++ [row] ∧
      (row.input.isMessage = true → ∃ turn, row.target = some turn ∧ turn.status.active = true ∧
        P.message turn) := by
  cases h with
  | insertInput turn key input position hkey hmessage =>
    refine .inr ⟨_, rfl, fun hinput => ?_⟩
    obtain ⟨id, row, hactive, rfl, hP⟩ := hmessage hinput
    obtain ⟨hrow, hstatus⟩ := Session.getActiveTurn_eq_some hactive
    exact ⟨row, hrow, hstatus, hP⟩
  | requestTurnCancel | finish | stage => exact .inl (by simp)
  | _ => exact .inl rfl

theorem Writes.inputs (h : Writes P s t) : ∃ rows, t.inputs = s.inputs ++ rows ∧
    ∀ row ∈ rows, row.input.isMessage = true →
      ∃ turn, row.target = some turn ∧ turn.status.active = true ∧ P.message turn := by
  induction h with
  | refl => exact ⟨[], by simp, fun row hrow => by cases hrow⟩
  | tail _ hlast ih =>
    obtain ⟨rows, hrows, hgood⟩ := ih
    rcases hlast.inputs with heq | ⟨row, heq, hrow⟩
    · exact ⟨rows, heq.trans hrows, hgood⟩
    · refine ⟨rows ++ [row], by rw [heq, hrows, List.append_assoc], fun row' hrow' => ?_⟩
      rcases mem_concat hrow' with hold | rfl
      · exact hgood row' hold
      · exact hrow

omit [EmptyCollection π] in
theorem Session.mem_added {rows : List (TurnInput π)} (h : t.inputs = s.inputs ++ rows) :
    s.added t = rows := by
  rw [Session.added, h, List.drop_left]

def Session.QueuedClean (s : Session π) : Prop :=
  ∀ turn ∈ s.turns, turn.status = .queued → turn.cancelRequestedAt = none

theorem Session.QueuedClean.go (hs : s.QueuedClean) (h : s.TurnsGo t) : t.QueuedClean := by
  rcases h with ⟨-, now, hturns⟩ | hgrows
  · intro turn hturn hqueued
    rw [hturns, List.mem_append, List.mem_singleton] at hturn
    rcases hturn with hold | rfl
    · exact hs turn hold hqueued
    · rfl
  · refine hgrows.forall_mem ?_ (fun _ hfalse => hfalse.elim) hs
    intro x y hx hsteps hqueued
    have hyx := hsteps.queued hqueued
    subst hyx
    exact hx hqueued

variable [DecidableEq π]

theorem Reached.queuedClean (h : Reached s) : s.QueuedClean := by
  refine h.invariant (fun _ turn hturn => by cases hturn) fun _ _ hwrite hs => ?_
  exact hs.go hwrite.turns

omit [DecidableEq π] [EmptyCollection π] in
theorem Session.OneActive.getActiveTurn (hs : s.OneActive) {id : TurnID} {turn : Turn π}
    (hturn : s.turns[id]? = some turn) (hactive : turn.status.active = true) :
    s.getActiveTurn = some (id, turn) := by
  cases hfound : s.getActiveTurn with
  | none =>
    have := Session.getActiveTurn_eq_none.mp hfound turn (List.mem_of_getElem? hturn)
    rw [hactive] at this
    cases this
  | some found =>
    obtain ⟨fid, fturn⟩ := found
    obtain ⟨hfturn, hfactive⟩ := Session.getActiveTurn_eq_some hfound
    have hid := hs fid id fturn turn hfturn hturn hfactive hactive
    rw [← hid, hfturn] at hturn
    cases hturn
    rw [← hid]

variable {position : Nat} {input : Input π} {r : InputReceipt} {batch : List (Input π)}

theorem admitInput_turnsGo
    (h : admitInput now key position input s = .ok (r, t)) : s.TurnsGo t := by
  obtain hsame | ⟨hidle, hnew⟩ | ⟨-, id, hcancel⟩ := admitInput_turns h
  · exact .inr (.of_eq Turn.Steps.refl hsame)
  · exact .inl ⟨hidle, now, hnew⟩
  · exact .inr (hcancel ▸ .modify Turn.Steps.refl (fun turn => turn.steps_requestCancel now) id)

theorem admitInput_cancel_active (hs : s.OneActive)
    (h : admitInput now key position .cancel s = .ok (r, t)) {id : TurnID} {turn : Turn π}
    (hactive : t.getActiveTurn = some (id, turn)) :
    ∃ old, s.getActiveTurn = some (id, old) ∧ old.status ≠ .queued ∧ turn.status = old.status ∧
      turn.cancelRequestedAt ≠ none := by
  obtain ⟨hturn, hstatus⟩ := Session.getActiveTurn_eq_some hactive
  rcases admitInput_cancel h with ⟨id', old, hold, rfl, -⟩ | ⟨hnone, rfl, -⟩
  · obtain ⟨hoturn, hostatus⟩ := Session.getActiveTurn_eq_some hold
    rw [(Session.requestTurnCancel_frame ..).1, List.getElem?_modify, Option.map_eq_map,
      Option.map_eq_some_iff] at hturn
    obtain ⟨x, hx : s.turns[id]? = some x, rfl⟩ := hturn
    by_cases hid : id' = id
    · subst hid
      rw [hoturn] at hx
      cases hx
      simp only [if_true] at hstatus ⊢
      have hqueued : old.status ≠ .queued := by
        intro hqueued
        rw [Turn.active_requestCancel hqueued] at hstatus
        cases hstatus
      refine ⟨old, hold, hqueued, ?_, ?_⟩
      · simp [Turn.requestCancel, hostatus, hqueued]
      · simp [Turn.requestCancel, hostatus]
    · simp only [hid, if_false] at hstatus
      exact absurd (hs id' id old x hoturn hx hostatus hstatus) hid
  · have hsactive : s.getActiveTurn = some (id, turn) := hactive
    rw [hnone] at hsactive
    cases hsactive

theorem getActiveTurn_of_cancel (hs : s.OneActive)
    (h : admitInput now key position .cancel s = .ok (r, t)) {id : TurnID} {turn : Turn π}
    (hactive : s.getActiveTurn = some (id, turn)) (hqueued : turn.status ≠ .queued) :
    t.getActiveTurn = some (id, turn.requestCancel now) := by
  have ht := hs.go (admitInput_turnsGo h)
  obtain ⟨hturn, hstatus⟩ := Session.getActiveTurn_eq_some hactive
  rcases admitInput_cancel h with ⟨id', old, hold, rfl, -⟩ | ⟨hnone, -, -⟩
  · rw [hactive] at hold
    cases hold
    apply ht.getActiveTurn
    · simp [Session.insertInput, hturn]
    · simp [Turn.requestCancel, hstatus, hqueued]
  · rw [hactive] at hnone
    cases hnone

theorem getActiveTurn_of_not_cancel
    (hinput : input ≠ .cancel) (h : admitInput now key position input s = .ok (r, t))
    {active : TurnID × Turn π} (hactive : s.getActiveTurn = some active) :
    t.getActiveTurn = some active := by
  obtain hsame | ⟨hidle, -⟩ | ⟨hcancel, -⟩ := admitInput_turns h
  · rw [Session.getActiveTurn_congr hsame, hactive]
  · rw [hactive] at hidle
    cases hidle
  · exact absurd hcancel hinput

omit [DecidableEq π] [EmptyCollection π] in
theorem messageAfterCancel_cons (hinput : input ≠ .cancel) :
    messageAfterCancel (input :: batch) = messageAfterCancel batch := by
  cases input with
  | cancel => exact absurd rfl hinput
  | _ => rfl

omit [DecidableEq π] [EmptyCollection π] in
theorem messageAfterCancel_cancel :
    messageAfterCancel (.cancel :: batch) = false ↔ ∀ input ∈ batch, input.isMessage = false := by
  simp [messageAfterCancel]

theorem Session.Calm.tail (hs : s.OneActive) (hcalm : s.Calm (input :: batch))
    (h : admitInput now key position input s = .ok (r, t)) : t.Calm batch := by
  rintro ⟨id, turn⟩ hactive hqueued
  by_cases hinput : input = .cancel
  · subst hinput
    obtain ⟨old, hold, holdqueued, -, hcancelled⟩ := admitInput_cancel_active hs h hactive
    have hno : ∀ input ∈ batch, input.isMessage = false := by
      obtain ⟨hclear, hasked⟩ := hcalm (id, old) hold holdqueued
      by_cases hnone : old.cancelRequestedAt = none
      · exact messageAfterCancel_cancel.mp (hclear hnone)
      · exact fun input hmem => hasked hnone input (List.mem_cons_of_mem _ hmem)
    exact ⟨fun hnone => absurd hnone hcancelled, fun _ => hno⟩
  · cases hwas : s.getActiveTurn with
    | none =>
      obtain hsame | ⟨hidle, hnew⟩ | ⟨hcancel, -⟩ := admitInput_turns h
      · rw [Session.getActiveTurn_congr hsame, hwas] at hactive
        cases hactive
      · -- a Turn that a message has just created is queued
        rw [Session.getActiveTurn_congr hnew, Session.getActiveTurn_createTurn hidle] at hactive
        cases hactive
        exact absurd rfl hqueued
      · exact absurd hcancel hinput
    | some active =>
      have hsame := getActiveTurn_of_not_cancel hinput h hwas
      rw [hactive] at hsame
      cases hsame
      obtain ⟨hclear, hasked⟩ := hcalm (id, turn) hwas hqueued
      rw [messageAfterCancel_cons hinput] at hclear
      exact ⟨hclear, fun hne input' hmem => hasked hne input' (List.mem_cons_of_mem _ hmem)⟩

theorem Session.Calm.cons (hs : s.OneActive) (h : admitInput now key position input s = .ok (r, t))
    (hcalm : t.Calm batch)
    (hhead : input.isMessage = true → ∀ id turn, s.getActiveTurn = some (id, turn) →
      turn.cancelRequestedAt = none) : s.Calm (input :: batch) := by
  rintro ⟨id, turn⟩ hactive hqueued
  by_cases hinput : input = .cancel
  · subst hinput
    have hactive' := getActiveTurn_of_cancel hs h hactive hqueued
    obtain ⟨-, hstatus⟩ := Session.getActiveTurn_eq_some hactive
    have hno := (hcalm (id, _) hactive' (by simp [Turn.requestCancel, hstatus, hqueued])).2
      (by simp [Turn.requestCancel, hstatus])
    refine ⟨fun _ => messageAfterCancel_cancel.mpr hno, fun _ input hmem => ?_⟩
    rcases List.mem_cons.mp hmem with rfl | hmem
    · rfl
    · exact hno input hmem
  · obtain ⟨hclear, hasked⟩ :=
      hcalm (id, turn) (getActiveTurn_of_not_cancel hinput h hactive) hqueued
    rw [messageAfterCancel_cons hinput]
    refine ⟨hclear, fun hne input' hmem => ?_⟩
    rcases List.mem_cons.mp hmem with rfl | hmem
    · cases hmessage : input'.isMessage with
      | false => rfl
      | true => exact absurd (hhead hmessage id turn hactive) hne
    · exact hasked hne input' hmem

theorem admitsFrom_of_calm (hs : s.OneActive) (hclean : s.QueuedClean)
    (hcalm : s.Calm batch) : AdmitsFrom .uncancelled now key s batch := by
  induction batch generalizing s with
  | nil => trivial
  | cons input batch ih =>
    refine ⟨fun hmessage id turn hactive => ?_, fun position r t h => ?_⟩
    · obtain ⟨hturn, -⟩ := Session.getActiveTurn_eq_some hactive
      by_cases hqueued : turn.status = .queued
      · exact hclean turn (List.mem_of_getElem? hturn) hqueued
      · by_contra hne
        have := (hcalm (id, turn) hactive hqueued).2 hne input List.mem_cons_self
        rw [hmessage] at this
        cases this
    · have hgo := admitInput_turnsGo h
      exact ih (hs.go hgo) (hclean.go hgo) (hcalm.tail hs h)

theorem admitInput_row (h : admitInput now key position input s = .ok (r, t)) : ∃ row : TurnInput π,
    t.inputs = s.inputs ++ [row] ∧ t.sequence = row.sequence ∧ row.sequence = s.sequence + 1 ∧
      row.key = key ∧ row.input = input ∧ row.position = position ∧
      r = { sequence := row.sequence, turn := row.turn, replayed := false } := by
  cases input with
  | message payload =>
    rcases admitInput_message h with ⟨id, turn, -, rfl, rfl⟩ | ⟨-, rfl, rfl⟩
    all_goals exact ⟨_, rfl, rfl, rfl, rfl, rfl, rfl, rfl⟩
  | cancel =>
    rcases admitInput_cancel h with ⟨id, turn, -, rfl, rfl⟩ | ⟨-, rfl, rfl⟩
    · refine ⟨_, (Session.requestTurnCancel_frame ..).2.2.2.1, ?_, rfl, rfl, rfl, rfl, rfl⟩
      exact (Session.requestTurnCancel_frame ..).2.2.1
    · exact ⟨_, rfl, rfl, rfl, rfl, rfl, rfl, rfl⟩
  | toolResult id callID result =>
    obtain ⟨turn, call, -, -, rfl, ⟨-, rfl⟩ | ⟨-, -, rfl⟩⟩ := admitInput_toolResult h
    all_goals exact ⟨_, rfl, rfl, rfl, rfl, rfl, rfl, rfl⟩

def TurnInput.receipt (row : TurnInput π) : InputReceipt :=
  { sequence := row.sequence, turn := row.turn, replayed := false }

theorem admitInputs_rows {rs : List InputReceipt}
    (h : admitInputs now key position batch s = .ok (rs, t)) :
    ∃ rows : List (TurnInput π), t.inputs = s.inputs ++ rows ∧ (∀ row ∈ rows, row.key = key) ∧
      rows.map (·.input) = batch ∧ rows.map (·.position) = List.range' position batch.length ∧
      rows.map (·.sequence) = List.range' (s.sequence + 1) batch.length ∧
      rs = rows.map (·.receipt) := by
  induction batch generalizing s position rs with
  | nil =>
    simp only [admitInputs, pure_ok] at h
    exact ⟨[], by simp [h.2], by simp, rfl, rfl, rfl, by simp [h.1.symm]⟩
  | cons input batch ih =>
    obtain ⟨r, u, rest, hr, hrest, rfl⟩ := admitInputs_cons h
    obtain ⟨row, hrow, hu, hsequence, hkey, hinput, hposition, rfl⟩ := admitInput_row hr
    obtain ⟨rows, hrows, hkeys, hinputs, hpositions, hsequences, rfl⟩ := ih hrest
    refine ⟨row :: rows, by rw [hrows, hrow, List.append_assoc, List.singleton_append], ?_, ?_, ?_,
      ?_, rfl⟩
    · intro other hother
      rcases List.mem_cons.mp hother with rfl | hother
      · exact hkey
      · exact hkeys other hother
    · rw [List.map_cons, hinput, hinputs]
    · rw [List.map_cons, hposition, hpositions, List.length_cons, List.range'_succ]
    · rw [List.map_cons, hsequences, hu, hsequence, List.length_cons, List.range'_succ]

theorem admitInputs_untimely {rs : List InputReceipt} (hs : s.OneActive) (hnot : ¬s.Calm batch)
    (h : admitInputs now key position batch s = .ok (rs, t)) :
    ∃ row ∈ s.added t, ¬row.Timely := by
  induction batch generalizing s position rs with
  | nil =>
    refine absurd (fun active _ _ => ⟨fun _ => rfl, fun _ input hinput => ?_⟩) hnot
    cases hinput
  | cons input batch ih =>
    obtain ⟨r, u, rest, hr, hrest, rfl⟩ := admitInputs_cons h
    obtain ⟨row, hrow, -⟩ := admitInput_row hr
    obtain ⟨rows, hrows, -⟩ := admitInputs_rows hrest
    have hadded : s.added t = row :: rows := by
      apply Session.mem_added
      rw [hrows, hrow, List.append_assoc, List.singleton_append]
    by_cases hcalm : u.Calm batch
    · -- the head is the message
      have hhead : ¬(input.isMessage = true → ∀ id turn, s.getActiveTurn = some (id, turn) →
          turn.cancelRequestedAt = none) := fun hhead => hnot (hcalm.cons hs hr hhead)
      simp only [Classical.not_imp, not_forall] at hhead
      obtain ⟨hmessage, id, turn, hactive, hcancelled⟩ := hhead
      refine ⟨row, by simp [hadded], fun htimely => ?_⟩
      cases input with
      | message payload =>
        rcases admitInput_message hr with ⟨id', turn', hactive', rfl, -⟩ | ⟨hidle, -, -⟩
        · rw [hactive] at hactive'
          cases hactive'
          have hlast := List.append_cancel_left hrow
          cases hlast
          obtain ⟨target, htarget, -, hnone⟩ := htimely rfl
          have hturn := (Session.getActiveTurn_eq_some hactive).1
          have htarget' : s.turns[id]? = some target := htarget
          rw [hturn] at htarget'
          cases htarget'
          exact hcancelled hnone
        · rw [hactive] at hidle
          cases hidle
      | cancel | toolResult => cases hmessage
    · obtain ⟨bad, hbad, huntimely⟩ := ih (hs.go (admitInput_turnsGo hr)) hcalm hrest
      rw [Session.mem_added hrows] at hbad
      exact ⟨bad, by simp [hadded, hbad], huntimely⟩

theorem Op.admits_uncancelled {op : Op π} (hs : Reached s) (hop : op.Timely s) :
    op.Admits .uncancelled s := by
  cases op with
  | submitInputs now key batch =>
    exact ⟨trivial, fun hrows =>
      admitsFrom_of_calm hs.sound.oneActive hs.queuedClean (hop hrows)⟩
  | reserveEnvironmentInput now key batch =>
    exact ⟨trivial, fun hfind hrows happends =>
      admitsFrom_of_calm hs.sound.oneActive hs.queuedClean (hop hfind hrows happends)⟩
  | settleEnvironmentInput now id settlement => exact fun _ => ⟨trivial, fun _ _ => trivial⟩
  | completeExecution now id status outcome size appliedThrough => exact fun _ => trivial
  | _ => trivial

/-- Messages are added to Turns without a cancel request exactly if none is admitted while the
running Turn is being cancelled, also by its own batch. -/
theorem messages_timely_iff (s t : Session π) (op : Op π) (hs : Reached s)
    (hstep : step s op = some t) : (∀ row ∈ s.added t, row.Timely) ↔ op.Timely s := by
  constructor
  · intro hgood
    by_contra hnot
    have hone := hs.sound.oneActive
    obtain ⟨reply, hcall⟩ := step_eq_some.mp hstep
    have hbad : ∃ row ∈ s.added t, ¬row.Timely := by
      cases op with
      | submitInputs now key batch =>
        obtain ⟨rs, hr, -⟩ := map_ok.mp hcall
        simp only [Op.Timely, Classical.not_imp] at hnot
        obtain ⟨-, -, ⟨hrows, -⟩ | ⟨-, -, -, -, hadmitted⟩⟩ := submitInputs_ok hr
        · exact absurd hnot.1 hrows
        · exact admitInputs_untimely hone hnot.2 hadmitted
      | reserveEnvironmentInput now key batch =>
        obtain ⟨r, hr, -⟩ := map_ok.mp hcall
        simp only [Op.Timely, Classical.not_imp] at hnot
        obtain ⟨hfind, hrows, happends, hcalm⟩ := hnot
        cases (reserveEnvironmentInput_ok hr).2.2 with
        | known hfind' => simp [hfind] at hfind'
        | replayed _ hrows' => exact absurd hrows hrows'
        | appended _ _ _ _ hadmitted => exact admitInputs_untimely hone hcalm hadmitted
        | created _ _ _ _ hidle => simp [happends] at hidle
      | _ => exact absurd trivial hnot
    obtain ⟨row, hrow, huntimely⟩ := hbad
    exact huntimely (hgood row hrow)
  · intro hop row hrow hmessage
    obtain ⟨rows, hrows, hgood⟩ :=
      (Op.writes hs.onePending (Op.admits_uncancelled hs hop) hstep).inputs
    rw [Session.mem_added hrows] at hrow
    exact hgood row hrow hmessage

def nextMessage : Op Flat := .submitInputs 3 "next" [.message [("text", "and then")]]

theorem messages_timely_running : ∃ s t : Session Flat, Reached s ∧
    step s nextMessage = some t ∧ s.added t ≠ [] ∧ ∀ row ∈ s.added t, row.Timely := by
  obtain ⟨s, hs, hcheck⟩ := exists_reached none [.claimTurn 1 0]
    (fun s => nextMessage.Timely s && (step s nextMessage).any fun t => s.added t ≠ [])
    (by decide +kernel)
  simp only [Bool.and_eq_true, decide_eq_true_eq, Option.any_eq_true] at hcheck
  obtain ⟨hop, t, hstep, hadded⟩ := hcheck
  exact ⟨s, t, hs, hstep, hadded, (messages_timely_iff s t nextMessage hs hstep).mpr hop⟩

/-- A Turn that was asked to cancel while it runs accepts the next message, which is then
discarded with the Turn. -/
theorem message_lost_with_cancelled_turn : ∃ s t u : Session Flat, Reached s ∧
    step s nextMessage = some t ∧ (∃ row ∈ s.added t, row.turn = some 0 ∧ ¬row.Timely) ∧
    step t (.completeExecution 4 0 .cancelled ∅ 2 0) = some u ∧
    u.turns.map (·.status) = [.cancelled] := by
  obtain ⟨s, hs, hcheck⟩ := exists_reached none
    [.claimTurn 1 0, .submitInputs 2 "stop" [.cancel]]
    (fun s => (step s nextMessage).any fun t =>
      ((s.added t).any fun row => row.turn = some 0 && row.input.isMessage &&
        row.target.all (·.cancelRequestedAt.isSome)) &&
      (step t (.completeExecution 4 0 .cancelled ∅ 2 0)).any fun u =>
        u.turns.map (·.status) = [.cancelled])
    (by decide +kernel)
  simp only [Bool.and_eq_true, decide_eq_true_eq, Option.any_eq_true, List.any_eq_true] at hcheck
  obtain ⟨t, hstep, ⟨row, hrow, ⟨hturn, hmessage⟩, htarget⟩, u, hfinish, hstatus⟩ := hcheck
  refine ⟨s, t, u, hs, hstep, ⟨row, hrow, hturn, fun htimely => ?_⟩, hfinish, hstatus⟩
  obtain ⟨turn, heq, -, hnone⟩ := htimely hmessage
  simp [heq, hnone] at htarget

end Parsar.Turns
