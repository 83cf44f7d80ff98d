import Parsar.Turns.Exclusive

namespace Parsar.Turns

open Tx Relation

variable {π : Type} {s t : Session π} {now : Int}
  {key : String} {batch : List (Input π)}

/-- The two tables agree on each key: one reservation, whose batch are the inputs if it was
admitted. -/
structure Session.Keyed (s : Session π) : Prop where
  unique : ∀ key, AtMostOne (·.key = key) s.reservations
  nonempty : ∀ row ∈ s.reservations, row.batch ≠ []
  admitted : ∀ row ∈ s.reservations, row.state = .admitted →
    (s.inputBatch row.key).map (·.input) = row.batch
  waiting : ∀ row ∈ s.reservations, row.state ≠ .admitted → s.inputBatch row.key = []

def Permits.quiet [EmptyCollection π] : Permits π := { key := fun _ => False, admits := False }

theorem Session.inputBatch_congr (h : t.inputs = s.inputs) (key : String) :
    t.inputBatch key = s.inputBatch key := by
  rw [Session.inputBatch, Session.inputBatch, h]

/-- What the tables say of the key of one reservation. -/
structure Session.Agrees (s : Session π) (row : Reservation π) : Prop where
  nonempty : row.batch ≠ []
  admitted : row.state = .admitted → (s.inputBatch row.key).map (·.input) = row.batch
  waiting : row.state ≠ .admitted → s.inputBatch row.key = []

theorem Session.Keyed.of_rows (hunique : ∀ key, AtMostOne (·.key = key) s.reservations)
    (hrows : ∀ row ∈ s.reservations, s.Agrees row) : s.Keyed :=
  ⟨hunique, fun row h => (hrows row h).nonempty, fun row h => (hrows row h).admitted,
    fun row h => (hrows row h).waiting⟩

theorem Session.Keyed.agrees (hs : s.Keyed) {row : Reservation π} (hrow : row ∈ s.reservations)
    (hinputs : t.inputBatch row.key = s.inputBatch row.key) : t.Agrees row :=
  ⟨hs.nonempty row hrow, hinputs ▸ hs.admitted row hrow, hinputs ▸ hs.waiting row hrow⟩

theorem Session.Keyed.settle (hs : s.Keyed) (hinputs : t.inputs = s.inputs)
    (hsettles : Grows (Reservation.Settles False) (fun _ => False) s.reservations
      t.reservations) : t.Keyed := by
  refine .of_rows (fun key => (hs.unique key).grows hsettles ?_ fun _ hfalse => hfalse.elim) ?_
  · rintro x y (rfl | ⟨-, now, state, -, -, rfl⟩) hkey
    all_goals exact hkey
  · intro row hrow
    obtain ⟨i, hi⟩ := List.getElem?_of_mem hrow
    obtain ⟨old, hold, hsettled⟩ | ⟨-, hfalse⟩ := hsettles.cases hi
    · have hagrees := hs.agrees (List.mem_of_getElem? hold) (Session.inputBatch_congr hinputs _)
      -- a row keeps its key and its batch, and it is admitted now only if it was
      obtain rfl | ⟨hpending, now, state, -, hstate, rfl⟩ := hsettled
      · exact hagrees
      · exact ⟨hagrees.nonempty, fun h => (hstate h).elim,
          fun _ => hagrees.waiting (by simp [hpending])⟩
    · exact hfalse.elim

variable [EmptyCollection π]

theorem Write.quiet (h : Write .quiet s t) : t.inputs = s.inputs ∧
    Grows (Reservation.Settles False) (fun _ => False) s.reservations t.reservations := by
  have hsame : t.inputs = s.inputs → t.reservations = s.reservations → t.inputs = s.inputs ∧
      Grows (Reservation.Settles False) (fun _ => False) s.reservations t.reservations :=
    fun hinputs hrows => ⟨hinputs, .of_eq (fun _ => .inl rfl) hrows⟩
  cases h with
  | insertInput turn key input position hkey | reserve row hkey => exact hkey.elim
  | settle rows hsettles => exact ⟨rfl, hsettles⟩
  | requestTurnCancel | finish | stage => exact hsame (by simp) (by simp)
  | _ => exact hsame rfl rfl

theorem Writes.quiet (h : Writes .quiet s t) (hs : s.Keyed) : t.Keyed ∧ t.inputs = s.inputs := by
  refine Writes.invariant (I := fun u => u.Keyed ∧ u.inputs = s.inputs) ?_ h ⟨hs, rfl⟩
  intro u v hwrite hu
  obtain ⟨hinputs, hsettles⟩ := hwrite.quiet
  exact ⟨hu.1.settle hinputs hsettles, hinputs.trans hu.2⟩

/-- The batch was admitted as a whole and in order under a new key, and the receipts are of the new
rows. -/
structure AdmittedWhole (s t : Session π) (key : String) (batch : List (Input π))
    (receipts : List InputReceipt) : Prop where
  fresh : s.inputBatch key = []
  nonempty : batch ≠ []
  only : t.inputs = s.inputs ++ t.inputBatch key
  inputs : (t.inputBatch key).map (·.input) = batch
  positions : (t.inputBatch key).map (·.position) = List.range batch.length
  increasing : ((t.inputBatch key).map (·.sequence)).Pairwise (· < ·)
  receipts : receipts = (t.inputBatch key).map (·.receipt)

omit [EmptyCollection π] in
theorem Session.inputBatch_append {rows : List (TurnInput π)} (h : t.inputs = s.inputs ++ rows)
    (hkeys : ∀ row ∈ rows, row.key = key) (key' : String) :
    t.inputBatch key' = s.inputBatch key' ++ if key' = key then rows else [] := by
  rw [Session.inputBatch, h, List.filter_append, ← Session.inputBatch]
  congr 1
  split
  · next hkey =>
    rw [List.filter_eq_self]
    intro row hrow
    simp [hkeys row hrow, hkey]
  · next hkey =>
    rw [List.filter_eq_nil_iff]
    intro row hrow
    simp [hkeys row hrow, Ne.symm hkey]

variable {rs : List InputReceipt} {row row' : Reservation π} {id : ReservationID}

variable [DecidableEq π]

theorem admitInputs_whole {u : Session π} (hfresh : s.inputBatch key = [])
    (hbatch : batch ≠ []) (h : admitInputs now key 0 batch s = .ok (rs, u))
    (ht : t.inputs = u.inputs) :
    AdmittedWhole s t key batch rs ∧
      ∀ key', key' ≠ key → t.inputBatch key' = s.inputBatch key' := by
  obtain ⟨rows, hrows, hkeys, hinputs, hpositions, hsequences, rfl⟩ := admitInputs_rows h
  have hsplit := Session.inputBatch_append (ht.trans hrows) hkeys
  have hnew : t.inputBatch key = rows := by rw [hsplit key, hfresh, if_pos rfl, List.nil_append]
  refine ⟨⟨hfresh, hbatch, ?_, ?_, ?_, ?_, ?_⟩, fun key' hkey' => ?_⟩
  · rw [hnew, ht, hrows]
  · rw [hnew, hinputs]
  · rw [hnew, hpositions, List.range_eq_range']
  · rw [hnew, hsequences]
    exact List.pairwise_lt_range'
  · rw [hnew]
  · rw [hsplit key', if_neg hkey', List.append_nil]

omit [DecidableEq π] [EmptyCollection π] in
theorem Session.Keyed.admitted_other (hs : s.Keyed)
    (hother : ∀ key', key' ≠ key → t.inputBatch key' = s.inputBatch key')
    (hkey : ∀ row ∈ s.reservations, row.key ≠ key) (hrows : t.reservations = s.reservations) :
    t.Keyed := by
  refine .of_rows (hrows ▸ hs.unique) fun row hrow => ?_
  rw [hrows] at hrow
  exact hs.agrees hrow (hother row.key (hkey row hrow))

omit [DecidableEq π] [EmptyCollection π] in
theorem Session.Keyed.reserve (hs : s.Keyed)
    (hkey : ∀ old ∈ s.reservations, old.key ≠ row.key) (hfresh : s.inputBatch row.key = [])
    (hbatch : row.batch ≠ []) (hpending : row.state = .pending) (hinputs : t.inputs = s.inputs)
    (hrows : t.reservations = s.reservations ++ [row]) : t.Keyed := by
  refine .of_rows (fun key => ?_) fun other hother => ?_
  · rw [hrows]
    by_cases hrow : row.key = key
    · exact atMostOne_append (fun old hold => hrow ▸ hkey old hold) row
    · have hgrows : Grows _ _ s.reservations (s.reservations ++ [row]) :=
        .append (R := fun old new => new = old) (N := fun new => new = row) (fun _ => rfl) rfl
      refine (hs.unique key).grows hgrows ?_ ?_
      · rintro x y rfl hy
        exact hy
      · rintro y rfl
        exact hrow
  · rw [hrows, List.mem_append, List.mem_singleton] at hother
    obtain hold | rfl := hother
    · exact hs.agrees hold (Session.inputBatch_congr hinputs _)
    · exact ⟨hbatch, by simp [hpending], fun _ => Session.inputBatch_congr hinputs _ ▸ hfresh⟩

omit [DecidableEq π] [EmptyCollection π] in
theorem Session.Keyed.promote (hs : s.Keyed) (hrow : s.reservations[id]? = some row)
    (hwhole : AdmittedWhole s t row.key row.batch rs)
    (hother : ∀ key', key' ≠ row.key → t.inputBatch key' = s.inputBatch key')
    {settledAt : Option Int}
    (hrows : t.reservations = s.reservations.set id { row with state := .admitted, settledAt }) :
    t.Keyed := by
  refine .of_rows (fun key => ?_) fun other hmem => ?_
  · rw [hrows]
    have hgrows := Grows.set (R := fun old new : Reservation π => new.key = old.key)
      (N := fun _ => False) (y := { row with state := .admitted, settledAt })
        (fun _ => rfl) hrow rfl
    refine (hs.unique key).grows hgrows ?_ fun _ hfalse => hfalse.elim
    intro x y hkey hy
    rw [← hkey]
    exact hy
  · obtain ⟨i, hi⟩ := List.getElem?_of_mem hmem
    rw [hrows] at hi
    rcases getElem?_set_cases hi with ⟨-, rfl⟩ | ⟨hne, hi⟩
    · exact ⟨hs.nonempty row (List.mem_of_getElem? hrow), fun _ => hwhole.inputs, absurd rfl⟩
    · refine hs.agrees (List.mem_of_getElem? hi) (hother _ fun hkey => hne ?_)
      exact hs.unique row.key id i row other hrow hi rfl hkey

def Op.Carries (s : Session π) (key : String) (batch : List (Input π)) : Op π → Prop
  | .submitInputs _ key' batch' | .reserveEnvironmentInput _ key' batch' =>
    key' = key ∧ batch' = batch
  | .settleEnvironmentInput _ id settlement => settlement = .promote ∧
    ∃ row, s.reservations[id]? = some row ∧ row.key = key ∧ row.batch = batch
  | _ => False

def Reply.inputReceipts : Reply π → List InputReceipt
  | .receipts rs => rs
  | .reservation row => row.receipts
  | .fileWrite _ | .done => []

/-- The call admits nothing, or the whole batch that it brings. -/
def Op.AdmitsWhole (op : Op π) (s t : Session π) (reply : Reply π) : Prop :=
  ∀ key, t.inputBatch key = s.inputBatch key ∨
    ∃ batch, op.Carries s key batch ∧ AdmittedWhole s t key batch reply.inputReceipts

omit [DecidableEq π] [EmptyCollection π] in
theorem ne_nil_of_validateInputs (h : validateInputs batch = true) : batch ≠ [] := by
  rintro rfl
  cases h

omit [DecidableEq π] [EmptyCollection π] in
theorem not_mem_of_findReservation (h : s.findReservation key = none) :
    ∀ row ∈ s.reservations, row.key ≠ key := by
  simpa [Session.findReservation, List.findIdx?_eq_none_iff] using h

omit [DecidableEq π] [EmptyCollection π] in
theorem Session.Keyed.setReservation
    (hs : s.Keyed) (hrow : s.reservations[id]? = some row) (hsettles : row.Settles False row') :
    (s.setReservation id row').Keyed :=
  hs.settle rfl (.set (fun _ => .inl rfl) hrow hsettles)

theorem admitInputs_keyed {op : Op π} {reply : Reply π} (hs : s.Keyed)
    (hfresh : s.inputBatch key = []) (hkey : ∀ row ∈ s.reservations, row.key ≠ key)
    (hbatch : batch ≠ []) (hcarries : op.Carries s key batch) (hreply : reply.inputReceipts = rs)
    (h : admitInputs now key 0 batch s = .ok (rs, t)) : t.Keyed ∧ op.AdmitsWhole s t reply := by
  obtain ⟨hwhole, hother⟩ := admitInputs_whole hfresh hbatch h rfl
  refine ⟨hs.admitted_other hother hkey (admitInputs_frame h).1, fun key' => ?_⟩
  by_cases hkey' : key' = key
  · subst hkey'
    exact .inr ⟨batch, hcarries, hreply ▸ hwhole⟩
  · exact .inl (hother key' hkey')

theorem settleEnvironmentInput_keyed {op : Op π}
    {state : ReservationState} {reply : EnvironmentInputReservation π} (hs : s.Keyed)
    (hrow : s.reservations[id]? = some row) (hstate : state ≠ .pending)
    (hcarries : state = .admitted → op.Carries s row.key row.batch)
    (h : settleEnvironmentInput now id row state s = .ok (reply, t)) :
    t.Keyed ∧ op.AdmitsWhole s t (.reservation reply) := by
  obtain ⟨row', hsettles, rfl⟩ | ⟨hpending, hstate', hpromote⟩ :=
    settleEnvironmentInput_ok hrow hstate h
  · exact ⟨hs.setReservation hrow (hsettles _), fun key => .inl rfl⟩
  · obtain ⟨u, hadmitted, hinputs, hrows, -⟩ := promoteEnvironmentInput_ok hpromote
    rw [Reservation.settle, if_pos hpending] at hrows
    have hmem := List.mem_of_getElem? hrow
    have hfresh := hs.waiting row hmem (by simp [hpending])
    obtain ⟨hwhole, hother⟩ := admitInputs_whole hfresh (hs.nonempty row hmem) hadmitted hinputs
    refine ⟨hs.promote hrow hwhole hother hrows, fun key' => ?_⟩
    by_cases hkey' : key' = row.key
    · subst hkey'
      exact .inr ⟨row.batch, hcarries hstate', hwhole⟩
    · exact .inl (hother key' hkey')

theorem Op.call_keyed {op : Op π} {reply : Reply π} (hone : s.OnePending) (hs : s.Keyed)
    (h : op.call s = .ok (reply, t)) : t.Keyed ∧ op.AdmitsWhole s t reply := by
  -- a call that brings no batch writes neither table but for settlements
  have hquiet : op.Admits .quiet s → t.Keyed ∧ op.AdmitsWhole s t reply := by
    intro hadmits
    have hwrites := Op.writes hone hadmits (step_eq_some.mpr ⟨reply, h⟩)
    obtain ⟨hkeyed, hinputs⟩ := hwrites.quiet hs
    exact ⟨hkeyed, fun key => .inl (Session.inputBatch_congr hinputs key)⟩
  cases op with
  | submitInputs now key batch =>
    obtain ⟨rs, hr, rfl⟩ := map_ok.mp h
    obtain ⟨hvalid, -, ⟨-, -, rfl, -⟩ | ⟨hfresh, -, hkey, -, hadmitted⟩⟩ := submitInputs_ok hr
    · exact ⟨hs, fun key => .inl rfl⟩
    · exact admitInputs_keyed hs hfresh hkey (ne_nil_of_validateInputs hvalid) ⟨rfl, rfl⟩ rfl
        hadmitted
  | reserveEnvironmentInput now key batch =>
    obtain ⟨r, hr, rfl⟩ := map_ok.mp h
    obtain ⟨hvalid, -, hreserved⟩ := reserveEnvironmentInput_ok hr
    have hbatch := ne_nil_of_validateInputs hvalid
    cases hreserved with
    | known hfind hrow hmatch hsettle =>
      exact settleEnvironmentInput_keyed hs hrow (by simp) (fun h => by cases h) hsettle
    | replayed => exact ⟨hs, fun key => .inl rfl⟩
    | appended hfind hrows hfree happends hadmitted =>
      exact admitInputs_keyed hs hrows (not_mem_of_findReservation hfind) hbatch ⟨rfl, rfl⟩ rfl
        hadmitted
    | created hfind hrows hfree hkey =>
      exact ⟨hs.reserve hkey hrows hbatch rfl rfl rfl, fun key => .inl rfl⟩
  | settleEnvironmentInput now id settlement =>
    obtain ⟨r, hr, rfl⟩ := map_ok.mp h
    simp only [settleEnvironmentInputByID, withPublicSession, get_bind_ok, require_bind_ok,
      fetch_bind_ok] at hr
    obtain ⟨-, row, hrow, hsettle⟩ := hr
    refine settleEnvironmentInput_keyed hs hrow (by cases settlement <;> simp [Settlement.state])
      (fun hstate => ?_) hsettle
    cases settlement with
    | promote => exact ⟨rfl, row, hrow, rfl, rfl⟩
    | cancel | expire => cases hstate
  | completeExecution now id status outcome size appliedThrough => exact hquiet fun _ => trivial
  | _ => exact hquiet trivial

omit [DecidableEq π] [EmptyCollection π] in
theorem keyed_of_no_rows (h : s.reservations = []) : s.Keyed :=
  .of_rows (fun key i j x y hx => by simp [h] at hx) (by simp [h])

theorem Started.keyed (h : Started s) : s.Keyed := by
  obtain ⟨now, environment, key, inputs, sequence, h⟩ := h
  simp only [createSession, require_bind_ok, modify_bind_ok, ite_ok] at h
  obtain ⟨-, ⟨-, h⟩ | ⟨hinputs, ⟨-, h⟩ | ⟨-, h⟩⟩⟩ := h
  · obtain ⟨-, rfl⟩ := pure_ok.mp h
    exact keyed_of_no_rows rfl
  · obtain ⟨reply, u, hu, h⟩ := bind_ok.mp h
    obtain ⟨-, rfl⟩ := pure_ok.mp h
    rw [(createReservation_ok hu).2]
    have hempty : Session.Keyed (π := π) { sequence, environment } := keyed_of_no_rows rfl
    have hrow : (newReservation now key inputs true).state = .pending := rfl
    exact hempty.reserve (fun old hold => by cases hold) rfl hinputs hrow rfl rfl
  · obtain ⟨rs, u, hadmitted, hu⟩ := bind_ok.mp h
    obtain ⟨-, rfl⟩ := pure_ok.mp hu
    exact keyed_of_no_rows (admitInputs_frame hadmitted).1

theorem Reached.keyed (h : Reached s) : s.Keyed := by
  obtain ⟨s₀, ops, hstarted, hrun⟩ := h
  have hone : s₀.OnePending := Reached.onePending ⟨s₀, [], hstarted, rfl⟩
  refine (runTrace_invariant (I := fun u => u.OnePending ∧ u.Keyed) ?_ (stepsMeet_true s₀ ops) hrun
    ⟨hone, hstarted.keyed⟩).2
  intro u op v _ hstep hu
  obtain ⟨reply, hcall⟩ := step_eq_some.mp hstep
  have hwrites := Op.writes hu.1 op.admits_all hstep
  exact ⟨hwrites.invariant (fun _ _ => Write.onePending) hu.1, (Op.call_keyed hu.1 hu.2 hcall).1⟩

omit [EmptyCollection π] in
theorem inputBatchReceipts_apply : inputBatchReceipts key batch s =
    if s.inputBatch key = [] ∨ (s.inputBatch key).map (·.input) = batch then
      .ok ((s.inputBatch key).map (·.replay), s)
    else .error .idempotencyConflict := by
  rw [inputBatchReceipts, get_bind, require_bind]
  rfl

omit [EmptyCollection π] in
theorem inputBatchReceipts_bind {α : Type} {next : List InputReceipt → SessionTx π α} {a : α}
    (hrows : s.inputBatch key ≠ []) (hnext : next ((s.inputBatch key).map (·.replay)) s =
      .ok (a, s)) :
    (inputBatchReceipts key batch >>= next) s =
      if (s.inputBatch key).map (·.input) = batch then .ok (a, s) else .error
        .idempotencyConflict := by
  split_ifs with hmatch
  · rw [bind_of_ok (inputBatchReceipts_apply.trans (if_pos (.inr hmatch))), hnext]
  · exact bind_of_error (inputBatchReceipts_apply.trans (if_neg (by simp [hrows, hmatch])))

omit [DecidableEq π] [EmptyCollection π] in
theorem withPublicSession_apply {α : Type} {apply : SessionTx π α} (hpublic : s.deletedAt = none) :
    withPublicSession apply s = apply s := by
  rw [withPublicSession, get_bind, require_bind, if_pos hpublic]

theorem submitInputs_admitted (hpublic : s.deletedAt = none) (hkey : validateInputKey key = true)
    (hbatch : validateInputs batch = true) (hrows : s.inputBatch key ≠ []) :
    submitInputs now key batch s =
      if (s.inputBatch key).map (·.input) = batch then .ok ((s.inputBatch key).map (·.replay), s)
      else .error .idempotencyConflict := by
  rw [submitInputs, require_bind, if_pos ⟨hkey, hbatch⟩, withPublicSession_apply hpublic]
  exact inputBatchReceipts_bind hrows (by simp [hrows])

omit [EmptyCollection π] in
theorem checkEnvironmentInputGate_reserved (hs : s.Keyed)
    (hmem : row ∈ s.reservations) (hkey : row.key = key) :
    checkEnvironmentInputGate key batch s =
      .error (if row.batch = batch then .turnConflict else .idempotencyConflict) := by
  rw [checkEnvironmentInputGate, get_bind, require_bind]
  have hblocked : s.reservations.any (fun row => row.state == .pending || row.key == key) = true :=
    List.any_eq_true.mpr ⟨row, hmem, by simp [hkey]⟩
  by_cases hmatch : row.batch = batch
  · have hall : ∀ other ∈ s.reservations, other.key = key → other.batch = batch := by
      intro other hother hkey'
      obtain ⟨i, hi⟩ := List.getElem?_of_mem hmem
      obtain ⟨j, hj⟩ := List.getElem?_of_mem hother
      have hij := hs.unique key i j row other hi hj hkey hkey'
      rw [hij, hj] at hi
      cases hi
      exact hmatch
    rw [if_pos hall, if_pos hmatch, require_of, hblocked]
    rfl
  · rw [if_neg fun hall => hmatch (hall row hmem hkey), if_neg hmatch]

theorem submitInputs_reserved (hs : s.Keyed) (hpublic : s.deletedAt = none)
    (hkey : validateInputKey key = true) (hbatch : validateInputs batch = true)
    (hmem : row ∈ s.reservations) (hrow : row.key = key) (hstate : row.state ≠ .admitted) :
    submitInputs now key batch s =
      .error (if row.batch = batch ∨ s.fileWriteBlocks ∧ batch.any (·.isMessage) then .turnConflict
        else .idempotencyConflict) := by
  have hrows : s.inputBatch key = [] := hrow ▸ hs.waiting row hmem hstate
  have hgate : checkEnvironmentInputGate key batch s = _ :=
    checkEnvironmentInputGate_reserved hs hmem hrow
  have hreceipts : inputBatchReceipts key batch s = .ok ([], s) := by
    rw [inputBatchReceipts_apply, if_pos (.inl hrows), hrows]
    rfl
  rw [submitInputs, require_bind, if_pos ⟨hkey, hbatch⟩, withPublicSession_apply hpublic,
    bind_of_ok hreceipts, if_neg (by simp)]
  by_cases hmessage : batch.any (·.isMessage) = true
  · rw [if_pos hmessage]
    cases hblocks : s.fileWriteBlocks with
    | true =>
      have hfile : checkEnvironmentFileWriteGate s = .error .turnConflict := by
        rw [checkEnvironmentFileWriteGate, get_bind, require_of, hblocks]
        rfl
      rw [bind_of_error hfile, if_pos (.inr ⟨rfl, hmessage⟩)]
    | false =>
      have hfile : checkEnvironmentFileWriteGate s = .ok ((), s) := by
        rw [checkEnvironmentFileWriteGate, get_bind, require_of, hblocks]
        rfl
      rw [bind_of_ok hfile]
      show (checkEnvironmentInputGate key batch >>= _) s = _
      rw [bind_of_error hgate]
      simp
  · rw [if_neg hmessage]
    show (checkEnvironmentInputGate key batch >>= _) s = _
    rw [bind_of_error hgate]
    simp [hmessage]

omit [EmptyCollection π] in
theorem environmentInputOutcome_apply (hs : s.Keyed) (hmem : row ∈ s.reservations) :
    environmentInputOutcome id row s =
      .ok ({ environmentInputFromRow id row with
        receipts := (s.inputBatch row.key).map (·.replay) }, s) := by
  unfold environmentInputOutcome
  by_cases hstate : row.state = .admitted
  · have hmatch := hs.admitted row hmem hstate
    have hreceipts : inputBatchReceipts row.key row.batch s =
        .ok ((s.inputBatch row.key).map (·.replay), s) := by
      rw [inputBatchReceipts_apply, if_pos (.inr hmatch)]
    have hne : (s.inputBatch row.key).map (·.replay) ≠ [] := by
      intro hnil
      rw [List.map_eq_nil_iff] at hnil
      rw [hnil] at hmatch
      exact hs.nonempty row hmem hmatch.symm
    rw [if_neg (not_not.mpr hstate), bind_of_ok hreceipts, require_bind, if_pos hne]
    rfl
  · rw [if_pos hstate, hs.waiting row hmem hstate]
    rfl

omit [DecidableEq π] [EmptyCollection π] in
theorem Session.Keyed.findReservation (hs : s.Keyed)
    (hrow : s.reservations[id]? = some row) (hkey : row.key = key) :
    s.findReservation key = some id := by
  cases hfind : s.findReservation key with
  | none => exact absurd hkey (not_mem_of_findReservation hfind row (List.mem_of_getElem? hrow))
  | some found =>
    obtain ⟨hlength, hfound, -⟩ := List.findIdx?_eq_some_iff_getElem.mp hfind
    rw [hs.unique key found id _ row (List.getElem?_eq_getElem hlength) hrow (by simpa using hfound)
      hkey]

theorem reserveEnvironmentInput_reserved (hs : s.Keyed)
    (hpublic : s.deletedAt = none) (hkey : validateInputKey key = true)
    (hbatch : validateInputs batch = true) (hmessages : batch.all (·.isMessage) = true)
    (hrow : s.reservations[id]? = some row) (hrowkey : row.key = key) :
    reserveEnvironmentInput now key batch s =
      if row.batch = batch then
        .ok ({ environmentInputFromRow id (row.expire now) with
          receipts := (s.inputBatch key).map (·.replay) }, s.setReservation id (row.expire now))
      else .error .idempotencyConflict := by
  rw [reserveEnvironmentInput, require_bind, if_pos ⟨hkey, hmessages, hbatch⟩,
    withPublicSession_apply hpublic, get_bind, hs.findReservation hrow hrowkey]
  simp only [hrow, fetch_bind_some, require_bind]
  congr 1
  subst hrowkey
  unfold settleEnvironmentInput
  by_cases hpending : row.state = .pending
  · have hlength := (List.getElem?_eq_some_iff.mp hrow).1
    have hmem : row.expire now ∈ (s.setReservation id (row.expire now)).reservations :=
      List.mem_set hlength _
    rw [if_neg (not_not.mpr hpending), modify_bind, if_pos (.inr rfl),
      environmentInputOutcome_apply (hs.setReservation hrow (row.settles_expire now)) hmem]
    have hkey' : (row.expire now).key = row.key := by
      unfold Reservation.expire
      split <;> rfl
    rw [hkey']
    rfl
  · have hsame : row.expire now = row := by
      rw [Reservation.expire, if_neg fun h => hpending h.1]
    rw [if_pos hpending, environmentInputOutcome_apply hs (List.mem_of_getElem? hrow), hsame,
      Session.setReservation_self hrow]

theorem reserveEnvironmentInput_admitted (hpublic : s.deletedAt = none)
    (hkey : validateInputKey key = true) (hbatch : validateInputs batch = true)
    (hmessages : batch.all (·.isMessage) = true) (hnone : ∀ row ∈ s.reservations, row.key ≠ key)
    (hrows : s.inputBatch key ≠ []) :
    reserveEnvironmentInput now key batch s =
      if (s.inputBatch key).map (·.input) = batch then
        .ok ({ state := .admitted, receipts := (s.inputBatch key).map (·.replay) }, s)
      else .error .idempotencyConflict := by
  have hfind : s.findReservation key = none := by
    simpa [Session.findReservation, List.findIdx?_eq_none_iff] using hnone
  rw [reserveEnvironmentInput, require_bind, if_pos ⟨hkey, hmessages, hbatch⟩,
    withPublicSession_apply hpublic, get_bind, hfind]
  exact inputBatchReceipts_bind hrows (by simp [hrows])

structure Retries (s : Session π) (now : Int) (key : String) (batch : List (Input π)) : Prop where
  submit_admitted : s.inputBatch key ≠ [] → submitInputs now key batch s =
    if (s.inputBatch key).map (·.input) = batch then .ok ((s.inputBatch key).map (·.replay), s)
    else .error .idempotencyConflict
  submit_reserved : ∀ row ∈ s.reservations, row.key = key → row.state ≠ .admitted →
    submitInputs now key batch s =
      .error (if row.batch = batch ∨ s.fileWriteBlocks ∧ batch.any (·.isMessage) then .turnConflict
        else .idempotencyConflict)
  reserve_admitted : batch.all (·.isMessage) = true → s.inputBatch key ≠ [] →
    (∀ row ∈ s.reservations, row.key ≠ key) → reserveEnvironmentInput now key batch s =
      if (s.inputBatch key).map (·.input) = batch then
        .ok ({ state := .admitted, receipts := (s.inputBatch key).map (·.replay) }, s)
      else .error .idempotencyConflict
  reserve_reserved : batch.all (·.isMessage) = true → ∀ id row, s.reservations[id]? = some row →
    row.key = key → reserveEnvironmentInput now key batch s =
      if row.batch = batch then
        .ok ({ environmentInputFromRow id (row.expire now) with
          receipts := (s.inputBatch key).map (·.replay) }, s.setReservation id (row.expire now))
      else .error .idempotencyConflict

structure IdempotentAdmission (s : Session π) : Prop where
  whole : ∀ (op : Op π) reply t, op.call s = .ok (reply, t) → op.AdmitsWhole s t reply
  kept : ∀ ops t key, runTrace step s ops = some t → s.inputBatch key ≠ [] →
    t.inputBatch key = s.inputBatch key
  settled : ∀ ops t (id : ReservationID) (row : Reservation π), runTrace step s ops = some t →
    s.reservations[id]? = some row →
      ∃ row', t.reservations[id]? = some row' ∧ row.Settles True row'
  retries : ∀ now key batch, s.deletedAt = none → validateInputKey key = true →
    validateInputs batch = true → Retries s now key batch

omit [DecidableEq π] [EmptyCollection π] in
theorem Reservation.Settles.trans {row'' : Reservation π} {admits : Prop}
    (h : row.Settles True row') (h' : row'.Settles admits row'') : row.Settles True row'' := by
  rcases h' with rfl | ⟨hpending, now, state, hstate, -, rfl⟩
  · exact h
  · rcases h with rfl | ⟨hpending', now', state', hstate', -, rfl⟩
    · exact .inr ⟨hpending, now, state, hstate, fun _ => trivial, rfl⟩
    · exact absurd hpending hstate'

omit [DecidableEq π] in
theorem Write.reservation_settles {P : Permits π}
    (h : Write P s t) (hrow : s.reservations[id]? = some row) :
    ∃ row', t.reservations[id]? = some row' ∧ row.Settles P.admits row' := by
  rcases h.reservations with hsame | ⟨new, -, -, rfl⟩ | ⟨rows, hsettles, rfl⟩
  · exact ⟨row, hsame ▸ hrow, .inl rfl⟩
  · exact ⟨row, List.getElem?_append_left (List.getElem?_eq_some_iff.mp hrow).1 ▸ hrow, .inl rfl⟩
  · exact hsettles.old id row hrow

theorem kept_of_run {ops : List (Op π)} (hs : Reached s) (hrun : runTrace step s ops = some t)
    (hkey : s.inputBatch key ≠ []) : t.inputBatch key = s.inputBatch key := by
  refine (runTrace_invariant (I := fun u => (u.OnePending ∧ u.Keyed) ∧
    u.inputBatch key = s.inputBatch key) ?_ (stepsMeet_true s ops) hrun
    ⟨⟨hs.onePending, hs.keyed⟩, rfl⟩).2
  intro u op v _ hstep ⟨hu, hsame⟩
  obtain ⟨reply, hcall⟩ := step_eq_some.mp hstep
  obtain ⟨hkeyed, hwhole⟩ := Op.call_keyed hu.1 hu.2 hcall
  have hwrites := Op.writes hu.1 op.admits_all hstep
  refine ⟨⟨hwrites.invariant (fun _ _ => Write.onePending) hu.1, hkeyed⟩, ?_⟩
  rcases hwhole key with heq | ⟨batch, -, hadmitted⟩
  · exact heq.trans hsame
  · rw [hadmitted.fresh] at hsame
    exact absurd hsame.symm hkey

/-- A key belongs to one batch: it is admitted once and as a whole, later calls are answered with
what was decided, another batch is refused. -/
theorem admission_idempotent (s : Session π) (hs : Reached s) : IdempotentAdmission s where
  whole op reply t h := (Op.call_keyed hs.onePending hs.keyed h).2
  kept ops t key hrun hkey := kept_of_run hs hrun hkey
  settled ops t id row hrun hrow := by
    refine Writes.invariant (I := fun u => ∃ row', u.reservations[id]? = some row' ∧
      row.Settles True row') ?_ (run_writes_all hs hrun) ⟨row, hrow, .inl rfl⟩
    rintro u v hwrite ⟨row', hrow', hsettles⟩
    obtain ⟨row'', hrow'', hsettles'⟩ := hwrite.reservation_settles hrow'
    exact ⟨row'', hrow'', hsettles.trans hsettles'⟩
  retries now key batch hpublic hkey hbatch :=
    { submit_admitted := submitInputs_admitted hpublic hkey hbatch
      submit_reserved := fun row hmem hrow hstate =>
        submitInputs_reserved hs.keyed hpublic hkey hbatch hmem hrow hstate
      reserve_admitted := fun hmessages hrows hnone =>
        reserveEnvironmentInput_admitted hpublic hkey hbatch hmessages hnone hrows
      reserve_reserved := fun hmessages id row hrow hrowkey =>
        reserveEnvironmentInput_reserved hs.keyed hpublic hkey hbatch hmessages hrow hrowkey }

def firstBatch : List (Input Flat) := [.message [("text", "hello")]]

theorem admission_idempotent_promoted : ∃ s : Session Flat, Reached s ∧
    (s.inputBatch "first").map (·.input) = firstBatch ∧ s.findReservation "first" = some 0 ∧
    (s.reservations.map fun row => (row.batch, row.state)) = [(firstBatch, .admitted)] ∧
    IdempotentAdmission s := by
  obtain ⟨s, hs, hcheck⟩ := exists_reached (some {}) [.settleEnvironmentInput 2 0 .promote]
    (fun s => decide ((s.inputBatch "first").map (·.input) = firstBatch) &&
      decide (s.findReservation "first" = some 0) &&
      decide ((s.reservations.map fun row => (row.batch, row.state)) = [(firstBatch, .admitted)]))
    (by decide +kernel)
  simp only [Bool.and_eq_true, decide_eq_true_eq] at hcheck
  exact ⟨s, hs, hcheck.1.1, hcheck.1.2, hcheck.2, admission_idempotent s hs⟩

def refused {α : Type} (result : Except StoreError α) (error : StoreError) : Bool :=
  match result with
  | .error found => found = error
  | .ok _ => false

theorem eq_error_of_refused {α : Type} {result : Except StoreError α} {error : StoreError}
    (h : refused result error = true) : result = .error error := by
  cases result with
  | ok a => cases h
  | error found => rw [of_decide_eq_true h]

def deviceUUID : String := "7d0e1a52-33c4-4b8e-9f21-0c5d6a7b8e9f"

def firstWrite : FileWriteIdentity :=
  { id := "1b4f0e98-6a2d-4c3b-8e57-2f9a0d1c3b5e"
    deviceID := deviceUUID
    requestSHA256 := String.ofList (List.replicate 64 '0') }

/-- `SubmitInputs` does not answer with a cancelled reservation's outcome, nor tell batches apart
while a file write is pending. -/
theorem reserved_key_refused : ∃ s : Session Flat, Reached s ∧ s.deletedAt = none ∧
    s.findReservation "first" = some 0 ∧
    (s.reservations.map fun row => (row.batch, row.state)) = [(firstBatch, .cancelled)] ∧
    submitInputs 9 "first" firstBatch s = .error .turnConflict ∧
    submitInputs 9 "first" [.message [("text", "other")]] s = .error .turnConflict := by
  obtain ⟨s, hs, hcheck⟩ := exists_reached (some {})
    [.settleEnvironmentInput 2 0 .cancel,
     .environmentChanges .connected (some { id := deviceUUID, dedicated := true }),
     .reserveEnvironmentFileWrite 3 firstWrite]
    (fun s => decide (s.deletedAt = none) && decide (s.findReservation "first" = some 0) &&
      decide ((s.reservations.map fun row => (row.batch, row.state)) =
        [(firstBatch, .cancelled)]) &&
      refused (submitInputs 9 "first" firstBatch s) .turnConflict &&
      refused (submitInputs 9 "first" [.message [("text", "other")]] s) .turnConflict)
    (by decide +kernel)
  simp only [Bool.and_eq_true, decide_eq_true_eq] at hcheck
  obtain ⟨⟨⟨⟨hpublic, hfind⟩, hrows⟩, hsame⟩, hother⟩ := hcheck
  exact ⟨s, hs, hpublic, hfind, hrows, eq_error_of_refused hsame, eq_error_of_refused hother⟩

end Parsar.Turns
