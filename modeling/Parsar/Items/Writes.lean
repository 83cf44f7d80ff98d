import Mathlib.Data.List.Nodup
import Parsar.Items.Projection

namespace Parsar.Items

open Relation Turns

variable {J : Type}

theorem Item.initial_id (item : Item J) (delta : Option String) :
    (item.initial delta).id = item.id := by
  rw [Item.initial]
  split <;> rfl

theorem itemID_recordOutput {index : Nat} {item : Item J} {delta : Option String}
    {e : SessionEvent J} (he : e ∈ recordOutput index item delta) : e.itemID? = some item.id := by
  simp only [recordOutput, recordProgress] at he
  grind [SessionEvent.itemID?]

theorem itemID_recordAdded {index : Option Nat} {item : Item J} {delta : Option String}
    {e : SessionEvent J} (he : e ∈ recordAdded index item delta) : e.itemID? = some item.id := by
  rcases List.mem_cons.1 he with rfl | he
  · simp [SessionEvent.itemID?, Item.initial_id]
  · split at he
    · cases List.mem_singleton.1 he
      rfl
    · cases he

theorem itemID_recordItemChange [DecidableEq J] {index : Option Nat} {previous : Option (Item J)}
    {item : Item J} {delta : Option String} {e : SessionEvent J}
    (he : e ∈ recordItemChange index previous item delta) : e.itemID? = some item.id := by
  rw [recordItemChange] at he
  split at he
  · cases he
  · rcases List.mem_append.1 he with he | he
    · split at he
      · exact itemID_recordAdded he
      · cases he
    · split at he
      · cases he
      · exact itemID_recordOutput he

namespace Stream

def eventsOf (s : Stream J) (id : ItemID) : List (SessionEvent J) :=
  s.events.filter (fun e => e.itemID? = some id)

variable {s : Stream J} {id : ItemID}

theorem eventsOf_record_self {events : List (SessionEvent J)}
    (h : ∀ e ∈ events, e.itemID? = some id) :
    (s.record events).eventsOf id = s.eventsOf id ++ events := by
  simpa [eventsOf, record] using h

theorem eventsOf_record_of_ne {events : List (SessionEvent J)}
    (h : ∀ e ∈ events, e.itemID? ≠ some id) :
    (s.record events).eventsOf id = s.eventsOf id := by
  simpa [eventsOf, record] using h

theorem find_some {row : Row J} (h : s.find id = some row) :
    row ∈ s.items ∧ row.item.id = id :=
  ⟨List.mem_of_find?_eq_some h, by simpa using List.find?_some h⟩

theorem find_none (h : s.find id = none) :
    ∀ row ∈ s.items, row.item.id ≠ id := by
  simpa [find, List.find?_eq_none] using h

structure Keyed (s : Stream J) : Prop where
  nodup : (s.items.map (fun row => row.item.id)).Nodup
  known : ∀ e ∈ s.events, ∀ id, e.itemID? = some id → ∃ row ∈ s.items, row.item.id = id
  shaped : ∀ row ∈ s.items,
    row.item.Shaped ∧ row.outputIndex.isSome = row.item.id.key.isOutput

theorem Keyed.find_of_mem (h : s.Keyed) {row : Row J} (hrow : row ∈ s.items) :
    s.find row.item.id = some row := by
  cases hfind : s.find row.item.id with
  | none => exact absurd rfl (find_none hfind row hrow)
  | some found =>
    have hfound := find_some hfind
    rw [List.inj_on_of_nodup_map h.nodup hfound.1 hrow hfound.2]

theorem Keyed.eventsOf_eq_nil (h : s.Keyed)
    (hid : ∀ row ∈ s.items, row.item.id ≠ id) : s.eventsOf id = [] := by
  refine List.filter_eq_nil_iff.2 (fun e he hev => ?_)
  obtain ⟨row, hrow, heq⟩ := h.known e he id (by simpa using hev)
  exact hid row hrow heq

theorem ids_setItem (s : Stream J) (item : Item J) :
    (s.setItem item).items.map (fun row => row.item.id)
      = s.items.map (fun row => row.item.id) := by
  simp only [setItem, List.map_map]
  refine List.map_congr_left (fun row _ => ?_)
  simp only [Function.comp_apply]
  split <;> simp_all

theorem mem_setItem {item : Item J} {row : Row J} (h : row ∈ (s.setItem item).items) :
    (row ∈ s.items ∧ row.item.id ≠ item.id) ∨
      ∃ old ∈ s.items, old.item.id = item.id ∧ row = { old with item } := by
  obtain ⟨old, hold, rfl⟩ := List.mem_map.1 h
  split
  · rename_i hid
    exact .inr ⟨old, hold, hid, rfl⟩
  · rename_i hid
    exact .inl ⟨hold, hid⟩

end Stream

inductive Restored : Item J → Item J → Prop
  | same (item : Item J) : Restored item item
  | result {item : Item J} (htype : item.type = .functionCallOutput)
      (output error : Option (Value J)) : Restored item { item with output, error }

namespace Restored

variable {item restored : Item J}

theorem id (h : Restored item restored) : restored.id = item.id := by cases h <;> rfl

theorem type (h : Restored item restored) : restored.type = item.type := by cases h <;> rfl

theorem shaped (h : Restored item restored) (hshape : item.Shaped) : restored.Shaped := by
  cases h with
  | same => exact hshape
  | result => simpa [Item.Shaped] using hshape

theorem eq_of_type (h : Restored item restored) (htype : item.type ≠ .functionCallOutput) :
    restored = item := by
  cases h with
  | same => rfl
  | result hresult => exact absurd hresult htype

end Restored

theorem Stream.restored (s : Stream J) (item : Item J) :
    Restored item (s.restoreFunctionItemResult item) := by
  rw [restoreFunctionItemResult]
  split
  · rename_i htype
    split
    · exact .same item
    · exact .result htype _ _
  · exact .same item

section Rows

variable {s : Stream J}

variable {events : List (SessionEvent J)} {item : Item J}

theorem Stream.Keyed.addRow (hs : s.Keyed) {row : Row J}
    (hfind : s.find row.item.id = none) (hshape : row.item.Shaped)
    (hindex : row.outputIndex.isSome = row.item.id.key.isOutput)
    (hevents : ∀ e ∈ events, e.itemID? = some row.item.id) :
    ((s.addRow row).record events).Keyed where
  nodup := by
    have hnew := Stream.find_none hfind
    simp only [Stream.record, Stream.addRow, List.map_append, List.map_cons, List.map_nil]
    exact pairwise_concat hs.nodup (by simpa using hnew)
  known e he id hid := by
    rcases List.mem_append.1 he with he | he
    · obtain ⟨old, hold, heq⟩ := hs.known e he id hid
      exact ⟨old, List.mem_append_left _ hold, heq⟩
    · rw [hevents e he] at hid
      exact ⟨row, List.mem_concat_self, Option.some.inj hid⟩
  shaped old hold := by
    rcases mem_concat hold with hold | rfl
    · exact hs.shaped old hold
    · exact ⟨hshape, hindex⟩

theorem Stream.Keyed.setItem (hs : s.Keyed)
    (hshape : item.Shaped) (hevents : ∀ e ∈ events, e.itemID? = some item.id)
    (hknown : ∃ row ∈ s.items, row.item.id = item.id) :
    ((s.setItem item).record events).Keyed where
  nodup := by
    rw [Stream.record, Stream.ids_setItem]
    exact hs.nodup
  known e he id hid := by
    have hmem : ∃ row ∈ s.items, row.item.id = id := by
      rcases List.mem_append.1 he with he | he
      · exact hs.known e he id hid
      · rw [hevents e he] at hid
        cases hid
        exact hknown
    have hids : id ∈ (s.setItem item).items.map (fun row => row.item.id) := by
      rw [Stream.ids_setItem]
      simpa using hmem
    simpa [Stream.record] using hids
  shaped row hrow := by
    rcases Stream.mem_setItem hrow with ⟨hold, -⟩ | ⟨old, hold, hid, rfl⟩
    · exact hs.shaped row hold
    · refine ⟨hshape, ?_⟩
      rw [← hid]
      exact (hs.shaped old hold).2

theorem Merged.row {turn : TurnID} {o : Observation J} {u : Update J} {row : Row J}
    {merged : Item J} (hproj : Projected turn o u) (hfind : s.find u.id = some row)
    (hshape : row.item.Shaped) (hmerged : Merged u row.item merged)
    (hrestored : Restored merged item) : item.Shaped ∧ item.id = row.item.id := by
  have hid := (Stream.find_some hfind).2
  refine ⟨hrestored.shaped (hmerged.shaped hproj hshape), ?_⟩
  rw [hrestored.id, hmerged.id hid, hid]

theorem Item.Shaped.finish (h : item.Shaped) (hstatus : item.status = .inProgress) :
    { item with status := .incomplete }.Shaped := by
  cases hk : item.id.key <;> simp_all [Item.Shaped]

/-- What holds of the events of each item, with its row. -/
def Stream.Rows (Q : List (SessionEvent J) → Row J → Prop) (s : Stream J) : Prop :=
  ∀ row ∈ s.items, Q (s.eventsOf row.item.id) row

variable {Q : List (SessionEvent J) → Row J → Prop}

theorem Stream.Rows.addRow (hs : s.Keyed) (hQ : s.Rows Q) {row : Row J}
    (hfind : s.find row.item.id = none) (hevents : ∀ e ∈ events, e.itemID? = some row.item.id)
    (hrow : Q events row) : ((s.addRow row).record events).Rows Q := by
  intro old hold
  have hnew := Stream.find_none hfind
  rcases mem_concat hold with hold | rfl
  · rw [Stream.eventsOf_record_of_ne (fun e he h =>
      hnew old hold (Option.some.inj (h.symm.trans (hevents e he))))]
    exact hQ old hold
  · rw [Stream.eventsOf_record_self hevents]
    have hnil : (s.addRow old).eventsOf old.item.id = [] := hs.eventsOf_eq_nil hnew
    rwa [hnil]

theorem Stream.Rows.setItem (hs : s.Keyed) (hQ : s.Rows Q) {row : Row J} (hrow : row ∈ s.items)
    (hid : item.id = row.item.id) (hevents : ∀ e ∈ events, e.itemID? = some item.id)
    (hitem : Q (s.eventsOf row.item.id ++ events) { row with item }) :
    ((s.setItem item).record events).Rows Q := by
  intro new hnew
  rcases Stream.mem_setItem hnew with ⟨hold, hne⟩ | ⟨old, hold, heq, rfl⟩
  · rw [Stream.eventsOf_record_of_ne (fun e he h =>
      hne (Option.some.inj (h.symm.trans (hevents e he))))]
    exact hQ new hold
  · obtain rfl : old = row := List.inj_on_of_nodup_map hs.nodup hold hrow (heq.trans hid)
    rw [Stream.eventsOf_record_self hevents]
    rwa [← hid] at hitem

theorem Stream.Keyed.record (hs : s.Keyed)
    (hitem : ∀ e ∈ events, e.itemID? = none) : (s.record events).Keyed where
  nodup := hs.nodup
  known e he id hid := by
    rcases List.mem_append.1 he with he | he
    · exact hs.known e he id hid
    · rw [hitem e he] at hid
      cases hid
  shaped := hs.shaped

theorem Stream.Rows.record (hQ : s.Rows Q) (hitem : ∀ e ∈ events, e.itemID? = none) :
    (s.record events).Rows Q := by
  intro row hrow
  rw [Stream.eventsOf_record_of_ne (fun e he => by simp [hitem e he])]
  exact hQ row hrow

theorem Stream.Keyed.congr {t : Stream J} (hs : s.Keyed) (hitems : t.items = s.items)
    (hevents : t.events = s.events) : t.Keyed := by
  obtain ⟨turns, items, results, events⟩ := t
  subst hitems hevents
  exact ⟨hs.nodup, hs.known, hs.shaped⟩

theorem Stream.Rows.congr {t : Stream J} (hQ : s.Rows Q) (hitems : t.items = s.items)
    (hevents : t.events = s.events) : t.Rows Q := by
  obtain ⟨turns, items, results, events⟩ := t
  subst hitems hevents
  exact hQ

end Rows

section Writes

variable [DecidableEq J] (C : Stream J → TurnID → Observation J → Prop) (turn : TurnID)

inductive Write (s : Stream J) : Stream J → Prop
  | added {o : Observation J} {snapshot item : Item J} {append legacy : Bool} {index : Option Nat}
      (hproj : Projected turn o (.snapshot snapshot append legacy))
      (hfind : s.find snapshot.id = none) (hrestored : Restored snapshot item)
      (hindex : index = if item.id.key.isOutput then some (s.nextOutputIndex turn) else none) :
      Write s ((s.addRow ⟨item, index⟩).record (recordItemChange index none item o.delta?))
  | merged {o : Observation J} {u : Update J} {row : Row J} {merged item : Item J}
      (hproj : Projected turn o u) (hC : C s turn o)
      (hnative : (u.legacyFinal && s.hasNativeMessageItem u.id) = false)
      (hfind : s.find u.id = some row) (hmerged : Merged u row.item merged)
      (hrestored : Restored merged item) :
      Write s ((s.setItem item).record
        (recordItemChange row.outputIndex (some row.item) item o.delta?))
  | finished {row : Row J} (hfind : s.find row.item.id = some row)
      (hturn : row.item.turnID = turn) (hstatus : row.item.status = .inProgress) :
      Write s ((s.setItem { row.item with status := .incomplete }).record
        (recordItemChange row.outputIndex (some row.item)
          { row.item with status := .incomplete } none))

abbrev Writes : Stream J → Stream J → Prop := ReflTransGen (Write C turn)

variable {C turn} {s t : Stream J}

theorem Writes.invariant {I : Stream J → Prop}
    (hwrite : ∀ s t, Write C turn s t → I s → I t) (h : Writes C turn s t) (hs : I s) : I t := by
  induction h with
  | refl => exact hs
  | tail _ hw ih => exact hwrite _ _ hw ih

theorem projectUpdate_writes {o : Observation J} {u : Update J} (hproj : Projected turn o u)
    (hC : C s turn o) (h : s.projectUpdate o u = .ok t) : Writes C turn s t := by
  simp only [Stream.projectUpdate] at h
  split at h
  · cases h
    exact .refl
  · rename_i hnative
    rw [Bool.not_eq_true] at hnative
    split at h
    · cases h
    · rename_i merged hmerge
      cases h
      have hrestored := s.restored merged
      cases hfind : s.find u.id with
      | none =>
        rw [hfind] at hmerge
        cases u with
        | commandOutput => cases hmerge
        | snapshot snapshot append legacy =>
          cases hmerge
          have hput : s.find (s.restoreFunctionItemResult merged).id = none := by
            rw [hrestored.id]
            exact hfind
          have hindex := hproj.isOutput
          rw [← hrestored.id, ← hrestored.type] at hindex
          have hturn : (s.restoreFunctionItemResult merged).turnID = turn := by
            rw [Item.turnID, hrestored.id]
            exact hproj.id_turn
          simp only [Stream.putSessionItem, hput, Option.map_none, ← hindex, hturn]
          exact .single (.added hproj hfind hrestored rfl)
      | some row =>
        rw [hfind] at hmerge
        have hmerged := merged_of_merge hmerge
        have hput : s.find (s.restoreFunctionItemResult merged).id = some row := by
          rw [hrestored.id, hmerged.id (Stream.find_some hfind).2]
          exact hfind
        simp only [Stream.putSessionItem, hput, Option.map_some]
        exact .single (.merged hproj hC hnative hfind hmerged hrestored)

theorem projectItemSource_writes {o : Observation J} {sequence : Nat} (hC : C s turn o)
    (hplural : o.plural = true → ∀ s, C s turn o)
    (h : s.projectItemSource turn sequence o = .ok t) : Writes C turn s t := by
  rw [Stream.projectItemSource] at h
  split at h
  · cases h
  · rename_i updates hproject
    have hproj : ∀ u ∈ updates, Projected turn o u := fun u => projected_of_project hproject
    have hmany : updates.length ≤ 1 ∨ ∀ s, C s turn o := by
      cases ho : o.plural with
      | false => exact .inl (length_project_le_one hproject ho)
      | true => exact .inr (hplural ho)
    clear hproject
    induction updates generalizing s with
    | nil =>
      cases h
      exact .refl
    | cons u updates ih =>
      obtain ⟨v, hv, htail⟩ : ∃ v, s.projectUpdate o u = .ok v ∧
          updates.foldlM (Stream.projectUpdate o) v = .ok t := by
        cases hu : s.projectUpdate o u with
        | error e => simp [List.foldlM_cons, hu, bind, Except.bind] at h
        | ok v => exact ⟨v, rfl, by simpa [List.foldlM_cons, hu, bind, Except.bind] using h⟩
      refine (projectUpdate_writes (hproj u List.mem_cons_self) hC hv).trans ?_
      rcases hmany with hone | hall
      · obtain rfl : updates = [] := by
          simpa [Nat.add_le_add_iff_right] using hone
        cases htail
        exact .refl
      · exact ih (hall v) htail (fun u hu => hproj u (List.mem_cons_of_mem _ hu)) (.inr hall)

theorem finishItem_writes (s : Stream J) (id : ItemID) :
    Writes C turn s (Stream.finishItem turn s id) := by
  simp only [Stream.finishItem]
  split
  · exact .refl
  · rename_i row hfind
    split
    · rename_i hmay
      refine .single (.finished ?_ hmay.1 hmay.2)
      rw [(Stream.find_some hfind).2]
      exact hfind
    · exact .refl

theorem finishSessionItems_writes (s : Stream J) : Writes C turn s (s.finishSessionItems turn) := by
  rw [Stream.finishSessionItems]
  generalize s.items.map (fun row => row.item.id) = ids
  induction ids generalizing s with
  | nil => exact .refl
  | cons id ids ih => exact (finishItem_writes s id).trans (ih _)

theorem Write.keyed (h : Write C turn s t) (hs : s.Keyed) : t.Keyed := by
  cases h with
  | @added o snapshot item append legacy index hproj hfind hrestored hindex =>
    refine hs.addRow (by rwa [hrestored.id]) (hrestored.shaped hproj.shaped) ?_
      (fun e => itemID_recordItemChange)
    rw [hindex]
    cases item.id.key.isOutput <;> rfl
  | @merged o u row merged item hproj hC hnative hfind hmerged hrestored =>
    have hrow := (Stream.find_some hfind).1
    obtain ⟨hshape, hid⟩ := Merged.row hproj hfind (hs.shaped row hrow).1 hmerged hrestored
    exact hs.setItem hshape (fun e => itemID_recordItemChange) ⟨row, hrow, hid.symm⟩
  | @finished row hfind hturn hstatus =>
    have hrow := (Stream.find_some hfind).1
    exact hs.setItem ((hs.shaped row hrow).1.finish hstatus) (fun e => itemID_recordItemChange)
      ⟨row, hrow, rfl⟩

variable (C) in
/-- What a property of rows needs to be kept by the writes. -/
structure RowInvariant (Q : List (SessionEvent J) → Row J → Prop) : Prop where
  added : ∀ {turn : TurnID} {o : Observation J} {snapshot item : Item J} {append legacy : Bool}
    {index : Option Nat}, Projected turn o (.snapshot snapshot append legacy) →
    Restored snapshot item → index.isSome = item.id.key.isOutput →
    Q (recordItemChange index none item o.delta?) ⟨item, index⟩
  merged : ∀ {s : Stream J} {turn : TurnID} {o : Observation J} {u : Update J} {row : Row J}
    {merged item : Item J} {events : List (SessionEvent J)}, Projected turn o u → C s turn o →
    (u.legacyFinal && s.hasNativeMessageItem u.id) = false → s.find u.id = some row →
    row.item.Shaped → row.outputIndex.isSome = row.item.id.key.isOutput →
    Merged u row.item merged → Restored merged item → Q events row →
    Q (events ++ recordItemChange row.outputIndex (some row.item) item o.delta?) { row with item }
  finished : ∀ {row : Row J} {events : List (SessionEvent J)}, row.item.Shaped →
    row.outputIndex.isSome = row.item.id.key.isOutput → row.item.status = .inProgress →
    Q events row →
    Q (events ++ recordItemChange row.outputIndex (some row.item)
      { row.item with status := .incomplete } none)
      { row with item := { row.item with status := .incomplete } }

theorem Write.rows (hinv : RowInvariant C Q) (h : Write C turn s t) (hs : s.Keyed) (hQ : s.Rows Q) :
    t.Rows Q := by
  cases h with
  | @added o snapshot item append legacy index hproj hfind hrestored hindex =>
    refine hQ.addRow hs (by rwa [hrestored.id]) (fun e => itemID_recordItemChange)
      (hinv.added hproj hrestored ?_)
    rw [hindex]
    cases item.id.key.isOutput <;> rfl
  | @merged o u row merged item hproj hC hnative hfind hmerged hrestored =>
    have hrow := (Stream.find_some hfind).1
    have hshape := hs.shaped row hrow
    exact hQ.setItem hs hrow (Merged.row hproj hfind hshape.1 hmerged hrestored).2
      (fun e => itemID_recordItemChange)
      (hinv.merged hproj hC hnative hfind hshape.1 hshape.2 hmerged hrestored (hQ row hrow))
  | @finished row hfind hturn hstatus =>
    have hrow := (Stream.find_some hfind).1
    have hshape := hs.shaped row hrow
    exact hQ.setItem hs hrow rfl (fun e => itemID_recordItemChange)
      (hinv.finished hshape.1 hshape.2 hstatus (hQ row hrow))

def Action.observation? : Action J → Option (TurnID × Observation J)
  | .admitMessage turn _ payload => some (turn, .message payload)
  | .observe turn _ o => some (turn, o)
  | .transition turn status final => some (turn, outcomeObservation status final)
  | .createTurn | .cancelQueued _ | .saveResult .. | .notice _ => none

variable (C) in
def Action.Meets (s : Stream J) (a : Action J) : Prop :=
  ∀ turn o, a.observation? = some (turn, o) → C s turn o

/-- An event that neither belongs to an item nor ends a Turn. -/
def SessionEvent.quiet : SessionEvent J → Bool
  | turnChanged _ (.became status) => !terminalStatus status
  | turnChanged _ .created | notice _ => true
  | _ => false

variable (C) in
inductive Stepped (s : Stream J) : Stream J → Prop
  | wrote {turn : TurnID} {t : Stream J} (hactive : s.statusOf turn TurnStatus.active = true)
      (hwrites : Writes C turn s t) : Stepped s t
  | ended {turn : TurnID} {status : TurnStatus} {n : Notice} {t : Stream J}
      (hactive : s.statusOf turn TurnStatus.active = true)
      (hterminal : terminalStatus status = true) (hwrites : Writes C turn s t) :
      Stepped s (((t.setStatus turn status).finishSessionItems turn).record
        [.turnChanged turn (.became status), .notice n])
  | noted {t : Stream J} {events : List (SessionEvent J)}
      (hquiet : ∀ e ∈ events, e.quiet = true) (hevents : t.events = s.events ++ events)
      (hitems : t.items = s.items)
      (hturns : ∀ turn, s.statusOf turn terminalStatus = true →
        t.statusOf turn terminalStatus = true) : Stepped s t

omit [DecidableEq J] in
theorem statusOf_setStatus {turn other : TurnID} {status : TurnStatus}
    (hactive : s.statusOf turn TurnStatus.active = true)
    (h : s.statusOf other terminalStatus = true) :
    (s.setStatus turn status).statusOf other terminalStatus = true := by
  have hne : turn ≠ other := by
    rintro rfl
    simp only [Stream.statusOf, Option.any_eq_true] at hactive h
    obtain ⟨current, hcurrent, hactive⟩ := hactive
    obtain ⟨_, hsame, hterminal⟩ := h
    cases hcurrent.symm.trans hsame
    cases current <;> simp_all [TurnStatus.active, terminalStatus]
  simpa [Stream.statusOf, Stream.setStatus, List.getElem?_set_ne hne] using h

theorem Stepped.turnEnded {turn : TurnID} {status : TurnStatus}
    (hactive : s.statusOf turn TurnStatus.active = true) (hterminal : terminalStatus status = true)
    (hwrites : Writes C turn s t) :
    Stepped C s ((t.setStatus turn status).recordTurnChange turn status false) := by
  have hwaiting : status ≠ .waiting := by
    rintro rfl
    cases hterminal
  simp only [Stream.recordTurnChange, if_neg hwaiting, hterminal, Bool.or_true,
    Bool.false_eq_true, if_false]
  exact .ended hactive hterminal hwrites

theorem Stepped.turnMoved {turn : TurnID} {status : TurnStatus}
    (hactive : s.statusOf turn TurnStatus.active = true)
    (hterminal : terminalStatus status = false) :
    Stepped C s ((s.setStatus turn status).recordTurnChange turn status false) := by
  simp only [Stream.recordTurnChange]
  split
  · exact .noted (fun e he => by cases he) (List.append_nil _).symm rfl
      (fun _ => statusOf_setStatus hactive)
  · simp only [hterminal, Bool.or_false, Bool.false_eq_true, if_false]
    exact .noted (by simp [SessionEvent.quiet, hterminal]) rfl rfl
      (fun _ => statusOf_setStatus hactive)

theorem ok_of_toOption {ε α : Type} {x : Except ε α} {v : α} (h : x.toOption = some v) :
    x = .ok v := by
  cases x with
  | error => cases h
  | ok => exact congrArg _ (Option.some.inj h)

theorem step_stepped {a : Action J} (hmeets : a.Meets C s)
    (hplural : ∀ s turn (o : Observation J), o.plural = true → C s turn o)
    (h : s.step a = some t) : Stepped C s t := by
  have hsource : ∀ {turn sequence o u}, a.observation? = some (turn, o) →
      s.projectItemSource turn sequence o = .ok u → Writes C turn s u := fun ho hu =>
    projectItemSource_writes (hmeets _ _ ho) (fun hp s => hplural s _ _ hp) hu
  cases a with
  | createTurn =>
    cases h
    refine .noted ?_ rfl rfl (fun turn hturn => ?_)
    · simp [SessionEvent.quiet]
    · simp only [Stream.statusOf, Option.any_eq_true] at hturn ⊢
      obtain ⟨status, hstatus, hterminal⟩ := hturn
      exact ⟨status, by
        simpa [Stream.recordTurnChange, Stream.record, terminalStatus,
          List.getElem?_append_left (List.getElem?_eq_some_iff.1 hstatus).1] using hstatus, hterminal⟩
  | admitMessage turn sequence payload =>
    simp only [Stream.step] at h
    split at h
    · rename_i hactive
      exact .wrote hactive (hsource rfl (ok_of_toOption h))
    · cases h
  | observe turn ordinal o =>
    simp only [Stream.step] at h
    split at h
    · rename_i hstatus
      refine .wrote ?_ (hsource rfl (ok_of_toOption h))
      simp only [Stream.statusOf, Option.any_eq_true] at hstatus ⊢
      obtain ⟨status, hfound, hmay⟩ := hstatus
      refine ⟨status, hfound, ?_⟩
      rcases of_decide_eq_true hmay with rfl | rfl <;> rfl
    · cases h
  | transition turn status final =>
    simp only [Stream.step, Stream.transition] at h
    split at h
    · rename_i hvalid
      have hactive : s.statusOf turn TurnStatus.active = true := by
        simp only [Stream.statusOf, Option.any_eq_true] at hvalid ⊢
        obtain ⟨current, hfound, hmay⟩ := hvalid
        exact ⟨current, hfound, active_of_validTransition hmay⟩
      split at h
      · rename_i hterminal
        split at h
        · cases h
        · rename_i u hu
          cases h
          exact .turnEnded hactive hterminal (hsource rfl hu)
      · rename_i hterminal
        cases h
        exact .turnMoved hactive (Bool.not_eq_true _ ▸ hterminal)
    · cases h
  | cancelQueued turn =>
    simp only [Stream.step] at h
    split at h
    · rename_i hqueued
      cases h
      refine .turnEnded ?_ rfl .refl
      simp only [Stream.statusOf, Option.any_eq_true, decide_eq_true_eq] at hqueued ⊢
      obtain ⟨status, hfound, rfl⟩ := hqueued
      exact ⟨_, hfound, rfl⟩
    · cases h
  | saveResult call result =>
    simp only [Stream.step] at h
    split at h
    · cases h
      exact .noted (fun e he => by cases he) (List.append_nil _).symm rfl (fun _ => id)
    · cases h
  | notice n =>
    cases h
    exact .noted (by simp [SessionEvent.quiet]) rfl rfl (fun _ => id)

omit [DecidableEq J] in
theorem itemID_of_quiet {events : List (SessionEvent J)} (h : ∀ e ∈ events, e.quiet = true) :
    ∀ e ∈ events, e.itemID? = none := fun e he => by
  have hq := h e he
  cases e <;> first | rfl | cases hq

theorem rows_of_run (hinv : RowInvariant C Q)
    (hplural : ∀ s turn (o : Observation J), o.plural = true → C s turn o)
    {actions : List (Action J)} (hmeets : StepsMeet Stream.step (Action.Meets C) {} actions)
    (hrun : runTrace Stream.step {} actions = some s) : s.Rows Q := by
  have hwrites : ∀ {turn} {s t : Stream J}, Writes C turn s t → s.Keyed ∧ s.Rows Q →
      t.Keyed ∧ t.Rows Q := fun hw =>
    hw.invariant (I := fun s => s.Keyed ∧ s.Rows Q)
      (fun _ _ hw h => ⟨hw.keyed h.1, hw.rows hinv h.1 h.2⟩)
  have hstep : ∀ (s : Stream J) a t, a.Meets C s → s.step a = some t → s.Keyed ∧ s.Rows Q →
      t.Keyed ∧ t.Rows Q := by
    intro s a t hmeets hstep hs
    cases step_stepped hmeets hplural hstep with
    | wrote hactive hw => exact hwrites hw hs
    | @ended turn status n u hactive hterminal hw =>
      have hu := hwrites hw hs
      have hset : (u.setStatus turn status).Keyed ∧ (u.setStatus turn status).Rows Q :=
        ⟨hu.1.congr rfl rfl, hu.2.congr rfl rfl⟩
      have hfinish : Writes C turn (u.setStatus turn status)
          ((u.setStatus turn status).finishSessionItems turn) := finishSessionItems_writes _
      have hfin := hwrites hfinish hset
      have hitem : ∀ e ∈ [.turnChanged turn (.became status), .notice n],
          SessionEvent.itemID? (J := J) e = none := by simp [SessionEvent.itemID?]
      exact ⟨hfin.1.record hitem, hfin.2.record hitem⟩
    | @noted _ events hquiet hevents hitems =>
      have hitem := itemID_of_quiet hquiet
      exact ⟨(hs.1.record hitem).congr hitems hevents, (hs.2.record hitem).congr hitems hevents⟩
  have hempty : ({} : Stream J).Keyed ∧ ({} : Stream J).Rows Q :=
    ⟨⟨List.nodup_nil, (fun _ h => by cases h), (fun _ h => by cases h)⟩, fun _ h => by cases h⟩
  exact (runTrace_invariant hstep hmeets hrun hempty).2

end Writes

end Parsar.Items
