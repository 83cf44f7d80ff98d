import Parsar.Items.Writes

namespace Parsar.Items

open Turns

variable {J : Type}

def Progress (index : Nat) (events : List (SessionEvent J)) : Prop :=
  ∀ e ∈ events, e.isAdded = false ∧ e.isDone = false ∧ e.index = some index

/-- The events of an item so far; an output item that is over ends with the `item.done` of what is
stored. -/
inductive Streamed : List (SessionEvent J) → Row J → Prop
  | input (item first : Item J) : Streamed [.itemAdded none first] ⟨item, none⟩
  | opened {item first : Item J} {index : Nat} {body : List (SessionEvent J)}
      (hstatus : item.status = .inProgress) (hbody : Progress index body) :
      Streamed (.itemAdded (some index) first :: body) ⟨item, some index⟩
  | closed {item first : Item J} {index : Nat} {body : List (SessionEvent J)}
      (hstatus : item.status ≠ .inProgress) (hbody : Progress index body) :
      Streamed (.itemAdded (some index) first :: (body ++ [.itemDone index item]))
        ⟨item, some index⟩

theorem Progress.append {index : Nat} {xs ys : List (SessionEvent J)} (hx : Progress index xs)
    (hy : Progress index ys) : Progress index (xs ++ ys) := fun e he =>
  (List.mem_append.1 he).elim (hx e) (hy e)

theorem progress_recordProgress (index : Nat) (item : Item J) (delta : Option String) :
    Progress index (recordProgress index item delta) := by
  intro e he
  simp only [recordProgress] at he
  grind [SessionEvent.isAdded, SessionEvent.isDone, SessionEvent.index]

variable {item : Item J} {turn : TurnID}

theorem recordOutput_eq (index : Nat) {delta : Option String}
    (hcommand : item.type = .commandExecution → delta.isSome = true → item.status = .inProgress) :
    ∃ body, Progress index body ∧ recordOutput index item delta =
      body ++ if item.status = .inProgress then [] else [.itemDone index item] := by
  simp only [recordOutput]
  split
  · rename_i text htype
    refine ⟨[.commandOutputDelta index item.id text], ?_, ?_⟩
    · simp [Progress, SessionEvent.isAdded, SessionEvent.isDone, SessionEvent.index]
    · rw [if_pos (hcommand htype rfl), List.append_nil]
  · exact ⟨_, progress_recordProgress index item _, rfl⟩

theorem Streamed.of_progress (first : Item J) {index : Nat}
    {body events : List (SessionEvent J)} (hbody : Progress index body)
    (hevents : events = .itemAdded (some index) first ::
      (body ++ if item.status = .inProgress then [] else [.itemDone index item])) :
    Streamed events ⟨item, some index⟩ := by
  rw [hevents]
  by_cases hstatus : item.status = .inProgress
  · rw [if_pos hstatus, List.append_nil]
    exact .opened hstatus hbody
  · rw [if_neg hstatus]
    exact .closed hstatus hbody

theorem Item.Shaped.type_of_isOutput (h : item.Shaped)
    (hkey : item.id.key.isOutput = true) : item.type ≠ .functionCallOutput := by
  intro htype
  cases hk : item.id.key <;> simp_all [Item.Shaped, ItemKey.isOutput, ItemType.isTool]

theorem Item.Shaped.textMessage_eq_none (h : item.Shaped)
    (hkey : item.id.key.isOutput = false) : item.textMessage = none := by
  rw [Item.textMessage]
  cases hk : item.id.key <;> simp_all [Item.Shaped, ItemKey.isOutput]

theorem recordAdded_eq (index : Nat) (item : Item J) (delta : Option String) :
    ∃ body, Progress index body ∧
      recordAdded (some index) item delta =
        .itemAdded (some index) (item.initial delta) :: body := by
  refine ⟨_, ?_, rfl⟩
  intro e he
  split at he
  · cases List.mem_singleton.1 he
    exact ⟨rfl, rfl, rfl⟩
  · cases he

theorem Projected.type_of_delta {o : Observation J}
    {append legacy : Bool} (h : Projected turn o (.snapshot item append legacy))
    (hdelta : o.delta?.isSome = true) : item.type = .message := by
  cases h with
  | message | outputMessage | tool | result => cases hdelta
  | delta | final => rfl

/-- A final text that meets a closed `legacy-message` as the only message is the same text, again
not of a completed Turn. -/
def FinalTextKept (s : Stream J) (turn : TurnID) (o : Observation J) : Prop :=
  ∀ text status, o.finalText = some (text, status) →
    s.hasNativeMessageItem ⟨turn, .legacyMessage⟩ = false →
    ∀ row ∈ s.items, row.item.id = ⟨turn, .legacyMessage⟩ → row.item.status = .incomplete →
      row.item = finalItem turn text status

theorem finalTextKept_of_plural (s : Stream J) (turn : TurnID) (o : Observation J)
    (ho : o.plural = true) : FinalTextKept s turn o := by
  have hnone : o.finalText = none := by cases o <;> first | rfl | cases ho
  intro text status hfinal
  rw [hnone] at hfinal
  cases hfinal

theorem inherit_of_message {previous : Item J} (h : item.type = .message) :
    item.inherit previous = item := by
  cases item
  cases h
  rfl

section Rows

variable [DecidableEq J]

theorem recordItemChange_none (previous item : Item J) (delta : Option String) :
    recordItemChange none (some previous) item delta = [] := by
  simp [recordItemChange]

theorem recordItemChange_self (index : Option Nat) (item : Item J) (delta : Option String) :
    recordItemChange index (some item) item delta = [] := by
  simp [recordItemChange]

variable {item : Item J} {delta : Option String}

theorem recordItemChange_some {index : Nat} {previous : Item J}
    (htype : item.type ≠ .functionCallOutput) (hne : previous ≠ item) :
    recordItemChange (some index) (some previous) item delta = recordOutput index item delta := by
  simp [recordItemChange, htype, hne]

theorem recordItemChange_added {index : Nat} (htype : item.type ≠ .functionCallOutput) :
    recordItemChange (some index) none item delta =
      recordAdded (some index) item delta ++ recordOutput index item delta := by
  simp [recordItemChange, htype]

theorem recordItemChange_input (htext : item.textMessage = none) :
    recordItemChange none none item delta = [.itemAdded none item] := by
  simp [recordItemChange, recordAdded, Item.initial, htext]

theorem Streamed.change {row : Row J} {index : Nat}
    {events : List (SessionEvent J)} (h : Streamed events row)
    (hindex : row.outputIndex = some index) (hopen : row.item.status = .inProgress)
    (htype : item.type ≠ .functionCallOutput)
    (hcommand : item.type = .commandExecution → delta.isSome = true → item.status = .inProgress) :
    Streamed (events ++ recordItemChange row.outputIndex (some row.item) item delta)
      { row with item } := by
  cases h with
  | input => cases hindex
  | closed hstatus => exact absurd hopen hstatus
  | @opened old first k body hstatus hbody =>
    by_cases hsame : old = item
    · subst hsame
      rw [recordItemChange_self, List.append_nil]
      exact .opened hstatus hbody
    · obtain ⟨rest, hrest, heq⟩ := recordOutput_eq k hcommand
      refine .of_progress first (hbody.append hrest) ?_
      rw [recordItemChange_some htype hsame, heq]
      simp

theorem streamed_added {turn : TurnID} {o : Observation J} {snapshot : Item J}
    {append legacy : Bool} {index : Option Nat}
    (hproj : Projected turn o (.snapshot snapshot append legacy))
    (hrestored : Restored snapshot item) (hindex : index.isSome = item.id.key.isOutput) :
    Streamed (recordItemChange index none item o.delta?) ⟨item, index⟩ := by
  have hshape := hrestored.shaped hproj.shaped
  cases index with
  | none =>
    rw [recordItemChange_input (hshape.textMessage_eq_none hindex.symm)]
    exact .input item item
  | some k =>
    have htype := hshape.type_of_isOutput hindex.symm
    obtain ⟨start, hstart, hadded⟩ := recordAdded_eq k item o.delta?
    have hcommand : item.type = .commandExecution → o.delta?.isSome = true →
        item.status = .inProgress := by
      intro hcommand hdelta
      rw [hrestored.type, hproj.type_of_delta hdelta] at hcommand
      cases hcommand
    obtain ⟨rest, hrest, hout⟩ := recordOutput_eq k hcommand
    refine .of_progress (item.initial o.delta?) (hstart.append hrest) ?_
    rw [recordItemChange_added htype, hadded, hout]
    simp

theorem Merged.streamed {s : Stream J} {turn : TurnID} {o : Observation J} {u : Update J}
    {row : Row J} {index : Nat} {events : List (SessionEvent J)}
    (hmerged : Merged u row.item item) (hproj : Projected turn o u) (hC : FinalTextKept s turn o)
    (hnative : (u.legacyFinal && s.hasNativeMessageItem u.id) = false)
    (hfind : s.find u.id = some row) (htype : item.type ≠ .functionCallOutput)
    (hindex : row.outputIndex = some index) (h : Streamed events row) :
    Streamed (events ++ recordItemChange row.outputIndex (some row.item) item o.delta?)
      { row with item } := by
  cases hmerged with
  | kept =>
    rw [recordItemChange_self, List.append_nil]
    exact h
  | output _ hstatus => exact h.change hindex hstatus htype (fun _ _ => hstatus)
  | @replaced snapshot _ legacy hmay =>
    rcases hmay with hopen | ⟨rfl, hincomplete⟩
    · refine h.change hindex hopen htype (fun hcommand hdelta => ?_)
      exact absurd (hproj.type_of_delta hdelta ▸ hcommand) (by decide)
    · -- A final text on a closed message: the condition says that nothing changes.
      cases hproj with
      | @final _ text status hfinal =>
        obtain ⟨hrow, hid⟩ := Stream.find_some hfind
        have hsame := hC text status hfinal hnative row hrow hid hincomplete
        rw [inherit_of_message rfl, ← hsame, recordItemChange_self, List.append_nil]
        exact h
  | appended hopen =>
    refine h.change hindex hopen htype (fun hcommand hdelta => ?_)
    exact absurd (hproj.type_of_delta hdelta ▸ hcommand) (by decide)

theorem streamed_invariant : RowInvariant (J := J) FinalTextKept Streamed where
  added := streamed_added
  merged {s turn o u row merged item events} hproj hC hnative hfind hshape hindex hmerged
      hrestored h := by
    obtain ⟨hitem, hid⟩ := Merged.row hproj hfind hshape hmerged hrestored
    cases hrow : row.outputIndex with
    | none =>
      cases h with
      | input => simpa [recordItemChange_none] using Streamed.input item _
      | opened | closed => cases hrow
    | some k =>
      have htype := hitem.type_of_isOutput (by rw [hid, ← hindex, hrow]; rfl)
      obtain rfl := hrestored.eq_of_type (hrestored.type ▸ htype)
      rw [← hrow]
      exact hmerged.streamed hproj hC hnative hfind htype hrow h
  finished {row events} hshape hindex hstatus h := by
    cases hrow : row.outputIndex with
    | none =>
      cases h with
      | input => simpa [recordItemChange_none] using Streamed.input _ _
      | opened | closed => cases hrow
    | some k =>
      have htype := hshape.type_of_isOutput (by rw [← hindex, hrow]; rfl)
      rw [← hrow]
      exact h.change hrow hstatus htype (fun _ hdelta => by cases hdelta)

end Rows

def SessionEvent.addedIndex? (turn : TurnID) : SessionEvent J → Option Nat
  | itemAdded index item => if item.turnID = turn then index else none
  | _ => none

def Stream.addedIndexes (s : Stream J) (turn : TurnID) : List Nat :=
  s.events.filterMap (SessionEvent.addedIndex? turn)

structure Stream.Numbered (s : Stream J) : Prop where
  told : ∀ turn, s.addedIndexes turn = s.outputIndexes turn
  counted : ∀ turn, s.outputIndexes turn = List.range (s.outputIndexes turn).length

theorem max?_range (n : Nat) : ((List.range n).max?.map (· + 1)).getD 0 = n := by
  cases n with
  | zero => rfl
  | succ n =>
    have hmax : (List.range (n + 1)).max? = some n := by
      rw [List.max?_eq_some_iff]
      exact ⟨by simp, fun b hb => Nat.le_of_lt_succ (List.mem_range.mp hb)⟩
    rw [hmax]
    rfl

theorem Stream.Numbered.next {s : Stream J} (h : s.Numbered) (turn : TurnID) :
    s.nextOutputIndex turn = (s.outputIndexes turn).length := by
  rw [Stream.nextOutputIndex, h.counted turn, max?_range, List.length_range]

theorem addedIndex_of_not_added {e : SessionEvent J} (h : e.isAdded = false) :
    e.addedIndex? turn = none := by
  cases e <;> first | rfl | cases h

theorem outputIndexes_setItem (s : Stream J) (item : Item J) (turn : TurnID) :
    (s.setItem item).outputIndexes turn = s.outputIndexes turn := by
  simp only [Stream.outputIndexes, Stream.setItem, List.filterMap_map]
  refine List.filterMap_congr (fun row _ => ?_)
  rw [Function.comp_apply]
  split
  · rename_i hid
    rw [show item.turnID = row.item.turnID from congrArg ItemID.turn hid.symm]
  · rfl

theorem isAdded_recordOutput {index : Nat} {delta : Option String}
    {e : SessionEvent J} (he : e ∈ recordOutput index item delta) : e.isAdded = false := by
  simp only [recordOutput, recordProgress] at he
  grind [SessionEvent.isAdded]

theorem outputIndexes_addRow (s : Stream J) (row : Row J) (turn : TurnID) :
    (s.addRow row).outputIndexes turn =
      s.outputIndexes turn ++ if row.item.turnID = turn then row.outputIndex.toList else [] := by
  simp only [Stream.outputIndexes, Stream.addRow, List.filterMap_append]
  congr 1
  by_cases hturn : row.item.turnID = turn
  · cases hrow : row.outputIndex <;> simp [hturn, hrow]
  · simp [hturn]

section Numbering

variable [DecidableEq J] {s t : Stream J}

variable {delta : Option String}

theorem isAdded_recordItemChange {index : Option Nat} {previous item : Item J} {e : SessionEvent J}
    (he : e ∈ recordItemChange index (some previous) item delta) : e.isAdded = false := by
  simp only [recordItemChange, Option.isNone_some, Bool.false_eq_true, if_false,
    List.nil_append] at he
  split at he
  · cases he
  · split at he
    · cases he
    · exact isAdded_recordOutput he

theorem Stream.Numbered.setItem (h : s.Numbered) {index : Option Nat} {previous item : Item J} :
    ((s.setItem item).record (recordItemChange index (some previous) item delta)).Numbered where
  told turn := by
    have hnone : (recordItemChange index (some previous) item delta).filterMap
        (SessionEvent.addedIndex? turn) = [] :=
      List.filterMap_eq_nil_iff.2 (fun e he =>
        addedIndex_of_not_added (isAdded_recordItemChange he))
    simp only [Stream.addedIndexes, Stream.record, List.filterMap_append, hnone, List.append_nil]
    exact (h.told turn).trans (outputIndexes_setItem s item turn).symm
  counted turn := by
    have hsame := outputIndexes_setItem s item turn
    simp only [Stream.outputIndexes, Stream.record] at hsame ⊢
    rw [hsame]
    exact h.counted turn

theorem addedIndexes_recordItemChange {row : Row J}
    (hshape : row.item.Shaped) (hindex : row.outputIndex.isSome = row.item.id.key.isOutput)
    (turn : TurnID) :
    (recordItemChange row.outputIndex none row.item delta).filterMap
      (SessionEvent.addedIndex? turn) =
        if row.item.turnID = turn then row.outputIndex.toList else [] := by
  cases hrow : row.outputIndex with
  | none =>
    rw [hrow] at hindex
    rw [recordItemChange_input (hshape.textMessage_eq_none hindex.symm)]
    simp [SessionEvent.addedIndex?]
  | some k =>
    rw [hrow] at hindex
    obtain ⟨body, hbody, hadded⟩ := recordAdded_eq k row.item delta
    have hrest : (body ++ recordOutput k row.item delta).filterMap
        (SessionEvent.addedIndex? turn) = [] := by
      refine List.filterMap_eq_nil_iff.2 (fun e he => addedIndex_of_not_added ?_)
      exact (List.mem_append.1 he).elim (fun he => (hbody e he).1) isAdded_recordOutput
    have hfirst : (row.item.initial delta).turnID = row.item.turnID :=
      congrArg ItemID.turn (row.item.initial_id delta)
    rw [recordItemChange_added (hshape.type_of_isOutput hindex.symm), hadded, List.cons_append,
      List.filterMap_cons, SessionEvent.addedIndex?, hfirst, hrest]
    by_cases hturn : row.item.turnID = turn <;> simp [hturn]

theorem Stream.Numbered.addRow (h : s.Numbered) (row : Row J)
    (hshape : row.item.Shaped) (hindex : row.outputIndex =
      if row.item.id.key.isOutput then some (s.nextOutputIndex row.item.turnID) else none) :
    ((s.addRow row).record (recordItemChange row.outputIndex none row.item delta)).Numbered := by
  have hsome : row.outputIndex.isSome = row.item.id.key.isOutput := by
    rw [hindex]
    cases row.item.id.key.isOutput <;> rfl
  constructor
  · intro turn
    have hrows := outputIndexes_addRow s row turn
    simp only [Stream.outputIndexes, Stream.addedIndexes, Stream.record,
      List.filterMap_append, addedIndexes_recordItemChange hshape hsome turn] at hrows ⊢
    rw [hrows]
    exact congrArg (· ++ _) (h.told turn)
  · intro turn
    have hrows := outputIndexes_addRow s row turn
    simp only [Stream.outputIndexes, Stream.record] at hrows ⊢
    rw [hrows]
    change s.outputIndexes turn ++ _ = List.range (s.outputIndexes turn ++ _).length
    by_cases hturn : row.item.turnID = turn
    · rw [if_pos hturn, hindex, hturn, h.next turn]
      cases row.item.id.key.isOutput with
      | false => simpa using h.counted turn
      | true =>
        simp only [if_true, Option.toList_some, List.length_append, List.length_singleton,
          List.range_succ]
        rw [← h.counted turn]
    · simpa [hturn] using h.counted turn

theorem Write.numbered {C : Stream J → TurnID → Observation J → Prop} {turn : TurnID}
    (h : Write C turn s t) (hs : s.Numbered) : t.Numbered := by
  cases h with
  | @added o snapshot item append legacy index hproj hfind hrestored hindex =>
    refine hs.addRow ⟨item, index⟩ (hrestored.shaped hproj.shaped) ?_
    have hturn : item.turnID = turn := by
      rw [Item.turnID, hrestored.id]
      exact hproj.id_turn
    rw [hturn]
    exact hindex
  | merged | finished => exact hs.setItem

end Numbering

def Stream.EndsDone (s : Stream J) : Prop :=
  ∀ (i : Nat) (turn : TurnID) (status : TurnStatus),
    s.events[i]? = some (.turnChanged turn (.became status)) → terminalStatus status = true →
    ∀ row ∈ s.items, row.item.turnID = turn → row.outputIndex.isSome = true →
    ∃ j < i, ∃ (index : Nat) (item : Item J),
      s.events[j]? = some (.itemDone index item) ∧ item.id = row.item.id

/-- No event tells yet that the Turn is terminal. -/
def Stream.OpenTurn (s : Stream J) (turn : TurnID) : Prop :=
  ∀ status, terminalStatus status = true → .turnChanged turn (.became status) ∉ s.events

structure Stream.Formed (s : Stream J) : Prop where
  keyed : s.Keyed
  rows : s.Rows Streamed
  numbered : s.Numbered
  ends : s.EndsDone

namespace Stream

variable {s : Stream J}

theorem Formed.congr {t : Stream J} (h : s.Formed) (hitems : t.items = s.items)
    (hevents : t.events = s.events) : t.Formed := by
  obtain ⟨turns, items, results, events⟩ := t
  subst hitems hevents
  exact ⟨⟨h.keyed.nodup, h.keyed.known, h.keyed.shaped⟩, h.rows,
    ⟨h.numbered.told, h.numbered.counted⟩, h.ends⟩

theorem Formed.record (h : s.Formed) {events : List (SessionEvent J)}
    (hitem : ∀ e ∈ events, e.itemID? = none)
    (hends : ∀ turn status, .turnChanged turn (.became status) ∈ events →
      terminalStatus status = true → ∀ row ∈ s.items, row.item.turnID = turn →
      row.outputIndex.isSome = true → ∃ index, .itemDone index row.item ∈ s.events) :
    (s.record events).Formed where
  keyed := h.keyed.record hitem
  rows := h.rows.record hitem
  numbered := by
    refine ⟨fun turn => ?_, h.numbered.counted⟩
    have hnone : events.filterMap (SessionEvent.addedIndex? turn) = [] :=
      List.filterMap_eq_nil_iff.2 (fun e he => addedIndex_of_not_added (by
        have := hitem e he
        cases e <;> first | rfl | cases this))
    simp only [addedIndexes, Stream.record, List.filterMap_append, hnone, List.append_nil]
    exact h.numbered.told turn
  ends i turn status hi hterminal row hrow hturn hout := by
    simp only [Stream.record] at hi ⊢
    by_cases hlt : i < s.events.length
    · rw [List.getElem?_append_left hlt] at hi
      obtain ⟨j, hj, index, item, hdone, hid⟩ :=
        h.ends i turn status hi hterminal row hrow hturn hout
      exact ⟨j, hj, index, item, by
        rw [List.getElem?_append_left (hj.trans hlt), hdone], hid⟩
    · rw [List.getElem?_append_right (Nat.le_of_not_lt hlt)] at hi
      obtain ⟨index, hdone⟩ :=
        hends turn status (List.mem_of_getElem? hi) hterminal row hrow hturn hout
      obtain ⟨j, hj⟩ := List.getElem?_of_mem hdone
      have hjlt := (List.getElem?_eq_some_iff.1 hj).1
      exact ⟨j, by omega, index, row.item, by rw [List.getElem?_append_left hjlt, hj], rfl⟩

theorem Formed.done (h : s.Formed) {row : Row J} (hrow : row ∈ s.items)
    (hout : row.outputIndex.isSome = true) (hstatus : row.item.status ≠ .inProgress) :
    ∃ index, .itemDone index row.item ∈ s.events := by
  have hevents := h.rows row hrow
  obtain ⟨item, index⟩ := row
  generalize hof : s.eventsOf item.id = events at hevents
  cases hevents with
  | input => cases hout
  | opened hopen => exact absurd hopen hstatus
  | @closed _ first k body =>
    have hmem : SessionEvent.itemDone k item ∈ s.eventsOf item.id := by
      rw [hof]
      simp
    exact ⟨k, (List.mem_filter.1 hmem).1⟩

end Stream

section Ends

variable [DecidableEq J] {C : Stream J → TurnID → Observation J → Prop} {turn : TurnID}
  {s t : Stream J}

theorem Write.frame (h : Write C turn s t) :
    (∃ events, t.events = s.events ++ events ∧ ∀ e ∈ events, e.itemID?.isSome = true) ∧
      t.turns = s.turns ∧ ∀ row ∈ t.items, row.item.turnID ≠ turn → row ∈ s.items := by
  have hevents : ∀ {index previous item delta} {e : SessionEvent J},
      e ∈ recordItemChange index previous item delta → e.itemID?.isSome = true := fun he => by
    rw [itemID_recordItemChange he]
    rfl
  cases h with
  | @added o snapshot item append legacy index hproj hfind hrestored =>
    refine ⟨⟨_, rfl, fun e => hevents⟩, rfl, fun row hrow hne => ?_⟩
    rcases mem_concat hrow with hrow | rfl
    · exact hrow
    · exact absurd ((congrArg ItemID.turn hrestored.id).trans hproj.id_turn) hne
  | @merged o u row merged item hproj hC hnative hfind hmerged hrestored =>
    refine ⟨⟨_, rfl, fun e => hevents⟩, rfl, fun new hnew hne => ?_⟩
    rcases Stream.mem_setItem hnew with ⟨hold, -⟩ | ⟨old, -, -, rfl⟩
    · exact hold
    · have hid : item.id = u.id := by
        rw [hrestored.id, hmerged.id (Stream.find_some hfind).2]
      exact absurd ((congrArg ItemID.turn hid).trans hproj.id_turn) hne
  | @finished row hfind hturn =>
    refine ⟨⟨_, rfl, fun e => hevents⟩, rfl, fun new hnew hne => ?_⟩
    rcases Stream.mem_setItem hnew with ⟨hold, -⟩ | ⟨old, -, -, rfl⟩
    · exact hold
    · exact absurd hturn hne

theorem Write.openTurn (h : Write C turn s t) {other : TurnID} (hopen : s.OpenTurn other) :
    t.OpenTurn other := by
  obtain ⟨⟨events, heq, hitem⟩, -, -⟩ := h.frame
  intro status hterminal hmem
  rw [heq] at hmem
  rcases List.mem_append.1 hmem with hmem | hmem
  · exact hopen status hterminal hmem
  · cases hitem _ hmem

theorem Write.endsDone (h : Write C turn s t) (hopen : s.OpenTurn turn) (hs : s.EndsDone) :
    t.EndsDone := by
  obtain ⟨⟨events, heq, hitem⟩, -, hframe⟩ := h.frame
  intro i other status hi hterminal row hrow hturn hout
  rw [heq] at hi ⊢
  by_cases hlt : i < s.events.length
  · rw [List.getElem?_append_left hlt] at hi
    have hne : other ≠ turn := by
      rintro rfl
      exact hopen status hterminal (List.mem_of_getElem? hi)
    obtain ⟨j, hj, index, item, hdone, hid⟩ := hs i other status hi hterminal row
      (hframe row hrow (hturn ▸ hne)) hturn hout
    exact ⟨j, hj, index, item, by rw [List.getElem?_append_left (hj.trans hlt), hdone], hid⟩
  · rw [List.getElem?_append_right (Nat.le_of_not_lt hlt)] at hi
    cases hitem _ (List.mem_of_getElem? hi)

theorem Writes.turns (h : Writes C turn s t) : t.turns = s.turns :=
  h.invariant (I := fun t => t.turns = s.turns) (fun _ _ hw hu => hw.frame.2.1.trans hu) rfl

theorem Writes.openTurn (h : Writes C turn s t) {other : TurnID} (hopen : s.OpenTurn other) :
    t.OpenTurn other :=
  h.invariant (fun _ _ hw => hw.openTurn) hopen

theorem Writes.formed (h : Writes FinalTextKept turn s t) (hs : s.Formed)
    (hopen : s.OpenTurn turn) : t.Formed := by
  refine (h.invariant (I := fun t => t.Formed ∧ t.OpenTurn turn) ?_ ⟨hs, hopen⟩).1
  rintro u v hw ⟨hu, hopen⟩
  exact ⟨⟨hw.keyed hu.keyed, hw.rows streamed_invariant hu.keyed hu.rows,
    hw.numbered hu.numbered, hw.endsDone hopen hu.ends⟩, hw.openTurn hopen⟩

theorem finishItems_open {ids : List ItemID} (hs : s.Keyed) {row : Row J}
    (hrow : row ∈ (ids.foldl (Stream.finishItem turn) s).items)
    (hturn : row.item.turnID = turn) (hstatus : row.item.status = .inProgress) :
    row ∈ s.items ∧ row.item.id ∉ ids := by
  induction ids generalizing s with
  | nil => exact ⟨hrow, List.not_mem_nil⟩
  | cons id ids ih =>
    have hwrites : Writes FinalTextKept turn s (Stream.finishItem turn s id) :=
      finishItem_writes s id
    obtain ⟨hmem, hnot⟩ := ih (hwrites.invariant (fun _ _ hw => hw.keyed) hs) hrow
    have hold : row ∈ s.items ∧ row.item.id ≠ id := by
      simp only [Stream.finishItem] at hmem
      split at hmem
      · rename_i hfind
        exact ⟨hmem, Stream.find_none hfind row hmem⟩
      · rename_i found hfind
        split at hmem
        · rcases Stream.mem_setItem hmem with ⟨hold, hne⟩ | ⟨old, -, -, rfl⟩
          · exact ⟨hold, (Stream.find_some hfind).2 ▸ hne⟩
          · cases hstatus
        · rename_i hother
          refine ⟨hmem, ?_⟩
          rintro rfl
          rw [hs.find_of_mem hmem] at hfind
          cases hfind
          exact hother ⟨hturn, hstatus⟩
    exact ⟨hold.1, List.not_mem_cons_of_ne_of_not_mem hold.2 hnot⟩

theorem finishSessionItems_closed (hs : s.Keyed) {row : Row J}
    (hrow : row ∈ (s.finishSessionItems turn).items) (hturn : row.item.turnID = turn) :
    row.item.status ≠ .inProgress := by
  intro hstatus
  obtain ⟨hmem, hnot⟩ := finishItems_open hs hrow hturn hstatus
  exact hnot (List.mem_map_of_mem hmem)

end Ends

namespace Streamed

variable {events : List (SessionEvent J)} {row : Row J}

theorem added (h : Streamed events row) : ∃ index first rest,
    events = .itemAdded index first :: rest ∧ ∀ e ∈ rest, e.isAdded = false := by
  cases h with
  | input item first => exact ⟨_, first, [], rfl, by simp⟩
  | opened _ hbody => exact ⟨_, _, _, rfl, fun e he => (hbody e he).1⟩
  | @closed item first index body _ hbody =>
    refine ⟨_, _, _, rfl, fun e he => ?_⟩
    rcases mem_concat he with he | rfl
    · exact (hbody e he).1
    · rfl

theorem index (h : Streamed events row) {e : SessionEvent J} (he : e ∈ events) :
    e.index = row.outputIndex := by
  cases h with
  | input =>
    cases List.mem_singleton.1 he
    rfl
  | opened _ hbody =>
    rcases List.mem_cons.1 he with rfl | he
    · rfl
    · exact (hbody e he).2.2
  | closed _ hbody =>
    rcases List.mem_cons.1 he with rfl | he
    · rfl
    · rcases mem_concat he with he | rfl
      · exact (hbody e he).2.2
      · rfl

theorem undone (h : Streamed events row) : ∃ body tail, events = body ++ tail ∧
    (∀ e ∈ body, e.isDone = false) ∧ (tail = [] ∨ ∃ index, tail = [.itemDone index row.item]) := by
  cases h with
  | input item first =>
    exact ⟨_, [], (List.append_nil _).symm, by simp [SessionEvent.isDone], .inl rfl⟩
  | opened _ hbody =>
    refine ⟨_, [], (List.append_nil _).symm, fun e he => ?_, .inl rfl⟩
    rcases List.mem_cons.1 he with rfl | he
    · rfl
    · exact (hbody e he).2.1
  | @closed item first index body _ hbody =>
    refine ⟨.itemAdded (some index) first :: body, _, rfl, fun e he => ?_, .inr ⟨index, rfl⟩⟩
    rcases List.mem_cons.1 he with rfl | he
    · rfl
    · exact (hbody e he).2.1

theorem done (h : Streamed events row) {before after : List (SessionEvent J)} {e : SessionEvent J}
    (heq : events = before ++ e :: after) (he : e.isDone = true) :
    after = [] ∧ ∃ index, e = .itemDone index row.item := by
  obtain ⟨body, tail, hsplit, hbody, htail⟩ := h.undone
  have hnot : e ∉ body := fun hmem => by
    rw [hbody e hmem] at he
    cases he
  rw [hsplit] at heq
  rcases htail with rfl | ⟨index, rfl⟩
  · rw [List.append_nil] at heq
    exact absurd (by simp [heq]) hnot
  · rcases List.eq_nil_or_concat after with rfl | ⟨rest, last, rfl⟩
    · obtain ⟨-, hlast⟩ := List.append_inj' heq rfl
      exact ⟨rfl, index, (List.cons.inj hlast).1.symm⟩
    · rw [List.concat_eq_append, ← List.cons_append, ← List.append_assoc] at heq
      obtain ⟨hmem, -⟩ := List.append_inj' heq rfl
      exact absurd (by simp [hmem]) hnot

end Streamed

/-- The public streams of a Session's items are well formed. -/
structure ItemStreams (s : Stream J) : Prop where
  /-- Every event of an item is of a stored one. -/
  known : ∀ e ∈ s.events, ∀ id, e.itemID? = some id → ∃ row ∈ s.items, row.item.id = id
  /-- Each item has one `item.added`, before its other events. -/
  added : ∀ row ∈ s.items, ∃ index first rest,
    s.eventsOf row.item.id = .itemAdded index first :: rest ∧ ∀ e ∈ rest, e.isAdded = false
  /-- No event of an item follows its `item.done`. -/
  closed : ∀ id before e after, s.eventsOf id = before ++ e :: after → e.isDone = true → after = []
  /-- The output items of a terminal Turn are done before it is told. -/
  ends : s.EndsDone
  numbered : ∀ turn, s.addedIndexes turn = List.range (s.addedIndexes turn).length
  /-- All events of an item have the same output index. -/
  stable : ∀ id, ∀ e ∈ s.eventsOf id, ∀ e' ∈ s.eventsOf id, e.index = e'.index
  /-- The item that `item.done` carries is the one that is stored. -/
  stored : ∀ index item, .itemDone index item ∈ s.events → ∃ row ∈ s.items, row.item = item

theorem Stream.Formed.itemStreams {s : Stream J} (h : s.Formed) : ItemStreams s where
  known := h.keyed.known
  added row hrow := (h.rows row hrow).added
  closed id before e after heq he := by
    have hmem : e ∈ s.eventsOf id := by simp [heq]
    obtain ⟨row, hrow, rfl⟩ := h.keyed.known e (List.mem_filter.1 hmem).1 id
      (by simpa using (List.mem_filter.1 hmem).2)
    exact ((h.rows row hrow).done heq he).1
  ends := h.ends
  numbered turn := by
    rw [h.numbered.told turn]
    exact h.numbered.counted turn
  stable id e he e' he' := by
    obtain ⟨row, hrow, rfl⟩ := h.keyed.known e (List.mem_filter.1 he).1 id
      (by simpa using (List.mem_filter.1 he).2)
    rw [(h.rows row hrow).index he, (h.rows row hrow).index he']
  stored index item hdone := by
    obtain ⟨row, hrow, hid⟩ := h.keyed.known _ hdone item.id rfl
    have hmem : SessionEvent.itemDone index item ∈ s.eventsOf row.item.id :=
      List.mem_filter.2 ⟨hdone, by simp [SessionEvent.itemID?, hid]⟩
    obtain ⟨before, after, heq⟩ := List.append_of_mem hmem
    obtain ⟨-, k, hk⟩ := (h.rows row hrow).done heq rfl
    cases hk
    exact ⟨row, hrow, rfl⟩

structure Stream.Settled (s : Stream J) : Prop where
  formed : s.Formed
  settled : ∀ turn, s.OpenTurn turn ∨ s.statusOf turn terminalStatus = true

theorem settled_empty : Stream.Settled ({} : Stream J) where
  formed := {
    keyed := ⟨List.nodup_nil, (fun _ h => by cases h), (fun _ h => by cases h)⟩
    rows := fun _ h => by cases h
    numbered := ⟨fun _ => rfl, fun _ => rfl⟩
    ends := fun _ _ _ h => by cases h }
  settled := fun _ => .inl (fun _ _ h => by cases h)

theorem Stream.Settled.openTurn {s : Stream J} (hs : s.Settled)
    (hactive : s.statusOf turn TurnStatus.active = true) : s.OpenTurn turn := by
  rcases hs.settled turn with hopen | hterminal
  · exact hopen
  · simp only [Stream.statusOf, Option.any_eq_true] at hactive hterminal
    obtain ⟨status, hfound, hactive⟩ := hactive
    obtain ⟨_, hsame, hterminal⟩ := hterminal
    cases hfound.symm.trans hsame
    cases status <;> simp_all [TurnStatus.active, terminalStatus]

theorem openTurn_record {s : Stream J} {events : List (SessionEvent J)} (hopen : s.OpenTurn turn)
    (hevents : ∀ status, terminalStatus status = true →
      .turnChanged turn (.became status) ∉ events) : (s.record events).OpenTurn turn :=
  fun status hterminal hmem => (List.mem_append.1 hmem).elim (hopen status hterminal)
    (hevents status hterminal)

section Runs

variable [DecidableEq J] {s t : Stream J}

theorem Writes.settled {turn : TurnID} (h : Writes FinalTextKept turn s t) (hs : s.Settled)
    (hopen : s.OpenTurn turn) : t.Settled := by
  refine ⟨h.formed hs.formed hopen, fun other => (hs.settled other).imp h.openTurn fun ht => ?_⟩
  rw [Stream.statusOf, h.turns]
  exact ht

theorem Stream.Settled.ended {turn : TurnID} {status : TurnStatus} {n : Notice} (hs : s.Settled)
    (hactive : s.statusOf turn TurnStatus.active = true)
    (hterminal : terminalStatus status = true) :
    (((s.setStatus turn status).finishSessionItems turn).record
      [.turnChanged turn (.became status), .notice n]).Settled := by
  have hopen : (s.setStatus turn status).OpenTurn turn := hs.openTurn hactive
  have hstart : (s.setStatus turn status).Formed := hs.formed.congr rfl rfl
  have hfinish : Writes FinalTextKept turn (s.setStatus turn status)
      ((s.setStatus turn status).finishSessionItems turn) := finishSessionItems_writes _
  have hformed := hfinish.formed hstart hopen
  constructor
  · refine hformed.record (by simp [SessionEvent.itemID?]) (fun other new hmem _ row hrow => ?_)
    obtain ⟨rfl, rfl⟩ : other = turn ∧ new = status := by simpa using hmem
    intro hturn hout
    exact hformed.done hrow hout (finishSessionItems_closed hstart.keyed hrow hturn)
  · intro other
    have hstatus : ((s.setStatus turn status).finishSessionItems turn).statusOf other
        terminalStatus = (s.setStatus turn status).statusOf other terminalStatus := by
      rw [Stream.statusOf, hfinish.turns]
      rfl
    by_cases hother : other = turn
    · subst hother
      refine .inr (hstatus.trans ?_)
      simp only [Stream.statusOf, Option.any_eq_true] at hactive
      obtain ⟨current, hfound, -⟩ := hactive
      simp [Stream.statusOf, Stream.setStatus,
        List.getElem?_set_self (List.getElem?_eq_some_iff.1 hfound).1, hterminal]
    · refine (hs.settled other).imp (fun ho => openTurn_record ?_ ?_) fun ht => ?_
      · exact hfinish.openTurn ho
      · simp [hother]
      · exact hstatus.trans (statusOf_setStatus hactive ht)

theorem Stepped.settled (h : Stepped FinalTextKept s t) (hs : s.Settled) : t.Settled := by
  cases h with
  | wrote hactive hwrites => exact hwrites.settled hs (hs.openTurn hactive)
  | ended hactive hterminal hwrites =>
    refine (hwrites.settled hs (hs.openTurn hactive)).ended ?_ hterminal
    rwa [Stream.statusOf, hwrites.turns]
  | @noted _ events hquiet hevents hitems hturns =>
    have hitem := itemID_of_quiet hquiet
    have hends : ∀ turn status, terminalStatus status = true →
        .turnChanged turn (.became status) ∉ events := fun turn status hterminal hmem => by
      have hq := hquiet _ hmem
      simp [SessionEvent.quiet, hterminal] at hq
    have hformed : (s.record events).Formed := hs.formed.record hitem
      (fun turn status hmem hterminal => absurd hmem (hends turn status hterminal))
    refine ⟨hformed.congr hitems hevents, fun turn => (hs.settled turn).imp ?_ (hturns turn)⟩
    intro ho
    rw [Stream.OpenTurn, hevents]
    exact openTurn_record ho (hends turn)

/-- In every run in which no final text reopens a closed `legacy-message`, the item streams are well
formed. -/
theorem item_streams_well_formed (actions : List (Action J)) (s : Stream J)
    (hmeets : StepsMeet Stream.step (Action.Meets FinalTextKept) {} actions)
    (hrun : runTrace Stream.step {} actions = some s) : ItemStreams s := by
  have hstep : ∀ (s : Stream J) a t, a.Meets FinalTextKept s → s.step a = some t → s.Settled →
      t.Settled := fun s a t hmeets hstep hs =>
    (step_stepped hmeets finalTextKept_of_plural hstep).settled hs
  exact (runTrace_invariant hstep hmeets hrun settled_empty).formed.itemStreams

end Runs

instance [DecidableEq J] (s : Stream J) (turn : TurnID) (o : Observation J) :
    Decidable (FinalTextKept s turn o) :=
  decidable_of_iff
    (∀ final ∈ o.finalText, s.hasNativeMessageItem ⟨turn, .legacyMessage⟩ = false →
      ∀ row ∈ s.items, row.item.id = ⟨turn, .legacyMessage⟩ → row.item.status = .incomplete →
        row.item = finalItem turn final.1 final.2)
    (by simp [FinalTextKept])

instance [DecidableEq J] (s : Stream J) (a : Action J) : Decidable (a.Meets FinalTextKept s) :=
  decidable_of_iff (∀ source ∈ a.observation?, FinalTextKept s source.1 source.2)
    (by simp [Action.Meets])

def answeredTurn : List (Action Unit) :=
  [.createTurn, .admitMessage 0 1 (some { text := some "hi" }), .transition 0 .inProgress none,
    .observe 0 1 (.delta "" "hel"),
    .observe 0 2 (.toolCall "f" "before"
      (some { kind := "function", status := "in_progress", name := "look" })),
    .observe 0 3 (.delta "" "lo"), .transition 0 .completed (some "hello")]

theorem item_streams_well_formed_answered :
    ∃ s, runTrace Stream.step {} answeredTurn = some s ∧ ItemStreams s := by
  have hrun : (runTrace Stream.step {} answeredTurn).map
      (fun s => s.turns == [.completed] && s.items.length == 3) = some true := by
    decide +kernel
  obtain ⟨s, hs, -⟩ := exists_of_runTrace_map hrun
  exact ⟨s, hs, item_streams_well_formed answeredTurn s
    (stepsMeet_of_check (by decide +kernel)) hs⟩

def reopenedMessage : List (Action Unit) :=
  [.createTurn, .transition 0 .inProgress none, .observe 0 1 (.cancelReceipt true (some "one")),
    .transition 0 .cancelled (some "two")]

def doneTwice (s : Stream Unit) : Bool :=
  ((s.eventsOf ⟨0, .legacyMessage⟩).filter SessionEvent.isDone).length == 2
    && s.events.contains (.itemDone 0 (finalItem 0 "one" .incomplete))
    && s.items.all (fun row => row.item != finalItem 0 "one" .incomplete)

/-- The message gets a second `item.done` and is no longer what the first one carried. -/
theorem legacy_message_reopened :
    ∃ s, runTrace Stream.step {} reopenedMessage = some s ∧
      ((s.eventsOf ⟨0, .legacyMessage⟩).filter SessionEvent.isDone).length = 2 ∧
      ¬ItemStreams s := by
  have hrun : (runTrace Stream.step {} reopenedMessage).map doneTwice = some true := by
    decide +kernel
  obtain ⟨s, hs, htwice⟩ := exists_of_runTrace_map hrun
  simp only [doneTwice, Bool.and_eq_true, beq_iff_eq, List.contains_iff_mem, List.all_eq_true,
    bne_iff_ne] at htwice
  refine ⟨s, hs, htwice.1.1, fun hsound => ?_⟩
  obtain ⟨row, hrow, hitem⟩ := hsound.stored _ _ htwice.1.2
  exact htwice.2 row hrow hitem

end Parsar.Items
