import Parsar.Framework.Family
import Parsar.Turns.Store

namespace Parsar.Turns

open Tx Relation

variable {π : Type}

namespace Session

variable {s : Session π} {id : TurnID} {turn : Turn π}

theorem getActiveTurn_eq_some (h : s.getActiveTurn = some (id, turn)) :
    s.turns[id]? = some turn ∧ turn.status.active = true := by
  simp only [getActiveTurn, Option.bind_eq_bind, Option.bind_eq_some_iff, Option.pure_def,
    Option.some.injEq, Prod.mk.injEq] at h
  obtain ⟨i, hi, row, hrow, rfl, rfl⟩ := h
  obtain ⟨hlength, hactive, -⟩ := List.findIdx?_eq_some_iff_getElem.mp hi
  rw [List.getElem?_eq_getElem hlength] at hrow
  cases hrow
  exact ⟨List.getElem?_eq_getElem hlength, hactive⟩

theorem getActiveTurn_eq_none :
    s.getActiveTurn = none ↔ ∀ turn ∈ s.turns, turn.status.active = false := by
  rw [← List.findIdx?_eq_none_iff]
  cases hi : s.turns.findIdx? (·.status.active) with
  | none => simp [getActiveTurn, hi]
  | some i =>
    have hlength := (List.findIdx?_eq_some_iff_getElem.mp hi).1
    simp [getActiveTurn, hi, List.getElem?_eq_getElem hlength]

theorem getActiveTurn_congr {t : Session π} (h : t.turns = s.turns) :
    t.getActiveTurn = s.getActiveTurn := by
  rw [getActiveTurn, getActiveTurn, h]

theorem getActiveTurn_createTurn [EmptyCollection π] (hidle : s.getActiveTurn = none) (now : Int) :
    (s.createTurn now).getActiveTurn =
      some (s.turns.length, { createdAt := now, outcome := ∅ }) := by
  have hidx : s.turns.findIdx? (·.status.active) = none := by
    rw [List.findIdx?_eq_none_iff]
    exact getActiveTurn_eq_none.mp hidle
  have hqueued : TurnStatus.active .queued = true := rfl
  simp [getActiveTurn, createTurn, List.findIdx?_append, hidx, hqueued]

theorem fileWriteBlocks_eq_false :
    s.fileWriteBlocks = false ↔ ∀ row ∈ s.fileWrites, row.state ≠ .pending := by
  simp [fileWriteBlocks]

theorem hasPendingInput_eq_false :
    s.hasPendingInput = false ↔ ∀ row ∈ s.reservations, row.state ≠ .pending := by
  simp [hasPendingInput]

@[simp] theorem recordTurnChange_frame (s : Session π) (id : TurnID) :
    let t := s.recordTurnChange id
    t.turns = s.turns ∧ t.deletedAt = s.deletedAt ∧ t.sequence = s.sequence ∧ t.inputs = s.inputs ∧
      t.reservations = s.reservations ∧ t.calls = s.calls ∧ t.environment = s.environment ∧
      t.fileWrites = s.fileWrites := by
  simp only [recordTurnChange, settleTurnArtifacts]
  repeat' split
  all_goals exact ⟨rfl, rfl, rfl, rfl, rfl, rfl, rfl, rfl⟩

@[simp] theorem requestTurnCancel_frame (s : Session π) (now : Int) (id : TurnID) (turn : Turn π) :
    let t := s.requestTurnCancel now id turn
    t.turns = s.turns.modify id (·.requestCancel now) ∧ t.deletedAt = s.deletedAt ∧
      t.sequence = s.sequence ∧ t.inputs = s.inputs ∧ t.reservations = s.reservations ∧
      t.calls = s.calls ∧ t.environment = s.environment ∧ t.fileWrites = s.fileWrites := by
  simp only [requestTurnCancel]
  split <;> simp

@[simp] theorem stageArtifacts_frame (files : List CapturedFile) (s : Session π) (id : TurnID) :
    let t := files.foldl (·.stageArtifact id) s
    t.turns = s.turns ∧ t.deletedAt = s.deletedAt ∧ t.sequence = s.sequence ∧ t.inputs = s.inputs ∧
      t.reservations = s.reservations ∧ t.calls = s.calls ∧ t.environment = s.environment ∧
      t.fileWrites = s.fileWrites := by
  induction files generalizing s with
  | nil => simp
  | cons file files ih => exact ih (s.stageArtifact id file)

theorem recordTurnChange_set (hturn : s.turns[id]? = some turn) {row : Turn π}
    (hrow : terminalStatus row.status = false) :
    recordTurnChange { s with turns := s.turns.set id row } id =
      { s with turns := s.turns.set id row } := by
  have hlength := (List.getElem?_eq_some_iff.mp hturn).1
  simp [recordTurnChange, hlength, hrow]

theorem requestTurnCancel_reservations (s : Session π) (now : Int) (id : TurnID)
    (turn : Turn π) (rows : List (Reservation π)) :
    { s.requestTurnCancel now id turn with reservations := rows } =
      requestTurnCancel { s with reservations := rows } now id turn := by
  simp only [requestTurnCancel, recordTurnChange, settleTurnArtifacts]
  repeat' split
  all_goals rfl

end Session

def Reservation.Settles (admits : Prop) (row row' : Reservation π) : Prop :=
  row' = row ∨ row.state = .pending ∧ ∃ now state, state ≠ .pending ∧
    (state = .admitted → admits) ∧ row' = { row with state, settledAt := some now }

def Turn.await [EmptyCollection π] (turn : Turn π) (now : Int) (status : TurnStatus) : Turn π :=
  if turn.status ≠ status then turn.transition now status ∅ else turn

/-- No reservation and no file write is pending. -/
def Session.Free (s : Session π) : Prop := s.hasPendingInput = false ∧ s.fileWriteBlocks = false

/-- What a transaction may do: add messages, mark results, keep inputs or a reservation for a key,
admit, stage, complete. -/
structure Permits (π : Type) [EmptyCollection π] where
  message : Turn π → Prop := fun _ => True
  new : ∀ now, message { createdAt := now, outcome := ∅ } := by exact fun _ => trivial
  confirm : Prop := True
  key : String → Prop := fun _ => True
  admits : Prop := True
  stages : Prop := True
  completes : Prop := True

/-- The writes of which the transactions of the store are made, each with what its transaction
has checked before. -/
inductive Write [EmptyCollection π] (P : Permits π) : Session π → Session π → Prop
  | createTurn {s : Session π} (now : Int) (hidle : s.getActiveTurn = none) (hfree : s.Free) :
      Write P s (s.createTurn now)
  | insertInput {s : Session π} (turn : Option TurnID) (key : String) (input : Input π)
      (position : Nat) (hkey : P.key key)
      (hmessage : input.isMessage → ∃ id row, s.getActiveTurn = some (id, row) ∧
        turn = some id ∧ P.message row) :
      Write P s (s.insertInput turn key input position)
  | requestTurnCancel {s : Session π} (now : Int) {id : TurnID} {turn : Turn π}
      (hactive : s.getActiveTurn = some (id, turn)) : Write P s (s.requestTurnCancel now id turn)
  | claim {s : Session π} (now : Int) {id : TurnID} {turn : Turn π}
      (hturn : s.turns[id]? = some turn) (hqueued : turn.status = .queued)
      (hcancel : turn.cancelRequestedAt = none) :
      Write P s { s with turns := s.turns.set id (turn.transition now .inProgress ∅) }
  | finish {s : Session π} (now : Int) {id : TurnID} {turn : Turn π} {status : TurnStatus}
      (outcome : π) (events : List (ExecutionEvent π)) (hturn : s.turns[id]? = some turn)
      (hactive : turn.status.active = true) (hterminal : terminalStatus status = true)
      (hcompleted : status = .completed → turn.status = .inProgress ∧ P.completes) :
      Write P s (Session.recordTurnChange { s with
        turns := s.turns.set id ((turn.transition now status outcome).appendEvents events) } id)
  | recordCall {s : Session π} (now : Int) {turn : Turn π} (call : FunctionCall π)
      (hturn : s.turns[call.turn]? = some turn) (haccepts : acceptsFunctionResult turn = true)
      (hnew : call.result = none ∧ call.applied = false)
      (hfresh : s.findCall call.turn call.callID = none) :
      Write P s { s with
        calls := s.calls ++ [call]
        turns := s.turns.set call.turn (turn.await now .waiting) }
  | storeResult {s : Session π} {id : TurnID} {turn : Turn π} {callID : String}
      {call : FunctionCall π} (result : π) (hturn : s.turns[id]? = some turn)
      (haccepts : acceptsFunctionResult turn = true) (hcall : s.findCall id callID = some call)
      (hnone : call.result = none) : Write P s (s.storeResult id callID result)
  | applyResult {s : Session π} (now : Int) {id : TurnID} {turn : Turn π} {callID : String}
      {call : FunctionCall π} (hconfirm : P.confirm) (hturn : s.turns[id]? = some turn)
      (haccepts : acceptsFunctionResult turn = true) (hcall : s.findCall id callID = some call)
      (hresult : call.result.isSome = true) :
      Write P s { s.applyFunctionResult id callID with
        turns := s.turns.set id (turn.await now
          (if ((s.applyFunctionResult id callID).pendingCalls id).isEmpty then .inProgress
           else .waiting)) }
  | appendEvents {s : Session π} {id : TurnID} {turn : Turn π} (events : List (ExecutionEvent π))
      (hturn : s.turns[id]? = some turn)
      (hrunning : turn.status = .inProgress ∨ turn.status = .waiting) :
      Write P s { s with turns := s.turns.set id (turn.appendEvents events) }
  | beginCapture {s : Session π} {id : TurnID} {turn : Turn π} (hturn : s.turns[id]? = some turn)
      (hrunning : turn.status = .inProgress) (hcancel : turn.cancelRequestedAt = none) :
      Write P s { s with turns := s.turns.set id { turn with artifactCaptureStarted := true } }
  | reserve {s : Session π} (row : Reservation π) (hkey : P.key row.key) (hfree : s.Free)
      (hpending : row.state = .pending) (hfresh : ∀ old ∈ s.reservations, old.key ≠ row.key)
      (hactive : ∀ id turn, s.getActiveTurn = some (id, turn) →
        turn.artifactCaptureStarted = true) :
      Write P s { s with reservations := s.reservations ++ [row] }
  | settle {s : Session π} (rows : List (Reservation π))
      (hsettles : Grows (Reservation.Settles P.admits) (fun _ => False) s.reservations rows) :
      Write P s { s with reservations := rows }
  | createFileWrite {s : Session π} (row : FileWrite) (hidle : s.getActiveTurn = none)
      (hfree : s.Free) : Write P s { s with fileWrites := s.fileWrites ++ [row] }
  | settleFileWrite {s : Session π} (now : Int) (id : String) {state : FileWriteState}
      (hstate : state ≠ .pending) :
      Write P s { s with fileWrites := s.fileWrites.map (FileWrite.settle · now id state) }
  | stage {s : Session π} {id : TurnID} {turn : Turn π} {input : ArchiveStream}
      {files : List CapturedFile} (hstages : P.stages) (hturn : s.turns[id]? = some turn)
      (hrunning : turn.status = .inProgress) (hcancel : turn.cancelRequestedAt = none)
      (hpublic : s.deletedAt = none) (hcapture : captureArtifactArchive input = .ok files)
      (hfresh : ∀ file ∈ files, ∀ row ∈ s.artifacts, row.turn = id → row.path ≠ file.path) :
      Write P s (files.foldl (·.stageArtifact id) s)
  | delete {s : Session π} (now : Int) (hpublic : s.deletedAt = none) :
      Write P s { s.deleteSessionArtifacts with deletedAt := some now }
  | environment {s : Session π} (environment : Option Environment) :
      Write P s { s with environment }
  | otherInputs {s : Session π} (count : Nat) :
      Write P s { s with sequence := s.sequence + count }

abbrev Writes [EmptyCollection π] (P : Permits π) : Session π → Session π → Prop :=
  ReflTransGen (Write P)

section Admission

variable [DecidableEq π] [EmptyCollection π] {P : Permits π} {now : Int} {key : String}
  {position : Nat} {s t : Session π} {r : InputReceipt}

theorem admitInput_message {payload : π}
    (h : admitInput now key position (.message payload) s = .ok (r, t)) :
    (∃ id turn, s.getActiveTurn = some (id, turn) ∧
      t = s.insertInput (some id) key (.message payload) position ∧
      r = { sequence := s.sequence + 1, turn := some id, replayed := false }) ∨
    (s.getActiveTurn = none ∧
      t = (s.createTurn now).insertInput (some s.turns.length) key (.message payload) position ∧
      r = { sequence := s.sequence + 1, turn := some s.turns.length, replayed := false }) := by
  simp only [admitInput, targetTurn, createTurnInput, bind_ok, get_ok] at h
  cases hactive : s.getActiveTurn with
  | none =>
    simp [hactive, Input.isMessage] at h
    exact .inr ⟨rfl, h.2.symm, h.1.symm⟩
  | some active =>
    simp [hactive] at h
    exact .inl ⟨active.1, active.2, rfl, h.2.symm, h.1.symm⟩

theorem admitInput_cancel (h : admitInput now key position .cancel s = .ok (r, t)) :
    (∃ id turn, s.getActiveTurn = some (id, turn) ∧
      t = (s.insertInput (some id) key .cancel position).requestTurnCancel now id turn ∧
      r = { sequence := s.sequence + 1, turn := some id, replayed := false }) ∨
    (s.getActiveTurn = none ∧ t = s.insertInput none key .cancel position ∧
      r = { sequence := s.sequence + 1, turn := none, replayed := false }) := by
  simp only [admitInput, targetTurn, createTurnInput, bind_ok, get_ok] at h
  cases hactive : s.getActiveTurn with
  | none =>
    simp [hactive, Input.isMessage] at h
    exact .inr ⟨rfl, h.2.symm, h.1.symm⟩
  | some active =>
    simp [hactive] at h
    exact .inl ⟨active.1, active.2, rfl, h.1, h.2.symm⟩

theorem admitInput_toolResult {id : TurnID} {callID : String} {result : π}
    (h : admitInput now key position (.toolResult id callID result) s = .ok (r, t)) :
    ∃ turn call, s.turns[id]? = some turn ∧ s.findCall id callID = some call ∧
      r = { sequence := s.sequence + 1, turn := some id, replayed := false } ∧
      (call.result = some result ∧
          t = s.insertInput (some id) key (.toolResult id callID result) position ∨
        call.result = none ∧ acceptsFunctionResult turn = true ∧
          t = (s.storeResult id callID result).insertInput (some id) key
            (.toolResult id callID result) position) := by
  simp only [admitInput, admitFunctionResult, storeFunctionResult, createTurnInput, get_bind_ok,
    fetch_bind_ok] at h
  obtain ⟨turn, hturn, h⟩ := h
  rw [bind_ok] at h
  simp only [get_bind_ok, fetch_bind_ok] at h
  obtain ⟨_, u, ⟨call, hcall, hstored⟩, h⟩ := h
  cases hresult : call.result with
  | none =>
    simp [hresult] at hstored h
    obtain ⟨haccepts, rfl⟩ := hstored
    exact ⟨turn, call, hturn, hcall, h.2.symm, .inr ⟨hresult, haccepts, h.1⟩⟩
  | some stored =>
    simp [hresult] at hstored h
    obtain ⟨rfl, rfl⟩ := hstored
    exact ⟨turn, call, hturn, hcall, h.2.symm, .inl ⟨hresult, h.1⟩⟩

theorem admitInput_turns {input : Input π} (h : admitInput now key position input s = .ok (r, t)) :
    t.turns = s.turns ∨ s.getActiveTurn = none ∧ t.turns = (s.createTurn now).turns ∨
      input = .cancel ∧ ∃ id, t.turns = s.turns.modify id (·.requestCancel now) := by
  cases input with
  | message payload =>
    rcases admitInput_message h with ⟨id, turn, -, rfl, -⟩ | ⟨hidle, rfl, -⟩
    · exact .inl rfl
    · exact .inr (.inl ⟨hidle, rfl⟩)
  | cancel =>
    rcases admitInput_cancel h with ⟨id, turn, -, rfl, -⟩ | ⟨-, rfl, -⟩
    · exact .inr (.inr ⟨rfl, id, by simp [Session.insertInput]⟩)
    · exact .inl rfl
  | toolResult id callID result =>
    obtain ⟨turn, call, -, -, -, ⟨-, rfl⟩ | ⟨-, -, rfl⟩⟩ := admitInput_toolResult h
    all_goals exact .inl rfl

def AdmitsFrom (P : Permits π) (now : Int) (key : String) : Session π → List (Input π) → Prop
  | _, [] => True
  | s, input :: batch =>
    (input.isMessage = true → ∀ id turn, s.getActiveTurn = some (id, turn) →
      P.message turn) ∧
      ∀ position r t, admitInput now key position input s = .ok (r, t) → AdmitsFrom P now key t batch

theorem admitInput_writes {input : Input π} (rows : List (Reservation π)) (hkey : P.key key)
    (hP : input.isMessage = true → ∀ id turn, s.getActiveTurn = some (id, turn) →
      P.message turn)
    (hfree : input.isMessage = true → Session.Free { s with reservations := rows })
    (h : admitInput now key position input s = .ok (r, t)) :
    Writes P { s with reservations := rows } { t with reservations := rows } := by
  cases input with
  | message payload =>
    rcases admitInput_message h with ⟨id, turn, hactive, rfl, -⟩ | ⟨hidle, rfl, -⟩
    · exact .single (.insertInput (s := { s with reservations := rows }) _ key _ position hkey
        fun _ => ⟨id, turn, hactive, rfl, hP rfl id turn hactive⟩)
    · have hcreate := Write.createTurn (P := P) (s := { s with reservations := rows }) now hidle
        (hfree rfl)
      refine .head hcreate (.single (.insertInput _ key _ position hkey fun _ => ?_))
      exact ⟨_, _, Session.getActiveTurn_createTurn (s := { s with reservations := rows }) hidle now,
        rfl, P.new now⟩
  | cancel =>
    have hinsert : ∀ turn, Write P { s with reservations := rows }
        (Session.insertInput { s with reservations := rows } turn key .cancel position) :=
      fun turn => .insertInput _ key _ position hkey (fun h => by cases h)
    rcases admitInput_cancel h with ⟨id, turn, hactive, rfl, -⟩ | ⟨-, rfl, -⟩
    · refine .head (hinsert (some id)) (.single ?_)
      rw [Session.requestTurnCancel_reservations]
      exact .requestTurnCancel now hactive
    · exact .single (hinsert none)
  | toolResult id callID result =>
    have hinsert : ∀ u : Session π, Write P { u with reservations := rows }
        (Session.insertInput { u with reservations := rows } (some id) key
          (.toolResult id callID result) position) :=
      fun u => .insertInput _ key _ position hkey (fun h => by cases h)
    obtain ⟨turn, call, hturn, hcall, -, ⟨-, rfl⟩ | ⟨hnone, haccepts, rfl⟩⟩ :=
      admitInput_toolResult h
    · exact .single (hinsert s)
    · refine .head ?_ (.single (hinsert (s.storeResult id callID result)))
      exact .storeResult (s := { s with reservations := rows }) result hturn haccepts hcall hnone

theorem admitInput_frame {input : Input π}
    (h : admitInput now key position input s = .ok (r, t)) :
    t.reservations = s.reservations ∧ t.fileWrites = s.fileWrites ∧ t.deletedAt = s.deletedAt ∧
      t.environment = s.environment := by
  cases input with
  | message payload =>
    rcases admitInput_message h with ⟨id, turn, hactive, rfl, -⟩ | ⟨hidle, rfl, -⟩
    all_goals exact ⟨rfl, rfl, rfl, rfl⟩
  | cancel =>
    rcases admitInput_cancel h with ⟨id, turn, hactive, rfl, -⟩ | ⟨-, rfl, -⟩
    all_goals simp [Session.insertInput]
  | toolResult id callID result =>
    obtain ⟨turn, call, hturn, hcall, -, ⟨-, rfl⟩ | ⟨hnone, haccepts, rfl⟩⟩ :=
      admitInput_toolResult h
    all_goals exact ⟨rfl, rfl, rfl, rfl⟩

theorem admitInputs_cons {input : Input π} {batch : List (Input π)} {rs : List InputReceipt}
    (h : admitInputs now key position (input :: batch) s = .ok (rs, t)) :
    ∃ r u rest, admitInput now key position input s = .ok (r, u) ∧
      admitInputs now key (position + 1) batch u = .ok (rest, t) ∧ rs = r :: rest := by
  simp only [admitInputs, bind_ok, pure_ok] at h
  obtain ⟨r, u, hr, rest, v, hrest, rfl, rfl⟩ := h
  exact ⟨r, u, rest, hr, hrest, rfl⟩

theorem admitInputs_frame {batch : List (Input π)} {rs : List InputReceipt}
    (h : admitInputs now key position batch s = .ok (rs, t)) :
    t.reservations = s.reservations ∧ t.fileWrites = s.fileWrites ∧ t.deletedAt = s.deletedAt ∧
      t.environment = s.environment := by
  induction batch generalizing s position rs with
  | nil =>
    simp only [admitInputs, pure_ok] at h
    simp [h.2]
  | cons input batch ih =>
    obtain ⟨r, u, rest, hr, hrest, rfl⟩ := admitInputs_cons h
    obtain ⟨h1, h2, h3, h4⟩ := admitInput_frame hr
    obtain ⟨h5, h6, h7, h8⟩ := ih hrest
    exact ⟨h5.trans h1, h6.trans h2, h7.trans h3, h8.trans h4⟩

theorem admitInputs_writes {batch : List (Input π)} {rs : List InputReceipt}
    (rows : List (Reservation π)) (hkey : P.key key) (hP : AdmitsFrom P now key s batch)
    (hfree : (∃ input ∈ batch, input.isMessage = true) →
      Session.Free { s with reservations := rows })
    (h : admitInputs now key position batch s = .ok (rs, t)) :
    Writes P { s with reservations := rows } { t with reservations := rows } := by
  induction batch generalizing s position rs with
  | nil =>
    simp only [admitInputs, pure_ok] at h
    rw [h.2]
  | cons input batch ih =>
    obtain ⟨r, u, rest, hr, hrest, rfl⟩ := admitInputs_cons h
    have hhead := admitInput_writes rows hkey hP.1
      (fun hm => hfree ⟨input, List.mem_cons_self, hm⟩) hr
    refine hhead.trans (ih (hP.2 position r u hr) ?_ hrest)
    rintro ⟨message, hmem, hm⟩
    have hfree' := hfree ⟨message, List.mem_cons_of_mem _ hmem, hm⟩
    simpa [Session.Free, Session.hasPendingInput, Session.fileWriteBlocks,
      (admitInput_frame hr).2.1] using hfree'

end Admission

end Parsar.Turns
