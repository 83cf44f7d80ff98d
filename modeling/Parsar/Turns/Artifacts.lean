import Mathlib.Algebra.Ring.Int.Defs
import Mathlib.Data.List.Nodup
import Parsar.Turns.Lifecycle

namespace Parsar.Turns

open GoStd Tx Relation

/-- The file of an entry, with the bytes, the size and the hash of its body. -/
structure Captures (entry : ArchiveEntry) (file : CapturedFile) : Prop where
  path : file.path = utf8 "/workspace/" ++ entry.name
  valid : validPath entry.name = true
  body : file.body = entry.body
  size : (file.sizeBytes : Int) = entry.size
  length : file.sizeBytes = entry.body.length
  sha256 : file.sha256 = sha256Hex entry.body

/-- The archive is complete and its files are within the limits. -/
structure WholeArchive (input : ArchiveStream) (files : List CapturedFile) : Prop where
  captures : List.Forall₂ Captures input.entries files
  regular : ∀ entry ∈ input.entries, entry.regular = true
  paths : ∀ file ∈ files, utf8 "/workspace/outputs/" <+: file.path
  distinct : (files.map (·.path)).Nodup
  count : files.length ≤ maxArtifacts
  each : ∀ file ∈ files, (file.sizeBytes : Int) ≤ maxArtifactBytes
  total : ((files.map (·.sizeBytes)).sum : Int) ≤ maxArtifactBatchBytes
  ended : input.trailer = true ∧ input.restEnds = true ∧ input.rest.length ≤ maxPadding ∧
    ∀ byte ∈ input.rest, byte = 0

theorem acceptsHeader_iff {seen : List Bytes} {total : Int} {rows : Nat} {header : ArchiveEntry}
    (h : acceptsHeader seen total rows header = true) :
    header.regular = true ∧ utf8 "outputs/" <+: header.name ∧ validPath header.name = true ∧
      header.size ≤ maxArtifactBytes ∧ total + header.size ≤ maxArtifactBatchBytes ∧
        rows < maxArtifacts ∧ header.name ∉ seen := by
  simp only [acceptsHeader, Bool.and_eq_true, Bool.not_eq_true', List.contains_eq_mem,
    decide_eq_true_eq, decide_eq_false_iff_not, List.isPrefixOf_iff_prefix] at h
  obtain ⟨⟨⟨⟨⟨⟨⟨⟨⟨hregular, houtputs⟩, hvalid⟩, -⟩, -⟩, -⟩, heach⟩, htotal⟩, hcount⟩, hseen⟩ := h
  exact ⟨hregular, houtputs, hvalid, heach, by omega, hcount, hseen⟩

theorem captureEntries_ok {entries : List ArchiveEntry} {seen : List Bytes} {total : Int}
    {rows files : List CapturedFile} (hrows : rows.length ≤ maxArtifacts)
    (htotal : total ≤ maxArtifactBatchBytes)
    (h : captureEntries entries seen total rows = .ok files) :
    files = rows ++ entries.map capturedFile ∧
      (∀ entry ∈ entries, entry.regular = true ∧ utf8 "outputs/" <+: entry.name ∧
        validPath entry.name = true ∧ (entry.body.length : Int) = entry.size ∧
        entry.size ≤ maxArtifactBytes ∧ entry.name ∉ seen) ∧
      (entries.map (·.name)).Nodup ∧ files.length ≤ maxArtifacts ∧
      total + (entries.map (·.size)).sum ≤ maxArtifactBatchBytes := by
  induction entries generalizing seen total rows with
  | nil =>
    cases h
    simpa using ⟨hrows, htotal⟩
  | cons header entries ih =>
    simp only [captureEntries] at h
    split at h
    · cases h
    · next haccepts =>
      obtain ⟨hregular, houtputs, hvalid, heach, hsum, hcount, hseen⟩ :=
        acceptsHeader_iff (by simpa using haccepts)
      split at h
      · cases h
      · next hlength =>
        rw [not_not] at hlength
        obtain ⟨rfl, hentries, hnodup, hfiles, htotals⟩ :=
          ih (by simpa using Nat.succ_le_of_lt hcount) hsum h
        refine ⟨by simp, ?_, ?_, hfiles, ?_⟩
        · intro entry hentry
          rcases List.mem_cons.mp hentry with rfl | hentry
          · exact ⟨hregular, houtputs, hvalid, hlength, heach, hseen⟩
          · obtain ⟨h1, h2, h3, h4, h5, h6⟩ := hentries entry hentry
            exact ⟨h1, h2, h3, h4, h5, fun hmem => h6 (List.mem_cons_of_mem _ hmem)⟩
        · rw [List.map_cons, List.nodup_cons]
          refine ⟨fun hmem => ?_, hnodup⟩
          obtain ⟨entry, hentry, hname⟩ := List.mem_map.mp hmem
          exact (hentries entry hentry).2.2.2.2.2 (by simp [hname])
        · rw [List.map_cons, List.sum_cons]
          omega

theorem sum_sizeBytes {entries : List ArchiveEntry}
    (h : ∀ entry ∈ entries, (entry.body.length : Int) = entry.size) :
    (((entries.map capturedFile).map (·.sizeBytes)).sum : Int) = (entries.map (·.size)).sum := by
  induction entries with
  | nil => rfl
  | cons entry entries ih =>
    have hhead := h entry List.mem_cons_self
    have htail := ih fun other hother => h other (List.mem_cons_of_mem _ hother)
    simp only [List.map_cons, List.sum_cons, htail]
    rw [← hhead]
    rfl

theorem captureArtifactArchive_ok {input : ArchiveStream} {files : List CapturedFile}
    (h : captureArtifactArchive input = .ok files) : WholeArchive input files := by
  unfold captureArtifactArchive at h
  split at h
  · cases h
  · next rows hrows =>
    obtain ⟨hfiles, hentries, hnodup, hcount, htotal⟩ :=
      captureEntries_ok (by simp) (by simp [maxArtifactBatchBytes]) hrows
    repeat' split at h
    any_goals cases h
    next htrailer hpadding hends hzero =>
    simp only [List.nil_append] at hfiles
    subst hfiles
    have hcomplete : ∀ entry ∈ input.entries, (entry.body.length : Int) = entry.size :=
      fun entry hentry => (hentries entry hentry).2.2.2.1
    refine ⟨?_, fun entry hentry => (hentries entry hentry).1, ?_, ?_, hcount, ?_, ?_, ?_⟩
    · refine List.forall₂_map_right_iff.2 (List.forall₂_same.2 fun entry hentry => ?_)
      exact ⟨rfl, (hentries entry hentry).2.2.1, rfl, hcomplete entry hentry, rfl, rfl⟩
    · intro file hfile
      obtain ⟨entry, hentry, rfl⟩ := List.mem_map.mp hfile
      obtain ⟨rest, hrest⟩ := (hentries entry hentry).2.1
      refine ⟨rest, ?_⟩
      rw [capturedFile, ← hrest, ← List.append_assoc, ← utf8_append]
      rfl
    · have hpaths : (input.entries.map capturedFile).map (·.path) =
          (input.entries.map (·.name)).map (utf8 "/workspace/" ++ ·) := by
        simp [capturedFile, Function.comp_def]
      rw [hpaths]
      exact hnodup.map fun a b => List.append_cancel_left
    · intro file hfile
      obtain ⟨entry, hentry, rfl⟩ := List.mem_map.mp hfile
      have := (hentries entry hentry).2.2.2.2.1
      rw [← hcomplete entry hentry] at this
      exact this
    · rw [sum_sizeBytes hcomplete]
      omega
    · exact ⟨by simpa using htrailer, by simpa using hends, by omega, by simpa using hzero⟩

variable {π : Type} {s t : Session π}
  {id : TurnID}

def Turn.Stays (turn turn' : Turn π) : Prop :=
  turn' = turn ∨ turn.status.active = true ∧ turn'.status.active = true

inductive ArtifactWrite [EmptyCollection π] (P : Permits π) (s t : Session π) : Prop
  | kept (hartifacts : t.artifacts = s.artifacts) (hobjects : t.objects = s.objects)
      (hoid : t.nextOid = s.nextOid) (hdeleted : t.deletedAt = s.deletedAt)
      (hturns : Grows Turn.Stays (fun turn => turn.status.active = true) s.turns t.turns)
  | ended {id : TurnID} {turn turn' : Turn π} (hturn : s.turns[id]? = some turn)
      (hactive : turn.status.active = true) (hterminal : terminalStatus turn'.status = true)
      (hcompletedAt : turn'.completedAt.isSome = true)
      (hcompletes : turn'.status = .completed → P.completes)
      (ht : t = Session.settleTurnArtifacts { s with turns := s.turns.set id turn' } id turn')
  | staged {id : TurnID} {turn : Turn π} {files : List CapturedFile} (hstages : P.stages)
      (hturn : s.turns[id]? = some turn) (hrunning : turn.status = .inProgress)
      (hpublic : s.deletedAt = none) (ht : t = files.foldl (·.stageArtifact id) s)
  | deleted (now : Int) (ht : t = { s.deleteSessionArtifacts with deletedAt := some now })

theorem grows_stays_set {turn turn' : Turn π} (hturn : s.turns[id]? = some turn)
    (hactive : turn.status.active = true) (hactive' : turn'.status.active = true) :
    Grows Turn.Stays (fun turn => turn.status.active = true) s.turns (s.turns.set id turn') :=
  .set (fun _ => .inl rfl) hturn (.inr ⟨hactive, hactive'⟩)

theorem recordTurnChange_terminal {turn turn' : Turn π} (hturn : s.turns[id]? = some turn)
    (hterminal : terminalStatus turn'.status = true) :
    Session.recordTurnChange { s with turns := s.turns.set id turn' } id =
      Session.settleTurnArtifacts { s with turns := s.turns.set id turn' } id turn' := by
  have hlength := (List.getElem?_eq_some_iff.mp hturn).1
  simp [Session.recordTurnChange, hlength, hterminal]

theorem modify_eq_set {turn : Turn π} (hturn : s.turns[id]? = some turn) (f : Turn π → Turn π) :
    s.turns.modify id f = s.turns.set id (f turn) := by
  rw [List.modify_eq_set_getElem?, hturn]
  rfl

theorem Write.artifacts [EmptyCollection π] {P : Permits π} (h : Write P s t) : ArtifactWrite P s t := by
  have hsame : t.artifacts = s.artifacts → t.objects = s.objects → t.nextOid = s.nextOid →
      t.deletedAt = s.deletedAt → t.turns = s.turns → ArtifactWrite P s t :=
    fun h1 h2 h3 h4 h5 => .kept h1 h2 h3 h4 (.of_eq (fun _ => .inl rfl) h5)
  cases h with
  | createTurn now =>
    exact .kept rfl rfl rfl rfl (.append (fun _ => .inl rfl) rfl)
  | @requestTurnCancel now id turn hactive =>
    obtain ⟨hturn, hstatus⟩ := Session.getActiveTurn_eq_some hactive
    unfold Session.requestTurnCancel
    by_cases hqueued : turn.status = .queued
    · have hterminal : terminalStatus (turn.requestCancel now).status = true := by
        simp [Turn.requestCancel, hqueued, TurnStatus.active, terminalStatus]
      refine .ended hturn hstatus hterminal ?_ ?_ ?_
      · simp [Turn.requestCancel, hqueued, TurnStatus.active]
      · simp [Turn.requestCancel, hqueued, TurnStatus.active]
      · rw [← recordTurnChange_terminal hturn hterminal, if_pos hqueued, modify_eq_set hturn]
    · rw [if_neg hqueued, modify_eq_set hturn]
      refine .kept rfl rfl rfl rfl (grows_stays_set hturn hstatus ?_)
      simp [Turn.requestCancel, hstatus, hqueued]
  | claim now hturn hqueued =>
    refine .kept rfl rfl rfl rfl (grows_stays_set hturn ?_ rfl)
    rw [hqueued]
    rfl
  | @finish now id turn status outcome events hturn hactive hterminal hcompleted =>
    have hcompletedAt : ((turn.transition now status outcome).appendEvents events).completedAt =
        some now := by
      simp [Turn.appendEvents, Turn.transition, hterminal]
    exact .ended hturn hactive hterminal (by rw [hcompletedAt]; rfl) (fun h => (hcompleted h).2)
      (recordTurnChange_terminal hturn hterminal)
  | recordCall now call hturn haccepts =>
    refine .kept rfl rfl rfl rfl (grows_stays_set hturn (active_of_accepts haccepts).1 ?_)
    rw [Turn.status_await]
    rfl
  | applyResult now hconfirm hturn haccepts =>
    refine .kept rfl rfl rfl rfl (grows_stays_set hturn (active_of_accepts haccepts).1 ?_)
    rw [Turn.status_await]
    split <;> rfl
  | appendEvents events hturn hrunning =>
    have hactive : ∀ turn : Turn π, turn.status = .inProgress ∨ turn.status = .waiting →
        turn.status.active = true := by
      rintro turn (h | h) <;> rw [h] <;> rfl
    exact .kept rfl rfl rfl rfl (grows_stays_set hturn (hactive _ hrunning) (hactive _ hrunning))
  | beginCapture hturn hrunning =>
    refine .kept rfl rfl rfl rfl (grows_stays_set hturn ?_ ?_)
    all_goals
      simp only [hrunning]
      rfl
  | stage hstages hturn hrunning hcancel hpublic =>
    exact .staged hstages hturn hrunning hpublic rfl
  | delete now => exact .deleted now rfl
  | _ => exact hsame rfl rfl rfl rfl rfl

/-- The row belongs to a Turn that has not ended, and is not published, or to one that has
completed, and was published then. -/
def Session.Owns (s : Session π) (row : Artifact) : Prop :=
  ∃ turn, s.turns[row.turn]? = some turn ∧
    (turn.status.active = true ∧ row.createdAt = none ∨
      turn.status = .completed ∧ row.createdAt = turn.completedAt ∧ turn.completedAt.isSome = true)

/-- Each row has a large object of its own, each large object a row, and a deleted Session has
neither. -/
structure Session.Stored (s : Session π) : Prop where
  fresh : ∀ row ∈ s.artifacts, row.bodyOid < s.nextOid
  distinct : (s.artifacts.map (·.bodyOid)).Nodup
  referenced : ∀ object ∈ s.objects, ∃ row ∈ s.artifacts, row.bodyOid = object.1
  undeleted : ∀ row ∈ s.artifacts, s.deletedAt = none
  owned : ∀ row ∈ s.artifacts, s.Owns row

def Session.storedFile (s : Session π) (row : Artifact) : Option CapturedFile :=
  (s.objects.lookup row.bodyOid).map fun body =>
    { path := row.path, sizeBytes := row.sizeBytes, body, sha256 := row.sha256 }

def Session.turnFiles (s : Session π) (id : TurnID) : List (Option CapturedFile) :=
  (s.artifacts.filter (·.turn == id)).map s.storedFile

theorem Session.Owns.stays {row : Artifact} {N : Turn π → Prop} (h : s.Owns row)
    (hturns : Grows Turn.Stays N s.turns t.turns) : t.Owns row := by
  obtain ⟨turn, hturn, hrow⟩ := h
  obtain ⟨turn', hturn', rfl | ⟨hactive, hactive'⟩⟩ := hturns.old _ turn hturn
  · exact ⟨_, hturn', hrow⟩
  · refine ⟨turn', hturn', .inl ⟨hactive', ?_⟩⟩
    rcases hrow with ⟨-, hnone⟩ | ⟨hcompleted, -⟩
    · exact hnone
    · rw [hcompleted] at hactive
      cases hactive

theorem Session.Owns.unpublished {row : Artifact} {turn : Turn π} (h : s.Owns row)
    (hturn : s.turns[row.turn]? = some turn) (hactive : turn.status.active = true) :
    row.createdAt = none := by
  obtain ⟨turn', hturn', ⟨-, hnone⟩ | ⟨hcompleted, -⟩⟩ := h
  · exact hnone
  · rw [hturn] at hturn'
    cases hturn'
    rw [hcompleted] at hactive
    cases hactive

theorem lookup_filter {β : Type} (p : Nat → Bool) (a : Nat) (l : List (Nat × β)) (ha : p a = true) :
    (l.filter fun x => p x.1).lookup a = l.lookup a := by
  induction l with
  | nil => rfl
  | cons x l ih =>
    obtain ⟨k, b⟩ := x
    by_cases hk : p k = true
    · rw [List.filter_cons, if_pos hk, List.lookup_cons, List.lookup_cons, ih]
    · have hne : (a == k) = false := by
        rw [beq_eq_false_iff_ne]
        rintro rfl
        exact hk ha
      rw [List.filter_cons, if_neg hk, List.lookup_cons, hne, ih]

theorem Session.Stored.storedFile_delete (hs : s.Stored) (gone : Artifact → Bool) {row : Artifact}
    (hrow : row ∈ s.artifacts) (hstays : gone row = false) :
    (s.deleteArtifacts gone).storedFile row = s.storedFile row := by
  have hkeep : (!s.artifacts.any fun other => gone other && other.bodyOid == row.bodyOid) =
      true := by
    simp only [Bool.not_eq_true', List.any_eq_false, Bool.and_eq_true, beq_iff_eq, not_and]
    intro other hother hgone hoid
    rw [List.inj_on_of_nodup_map hs.distinct hother hrow hoid, hstays] at hgone
    cases hgone
  simp only [Session.storedFile, Session.deleteArtifacts]
  rw [lookup_filter (fun oid => !s.artifacts.any fun other => gone other && other.bodyOid == oid)
    row.bodyOid s.objects hkeep]

theorem Session.Stored.turnFiles_delete (hs : s.Stored) (gone : Artifact → Bool) :
    (s.deleteArtifacts gone).turnFiles id =
      ((s.artifacts.filter (·.turn == id)).filter (!gone ·)).map s.storedFile := by
  have hrows : (s.deleteArtifacts gone).artifacts.filter (·.turn == id) =
      (s.artifacts.filter (·.turn == id)).filter (!gone ·) := by
    simp [Session.deleteArtifacts, List.filter_filter, Bool.and_comm]
  rw [Session.turnFiles, hrows]
  refine List.map_congr_left fun row hrow => ?_
  simp only [List.mem_filter, Bool.not_eq_true'] at hrow
  exact hs.storedFile_delete gone hrow.1.1 hrow.2

theorem Session.Stored.delete (hs : s.Stored) (gone : Artifact → Bool) :
    (s.deleteArtifacts gone).Stored where
  fresh row hrow := hs.fresh row (List.mem_of_mem_filter hrow)
  distinct := (List.filter_sublist.map _).nodup hs.distinct
  referenced object hobject := by
    simp only [Session.deleteArtifacts, List.mem_filter, Bool.not_eq_true', List.any_eq_false,
      Bool.and_eq_true, beq_iff_eq, not_and] at hobject
    obtain ⟨row, hrow, hoid⟩ := hs.referenced object hobject.1
    refine ⟨row, List.mem_filter.mpr ⟨hrow, ?_⟩, hoid⟩
    cases hgone : gone row with
    | true => exact absurd hoid (hobject.2 row hrow hgone)
    | false => rfl
  undeleted row hrow := hs.undeleted row (List.mem_of_mem_filter hrow)
  owned row hrow := hs.owned row (List.mem_of_mem_filter hrow)

theorem Session.turnFiles_congr (hartifacts : t.artifacts = s.artifacts)
    (hobjects : t.objects = s.objects) (id : TurnID) : t.turnFiles id = s.turnFiles id := by
  unfold Session.turnFiles Session.storedFile
  rw [hartifacts, hobjects]

theorem Session.Stored.kept {N : Turn π → Prop} (hs : s.Stored)
    (hartifacts : t.artifacts = s.artifacts) (hobjects : t.objects = s.objects)
    (hoid : t.nextOid = s.nextOid) (hdeleted : t.deletedAt = s.deletedAt)
    (hturns : Grows Turn.Stays N s.turns t.turns) : t.Stored := by
  constructor
  · rw [hartifacts, hoid]
    exact hs.fresh
  · rw [hartifacts]
    exact hs.distinct
  · rw [hartifacts, hobjects]
    exact hs.referenced
  · rw [hartifacts, hdeleted]
    exact hs.undeleted
  · intro row hrow
    rw [hartifacts] at hrow
    exact (hs.owned row hrow).stays hturns

section Ended

variable {turn turn' : Turn π} (hs : s.Stored) (hturn : s.turns[id]? = some turn)
  (hactive : turn.status.active = true)

include hs

theorem Session.Stored.owns_set {row : Artifact} (hrow : row ∈ s.artifacts) (hid : row.turn ≠ id) :
    Session.Owns { s with turns := s.turns.set id turn' } row := by
  obtain ⟨other, hother, howned⟩ := hs.owned row hrow
  exact ⟨other, by rw [List.getElem?_set_ne hid.symm]; exact hother, howned⟩

include hturn hactive

theorem Session.Stored.unpublished {row : Artifact} (hrow : row ∈ s.artifacts)
    (hid : row.turn = id) : row.createdAt = none :=
  (hs.owned row hrow).unpublished (hid ▸ hturn) hactive

theorem Session.Stored.publish (hcompleted : turn'.status = .completed)
    (hcompletedAt : turn'.completedAt.isSome = true) :
    (Session.publishTurnArtifacts { s with turns := s.turns.set id turn' } id
      turn'.completedAt).Stored := by
  have hcases : ∀ row ∈ (Session.publishTurnArtifacts { s with turns := s.turns.set id turn' } id
      turn'.completedAt).artifacts, ∃ old ∈ s.artifacts, row.bodyOid = old.bodyOid ∧
        (old.turn = id ∧ row = { old with createdAt := turn'.completedAt } ∨
          old.turn ≠ id ∧ row = old) := by
    intro row hrow
    obtain ⟨old, hold, rfl⟩ := List.mem_map.mp hrow
    by_cases hid : old.turn = id
    · rw [if_pos ⟨hid, hs.unpublished hturn hactive hold hid⟩]
      exact ⟨old, hold, rfl, .inl ⟨hid, rfl⟩⟩
    · rw [if_neg fun h => hid h.1]
      exact ⟨old, hold, rfl, .inr ⟨hid, rfl⟩⟩
  have hoids : (Session.publishTurnArtifacts { s with turns := s.turns.set id turn' } id
      turn'.completedAt).artifacts.map (·.bodyOid) = s.artifacts.map (·.bodyOid) := by
    simp only [Session.publishTurnArtifacts, List.map_map]
    refine List.map_congr_left fun row _ => ?_
    simp only [Function.comp_apply]
    split <;> rfl
  constructor
  · intro row hrow
    obtain ⟨old, hold, hoid, -⟩ := hcases row hrow
    rw [hoid]
    exact hs.fresh old hold
  · rw [hoids]
    exact hs.distinct
  · intro object hobject
    obtain ⟨row, hrow, hoid⟩ := hs.referenced object hobject
    have hmem : object.1 ∈ s.artifacts.map (·.bodyOid) := List.mem_map.mpr ⟨row, hrow, hoid⟩
    rw [← hoids] at hmem
    exact List.mem_map.mp hmem
  · intro row hrow
    obtain ⟨old, hold, -⟩ := hcases row hrow
    exact hs.undeleted old hold
  · intro row hrow
    obtain ⟨old, hold, -, ⟨hid, rfl⟩ | ⟨hid, rfl⟩⟩ := hcases row hrow
    · have hlength := (List.getElem?_eq_some_iff.mp hturn).1
      refine ⟨turn', ?_, .inr ⟨hcompleted, rfl, hcompletedAt⟩⟩
      show (s.turns.set id turn')[old.turn]? = _
      rw [hid, List.getElem?_set_self hlength]
    · exact hs.owns_set hold hid

theorem Session.Stored.discard :
    (Session.deleteUnpublishedTurnArtifacts { s with turns := s.turns.set id turn' }
      id).Stored := by
  -- the rows of the Turn are all unpublished, so none of them stays
  have hcases : ∀ row ∈ (Session.deleteUnpublishedTurnArtifacts
      { s with turns := s.turns.set id turn' } id).artifacts, row ∈ s.artifacts ∧
        row.turn ≠ id := by
    intro row hrow
    obtain ⟨hmem, hstays⟩ := List.mem_filter.mp hrow
    refine ⟨hmem, fun hid => ?_⟩
    simp [hid, hs.unpublished hturn hactive hmem hid] at hstays
  have hdelete := hs.delete fun row => row.turn == id && row.createdAt.isNone
  refine { hdelete with owned := ?_ }
  intro row hrow
  obtain ⟨hmem, hid⟩ := hcases row hrow
  exact hs.owns_set hmem hid

theorem Session.Stored.turnFiles_discard (id' : TurnID) :
    (Session.deleteUnpublishedTurnArtifacts { s with turns := s.turns.set id turn' } id).turnFiles
      id' = if id' = id then [] else s.turnFiles id' := by
  have hfiles : (Session.deleteUnpublishedTurnArtifacts
      { s with turns := s.turns.set id turn' } id).turnFiles id' = _ :=
    hs.turnFiles_delete fun row => row.turn == id && row.createdAt.isNone
  rw [hfiles]
  split
  · next hid =>
    subst hid
    rw [List.map_eq_nil_iff, List.filter_eq_nil_iff]
    intro row hrow
    simp only [List.mem_filter, beq_iff_eq] at hrow
    simp [hrow.2, hs.unpublished hturn hactive hrow.1 hrow.2]
  · next hid =>
    rw [List.filter_eq_self.mpr, Session.turnFiles]
    intro row hrow
    simp only [List.mem_filter, beq_iff_eq] at hrow
    simp [hrow.2, hid]

end Ended

theorem Session.turnFiles_publish (id' : TurnID) (createdAt : Option Int) :
    (s.publishTurnArtifacts id createdAt).turnFiles id' = s.turnFiles id' := by
  unfold Session.turnFiles Session.publishTurnArtifacts
  have hturn : ∀ row : Artifact, ((if row.turn = id ∧ row.createdAt = none then
      { row with createdAt } else row).turn == id') = (row.turn == id') := by
    intro row
    split <;> rfl
  simp only [List.filter_map, Function.comp_def, hturn, List.map_map]
  refine List.map_congr_left fun row _ => ?_
  simp only [Session.storedFile]
  split <;> rfl

theorem Session.Stored.stageArtifact {turn : Turn π} (hs : s.Stored)
    (hturn : s.turns[id]? = some turn) (hactive : turn.status.active = true)
    (hpublic : s.deletedAt = none) (file : CapturedFile) : (s.stageArtifact id file).Stored := by
  have hcases : ∀ row ∈ (s.stageArtifact id file).artifacts, row ∈ s.artifacts ∨
      row.bodyOid = s.nextOid ∧ row.turn = id ∧ row.createdAt = none :=
    forall_mem_concat (fun row hold => .inl hold) (.inr ⟨rfl, rfl, rfl⟩)
  constructor
  · intro row hrow
    show row.bodyOid < s.nextOid + 1
    rcases hcases row hrow with hold | ⟨hoid, -⟩
    · exact Nat.lt_succ_of_lt (hs.fresh row hold)
    · omega
  · show ((s.artifacts ++ [_]).map _).Nodup
    rw [List.map_append]
    refine pairwise_concat hs.distinct fun oid hold => ?_
    obtain ⟨row, hrow, rfl⟩ := List.mem_map.mp hold
    exact Nat.ne_of_lt (hs.fresh row hrow)
  · intro object hobject
    rcases mem_concat hobject with hold | rfl
    · obtain ⟨row, hrow, hoid⟩ := hs.referenced object hold
      exact ⟨row, List.mem_append_left _ hrow, hoid⟩
    · exact ⟨_, List.mem_concat_self, rfl⟩
  · exact fun _ _ => hpublic
  · intro row hrow
    rcases hcases row hrow with hold | ⟨-, hid, hnone⟩
    · exact hs.owned row hold
    · exact ⟨turn, by rw [hid]; exact hturn, .inl ⟨hactive, hnone⟩⟩

theorem Session.Stored.lookup_fresh (hs : s.Stored) : s.objects.lookup s.nextOid = none := by
  rw [List.lookup_eq_none_iff]
  intro object hobject
  obtain ⟨row, hrow, hoid⟩ := hs.referenced object hobject
  have hlt := hs.fresh row hrow
  simp only [bne_iff_ne]
  omega

theorem Session.Stored.turnFiles_stageArtifact (hs : s.Stored) (file : CapturedFile)
    (id' : TurnID) : (s.stageArtifact id file).turnFiles id' =
      s.turnFiles id' ++ if id' = id then [some file] else [] := by
  have hold : ∀ row ∈ s.artifacts, (s.stageArtifact id file).storedFile row = s.storedFile row := by
    intro row hrow
    have hlt := hs.fresh row hrow
    have hne : (row.bodyOid == s.nextOid) = false := by
      rw [beq_eq_false_iff_ne]
      omega
    simp [Session.storedFile, Session.stageArtifact, List.lookup_append, List.lookup_cons, hne]
  have hnew : (s.stageArtifact id file).storedFile
      { turn := id, path := file.path, sizeBytes := file.sizeBytes, bodyOid := s.nextOid,
        sha256 := file.sha256 } = some file := by
    simp [Session.storedFile, Session.stageArtifact, List.lookup_append, hs.lookup_fresh]
  show ((s.artifacts ++ [_]).filter _).map _ = _
  rw [List.filter_append, List.map_append]
  congr 1
  · refine List.map_congr_left fun row hrow => hold row (List.mem_of_mem_filter hrow)
  · by_cases hid : id' = id
    · rw [if_pos hid, List.filter_cons, if_pos (by simp [hid]), List.filter_nil,
        List.map_cons, hnew,
        List.map_nil]
    · rw [if_neg hid, List.filter_cons, if_neg (by simpa using Ne.symm hid), List.filter_nil,
        List.map_nil]

theorem Session.Stored.stage {turn : Turn π} (files : List CapturedFile) (hs : s.Stored)
    (hturn : s.turns[id]? = some turn) (hactive : turn.status.active = true)
    (hpublic : s.deletedAt = none) :
    (files.foldl (·.stageArtifact id) s).Stored ∧
      ∀ id', (files.foldl (·.stageArtifact id) s).turnFiles id' =
        s.turnFiles id' ++ if id' = id then files.map some else [] := by
  induction files generalizing s with
  | nil => exact ⟨hs, fun id' => by simp⟩
  | cons file files ih =>
    obtain ⟨hstored, hfiles⟩ := ih (hs.stageArtifact hturn hactive hpublic file) hturn hpublic
    refine ⟨hstored, fun id' => ?_⟩
    rw [List.foldl_cons, hfiles id', hs.turnFiles_stageArtifact file id']
    split <;> simp

theorem Write.stored [EmptyCollection π] {P : Permits π} (h : Write P s t) (hs : s.Stored) : t.Stored := by
  cases h.artifacts with
  | kept hartifacts hobjects hoid hdeleted hturns =>
    exact hs.kept hartifacts hobjects hoid hdeleted hturns
  | ended hturn hactive hterminal hcompletedAt hcompletes ht =>
    rw [ht, Session.settleTurnArtifacts]
    split
    · next hcompleted => exact hs.publish hturn hactive hcompleted hcompletedAt
    · exact hs.discard hturn hactive
  | staged hstages hturn hrunning hpublic ht =>
    rw [ht]
    exact (hs.stage _ hturn (by rw [hrunning]; rfl) hpublic).1
  | deleted now ht =>
    have hnone : s.deleteSessionArtifacts.artifacts = [] := by
      simp [Session.deleteSessionArtifacts, Session.deleteArtifacts]
    have hdelete := hs.delete fun _ => true
    subst ht
    refine { hdelete with undeleted := ?_, owned := ?_ }
    all_goals
      intro row hrow
      have hrow' : row ∈ s.deleteSessionArtifacts.artifacts := hrow
      rw [hnone] at hrow'
      cases hrow'

def Session.Dropped (s : Session π) (id : TurnID) : Prop :=
  s.deletedAt ≠ none ∨
    ∃ turn, s.turns[id]? = some turn ∧ (turn.status = .failed ∨ turn.status = .cancelled)

/-- The files of the Turn stay, or all go if it is dropped. -/
structure FilesKept (id : TurnID) (s t : Session π) : Prop where
  deleted : s.deletedAt ≠ none → t.deletedAt ≠ none
  terminal : ∀ turn, s.turns[id]? = some turn → turn.status.active = false →
    t.turns[id]? = some turn
  completed : ∀ turn, t.turns[id]? = some turn → turn.status = .completed →
    s.turns[id]? = some turn
  files : t.turnFiles id = s.turnFiles id ∨ t.turnFiles id = [] ∧ t.Dropped id

theorem FilesKept.refl (id : TurnID) (s : Session π) : FilesKept id s s :=
  ⟨fun h => h, fun _ h _ => h, fun _ h _ => h, .inl rfl⟩

theorem FilesKept.dropped (h : FilesKept id s t) (hs : s.Dropped id) : t.Dropped id := by
  rcases hs with hdeleted | ⟨turn, hturn, hstatus⟩
  · exact .inl (h.deleted hdeleted)
  · refine .inr ⟨turn, h.terminal turn hturn ?_, hstatus⟩
    rcases hstatus with hstatus | hstatus <;> rw [hstatus] <;> rfl

theorem FilesKept.trans {u : Session π} (h : FilesKept id s t) (h' : FilesKept id t u) :
    FilesKept id s u := by
  refine ⟨fun hs => h'.deleted (h.deleted hs), ?_, ?_, ?_⟩
  · exact fun turn hturn hended => h'.terminal turn (h.terminal turn hturn hended) hended
  · exact fun turn hturn hdone => h.completed turn (h'.completed turn hturn hdone) hdone
  · rcases h'.files with hsame | hnone
    · rcases h.files with hsame' | ⟨hnone', hdropped⟩
      · exact .inl (hsame.trans hsame')
      · exact .inr ⟨hsame.trans hnone', h'.dropped hdropped⟩
    · exact .inr hnone

theorem Session.settleTurnArtifacts_frame (s : Session π) (id : TurnID) (turn : Turn π) :
    (s.settleTurnArtifacts id turn).turns = s.turns ∧
      (s.settleTurnArtifacts id turn).deletedAt = s.deletedAt := by
  unfold Session.settleTurnArtifacts
  split <;> exact ⟨rfl, rfl⟩

variable [EmptyCollection π] {P : Permits π}

theorem Write.terminal_kept {turn : Turn π} (h : Write P s t) (hturn : s.turns[id]? = some turn)
    (hended : turn.status.active = false) : t.turns[id]? = some turn := by
  obtain ⟨turn', hturn', hsteps⟩ := Writes.turns (.single h) hturn
  rw [hturn', hsteps.frozen hended]

theorem Write.filesKept (hstages : ¬P.stages) (hcompletes : ¬P.completes) (hs : s.Stored)
    (h : Write P s t) (id : TurnID) : FilesKept id s t := by
  have hterminal : ∀ turn, s.turns[id]? = some turn → turn.status.active = false →
      t.turns[id]? = some turn := fun turn hturn hended => h.terminal_kept hturn hended
  cases h.artifacts with
  | kept hartifacts hobjects hoid hdeleted hturns =>
    refine ⟨by rw [hdeleted]; exact fun h => h, hterminal, ?_,
      .inl (Session.turnFiles_congr hartifacts hobjects id)⟩
    intro turn hturn hcompleted
    have hinactive : turn.status.active ≠ true := by
      rw [hcompleted]
      simp [TurnStatus.active]
    obtain ⟨old, hold, rfl | ⟨-, hactive⟩⟩ | ⟨-, hactive⟩ := hturns.cases hturn
    · exact hold
    · exact absurd hactive hinactive
    · exact absurd hactive hinactive
  | @ended id' old turn' hold hactive hended hcompletedAt hcompleted ht =>
    obtain ⟨hturns, hdeleted⟩ :=
      Session.settleTurnArtifacts_frame { s with turns := s.turns.set id' turn' } id' turn'
    have hnot : turn'.status ≠ .completed := fun h => hcompletes (hcompleted h)
    have hlength := (List.getElem?_eq_some_iff.mp hold).1
    rw [← ht] at hturns hdeleted
    refine ⟨fun h => by rw [hdeleted]; exact h, hterminal, ?_, ?_⟩
    · intro turn hturn hdone
      rw [hturns] at hturn
      by_cases hid : id' = id
      · subst hid
        rw [List.getElem?_set_self hlength] at hturn
        cases hturn
        exact absurd hdone hnot
      · rwa [List.getElem?_set_ne hid] at hturn
    · rw [ht, Session.settleTurnArtifacts, if_neg hnot, hs.turnFiles_discard hold hactive id]
      split
      · next hid =>
        refine .inr ⟨rfl, .inr ⟨turn', ?_, ?_⟩⟩
        · show (s.turns.set id' turn')[id]? = _
          rw [hid, List.getElem?_set_self hlength]
        · revert hended hnot
          cases turn'.status <;> simp [terminalStatus]
      · exact .inl rfl
  | staged hstaged => exact absurd hstaged hstages
  | deleted now ht =>
    subst ht
    refine ⟨fun _ => by simp, hterminal, fun turn hturn _ => hturn, .inr ⟨?_, .inl (by simp)⟩⟩
    have hfiles : s.deleteSessionArtifacts.turnFiles id = _ := hs.turnFiles_delete fun _ => true
    simp only [Bool.not_true, List.filter_false, List.map_nil] at hfiles
    exact hfiles

theorem Writes.filesKept (hstages : ¬P.stages) (hcompletes : ¬P.completes) (hs : s.Stored)
    (h : Writes P s t) (id : TurnID) : t.Stored ∧ FilesKept id s t := by
  refine Writes.invariant (I := fun u => u.Stored ∧ FilesKept id s u) ?_ h ⟨hs, .refl id s⟩
  intro u v hwrite ⟨hu, hkept⟩
  exact ⟨hwrite.stored hu, hkept.trans (hwrite.filesKept hstages hcompletes hu id)⟩

theorem Reached.stored [DecidableEq π] (h : Reached s) : s.Stored := by
  refine h.invariant (fun sequence => ?_) fun _ _ hwrite hs => hwrite.stored hs
  constructor
  · exact fun row hrow => by cases hrow
  · exact List.nodup_nil
  · exact fun object hobject => by cases hobject
  · exact fun row hrow => by cases hrow
  · exact fun row hrow => by cases hrow

end Parsar.Turns
