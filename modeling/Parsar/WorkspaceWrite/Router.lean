import Parsar.WorkspaceWrite.Proto

namespace Parsar.WorkspaceWrite

open GoStd

inductive WriteError where
  | unsupported
  | unavailable
  | busy
  | invalid
  | rejected
  | uncertain
  | other
  deriving DecidableEq, Repr

/-- What a call of the local `WriteWorkspaceFile` comes back with. `wrote` says whether it changed
anything. -/
structure WriteAnswer where
  sizeBytes : Int
  err : Option WriteError := none
  wrote : Bool
  deriving DecidableEq

def WriteError.code : WriteError → Option ErrorCode
  | unsupported => some .writeUnsupported
  | unavailable => some .resourceUnavailable
  | busy => some .writeCapacity
  | invalid => some .invalidRequest
  | rejected => some .writeRejected
  | uncertain | other => none

def workspaceWriteResult (answer : WriteAnswer) (size : Int) : WorkspaceWriteResultPayload :=
  if answer.err = none ∧ answer.sizeBytes = size then { outcome := .completed, sizeBytes := size }
  else match answer.err.bind WriteError.code with
    | some code => rejectedWorkspaceWrite code
    | none => { outcome := .unknown, errorCode := .writeUnconfirmed }

structure LocalWrite where
  path : String
  data : Bytes
  wrote : Bool
  deriving DecidableEq

/-- Where `runWorkspaceUpload` is: before its select, in the local writer with the body it took, or
with a result it has not recorded yet. -/
inductive Worker where
  | waiting
  | applying (data : Bytes)
  | finishing (result : WorkspaceWriteResultPayload)
  | settled
  deriving DecidableEq

structure WorkspaceUpload where
  id : String
  request : WorkspaceWritePayload
  data : Bytes := []
  finished : Bool := false
  apply : Bool := false
  uncertain : Bool := false
  worker : Worker := .waiting
  calls : List LocalWrite := []
  deriving DecidableEq

/-- A chunk that continues the body is taken; anything else closes the body, and only a commit of
the whole and intact body has it applied. -/
def WorkspaceUpload.takeFrame (u : WorkspaceUpload) (request : WorkspaceWritePayload) :
    WorkspaceUpload × Option WorkspaceWriteResultPayload :=
  if u.finished then (u, none)
  else if request.step = .chunk ∧ request.offset = u.data.length ∧
      (request.data.length : Int) ≤ u.request.sizeBytes - u.data.length then
    ({ u with data := u.data ++ request.data },
      some { outcome := .received, offset := (u.data ++ request.data).length })
  else if request.step = .commit ∧ (u.data.length : Int) = u.request.sizeBytes then
    ({ u with finished := true, apply := sha256Hex u.data = u.request.sha256 }, none)
  else ({ u with finished := true }, none)

/-- `runWorkspaceUpload` takes the body, to apply it or not. -/
def WorkspaceUpload.tookBody (u : WorkspaceUpload) (closed : Bool) : WorkspaceUpload :=
  { u with
    finished := true
    data := []
    worker := if u.apply && !closed then .applying u.data
      else .finishing (rejectedWorkspaceWrite .invalidRequest) }

def WorkspaceUpload.wrote (u : WorkspaceUpload) (data : Bytes) (answer : WriteAnswer) : WorkspaceUpload :=
  { u with
    worker := .finishing (workspaceWriteResult answer u.request.sizeBytes)
    calls := u.calls ++ [⟨u.request.path, data, answer.wrote⟩] }

def WorkspaceUpload.settle (u : WorkspaceUpload) (result : WorkspaceWriteResultPayload) : WorkspaceUpload :=
  { u with worker := .settled, uncertain := result.outcome = .unknown }

/-- The part of the router that `mu` guards for file writes; `retired` uploads are only known to
their goroutines. -/
structure Router where
  closed : Bool := false
  workspaceWrite : Option WorkspaceUpload := none
  retired : List WorkspaceUpload := []
  outbox : List Reply := []

/-- What the router knows of its other work when a write begins. -/
structure OtherWork where
  workspaceExport : Bool := false
  acceptsFileWrite : Bool := true
  sessions : Bool := false
  idle : Bool := false
  ownedPreparation : Bool := false
  deriving DecidableEq

namespace Router

/-- The operation is the one `workspaceWrite` holds. -/
def pending (r : Router) (id : String) : Bool := r.workspaceWrite.any (·.id = id)

def beginWrite (r : Router) (work : OtherWork) (id : String) (request : WorkspaceWritePayload) :
    Router × Option WorkspaceWriteResultPayload :=
  if work.workspaceExport then (r, some (rejectedWorkspaceWrite .resourceUnavailable))
  else if r.workspaceWrite.isSome then
    if r.pending id then (r, none)
    else (r, some (rejectedWorkspaceWrite .writeCapacity))
  else if !work.acceptsFileWrite || work.sessions || work.idle then
    (r, some (rejectedWorkspaceWrite .resourceUnavailable))
  else if work.ownedPreparation then (r, some (rejectedWorkspaceWrite .resourceUnavailable))
  else ({ r with workspaceWrite := some { id := id, request := request } },
    some { outcome := .ready })

def handleWorkspaceWrite (r : Router) (work : OtherWork) (env : Frame) :
    Router × Option WorkspaceWriteResultPayload :=
  if !canonicalUUID env.id then (r, none)
  else match env.request with
    | none =>
      -- a malformed frame cannot claim that an earlier commit did not execute
      if r.pending env.id then (r, none) else (r, some (rejectedWorkspaceWrite .invalidRequest))
    | some request =>
      if r.closed then (r, none)
      else if request.step = .begin then r.beginWrite work env.id request
      else match r.workspaceWrite with
        | none => (r, some (rejectedWorkspaceWrite .resourceUnavailable))
        | some u =>
          if u.id ≠ env.id then (r, some (rejectedWorkspaceWrite .resourceUnavailable))
          else ({ r with workspaceWrite := some (u.takeFrame request).1 }, (u.takeFrame request).2)

/-- After the select: the timer may fire at any time, so nothing is asked of the upload. -/
def takeBody (r : Router) : Option Router :=
  match r.workspaceWrite with
  | some u =>
    if u.worker = .waiting then
      some { r with workspaceWrite := some (u.tookBody r.closed) }
    else none
  | none => none

def writeWorkspaceFile (r : Router) (answer : WriteAnswer) : Option Router :=
  match r.workspaceWrite with
  | some u =>
    match u.worker with
    | .applying data => some { r with workspaceWrite := some (u.wrote data answer) }
    | _ => none
  | none => none

/-- An upload of unknown outcome stays in place. -/
def recordResult (r : Router) : Option Router :=
  match r.workspaceWrite with
  | some u =>
    match u.worker with
    | .finishing result =>
      let u := u.settle result
      let outbox := r.outbox ++ [⟨u.id, some result⟩]
      if u.uncertain then some { r with workspaceWrite := some u, outbox := outbox }
      else some { r with workspaceWrite := none, retired := r.retired ++ [u], outbox := outbox }
    | _ => none
  | none => none

def admitted (r : Router) : List WorkspaceUpload := r.retired ++ r.workspaceWrite.toList

def callsFor (r : Router) (id : String) : List LocalWrite :=
  (r.admitted.filter (·.id = id)).flatMap (·.calls)

end Router

namespace WorkspaceUpload

/-- The body has the length and the digest of the begin request. -/
def Matches (u : WorkspaceUpload) (data : Bytes) : Prop :=
  (data.length : Int) = u.request.sizeBytes ∧ sha256Hex data = u.request.sha256

structure Ok (u : WorkspaceUpload) : Prop where
  unfinished : u.finished = false → u.worker = .waiting ∧ u.apply = false
  waiting : u.worker = .waiting → u.calls = [] ∧ (u.apply = true → u.Matches u.data)
  applying : ∀ data, u.worker = .applying data → u.calls = [] ∧ u.apply = true ∧ u.Matches data
  finishing : ∀ result, u.worker = .finishing result →
    result.outcome ≠ .ready ∧ (result.outcome = .completed → u.calls ≠ [])
  once : u.calls.length ≤ 1
  calls : ∀ c ∈ u.calls, u.apply = true ∧ c.path = u.request.path ∧ u.Matches c.data

theorem ok_new (id : String) (request : WorkspaceWritePayload) :
    Ok { id := id, request := request } := by
  constructor <;> simp

variable {u : WorkspaceUpload}

theorem Ok.calls_eq_nil (h : u.Ok) (happly : u.apply = false) : u.calls = [] := by
  apply List.eq_nil_iff_forall_not_mem.mpr
  intro c hc
  have := (h.calls c hc).1
  rw [happly] at this
  cases this

inductive Taken (u : WorkspaceUpload) (request : WorkspaceWritePayload) :
    WorkspaceUpload → Option WorkspaceWriteResultPayload → Prop
  | ignored : Taken u request u none
  | received (hopen : u.finished = false) (hchunk : request.step = .chunk)
      (hoffset : request.offset = u.data.length) :
      Taken u request { u with data := u.data ++ request.data }
        (some { outcome := .received, offset := (u.data ++ request.data).length })
  | closed (hopen : u.finished = false) {apply : Bool}
      (happly : apply = true → request.step = .commit ∧ u.Matches u.data) :
      Taken u request { u with finished := true, apply := apply } none

theorem takeFrame_taken (h : u.Ok) (request : WorkspaceWritePayload) :
    Taken u request (u.takeFrame request).1 (u.takeFrame request).2 := by
  unfold takeFrame
  split
  · exact .ignored
  · rename_i hfinished
    have hopen : u.finished = false := by simpa using hfinished
    split
    · rename_i hchunk
      exact .received hopen hchunk.1 hchunk.2.1
    · split
      · rename_i hcommit
        apply Taken.closed hopen
        intro hdigest
        exact ⟨hcommit.1, hcommit.2, by simpa using hdigest⟩
      · have happly := (h.unfinished hopen).2
        have hsame : ({ u with finished := true } : WorkspaceUpload) =
            { u with finished := true, apply := false } := by simp [happly]
        rw [hsame]
        exact .closed hopen (by simp)

theorem Taken.outcome {request : WorkspaceWritePayload} {u' : WorkspaceUpload}
    {answer : WorkspaceWriteResultPayload} (h : Taken u request u' (some answer)) :
    answer.outcome = .received := by
  cases h with
  | received => rfl

theorem Taken.same {request : WorkspaceWritePayload} {u' : WorkspaceUpload}
    {result : Option WorkspaceWriteResultPayload} (h : Taken u request u' result) :
    u'.worker = u.worker ∧ u'.calls = u.calls := by
  cases h <;> exact ⟨rfl, rfl⟩

theorem Ok.taken (h : u.Ok) {request : WorkspaceWritePayload} {u' : WorkspaceUpload}
    {reply : Option WorkspaceWriteResultPayload} (htaken : Taken u request u' reply) : u'.Ok := by
  cases htaken with
  | ignored => exact h
  | received hopen =>
    obtain ⟨hworker, happly⟩ := h.unfinished hopen
    have hnil := (h.waiting hworker).1
    constructor <;> simp [hopen, hworker, happly, hnil]
  | closed hopen hmatch =>
    obtain ⟨hworker, -⟩ := h.unfinished hopen
    have hnil := (h.waiting hworker).1
    constructor <;> simp [hworker, hnil]
    intro happly
    exact (hmatch happly).2

theorem workspaceWriteResult_ne_ready (answer : WriteAnswer) (size : Int) :
    (workspaceWriteResult answer size).outcome ≠ .ready := by
  unfold workspaceWriteResult
  split
  · simp
  · split <;> simp [rejectedWorkspaceWrite]

theorem Ok.tookBody (h : u.Ok) (hworker : u.worker = .waiting) (closed : Bool) :
    (u.tookBody closed).Ok := by
  obtain ⟨hnil, hmatch⟩ := h.waiting hworker
  by_cases happly : u.apply = true ∧ closed = false
  · have hmatches := hmatch happly.1
    constructor <;> simp [WorkspaceUpload.tookBody, happly, hnil]
    exact hmatches
  · have hnot : (u.apply && !closed) = false := by simpa using happly
    constructor <;> simp [WorkspaceUpload.tookBody, hnot, hnil, rejectedWorkspaceWrite]

theorem Ok.wrote (h : u.Ok) {data : Bytes} (hworker : u.worker = .applying data)
    (answer : WriteAnswer) : (u.wrote data answer).Ok := by
  obtain ⟨hnil, happly, hmatch⟩ := h.applying data hworker
  have hfinished : u.finished = true := by
    by_contra hopen
    have hwaiting := (h.unfinished (by simpa using hopen)).1
    rw [hworker] at hwaiting
    cases hwaiting
  constructor <;> simp [WorkspaceUpload.wrote, hnil, hfinished, workspaceWriteResult_ne_ready]
  exact ⟨happly, hmatch⟩

theorem Ok.settle (h : u.Ok) {result : WorkspaceWriteResultPayload}
    (hworker : u.worker = .finishing result) : (u.settle result).Ok := by
  have hfinished : u.finished = true := by
    by_contra hopen
    have hwaiting := (h.unfinished (by simpa using hopen)).1
    rw [hworker] at hwaiting
    cases hwaiting
  constructor <;> simp [WorkspaceUpload.settle, hfinished]
  · exact h.once
  · exact h.calls

end WorkspaceUpload

namespace Router

open WorkspaceUpload

variable {r r' : Router}

inductive Handled (r : Router) (env : Frame) : Router → Option WorkspaceWriteResultPayload → Prop
  | ignored : Handled r env r none
  | malformed (hrequest : env.request = none) (hpending : r.pending env.id = false) :
      Handled r env r (some (rejectedWorkspaceWrite .invalidRequest))
  | refused {request : WorkspaceWritePayload} {code : ErrorCode}
      (hrequest : env.request = some request) (hbegin : request.step = .begin) :
      Handled r env r (some (rejectedWorkspaceWrite code))
  | begun {request : WorkspaceWritePayload} (hrequest : env.request = some request)
      (hbegin : request.step = .begin) (hfree : r.workspaceWrite = none) :
      Handled r env { r with workspaceWrite := some { id := env.id, request := request } }
        (some { outcome := .ready })
  | stale {request : WorkspaceWritePayload} (hrequest : env.request = some request)
      (hstep : request.step ≠ .begin) (hpending : r.pending env.id = false) :
      Handled r env r (some (rejectedWorkspaceWrite .resourceUnavailable))
  | taken {request : WorkspaceWritePayload} {u : WorkspaceUpload}
      (hrequest : env.request = some request) (hstep : request.step ≠ .begin)
      (hu : r.workspaceWrite = some u) (hid : u.id = env.id) :
      Handled r env { r with workspaceWrite := some (u.takeFrame request).1 }
        (u.takeFrame request).2

theorem beginWrite_handled (work : OtherWork) {env : Frame} {request : WorkspaceWritePayload}
    (hrequest : env.request = some request) (hbegin : request.step = .begin) :
    Handled r env (r.beginWrite work env.id request).1 (r.beginWrite work env.id request).2 := by
  unfold beginWrite
  split
  · exact .refused hrequest hbegin
  · split
    · split
      · exact .ignored
      · exact .refused hrequest hbegin
    · rename_i hfree
      split
      · exact .refused hrequest hbegin
      · split
        · exact .refused hrequest hbegin
        · exact .begun hrequest hbegin (by simpa using hfree)

theorem handle_handled (r : Router) (work : OtherWork) (env : Frame) :
    Handled r env (r.handleWorkspaceWrite work env).1 (r.handleWorkspaceWrite work env).2 := by
  unfold handleWorkspaceWrite
  split
  · exact .ignored
  · split
    · rename_i hrequest
      split
      · exact .ignored
      · rename_i hpending
        exact .malformed hrequest (by simpa using hpending)
    · rename_i request hrequest
      split
      · exact .ignored
      · split
        · rename_i hbegin
          exact beginWrite_handled work hrequest hbegin
        · rename_i hstep
          split
          · rename_i hnone
            exact .stale hrequest hstep (by simp [pending, hnone])
          · rename_i u hu
            split
            · rename_i hid
              exact .stale hrequest hstep (by simpa [pending, hu] using hid)
            · rename_i hid
              exact .taken hrequest hstep hu (by simpa using hid)

theorem handle_begun {work : OtherWork} {env : Frame} (hfree : r.workspaceWrite = none)
    (hbegun : (r.handleWorkspaceWrite work env).1.workspaceWrite.isSome) :
    work.workspaceExport = false ∧ work.sessions = false ∧ work.idle = false ∧
      work.ownedPreparation = false := by
  unfold handleWorkspaceWrite at hbegun
  split at hbegun
  · simp [hfree] at hbegun
  · split at hbegun
    · split at hbegun <;> simp [hfree] at hbegun
    · split at hbegun
      · simp [hfree] at hbegun
      · split at hbegun
        · unfold beginWrite at hbegun
          simp only [hfree, Option.isSome_none, Bool.false_eq_true, if_false] at hbegun
          split at hbegun
          · simp [hfree] at hbegun
          · rename_i hexport
            split at hbegun
            · simp [hfree] at hbegun
            · rename_i hwork
              split at hbegun
              · simp [hfree] at hbegun
              · rename_i howned
                simp only [Bool.not_eq_true, Bool.or_eq_false_iff] at hexport hwork howned
                exact ⟨hexport, hwork.1.2, hwork.2, howned⟩
        · simp [hfree] at hbegun

theorem takeBody_eq_some (h : r.takeBody = some r') :
    ∃ u, r.workspaceWrite = some u ∧ u.worker = .waiting ∧
      r' = { r with workspaceWrite := some (u.tookBody r.closed) } := by
  unfold takeBody at h
  split at h
  · rename_i u hu
    split at h
    · rename_i hworker
      exact ⟨u, hu, hworker, (Option.some.inj h).symm⟩
    · cases h
  · cases h

theorem writeWorkspaceFile_eq_some {answer : WriteAnswer}
    (h : r.writeWorkspaceFile answer = some r') :
    ∃ u data, r.workspaceWrite = some u ∧ u.worker = .applying data ∧
      r' = { r with workspaceWrite := some (u.wrote data answer) } := by
  unfold writeWorkspaceFile at h
  split at h
  · rename_i u hu
    split at h
    · rename_i data hworker
      exact ⟨u, data, hu, hworker, (Option.some.inj h).symm⟩
    · cases h
  · cases h

theorem recordResult_eq_some (h : r.recordResult = some r') :
    ∃ u result, r.workspaceWrite = some u ∧ u.worker = .finishing result ∧
      r'.outbox = r.outbox ++ [⟨u.id, some result⟩] ∧
      (result.outcome = .unknown ∧ r'.workspaceWrite = some (u.settle result) ∧
          r'.retired = r.retired ∨
        result.outcome ≠ .unknown ∧ r'.workspaceWrite = none ∧
          r'.retired = r.retired ++ [u.settle result]) := by
  unfold recordResult at h
  split at h
  · rename_i u hu
    split at h
    · rename_i result hworker
      refine ⟨u, result, hu, hworker, ?_⟩
      simp only at h
      split at h
      · rename_i hunknown
        cases h
        exact ⟨rfl, .inl ⟨by simpa [settle] using hunknown, rfl, rfl⟩⟩
      · rename_i hknown
        cases h
        exact ⟨rfl, .inr ⟨by simpa [settle] using hknown, rfl, rfl⟩⟩
    · cases h
  · cases h

end Router

end Parsar.WorkspaceWrite
