import Parsar.GoStd.Path
import Parsar.GoStd.Sha256

namespace Parsar.AgentsApi

open GoStd

structure File where
  environmentID : String
  object : String
  path : String
  sizeBytes : Int

structure FileCursor where
  version : Int
  binding : String
  fingerprint : String
  offset : Int

/-- What a token decodes to, unless it is too long, not Base64 or not one JSON object of these
fields. -/
abbrev Token := Option FileCursor

structure FileList where
  data : List File
  next : Option Token

structure Binding where
  tenantID : String
  environmentID : String
  directory : Path
  limit : Nat
  ascending : Bool

/-- `json.Marshal` of the two kinds of values that are hashed. -/
structure Marshal where
  files : List File → Bytes
  binding : Binding → Bytes

def environmentFilesDigest (data : Bytes) : String := sha256Hex data

inductive Configuration where
  | openaiHosted
  | selfHosted (capabilityDirectories : List String) (workspaceDirectory : Path)
  | other

structure Environment where
  id : String
  configuration : Configuration

/-- A request without its token; limit and order are what `readPageQuery` accepts. -/
structure Request where
  tenantID : String
  environment : Environment
  path : Option Path
  limit : Nat
  ascending : Bool
  limit_valid : 1 ≤ limit ∧ limit ≤ 100

structure FileOptions where
  directory : Path
  relativeDirectory : Path
  limit : Nat
  ascending : Bool
  binding : String
  cursor : Option FileCursor := none

inductive Failure where
  | invalidInput
  | executionUnavailable

def validEnvironmentFilePath (value : Path) : Bool :=
  value.head? = some '/' && (utf8 (.ofList value)).length ≤ 4096 &&
    !value.any (['\\', '\x00', '\r', '\n'].contains ·) && !(value.splitOn '/').contains dotDot

def Environment.root (e : Environment) : Except Failure Path :=
  match e.configuration with
  | .openaiHosted => .ok "/workspace".toList
  | .selfHosted capabilityDirectories workspaceDirectory =>
    if capabilityDirectories ≠ [] ∨ ¬ validEnvironmentFilePath workspaceDirectory then
      .error .executionUnavailable
    else .ok (clean workspaceDirectory)
  | .other => .error .executionUnavailable

def bindingOf (r : Request) (directory : Path) : Binding :=
  ⟨r.tenantID, r.environment.id, directory, r.limit, r.ascending⟩

variable (json : Marshal)

/-- `readEnvironmentFileQuery` up to the token. -/
def readOptions (r : Request) : Except Failure FileOptions := do
  let root ← r.environment.root
  let directory ← match r.path with
    | none => .ok root
    | some requested =>
      if validEnvironmentFilePath requested then .ok (clean requested) else .error .invalidInput
  let inside := trimSlash root ++ ['/']
  if directory ≠ root ∧ ¬ inside.isPrefixOf directory then .error .invalidInput
  else .ok {
    directory
    relativeDirectory := if directory = root then [] else directory.drop inside.length
    limit := r.limit
    ascending := r.ascending
    binding := environmentFilesDigest (json.binding (bindingOf r directory)) }

def decodeEnvironmentFileCursor (token : Token) (binding : String) : Option FileCursor :=
  token.filter fun cursor => cursor.version = 1 ∧ cursor.binding = binding ∧
    (utf8 cursor.fingerprint).length = 64 ∧ 0 < cursor.offset

def readEnvironmentFileQuery (r : Request) (token : Option Token) :
    Except Failure FileOptions := do
  let options ← readOptions json r
  match token with
  | none => .ok options
  | some token => match decodeEnvironmentFileCursor token options.binding with
    | none => .error .invalidInput
    | some cursor => .ok { options with cursor := some cursor }

def fingerprint (files : List File) : String := environmentFilesDigest (json.files files)

/-- `environmentFilePage` once it knows where to start. -/
def pageFrom (files : List File) (limit : Nat) (binding : String) (start : Nat) :
    FileList :=
  let stop := min (start + limit) files.length
  { data := (files.take stop).drop start
    next := if stop < files.length then some (some ⟨1, binding, fingerprint json files, stop⟩)
      else none }

def environmentFilePage (files : List File) (options : FileOptions) :
    Except Failure FileList :=
  match options.cursor with
  | none => .ok (pageFrom json files options.limit options.binding 0)
  | some cursor =>
    if cursor.fingerprint ≠ fingerprint json files ∨ files.length ≤ cursor.offset ∨
        cursor.offset % options.limit ≠ 0 then .error .invalidInput
    else .ok (pageFrom json files options.limit options.binding cursor.offset.toNat)

/-- `listEnvironmentFiles`, where the directory has these files, in the order that is asked for. -/
def listEnvironmentFiles (r : Request) (files : List File) (token : Option Token) :
    Except Failure FileList := do
  environmentFilePage json files (← readEnvironmentFileQuery json r token)

/-- The files of the pages from a token on; nothing if a request fails or there are more pages. -/
def follow (r : Request) (files : List File) :
    Nat → Option Token → Option (List File)
  | 0, _ => none
  | pages + 1, token => match listEnvironmentFiles json r files token with
    | .error _ => none
    | .ok page => match page.next with
      | none => some page.data
      | some next => (follow r files pages (some next)).map (page.data ++ ·)

/-- The directory that is read is the root or below it, and nothing in its path leads out. -/
def Inside (r : Request) (o : FileOptions) : Prop :=
  ∃ root, r.environment.root = .ok root ∧
    elements o.directory = elements root ++ elements o.relativeDirectory ∧
    dotDot ∉ elements o.directory

variable {json} {r : Request} {o : FileOptions} {files : List File}

theorem length_fingerprint : (utf8 (fingerprint json files)).length = 64 := length_sha256Hex _

theorem root_clean {e : Environment} {root : Path} (h : e.root = .ok root) :
    dotDot ∉ elements root := by
  unfold Environment.root at h
  split at h
  · cases h
    decide
  · split at h <;> cases h
    exact dotDot_not_mem_clean _
  · cases h

def issued (json : Marshal) (files : List File) (binding : String) (stop : Nat) : Token :=
  some ⟨1, binding, fingerprint json files, stop⟩

theorem pageFrom_data (limit start : Nat) (binding : String) :
    (pageFrom json files limit binding start).data = (files.drop start).take limit := by
  simp only [pageFrom, List.drop_take]
  rcases Nat.le_total (start + limit) files.length with h | h
  · rw [Nat.min_eq_left h, Nat.add_sub_cancel_left]
  · rw [Nat.min_eq_right h, List.take_of_length_le (by simp),
      List.take_of_length_le (by simp; omega)]

theorem pageFrom_last {limit start : Nat} {binding : String} (h : files.length ≤ start + limit) :
    pageFrom json files limit binding start = ⟨files.drop start, none⟩ := by
  simp [pageFrom, Nat.min_eq_right h]

theorem pageFrom_next {limit start : Nat} {binding : String} (h : start + limit < files.length) :
    pageFrom json files limit binding start =
      ⟨(files.drop start).take limit, some (issued json files binding (start + limit))⟩ := by
  simp [pageFrom, issued, Nat.min_eq_left h.le, h, List.drop_take]

/-- The token is one of the request's binding, for the current listing and for the start of a page.
-/
structure Accepts (json : Marshal) (o : FileOptions) (files : List File) (cursor : FileCursor) :
    Prop where
  version : cursor.version = 1
  binding : cursor.binding = o.binding
  length : (utf8 cursor.fingerprint).length = 64
  offset_pos : 0 < cursor.offset
  listing : cursor.fingerprint = fingerprint json files
  offset_lt : cursor.offset < files.length
  offset_mod : cursor.offset % o.limit = 0

section

variable (h : readOptions json r = .ok o)

include h

theorem options_of_request :
    ∃ root, r.environment.root = .ok root ∧
      (o.directory = root ∨ ∃ requested, o.directory = clean requested) ∧
      (o.directory = root ∧ o.relativeDirectory = [] ∨
        o.directory = trimSlash root ++ '/' :: o.relativeDirectory) ∧
      o.limit = r.limit ∧ o.cursor = none ∧
      o.binding = environmentFilesDigest (json.binding (bindingOf r o.directory)) := by
  unfold readOptions at h
  cases hroot : r.environment.root with
  | error e => simp [hroot, bind, Except.bind] at h
  | ok root =>
    refine ⟨root, rfl, ?_⟩
    cases hpath : r.path with
    | none =>
      simp only [hroot, hpath, bind, Except.bind, ne_eq, not_true, false_and, if_false] at h
      cases h
      simp
    | some requested =>
      by_cases hvalid : validEnvironmentFilePath requested = true
      · simp only [hroot, hpath, hvalid, bind, Except.bind, if_true] at h
        split at h
        · cases h
        next hin =>
          cases h
          refine ⟨.inr ⟨requested, rfl⟩, ?_, rfl, rfl, rfl⟩
          by_cases hdir : clean requested = root
          · simp [hdir]
          · have hpre : trimSlash root ++ ['/'] <+: clean requested := by simpa [hdir] using hin
            obtain ⟨rest, hrest⟩ := hpre
            right
            simp only [hdir, if_false]
            rw [← hrest]
            simp
      · simp [hroot, hpath, hvalid, bind, Except.bind] at h

theorem directory_inside : Inside r o := by
  obtain ⟨root, hroot, hclean, hdir, -, -⟩ := options_of_request h
  refine ⟨root, hroot, ?_, ?_⟩
  · rcases hdir with ⟨hdir, hrel⟩ | hdir
    · rw [hdir, hrel]
      simp [elements]
    · rw [hdir, elements_append, elements_trimSlash]
  · rcases hclean with hdir | ⟨requested, hdir⟩
    · rw [hdir]
      exact root_clean hroot
    · rw [hdir]
      exact dotDot_not_mem_clean requested

theorem list_first :
    listEnvironmentFiles json r files none = .ok (pageFrom json files o.limit o.binding 0) := by
  obtain ⟨-, -, -, -, -, hcursor, -⟩ := options_of_request h
  simp [listEnvironmentFiles, readEnvironmentFileQuery, h, bind, Except.bind, environmentFilePage,
    hcursor]

theorem list_token (token : Token) :
    (∃ cursor, token = some cursor ∧ Accepts json o files cursor ∧
      listEnvironmentFiles json r files (some token) =
        .ok (pageFrom json files o.limit o.binding cursor.offset.toNat)) ∨
    ((∀ cursor, token = some cursor → ¬ Accepts json o files cursor) ∧
      listEnvironmentFiles json r files (some token) = .error .invalidInput) := by
  simp only [listEnvironmentFiles, readEnvironmentFileQuery, h, bind, Except.bind]
  cases hdecode : decodeEnvironmentFileCursor token o.binding with
  | none =>
    refine .inr ⟨?_, rfl⟩
    rintro cursor rfl haccepts
    simp [decodeEnvironmentFileCursor, haccepts.version, haccepts.binding,
      haccepts.length] at hdecode
    exact absurd haccepts.offset_pos (Int.not_lt.2 hdecode)
  | some cursor =>
    simp only [decodeEnvironmentFileCursor, Option.filter_eq_some_iff, decide_eq_true_eq] at hdecode
    obtain ⟨rfl, hversion, hbinding, hlength, hpos⟩ := hdecode
    simp only [environmentFilePage]
    split
    next hfails =>
      refine .inr ⟨?_, rfl⟩
      intro other hother haccepts
      cases hother
      rcases hfails with hfails | hfails | hfails
      · exact hfails haccepts.listing
      · exact absurd haccepts.offset_lt (by omega)
      · exact hfails haccepts.offset_mod
    next hholds =>
      simp only [not_or, not_not] at hholds
      exact .inl ⟨cursor, rfl, ⟨hversion, hbinding, hlength, hpos, hholds.1, by omega, hholds.2.2⟩,
        rfl⟩

theorem list_issued {stop : Nat} (hpos : 0 < stop) (hstop : stop < files.length)
    (hdvd : o.limit ∣ stop) :
    listEnvironmentFiles json r files (some (issued json files o.binding stop)) =
      .ok (pageFrom json files o.limit o.binding stop) := by
  have haccepts : Accepts json o files ⟨1, o.binding, fingerprint json files, stop⟩ := by
    refine ⟨rfl, rfl, length_fingerprint, Int.natCast_pos.2 hpos, rfl, Int.ofNat_lt.2 hstop, ?_⟩
    exact Int.emod_eq_zero_of_dvd (Int.natCast_dvd_natCast.2 hdvd)
  obtain ⟨cursor, hcursor, -, hlist⟩ | ⟨hnone, -⟩ := list_token h (issued json files o.binding stop)
  · cases hcursor
    exact hlist
  · exact absurd haccepts (hnone _ rfl)

theorem follow_from (hlimit : 0 < o.limit) (m : Nat)
    {start : Nat} {token : Option Token} (hm : files.length - start ≤ m) (hstart : o.limit ∣ start)
    (hlist : listEnvironmentFiles json r files token =
      .ok (pageFrom json files o.limit o.binding start)) :
    ∃ pages, follow json r files pages token = some (files.drop start) := by
  induction m generalizing start token with
  | zero => exact ⟨1, by rw [follow, hlist, pageFrom_last (by omega)]⟩
  | succ m ih =>
    by_cases hnext : start + o.limit < files.length
    · have hdvd : o.limit ∣ start + o.limit := Nat.dvd_add hstart (Nat.dvd_refl _)
      obtain ⟨pages, hpages⟩ := @ih (start + o.limit)
        (some (issued json files o.binding (start + o.limit))) (by omega) hdvd
        (list_issued h (by omega) hnext hdvd)
      refine ⟨pages + 1, ?_⟩
      simp only [follow, hlist, pageFrom_next hnext, hpages, Option.map_some]
      rw [← List.drop_drop, List.take_append_drop]
    · exact ⟨1, by rw [follow, hlist, pageFrom_last (by omega)]⟩

theorem listed_from {token : Option Token}
    {list : FileList} (hlist : listEnvironmentFiles json r files token = .ok list) :
    ∃ start, o.limit ∣ start ∧ list = pageFrom json files o.limit o.binding start := by
  cases token with
  | none =>
    rw [list_first h] at hlist
    cases hlist
    exact ⟨0, Nat.dvd_zero _, rfl⟩
  | some token =>
    obtain ⟨cursor, -, haccepts, heq⟩ | ⟨-, heq⟩ := list_token h token
    · rw [heq] at hlist
      cases hlist
      refine ⟨cursor.offset.toNat, ?_, rfl⟩
      rw [← Int.natCast_dvd_natCast, Int.toNat_of_nonneg (Int.le_of_lt haccepts.offset_pos)]
      exact Int.dvd_of_emod_eq_zero haccepts.offset_mod
    · rw [heq] at hlist
      cases hlist

end

/-- Neither the two bindings nor the two listings have the same digest without being the same. -/
structure NoCollision (json : Marshal) (b b' : Binding) (files files' : List File) : Prop where
  binding : environmentFilesDigest (json.binding b) = environmentFilesDigest (json.binding b') →
    b = b'
  files : fingerprint json files = fingerprint json files' → files = files'

/-- The pages are the listing, none has more files than the limit, and their tokens are accepted.
Every token is refused or gives the files from its offset on, and then requests of another binding
or listing refuse it; and the directory is inside of the root. -/
theorem environment_files_paged (h : readOptions json r = .ok o) :
    (∃ pages, follow json r files pages none = some files) ∧
    (∀ token list, listEnvironmentFiles json r files token = .ok list →
      list.data.length ≤ r.limit ∧ ∀ next, list.next = some next →
        ∃ list', listEnvironmentFiles json r files (some next) = .ok list') ∧
    (∀ token, listEnvironmentFiles json r files (some token) = .error .invalidInput ∨
      ∃ cursor list, token = some cursor ∧
        listEnvironmentFiles json r files (some token) = .ok list ∧
        list.data = (files.drop cursor.offset.toNat).take r.limit ∧
        ∀ r' o' files', readOptions json r' = .ok o' →
          let b := bindingOf r o.directory
          let b' := bindingOf r' o'.directory
          NoCollision json b b' files files' →
          (b = b' ∧ files = files' →
            listEnvironmentFiles json r' files' (some token) = .ok list) ∧
          (¬ (b = b' ∧ files = files') →
            listEnvironmentFiles json r' files' (some token) = .error .invalidInput)) ∧
    Inside r o := by
  obtain ⟨-, -, -, -, hlimit, -, hbinding⟩ := options_of_request h
  have hpos : 0 < o.limit := hlimit ▸ r.limit_valid.1
  refine ⟨?_, ?_, ?_, directory_inside h⟩
  · exact follow_from h hpos files.length (Nat.sub_le _ _) (Nat.dvd_zero _) (list_first h)
  · intro token list hlist
    obtain ⟨start, hstart, rfl⟩ := listed_from h hlist
    refine ⟨?_, fun next hnext => ?_⟩
    · rw [pageFrom_data, ← hlimit]
      exact List.length_take_le _ _
    · by_cases hmore : start + o.limit < files.length
      · rw [pageFrom_next hmore] at hnext
        cases hnext
        exact ⟨_, list_issued h (by omega) hmore (Nat.dvd_add hstart (Nat.dvd_refl _))⟩
      · rw [pageFrom_last (by omega)] at hnext
        cases hnext
  · intro token
    obtain ⟨cursor, rfl, haccepts, hlist⟩ | ⟨-, hlist⟩ := list_token h token
    · refine .inr ⟨cursor, _, rfl, hlist, by rw [pageFrom_data, hlimit], ?_⟩
      intro r' o' files' h' b b' hcollision
      obtain ⟨-, -, -, -, hlimit', -, hbinding'⟩ := options_of_request h'
      constructor
      · rintro ⟨hsame, rfl⟩
        have hlimits : o'.limit = o.limit := by
          rw [hlimit, hlimit']
          exact (congrArg Binding.limit hsame).symm
        have hbindings : o'.binding = o.binding := by
          rw [hbinding, hbinding']
          exact congrArg (environmentFilesDigest ∘ json.binding) hsame.symm
        rw [← hlimits, ← hbindings]
        obtain ⟨_, heq, -, hlist'⟩ | ⟨hnone, -⟩ := list_token h' (some cursor)
        · cases heq
          exact hlist'
        · refine absurd ?_ (hnone cursor rfl)
          exact { haccepts with binding := haccepts.binding.trans hbindings.symm,
                                offset_mod := hlimits ▸ haccepts.offset_mod }
      · intro hother
        obtain ⟨_, heq, haccepts', -⟩ | ⟨-, hlist'⟩ := @list_token _ _ _ files' h' (some cursor)
        · cases heq
          refine (hother ⟨hcollision.binding ?_, hcollision.files ?_⟩).elim
          · rw [← hbinding, ← hbinding', ← haccepts.binding, haccepts'.binding]
          · rw [← haccepts.listing, haccepts'.listing]
        · exact hlist'
    · exact .inl hlist

def onePerPage : Request :=
  ⟨"t", ⟨"e", .openaiHosted⟩, some "/workspace/a//b/".toList, 1, true, by decide⟩

def twoFiles : List File := [⟨"e", "agent.environment.file", "/workspace/a/b/x", 1⟩,
  ⟨"e", "agent.environment.file", "/workspace/a/b/y", 2⟩]

def namesOnly : Marshal := ⟨fun files => files.flatMap (utf8 ·.path), fun b => utf8 b.tenantID⟩

theorem two_files_paged : ∃ o list next, readOptions namesOnly onePerPage = .ok o ∧
    o.relativeDirectory = "a/b".toList ∧
    (∃ pages, follow namesOnly onePerPage twoFiles pages none = some twoFiles) ∧
    listEnvironmentFiles namesOnly onePerPage twoFiles none = .ok list ∧ list.next = some next ∧
    (∃ list', listEnvironmentFiles namesOnly onePerPage twoFiles (some next) = .ok list' ∧
      list'.data = twoFiles.drop 1) ∧
    listEnvironmentFiles namesOnly onePerPage [] (some next) = .error .invalidInput := by
  obtain ⟨o, ho, hdir⟩ : ∃ o, readOptions namesOnly onePerPage = .ok o ∧
      o.relativeDirectory = "a/b".toList := ⟨_, rfl, by decide +kernel⟩
  have hlimit : o.limit = 1 := (options_of_request ho).choose_spec.2.2.2.1
  obtain ⟨hpages, hlists, htokens, -⟩ := @environment_files_paged _ _ _ twoFiles ho
  have hfirst := @list_first _ _ _ twoFiles ho
  rw [hlimit, pageFrom_next (by decide)] at hfirst
  obtain ⟨list', hlist'⟩ := (hlists none _ hfirst).2 _ rfl
  obtain hfails | ⟨cursor, list, hcursor, hlist, hdata, hother⟩ :=
    htokens (issued namesOnly twoFiles o.binding 1)
  · rw [hfails] at hlist'
    cases hlist'
  · cases hcursor
    refine ⟨o, _, _, ho, hdir, hpages, hfirst, rfl, ⟨list, hlist, hdata⟩, ?_⟩
    refine (hother onePerPage o [] ho ⟨fun _ => rfl, fun h => absurd h ?_⟩).2 (by simp [twoFiles])
    decide +kernel

end Parsar.AgentsApi
