import Mathlib.Data.List.Count
import Parsar.Framework.Trace

namespace Parsar.Codex

def maxOutput : Nat := 4 * 1024 * 1024

inductive ExecOutputStream where
  | stdout
  | stderr
  | pty
  deriving DecidableEq

structure ProcessOutputChunk where
  seq : Nat
  stream : ExecOutputStream
  chunk : List UInt8

structure ReadResponse where
  chunks : List ProcessOutputChunk
  nextSeq : Nat
  exited : Bool
  exitCode : Option Int
  closed : Bool

structure Output where
  bytes : List UInt8 := []
  cursor : Nat := 0
  exited : Bool := false
  closed : Bool := false

/-- The loop of `append` over the chunks. -/
def appendChunks (next : Nat) : Nat → List UInt8 → List ProcessOutputChunk → Option (List UInt8)
  | _, bytes, [] => some bytes
  | previous, bytes, c :: cs =>
    if c.seq ≤ previous ∨ next < c.seq ∨ c.stream ≠ .stdout ∨
        maxOutput - bytes.length < c.chunk.length then none
    else appendChunks next c.seq (bytes ++ c.chunk) cs

def Output.append (o : Output) (r : ReadResponse) : Option Output :=
  match r.nextSeq with
  | 0 => none
  | next + 1 =>
    if next < o.cursor ∨ (o.exited && !r.exited) ∨ (o.closed && !r.closed) ∨
        r.exited ≠ r.exitCode.isSome ∨ (r.closed && !r.exited) then none
    else if next - o.cursor ≠ r.chunks.length + (r.exited && !o.exited).toNat +
        (r.closed && !o.closed).toNat then none
    else (appendChunks next o.cursor o.bytes r.chunks).map fun bytes =>
      { bytes, cursor := next, exited := r.exited, closed := r.closed }

inductive Event where
  | output (stream : ExecOutputStream) (chunk : List UInt8)
  | exit
  | close
  deriving DecidableEq

structure EventLog where
  events : List Event
  one_exit : events.count .exit = 1
  one_close : events.count .close = 1
  close_last : events.getLast? = some .close

/-- The chunks among the events after sequence number `k`. -/
def chunksAfter : Nat → List Event → List ProcessOutputChunk
  | _, [] => []
  | k, .output stream chunk :: es => ⟨k + 1, stream, chunk⟩ :: chunksAfter (k + 1) es
  | k, _ :: es => chunksAfter (k + 1) es

/-- An uncapped read after `cursor`, when `n` events of the log have happened: some of the chunks
may have been evicted. -/
def EventLog.Answers (log : EventLog) (cursor : Nat) (r : ReadResponse) : Prop :=
  ∃ n ≤ log.events.length, r.nextSeq = n + 1 ∧
    (r.exited = true ↔ .exit ∈ log.events.take n) ∧
    (r.closed = true ↔ .close ∈ log.events.take n) ∧
    r.chunks.Sublist (chunksAfter cursor ((log.events.take n).drop cursor))

def Event.stdout : Event → List UInt8
  | .output .stdout chunk => chunk
  | _ => []

def OnlyStdout (es : List Event) : Prop :=
  ∀ stream chunk, .output stream chunk ∈ es → stream = .stdout

theorem onlyStdout_append {es fs : List Event} (hes : OnlyStdout es) (hfs : OnlyStdout fs) :
    OnlyStdout (es ++ fs) := by
  intro stream chunk h
  rcases List.mem_append.mp h with h | h
  · exact hes stream chunk h
  · exact hfs stream chunk h

theorem length_chunksAfter (k : Nat) (es : List Event) :
    (chunksAfter k es).length + es.count .exit + es.count .close = es.length := by
  induction es generalizing k with
  | nil => rfl
  | cons e es ih =>
    have := ih (k + 1)
    cases e <;> simp [chunksAfter] <;> omega

theorem stdout_chunksAfter (k : Nat) (es : List Event)
    (h : ∀ c ∈ chunksAfter k es, c.stream = .stdout) :
    OnlyStdout es ∧ (chunksAfter k es).flatMap (·.chunk) = es.flatMap Event.stdout := by
  induction es generalizing k with
  | nil => simp [OnlyStdout, chunksAfter]
  | cons e es ih =>
    cases e with
    | output stream chunk =>
      obtain ⟨rfl, hrest⟩ := List.forall_mem_cons.mp h
      obtain ⟨honly, hbytes⟩ := ih (k + 1) hrest
      refine ⟨@onlyStdout_append [_] _ ?_ honly, by simp [chunksAfter, Event.stdout, hbytes]⟩
      simp [OnlyStdout]
    | _ => simpa [OnlyStdout, chunksAfter, Event.stdout] using ih (k + 1) h

theorem appendChunks_eq {next previous : Nat} {bytes bytes' : List UInt8}
    {cs : List ProcessOutputChunk} (h : appendChunks next previous bytes cs = some bytes')
    (hlen : bytes.length ≤ maxOutput) :
    (∀ c ∈ cs, c.stream = .stdout) ∧ bytes' = bytes ++ cs.flatMap (·.chunk) ∧
      bytes'.length ≤ maxOutput := by
  induction cs generalizing previous bytes with
  | nil =>
    cases h
    simp [hlen]
  | cons c cs ih =>
    simp only [appendChunks, Option.ite_none_left_eq_some, not_or, not_not] at h
    obtain ⟨⟨-, -, hstream, hroom⟩, h⟩ := h
    obtain ⟨hcs, hbytes, hmax⟩ := ih h (by simp; omega)
    exact ⟨List.forall_mem_cons.mpr ⟨hstream, hcs⟩, by simp [hbytes], hmax⟩

theorem append_eq {o o' : Output} {r : ReadResponse} (h : o.append r = some o') :
    ∃ next bytes, r.nextSeq = next + 1 ∧ o.cursor ≤ next ∧ (o.exited → r.exited) ∧
      (o.closed → r.closed) ∧ next - o.cursor = r.chunks.length + (r.exited && !o.exited).toNat +
        (r.closed && !o.closed).toNat ∧
      appendChunks next o.cursor o.bytes r.chunks = some bytes ∧
      o' = ⟨bytes, next, r.exited, r.closed⟩ := by
  unfold Output.append at h
  split at h
  · cases h
  next next hnext =>
    simp only [Option.ite_none_left_eq_some, Option.map_eq_some_iff, not_or] at h
    obtain ⟨⟨hcursor, hexited, hclosed, -⟩, hcount, bytes, hbytes, rfl⟩ := h
    refine ⟨next, bytes, hnext, by omega, ?_, ?_, by omega, hbytes, rfl⟩ <;> simp_all

/-- The output holds the events up to its cursor, and nothing of them was missed. -/
structure Complete (log : EventLog) (o : Output) : Prop where
  cursor : o.cursor ≤ log.events.length
  exited : (log.events.take o.cursor).count .exit = o.exited.toNat
  closed : (log.events.take o.cursor).count .close = o.closed.toNat
  only : OnlyStdout (log.events.take o.cursor)
  bytes : o.bytes = (log.events.take o.cursor).flatMap Event.stdout
  length : o.bytes.length ≤ maxOutput

variable {log : EventLog} {o o' : Output} {r : ReadResponse}

theorem count_take {e : Event} (hone : log.events.count e = 1) {n : Nat} {b : Bool}
    (hb : b = true ↔ e ∈ log.events.take n) : (log.events.take n).count e = b.toNat := by
  have hle : (log.events.take n).count e ≤ 1 := hone ▸ (List.take_sublist n _).count_le e
  cases b with
  | false => exact List.count_eq_zero.mpr fun h => Bool.false_ne_true (hb.mpr h)
  | true => exact Nat.le_antisymm hle (List.count_pos_iff.mpr (hb.mp rfl))

/-- The cursor moves by as many events as the chunks, the exit and the close account for; so no
chunk of the read is missing. -/
theorem Complete.append (hr : log.Answers o.cursor r) (h : o.append r = some o')
    (hI : Complete log o) : Complete log o' := by
  obtain ⟨next, bytes, hnext, hle, hexited, hclosed, hcount, hbytes, rfl⟩ := append_eq h
  obtain ⟨n, hn, hseq, hex, hcl, hsub⟩ := hr
  obtain rfl : n = next := by omega
  have hex' := count_take log.one_exit hex
  have hcl' := count_take log.one_close hcl
  have hsplit := List.take_append_drop o.cursor (log.events.take n)
  rw [List.take_take, Nat.min_eq_left hle] at hsplit
  set news := (log.events.take n).drop o.cursor
  have hall : r.chunks = chunksAfter o.cursor news := by
    refine hsub.eq_of_length ?_
    have hlen := length_chunksAfter o.cursor news
    have hnews : news.length = n - o.cursor := by simp [news, hn]
    rw [← hsplit, List.count_append, hI.exited] at hex'
    rw [← hsplit, List.count_append, hI.closed] at hcl'
    have hb : ∀ {b c : Bool} {m : Nat}, (b → c) → b.toNat + m = c.toNat → (c && !b).toNat = m := by
      rintro (_ | _) (_ | _) m <;> simp <;> omega
    rw [hb hexited hex', hb hclosed hcl'] at hcount
    omega
  obtain ⟨hstdout, rfl, hmax⟩ := appendChunks_eq hbytes hI.length
  rw [hall] at hstdout ⊢
  obtain ⟨honly, hnews⟩ := stdout_chunksAfter o.cursor news hstdout
  exact ⟨hn, hex', hcl', hsplit ▸ onlyStdout_append hI.only honly, by
    rw [← hsplit, List.flatMap_append, hnews, hI.bytes], hall ▸ hmax⟩

theorem take_of_closed (hI : Complete log o) (hclosed : o.closed = true) :
    log.events.take o.cursor = log.events := by
  refine List.take_of_length_le (Nat.le_of_not_lt fun hlt => ?_)
  have hmem : .close ∈ log.events.drop o.cursor := by
    refine List.mem_of_getLast? ?_
    rw [List.getLast?_drop, if_neg (Nat.not_le.mpr hlt), log.close_last]
  have hpos := List.count_pos_iff.mpr hmem
  have hsum := congrArg (List.count .close) (List.take_append_drop o.cursor log.events)
  rw [List.count_append, hI.closed, hclosed, log.one_close] at hsum
  simp at hsum
  omega

/-- A read that saw the close has seen every event. -/
theorem output_complete {rs : List ReadResponse}
    (hrun : runTrace Output.append {} (rs ++ [r]) = some o)
    (hreads : StepsMeet Output.append (fun o r => log.Answers o.cursor r) {} (rs ++ [r]))
    (hlast : r.closed = true) :
    o.bytes = log.events.flatMap Event.stdout ∧ OnlyStdout log.events ∧
      o.bytes.length ≤ maxOutput := by
  have hI : Complete log o :=
    runTrace_invariant (fun _ _ _ hr h hI => hI.append hr h) hreads hrun
      ⟨Nat.zero_le _, rfl, rfl, by simp [OnlyStdout], rfl, Nat.zero_le _⟩
  have hclosed : o.closed = true := by
    obtain ⟨u, -, hu⟩ := runTrace_append hrun
    obtain ⟨v, hv, hend⟩ := runTrace_cons hu
    cases hend
    obtain ⟨next, bytes, -, -, -, -, -, -, rfl⟩ := append_eq hv
    exact hlast
  have htake := take_of_closed hI hclosed
  exact ⟨htake ▸ hI.bytes, htake ▸ hI.only, hI.length⟩

def shortLog : EventLog := ⟨[.output .stdout [104, 105], .exit, .close], rfl, rfl, rfl⟩

def firstRead : ReadResponse := ⟨[⟨1, .stdout, [104, 105]⟩], 2, false, none, false⟩

def lastRead : ReadResponse := ⟨[], 4, true, some 0, true⟩

theorem shortLog_complete :
    ∃ o, runTrace Output.append {} ([firstRead] ++ [lastRead]) = some o ∧
      o.bytes = shortLog.events.flatMap Event.stdout ∧ OnlyStdout shortLog.events ∧
      o.bytes.length ≤ maxOutput := by
  refine ⟨⟨[104, 105], 3, true, true⟩, rfl,
    @output_complete shortLog _ lastRead [firstRead] rfl ?_ rfl⟩
  refine ⟨⟨1, by decide, rfl, by decide, by decide, List.Sublist.refl _⟩, ?_⟩
  rintro _ ⟨⟩
  exact ⟨⟨3, by decide, rfl, by decide, by decide, List.nil_sublist _⟩, fun _ _ => trivial⟩

end Parsar.Codex
