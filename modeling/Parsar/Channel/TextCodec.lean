import Mathlib.Algebra.GroupWithZero.Nat
import Mathlib.Data.List.Forall2
import Parsar.Framework.Trace
import Parsar.GoStd.Text

namespace Parsar.Channel

open GoStd

abbrev Text := List Char

def trimmed (line : Text) : Text := (trimSpace (.ofList line)).toList

def isFence (line : Text) : Bool := "```".toList.isPrefixOf (trimmed line)

/-- A line of a chunk; `inserted` says that `flush` made it. -/
structure Line where
  text : Text
  inserted : Bool := false
  deriving DecidableEq

structure Splitter where
  out : List (List Line) := []
  chunk : List Line := []
  chunkLen : Nat := 0
  inFence : Bool := false
  fenceTok : Text := "```".toList

def join (lines : List Line) : Text := ['\n'].intercalate (lines.map Line.text)

namespace Splitter

def fenceLine (s : Splitter) : Line := ⟨s.fenceTok, true⟩

def flush (s : Splitter) : Splitter :=
  if s.chunk = [] then s
  else if s.inFence then { s with
    out := s.out ++ [s.chunk ++ [s.fenceLine]]
    chunk := [s.fenceLine]
    chunkLen := s.fenceTok.length + 1 }
  else { s with out := s.out ++ [s.chunk], chunk := [], chunkLen := 0 }

def overflows (limit : Nat) (s : Splitter) (line : Text) : Bool :=
  s.chunkLen + (line.length + 1) > limit && s.chunk ≠ []

def append (s : Splitter) (line : Text) : Splitter :=
  { s with chunk := s.chunk ++ [⟨line, false⟩], chunkLen := s.chunkLen + (line.length + 1) }

def toggle (s : Splitter) (line : Text) : Splitter :=
  if isFence line then
    if !s.inFence then
      { s with inFence := true, fenceTok := if trimmed line ≠ [] then trimmed line else s.fenceTok }
    else { s with inFence := false, fenceTok := "```".toList }
  else s

def addLine (limit : Nat) (s : Splitter) (line : Text) : Splitter :=
  ((if s.overflows limit line then s.flush else s).append line).toggle line

def finish (s : Splitter) : List (List Line) :=
  if s.chunk ≠ [] then s.out ++ [s.chunk] else s.out

end Splitter

def sourceLines (text : Text) : List Line := (text.splitOn '\n').map (⟨·, false⟩)

def splitLines (text : Text) (limit : Nat) : List (List Line) :=
  if text.length ≤ limit then [sourceLines text]
  else ((text.splitOn '\n').foldl (Splitter.addLine limit) {}).finish

def splitPreservingFences (text : Text) (limit : Nat) : List Text :=
  if text.length ≤ limit then [text]
  else ((text.splitOn '\n').foldl (Splitter.addLine limit) {}).finish.map join

/-- If the line makes the splitter cut, then no fence is open there. -/
def Splitter.CutsOutside (limit : Nat) (s : Splitter) (line : Text) : Prop :=
  s.overflows limit line → s.inFence = false

structure Splitter.Within (limit : Nat) (s : Splitter) : Prop where
  out : ∀ chunk ∈ s.out, (join chunk).length ≤ limit
  chunk : s.chunkLen ≤ limit + 1

def size (lines : List Line) : Nat := (lines.map (·.text.length + 1)).sum

theorem length_join {lines : List Line} (h : lines ≠ []) :
    (join lines).length + 1 = size lines := by
  induction lines with
  | nil => exact absurd rfl h
  | cons l rest ih =>
    cases rest with
    | nil => simp [join, size]
    | cons m rest =>
      have hrest := ih (by simp)
      simp only [join, size, List.map_cons, List.sum_cons, List.intercalate_cons_cons,
        List.length_append, List.length_singleton] at hrest ⊢
      omega

namespace Splitter

variable {s : Splitter} {limit : Nat} {line : Text}

def Counted (s : Splitter) : Prop := s.chunkLen = size s.chunk

@[simp] theorem toggle_frame (s : Splitter) (line : Text) : (s.toggle line).out = s.out ∧
    (s.toggle line).chunk = s.chunk ∧ (s.toggle line).chunkLen = s.chunkLen := by
  unfold toggle
  split
  · split <;> exact ⟨rfl, rfl, rfl⟩
  · exact ⟨rfl, rfl, rfl⟩

theorem Counted.flush (hs : s.Counted) : s.flush.Counted := by
  unfold Splitter.flush
  split
  · exact hs
  · split <;> rfl

theorem Counted.append (hs : s.Counted) : (s.append line).Counted := by
  simpa [Counted, Splitter.append, size] using hs

theorem Counted.addLine (hs : s.Counted) : (s.addLine limit line).Counted := by
  have happended : ((if s.overflows limit line then s.flush else s).append line).Counted := by
    split
    · exact hs.flush.append
    · exact hs.append
  simpa [Counted, Splitter.addLine] using happended

theorem Within.addLine (hs : s.Counted) (h : s.Within limit) (hline : line.length ≤ limit)
    (hcut : s.CutsOutside limit line) : (s.addLine limit line).Within limit := by
  cases hover : s.overflows limit line with
  | false =>
    have hroom : s.chunkLen + (line.length + 1) ≤ limit + 1 := by
      simp only [overflows, Bool.and_eq_false_iff, decide_eq_false_iff_not, not_lt,
        not_not] at hover
      rcases hover with hroom | hnil
      · omega
      · simp only [Counted, hnil] at hs
        simpa [hs, size] using hline
    exact ⟨by simpa [Splitter.addLine, hover, append] using h.out,
      by simpa [Splitter.addLine, hover, append] using hroom⟩
  | true =>
    have hfence := hcut hover
    have hne : s.chunk ≠ [] := by simpa [overflows] using (Bool.and_eq_true_iff.1 hover).2
    have hjoin := length_join hne
    rw [← hs] at hjoin
    have hchunk : (join s.chunk).length ≤ limit := by
      have := h.chunk
      omega
    refine ⟨?_, by simpa [Splitter.addLine, hover, flush, hne, hfence, append] using hline⟩
    simpa [Splitter.addLine, hover, flush, hne, hfence, append] using forall_mem_concat h.out hchunk

theorem Within.finish (hs : s.Counted) (h : s.Within limit) :
    ∀ chunk ∈ s.finish, (join chunk).length ≤ limit := by
  unfold Splitter.finish
  split
  · rename_i hne
    refine forall_mem_concat h.out ?_
    have hjoin := length_join hne
    rw [← hs] at hjoin
    have := h.chunk
    omega
  · exact h.out

theorem Within.foldl {lines : List Text} (hs : s.Counted) (h : s.Within limit)
    (hlines : ∀ line ∈ lines, line.length ≤ limit)
    (hcuts : StepsMeet (fun s line => some (s.addLine limit line)) (CutsOutside limit) s lines) :
    ∀ chunk ∈ (lines.foldl (Splitter.addLine limit) s).finish, (join chunk).length ≤ limit := by
  induction lines generalizing s with
  | nil => exact h.finish hs
  | cons line lines ih =>
    obtain ⟨hline, hrest⟩ := List.forall_mem_cons.1 hlines
    rw [List.foldl_cons]
    exact ih hs.addLine (h.addLine hs hline hcuts.1) hrest (hcuts.2 _ rfl)

end Splitter

def source (lines : List Line) : List Line := lines.filter (!·.inserted)

theorem source_append (a b : List Line) : source (a ++ b) = source a ++ source b :=
  List.filter_append ..

theorem join_append {a b : List Line} (ha : a ≠ []) (hb : b ≠ []) :
    join (a ++ b) = join a ++ '\n' :: join b := by
  induction a with
  | nil => exact absurd rfl ha
  | cons l a ih =>
    obtain ⟨m, b, rfl⟩ := List.exists_cons_of_ne_nil hb
    cases a with
    | nil => simp [join]
    | cons k a =>
      have hrest := ih (by simp)
      simp only [join, List.cons_append, List.map_cons, List.intercalate_cons_cons] at hrest ⊢
      rw [hrest]
      simp

theorem join_flatten (chunks : List (List Line)) (h : ∀ chunk ∈ chunks, chunk ≠ []) :
    ['\n'].intercalate (chunks.map join) = join chunks.flatten := by
  induction chunks with
  | nil => rfl
  | cons c chunks ih =>
    obtain ⟨hc, hrest⟩ := List.forall_mem_cons.mp h
    cases chunks with
    | nil => simp
    | cons d chunks =>
      have hne : (d :: chunks).flatten ≠ [] := by simp [hrest d (by simp)]
      rw [List.flatten_cons, join_append hc hne, ← ih hrest]
      simp

theorem join_sourceLines (text : Text) : join (sourceLines text) = text := by
  simp [join, sourceLines, Function.comp_def, List.intercalate_splitOn]

namespace Splitter

variable {s : Splitter} {limit : Nat} {line : Text}

structure Sourced (s : Splitter) : Prop where
  out : ∀ chunk ∈ s.out, source chunk ≠ []
  chunk : s.chunk ≠ [] → source s.chunk ≠ []

theorem Sourced.addLine (limit : Nat) (line : Text) (hs : s.Sourced) :
    (s.addLine limit line).Sourced ∧
      ((s.addLine limit line).out ++ [(s.addLine limit line).chunk]).flatMap source =
        (s.out ++ [s.chunk]).flatMap source ++ [⟨line, false⟩] := by
  have hflush : (∀ chunk ∈ s.flush.out, source chunk ≠ []) ∧
      (s.flush.out ++ [s.flush.chunk]).flatMap source = (s.out ++ [s.chunk]).flatMap source := by
    unfold Splitter.flush
    split
    · exact ⟨hs.out, rfl⟩
    · rename_i hne
      have htok : source [s.fenceLine] = [] := rfl
      have hnil : source [] = [] := rfl
      split <;> simpa [source_append, htok, hnil, or_imp, forall_and] using ⟨hs.out, hs.chunk hne⟩
  have happend {t : Splitter} (ht : ∀ chunk ∈ t.out, source chunk ≠ []) :
      ((t.append line).toggle line).Sourced ∧
        (((t.append line).toggle line).out ++
          [((t.append line).toggle line).chunk]).flatMap source =
          (t.out ++ [t.chunk]).flatMap source ++ [⟨line, false⟩] := by
    refine ⟨⟨?_, ?_⟩, ?_⟩
    · simpa [Splitter.append] using ht
    · simp [Splitter.append, source]
    · simp [Splitter.append, source]
  unfold Splitter.addLine
  split
  · rw [← hflush.2]
    exact happend hflush.1
  · exact happend hs.out

theorem Sourced.finish (limit : Nat) (lines : List Text) (hs : s.Sourced) :
    (∀ chunk ∈ (lines.foldl (Splitter.addLine limit) s).finish, source chunk ≠ []) ∧
      (lines.foldl (Splitter.addLine limit) s).finish.flatMap source =
        (s.out ++ [s.chunk]).flatMap source ++ lines.map (⟨·, false⟩) := by
  induction lines generalizing s with
  | nil =>
    by_cases hnil : s.chunk = []
    · simpa [Splitter.finish, hnil, source] using hs.out
    · simpa [Splitter.finish, hnil, or_imp, forall_and] using ⟨hs.out, hs.chunk hnil⟩
  | cons line lines ih =>
    obtain ⟨hnext, hsource⟩ := hs.addLine limit line
    rw [List.foldl_cons]
    obtain ⟨hne, hlines⟩ := ih hnext
    refine ⟨hne, ?_⟩
    rw [hlines, hsource]
    simp

end Splitter

theorem length_le_join {lines : List Line} {l : Line} (h : l ∈ lines) :
    l.text.length ≤ (join lines).length := by
  have hjoin := length_join (List.ne_nil_of_mem h)
  obtain ⟨before, after, rfl⟩ := List.append_of_mem h
  simp only [size, List.map_append, List.map_cons, List.sum_append, List.sum_cons] at hjoin
  omega

theorem sourced_new : Splitter.Sourced {} := ⟨by simp, by simp⟩

/-- The chunks of a text that is split are within the limit only if its lines are, and they are if
moreover no cut is inside of a fence. With one they may still be: if the lines that `flush` adds
leave room for it. -/
theorem chunks_within_limit (text : Text) (limit : Nat) :
    ((∀ chunk ∈ splitPreservingFences text limit, chunk.length ≤ limit) →
      text.length ≤ limit ∨ ∀ line ∈ text.splitOn '\n', line.length ≤ limit) ∧
    (text.length ≤ limit ∨ (∀ line ∈ text.splitOn '\n', line.length ≤ limit) ∧
        StepsMeet (fun s line => some (s.addLine limit line)) (Splitter.CutsOutside limit) {}
          (text.splitOn '\n') →
      ∀ chunk ∈ splitPreservingFences text limit, chunk.length ≤ limit) := by
  unfold splitPreservingFences
  split
  · rename_i hshort
    simp [hshort]
  · rename_i hlong
    simp only [hlong, false_or, List.forall_mem_map]
    constructor
    · intro hchunks line hline
      -- the line is in one of the chunks
      have hmem : ⟨line, false⟩ ∈ (text.splitOn '\n').map (Line.mk · false) :=
        List.mem_map_of_mem hline
      have hsource := (sourced_new.finish limit (text.splitOn '\n')).2
      simp only [List.nil_append, List.flatMap_singleton, source, List.filter_nil] at hsource
      rw [← hsource] at hmem
      obtain ⟨chunk, hchunk, hline⟩ := List.mem_flatMap.1 hmem
      exact (length_le_join (List.mem_filter.1 hline).1).trans (hchunks chunk hchunk)
    · rintro ⟨hlines, hcuts⟩
      have hinit : Splitter.Within limit {} := ⟨by simp, by simp⟩
      exact hinit.foldl rfl hlines hcuts

theorem long_line_not_split : ¬ ∀ chunk ∈ splitPreservingFences "abcdefghi".toList 8,
    chunk.length ≤ 8 := by
  decide

def closes (line : Text) : Bool := isFence line && (trimmed line).all (· == '`')

def info (line : Text) : Text := (trimmed line).dropWhile (· == '`')

/-- The info string of the fence that is open after the line. -/
def fenceAfter (fence : Option Text) (line : Text) : Option Text :=
  if fence.isSome then if closes line then none else fence
  else if isFence line then some (info line) else none

def openFence (lines : List Line) : Option Text := (lines.map Line.text).foldl fenceAfter none

def fences : Option Text → List Line → List (Option Text)
  | _, [] => []
  | fence, l :: lines => (if l.inserted then [] else [if closes l.text then none else fence]) ++
      fences (fenceAfter fence l.text) lines

/-- If the fences of the text are closed, so are those of each chunk, and each source line stays
inside a fence of its info string. -/
def KeepsFences (text : Text) (chunks : List (List Line)) : Prop :=
  openFence (sourceLines text) = none → (∀ chunk ∈ chunks, openFence chunk = none) ∧
    List.Forall₂ (fun fence fence' => fence.isSome → fence' = fence)
      (fences none (sourceLines text)) (chunks.flatMap (fences none))

theorem fences_append (fence : Option Text) (a b : List Line) : fences fence (a ++ b) =
    fences fence a ++ fences ((a.map Line.text).foldl fenceAfter fence) b := by
  induction a generalizing fence with
  | nil => rfl
  | cons l a ih => simp [fences, ih]

theorem fenceAfter_of_not_isFence {line : Text} (h : isFence line = false) (fence : Option Text) :
    fenceAfter fence line = fence := by
  cases fence <;> simp [fenceAfter, closes, h]

theorem trimmed_ne_nil {line : Text} (h : isFence line) : trimmed line ≠ [] := by
  intro hnil
  simp [isFence, hnil] at h

theorem isFence_trimmed (line : Text) : isFence (trimmed line) = isFence line := by
  simp [isFence, trimmed, trimSpace_trimSpace]

theorem closes_trimmed (line : Text) : closes (trimmed line) = closes line := by
  simp [closes, isFence, trimmed, trimSpace_trimSpace]

theorem fenceAfter_none_of_closes {line : Text} (h : closes line) :
    fenceAfter none line = some [] := by
  simp only [closes, Bool.and_eq_true] at h
  simpa [fenceAfter, h.1, info] using h.2

namespace Splitter

/-- A cut outside of the fences, or inside one whose opening line is backticks only. -/
def Clean (s : Splitter) (fence : Option Text) : Prop :=
  if s.inFence then closes s.fenceTok ∧ fence.isSome else fence = none

/-- The splitter at a line with `fence` around it. -/
structure Follows (s : Splitter) (fence : Option Text) : Prop where
  chunk : openFence s.chunk = fence
  tok : s.inFence → isFence s.fenceTok
  bare : s.inFence → closes s.fenceTok → fence = none ∨ fence = some []

variable {s : Splitter} {limit : Nat} {line : Text} {fence : Option Text}

def seen (s : Splitter) : List (Option Text) := (s.out ++ [s.chunk]).flatMap (fences none)

theorem openFence_concat (lines : List Line) (l : Line) :
    openFence (lines ++ [l]) = fenceAfter (openFence lines) l.text := by
  simp [openFence]

theorem Follows.flush (hs : s.Follows fence) (hclean : s.Clean fence) :
    s.flush.Follows fence ∧ s.flush.seen = s.seen ∧
      ((∀ chunk ∈ s.out, openFence chunk = none) →
        ∀ chunk ∈ s.flush.out, openFence chunk = none) := by
  unfold Splitter.flush
  split
  · exact ⟨hs, rfl, id⟩
  · split
    · rename_i hfence
      simp only [Clean, hfence, if_true] at hclean
      have hopen : fence = some [] :=
        (hs.bare hfence hclean.1).resolve_left (Option.isSome_iff_ne_none.mp hclean.2)
      refine ⟨⟨?_, hs.tok, hs.bare⟩, ?_, ?_⟩
      · simpa [openFence, fenceLine, hopen] using fenceAfter_none_of_closes hclean.1
      · simp [seen, fences_append, fences, fenceLine]
      · intro hout
        refine forall_mem_concat hout ?_
        rw [openFence_concat, hs.chunk, hopen]
        simp [fenceAfter, fenceLine, hclean.1]
    · rename_i hfence
      simp only [Clean, hfence] at hclean
      subst hclean
      refine ⟨⟨rfl, hs.tok, hs.bare⟩, by simp [seen, fences], ?_⟩
      exact fun hout => forall_mem_concat hout hs.chunk

theorem Follows.append (hs : s.Follows fence) :
    ((s.append line).toggle line).Follows (fenceAfter fence line) ∧
      ((s.append line).toggle line).seen = s.seen ++ fences fence [⟨line, false⟩] := by
  have hchunk : openFence (s.append line).chunk = fenceAfter fence line := by
    rw [Splitter.append, openFence_concat, hs.chunk]
  refine ⟨⟨by simpa using hchunk, ?_, ?_⟩, ?_⟩
  · unfold toggle
    split
    · rename_i hline
      split <;> simp [trimmed_ne_nil hline, isFence_trimmed, hline]
    · exact hs.tok
  · unfold toggle
    split
    · rename_i hline
      split
      · simp only [ne_eq, trimmed_ne_nil hline, not_false_eq_true, if_true, closes_trimmed]
        intro _ hcloses
        cases fence with
        | none => exact .inr (fenceAfter_none_of_closes hcloses)
        | some i => simp [fenceAfter, hcloses]
      · simp
    · rename_i hline
      rw [fenceAfter_of_not_isFence (by simpa using hline)]
      exact hs.bare
  · have hopen := hs.chunk
    simp only [openFence] at hopen
    simp [seen, Splitter.append, fences_append, hopen]

theorem Follows.addLine (hs : s.Follows fence) (hclean : s.overflows limit line → s.Clean fence) :
    (s.addLine limit line).Follows (fenceAfter fence line) ∧
      (s.addLine limit line).seen = s.seen ++ fences fence [⟨line, false⟩] ∧
      ((∀ chunk ∈ s.out, openFence chunk = none) →
        ∀ chunk ∈ (s.addLine limit line).out, openFence chunk = none) := by
  unfold Splitter.addLine
  split
  · rename_i hover
    obtain ⟨hflush, hseen, hout⟩ := hs.flush (hclean hover)
    rw [← hseen]
    exact ⟨hflush.append.1, hflush.append.2, by simpa [Splitter.append] using hout⟩
  · exact ⟨hs.append.1, hs.append.2, by simp [Splitter.append]⟩

theorem Follows.unclean (hs : s.Follows fence) (hover : s.overflows limit line)
    (hclean : ¬ s.Clean fence) :
    ∃ chunk ∈ (s.addLine limit line).out, openFence chunk ≠ none := by
  simp only [Splitter.addLine, hover, if_true, toggle_frame, Splitter.append]
  simp only [overflows, Bool.and_eq_true, decide_eq_true_eq] at hover
  simp only [Splitter.flush, hover.2, if_false]
  cases hfence : s.inFence with
  | false =>
    refine ⟨s.chunk, by simp, ?_⟩
    simpa [Clean, hfence, hs.chunk] using hclean
  | true =>
    refine ⟨s.chunk ++ [s.fenceLine], by simp, ?_⟩
    rw [openFence_concat, hs.chunk]
    have htok := hs.tok hfence
    simp only [Clean, hfence, if_true] at hclean
    cases fence with
    | none => simp [fenceAfter, fenceLine, htok]
    | some i =>
      have hnot : closes s.fenceTok = false := by simpa using hclean
      simp [fenceAfter, fenceLine, hnot]

theorem out_subset_addLine (s : Splitter) (limit : Nat) (line : Text) :
    s.out ⊆ (s.addLine limit line).out := by
  simp only [Splitter.addLine, toggle_frame, Splitter.append, Splitter.flush]
  split <;> (try split) <;> (try split) <;> simp

theorem out_subset_finish (limit : Nat) (lines : List Text) (s : Splitter) :
    s.out ⊆ (lines.foldl (Splitter.addLine limit) s).finish := by
  induction lines generalizing s with
  | nil => by_cases hnil : s.chunk = [] <;> simp [finish, hnil]
  | cons line lines ih =>
    intro chunk hc
    rw [List.foldl_cons]
    exact ih _ (out_subset_addLine s limit line hc)

theorem seen_finish (s : Splitter) : s.finish.flatMap (fences none) = s.seen := by
  by_cases hnil : s.chunk = [] <;> simp [finish, seen, hnil, fences]

/-- The splitter takes a line with `fence` around it. -/
def next (limit : Nat) (t : Splitter × Option Text) (line : Text) :
    Option (Splitter × Option Text) :=
  some (t.1.addLine limit line, fenceAfter t.2 line)

/-- If the line makes the splitter cut, then the cut is clean. -/
def CutsClean (limit : Nat) (t : Splitter × Option Text) (line : Text) : Prop :=
  t.1.overflows limit line → t.1.Clean t.2

theorem Follows.kept (lines : List Text) (hs : s.Follows fence)
    (hout : ∀ chunk ∈ s.out, openFence chunk = none) (hend : lines.foldl fenceAfter fence = none)
    (hmeet : StepsMeet (next limit) (CutsClean limit) (s, fence) lines) :
    (∀ chunk ∈ (lines.foldl (Splitter.addLine limit) s).finish, openFence chunk = none) ∧
      (lines.foldl (Splitter.addLine limit) s).finish.flatMap (fences none) =
        s.seen ++ fences fence (lines.map (⟨·, false⟩)) := by
  induction lines generalizing s fence with
  | nil =>
    refine ⟨?_, by simp [seen_finish, fences]⟩
    have hchunk : openFence s.chunk = none := hs.chunk.trans hend
    by_cases hnil : s.chunk = [] <;> simp_all [finish, or_imp]
  | cons line lines ih =>
    obtain ⟨hnext, hseen, hkept⟩ := hs.addLine hmeet.1
    rw [List.foldl_cons] at hend ⊢
    obtain ⟨hclosed, hfences⟩ := ih hnext (hkept hout) hend (hmeet.2 _ rfl)
    refine ⟨hclosed, ?_⟩
    rw [hfences, hseen]
    simp [fences]

theorem Follows.lost (lines : List Text) (hs : s.Follows fence)
    (hnot : ¬ StepsMeet (next limit) (CutsClean limit) (s, fence) lines) :
    ∃ chunk ∈ (lines.foldl (Splitter.addLine limit) s).finish, openFence chunk ≠ none := by
  induction lines generalizing s fence with
  | nil => exact absurd trivial hnot
  | cons line lines ih =>
    rw [List.foldl_cons]
    by_cases hclean : CutsClean limit (s, fence) line
    · refine ih (hs.addLine hclean).1 ?_
      intro hrest
      refine hnot ⟨hclean, ?_⟩
      intro t ht
      rwa [← Option.some.inj ht]
    · simp only [CutsClean, Classical.not_imp] at hclean
      obtain ⟨chunk, hchunk, hopen⟩ := hs.unclean hclean.1 hclean.2
      exact ⟨chunk, out_subset_finish limit lines _ hchunk, hopen⟩

end Splitter

/-- Without the lines of `flush` the chunks are the text; its fences are kept exactly if it is not
cut or every cut is clean. -/
theorem chunks_keep_text_and_fences (text : Text) (limit : Nat) :
    splitPreservingFences text limit = (splitLines text limit).map join ∧
      ['\n'].intercalate ((splitLines text limit).map fun chunk => join (source chunk)) = text ∧
      (KeepsFences text (splitLines text limit) ↔ openFence (sourceLines text) = none →
        text.length ≤ limit ∨ StepsMeet (Splitter.next limit) (Splitter.CutsClean limit) ({}, none)
          (text.splitOn '\n')) := by
  unfold splitPreservingFences splitLines
  split
  · rename_i hshort
    refine ⟨by simp [join_sourceLines], ?_, ?_⟩
    · have hsource : source (sourceLines text) = sourceLines text := by simp [source, sourceLines]
      simp [hsource, join_sourceLines]
    · simp [KeepsFences, hshort]
  · rename_i hlong
    have hfollows : Splitter.Follows {} none := ⟨rfl, by simp, by simp⟩
    obtain ⟨hne, hlines⟩ := sourced_new.finish limit (text.splitOn '\n')
    refine ⟨rfl, ?_, ?_⟩
    · have hflatten := join_flatten _ (List.forall_mem_map.mpr hne)
      rw [List.map_map, ← List.flatMap_def, hlines] at hflatten
      refine hflatten.trans ?_
      exact join_sourceLines text
    · simp only [hlong, false_or]
      refine forall_congr' fun hclosed => ⟨?_, ?_⟩
      · intro hkeeps
        by_contra hnot
        obtain ⟨chunk, hchunk, hopen⟩ := hfollows.lost _ hnot
        exact hopen (hkeeps.1 chunk hchunk)
      · intro hmeet
        have hend : (text.splitOn '\n').foldl fenceAfter none = none := by
          simpa [openFence, sourceLines, Function.comp_def] using hclosed
        obtain ⟨hchunks, hfences⟩ := hfollows.kept _ (by simp) hend hmeet
        refine ⟨hchunks, ?_⟩
        rw [hfences]
        exact List.forall₂_same.mpr fun _ _ _ => rfl

/-- A fence with an info string is closed by its own opening line. -/
theorem go_fence_left_open : ¬ KeepsFences "```go\nabc\nd\n```".toList
    (splitLines "```go\nabc\nd\n```".toList 10) := by
  intro hkeeps
  have hchunks := (hkeeps (by decide +kernel)).1
  revert hchunks
  decide +kernel

end Parsar.Channel
