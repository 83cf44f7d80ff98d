import Mathlib.Data.List.AList
import Parsar.Framework.Trace

namespace Parsar.ClaudeCode

inductive Kind where
  | text
  | thinking
  deriving DecidableEq, Repr

inductive Block where
  | piece (kind : Kind) (text : String)
  | other (toolUse : Bool)

/-- `delta` is a `content_block_delta` with text or thinking; `other` lines touch nothing here. -/
inductive Line where
  | delta (index : Int) (kind : Kind) (text : String)
  | assistant (content : List Block)
  | result
  | other

inductive Envelope where
  | piece (kind : Kind) (text : String) (sequence : Nat)
  | toolCall

abbrev PartialBlocks := AList (fun _ : Int => Kind)

structure Translator where
  seq : Nat := 0
  partialBlocks : PartialBlocks := ∅

/-- Per-block frames restart at zero, so a single block is paired with a single streamed one. -/
def partialIndex (m : PartialBlocks) (length index : Nat) : Int :=
  match m.entries with
  | [e] => if length = 1 then e.1 else index
  | _ => index

def skips (m : PartialBlocks) (index : Int) : Block → Bool
  | .piece kind text => m.lookup index = some kind || text = ""
  | _ => false

def kept (m : PartialBlocks) (length : Nat) : Nat → List Block → List Block
  | _, [] => []
  | index, b :: bs =>
    if skips m (partialIndex m length index) b then kept m length (index + 1) bs
    else b :: kept m length (index + 1) bs

def stamp : Nat → List Block → Nat × List Envelope
  | seq, [] => (seq, [])
  | seq, .piece kind text :: bs =>
    let (last, envs) := stamp (seq + 1) bs
    (last, .piece kind text (seq + 1) :: envs)
  | seq, .other toolUse :: bs =>
    let (last, envs) := stamp seq bs
    (last, if toolUse then .toolCall :: envs else envs)

def translate (t : Translator) : Line → Translator × List Envelope
  | .delta index kind text =>
    if text = "" then (t, [])
    else (⟨t.seq + 1, t.partialBlocks.insert index kind⟩, [.piece kind text (t.seq + 1)])
  | .assistant content =>
    let (seq, envs) := stamp t.seq (kept t.partialBlocks content.length 0 content)
    (⟨seq, ∅⟩, envs)
  | .result => ({ t with partialBlocks := ∅ }, [])
  | .other => (t, [])

structure Delta where
  index : Int
  kind : Kind
  text : String

/-- A translator with what it was given and what came out of it: the blocks of all assistant frames,
and the deltas since the last one. -/
structure Session where
  translator : Translator := {}
  out : List Envelope := []
  blocks : List Block := []
  pending : List Delta := []

def Session.step (s : Session) (line : Line) : Option Session :=
  let (t, envs) := translate s.translator line
  let s := { s with translator := t, out := s.out ++ envs }
  some (match line with
    | .delta index kind text =>
      if text = "" then s else { s with pending := s.pending ++ [⟨index, kind, text⟩] }
    | .assistant content => { s with blocks := s.blocks ++ content, pending := [] }
    | _ => s)

def Block.piece? : Block → Option (Kind × String)
  | .piece kind text => some (kind, text)
  | _ => none

def Envelope.piece? : Envelope → Option (Kind × String)
  | .piece kind text _ => some (kind, text)
  | .toolCall => none

def Envelope.sequence? : Envelope → Option Nat
  | .piece _ _ sequence => some sequence
  | .toolCall => none

def said (k : Kind) (pieces : List (Kind × String)) : List Char :=
  pieces.flatMap fun p => if p.1 = k then p.2.toList else []

def Delta.piece (d : Delta) : Kind × String := (d.kind, d.text)

/-- The deltas come block by block. Those of a block carry its index and make up its text; after a
block without deltas none of its kind follow. -/
inductive Matched (index : Nat → Int) : Nat → List Block → List Delta → Prop where
  | nil {j : Nat} : Matched index j [] []
  | streamed {j : Nat} {kind : Kind} {text : String} {bs : List Block} {ds : List Delta}
      {texts : List String} (hsome : texts ≠ []) (htext : texts.flatMap (·.toList) = text.toList)
      (h : Matched index (j + 1) bs ds) :
      Matched index j (.piece kind text :: bs) (texts.map (⟨index j, kind, ·⟩) ++ ds)
  | whole {j : Nat} {kind : Kind} {text : String} {bs : List Block} {ds : List Delta}
      (hlast : ∀ d ∈ ds, d.kind ≠ kind) (h : Matched index (j + 1) bs ds) :
      Matched index j (.piece kind text :: bs) ds
  | other {j : Nat} {toolUse : Bool} {bs : List Block} {ds : List Delta}
      (h : Matched index (j + 1) bs ds) : Matched index j (.other toolUse :: bs) ds

/-- A frame follows the deltas of its own blocks and of no others. -/
def FrameMatches (s : Session) : Line → Prop
  | .assistant content =>
    ∃ i : Int, Matched (fun j => if content.length = 1 then i else j) 0 content s.pending
  | .result => s.pending = []
  | _ => True

theorem stamp_spec (seq : Nat) (bs : List Block) :
    (stamp seq bs).2.filterMap Envelope.piece? = bs.filterMap Block.piece? ∧
      ∃ n, (stamp seq bs).1 = seq + n ∧
        (stamp seq bs).2.filterMap Envelope.sequence? = List.range' (seq + 1) n := by
  induction bs generalizing seq with
  | nil => exact ⟨rfl, 0, rfl, rfl⟩
  | cons b bs ih =>
    cases b with
    | piece kind text =>
      obtain ⟨hpieces, n, hlast, hseqs⟩ := ih (seq + 1)
      refine ⟨congrArg ((kind, text) :: ·) hpieces, n + 1, ?_, ?_⟩
      · exact hlast.trans (by omega)
      · exact congrArg ((seq + 1) :: ·) hseqs
    | other toolUse => cases toolUse <;> exact ih seq

theorem said_append (k : Kind) (a b : List (Kind × String)) : said k
    (a ++ b) = said k a ++ said k b :=
  List.flatMap_append

theorem said_eq_nil {k : Kind} {ds : List Delta} (h : ∀ d ∈ ds, d.kind ≠ k) :
    said k (ds.map Delta.piece) = [] := by
  simp only [said, List.flatMap_eq_nil_iff, List.mem_map]
  rintro p ⟨d, hd, rfl⟩
  exact if_neg (h d hd)

section Matched

variable {index : Nat → Int} {j n : Nat} {bs : List Block} {ds : List Delta} {m : PartialBlocks}

theorem Matched.index_mem (h : Matched index j bs ds) {d : Delta} (hd : d ∈ ds) :
    ∃ a, j ≤ a ∧ a < j + bs.length ∧ d.index = index a := by
  induction h with
  | nil => cases hd
  | @streamed j kind text bs ds texts hsome htext h ih =>
    rcases List.mem_append.mp hd with hown | hrest
    · obtain ⟨x, -, rfl⟩ := List.mem_map.mp hown
      exact ⟨j, le_rfl, by simp, rfl⟩
    · obtain ⟨a, hle, hlt, heq⟩ := ih hrest
      exact ⟨a, by omega, by simp only [List.length_cons]; omega, heq⟩
  | whole _ _ ih | other _ ih =>
    obtain ⟨a, hle, hlt, heq⟩ := ih hd
    exact ⟨a, by omega, by simp only [List.length_cons]; omega, heq⟩

def lastKind (ds : List Delta) (i : Int) : Option Kind :=
  (ds.reverse.find? (·.index = i)).map (·.kind)

theorem lastKind_append (a b : List Delta) (i : Int) :
    lastKind (a ++ b) i = (lastKind b i).or (lastKind a i) := by
  simp only [lastKind, List.reverse_append, List.find?_append]
  cases b.reverse.find? (·.index = i) <;> rfl

theorem lastKind_eq_none {i : Int} (h : ∀ d ∈ ds, d.index ≠ i) : lastKind ds i = none := by
  simpa [lastKind] using h

theorem mem_of_lastKind {i : Int} {kind : Kind} (h : lastKind ds i = some kind) :
    ∃ d ∈ ds, d.index = i ∧ d.kind = kind := by
  obtain ⟨d, hd, hkind⟩ := Option.map_eq_some_iff.mp h
  exact ⟨d, by simpa using List.mem_of_find?_eq_some hd, by simpa using List.find?_some hd, hkind⟩

theorem Matched.said_kept (h : Matched index j bs ds)
    (hm : ∀ a, j ≤ a → a < j + bs.length → m.lookup (partialIndex m n a) = lastKind ds (index a))
    (hinj : ∀ a b, a < b → b < j + bs.length → index a ≠ index b) (k : Kind) :
    said k (ds.map Delta.piece) ++ said k ((kept m n j bs).filterMap Block.piece?) =
      said k (bs.filterMap Block.piece?) := by
  induction h with
  | nil => rfl
  | @streamed j kind text bs ds texts hsome htext h ih =>
    simp only [List.length_cons] at hm hinj
    have hown : lastKind (texts.map (⟨index j, kind, ·⟩)) (index j) = some kind := by
      obtain ⟨texts, x, rfl⟩ := List.eq_nil_or_concat texts |>.resolve_left hsome
      simp [lastKind]
    have hskip : skips m (partialIndex m n j) (.piece kind text) = true := by
      have hrest : lastKind ds (index j) = none := by
        refine lastKind_eq_none fun d hd heq => ?_
        obtain ⟨a, hle, hlt, ha⟩ := h.index_mem hd
        exact hinj j a (by omega) (by omega) (heq.symm.trans ha)
      simp [skips, hm j le_rfl (by omega), lastKind_append, hrest, hown]
    have hrest := ih ?_ (fun a b hab hb => hinj a b hab (by omega))
    · rw [kept, if_pos hskip, List.map_append, said_append, List.append_assoc, hrest]
      by_cases hk : kind = k <;>
        simp [said, Block.piece?, Delta.piece, hk, List.flatMap_map, htext]
    · intro a hle hlt
      have hothers : lastKind (texts.map (⟨index j, kind, ·⟩)) (index a) = none := by
        refine lastKind_eq_none fun d hd heq => ?_
        obtain ⟨x, -, rfl⟩ := List.mem_map.mp hd
        exact hinj j a (by omega) (by omega) heq
      rw [hm a (by omega) (by omega), lastKind_append, hothers, Option.or_none]
  | @whole j kind text bs ds hlast h ih =>
    simp only [List.length_cons] at hm hinj
    have hrest := ih (fun a hle hlt => hm a (by omega) (by omega))
      (fun a b hab hb => hinj a b hab (by omega))
    have hnot : m.lookup (partialIndex m n j) ≠ some kind := by
      rw [hm j le_rfl (by omega)]
      intro hsome
      obtain ⟨d, hd, -, hkind⟩ := mem_of_lastKind hsome
      exact hlast d hd hkind
    by_cases htext : text = ""
    · simpa [kept, skips, htext, said, Block.piece?] using hrest
    · by_cases hk : kind = k
      · rw [hk] at hlast hnot
        rw [said_eq_nil hlast, List.nil_append] at hrest ⊢
        simpa [kept, skips, hnot, htext, said, Block.piece?, hk] using hrest
      · simpa [kept, skips, hnot, htext, said, Block.piece?, hk] using hrest
  | @other j toolUse bs ds h ih =>
    simp only [List.length_cons] at hm hinj
    have hrest := ih (fun a hle hlt => hm a (by omega) (by omega))
      (fun a b hab hb => hinj a b hab (by omega))
    rw [kept, if_neg (by simp [skips])]
    exact hrest

theorem lookup_partialIndex (hm : ∀ i, m.lookup i = lastKind ds i) {i : Int} {a : Nat}
    (hown : n = 1 → ∀ d ∈ ds, d.index = i) :
    m.lookup (partialIndex m n a) = lastKind ds (if n = 1 then i else a) := by
  by_cases hn : n = 1
  · subst hn
    rw [if_pos rfl, ← hm i]
    have hkeys : ∀ e ∈ m.entries, e.1 = i := by
      intro e he
      obtain ⟨d, hd, hindex, -⟩ := mem_of_lastKind ((hm e.1).symm.trans
        (AList.mem_lookup_iff.mpr he))
      exact hindex.symm.trans (hown rfl d hd)
    cases hentries : m.entries with
    | nil =>
      have hempty : m = ∅ := AList.ext hentries
      simp [hempty]
    | cons e rest =>
      -- a second entry would have the same key
      have hrest : rest = [] := by
        have hnodup := m.nodupKeys
        rw [hentries] at hnodup hkeys
        refine List.eq_nil_iff_forall_not_mem.mpr fun x hx => (List.nodupKeys_cons.mp hnodup).1 ?_
        rw [hkeys e (by simp), ← hkeys x (by simp [hx])]
        exact List.mem_keys_of_mem hx
      have hindex : partialIndex m 1 a = i := by
        rw [partialIndex, hentries, hrest]
        exact hkeys e (by simp [hentries])
      rw [hindex]
  · have hindex : partialIndex m n a = a := by
      unfold partialIndex
      split <;> simp [hn]
    rw [hindex, hm, if_neg hn]

end Matched

structure Forwarded (s : Session) : Prop where
  streamed : ∀ i, s.translator.partialBlocks.lookup i = lastKind s.pending i
  pieces : ∀ k, said k (s.out.filterMap Envelope.piece?) =
    said k (s.blocks.filterMap Block.piece?) ++ said k (s.pending.map Delta.piece)

theorem Forwarded.step {s t : Session} {line : Line} (h : Forwarded s)
    (hok : FrameMatches s line) (hs : s.step line = some t) : Forwarded t := by
  cases hs
  cases line with
  | delta index kind text =>
    by_cases htext : text = ""
    · simpa [translate, htext] using h
    · refine ⟨fun i => ?_, fun k => ?_⟩
      · simp only [htext, if_false, lastKind_append]
        by_cases hi : i = index
        · subst hi
          simp [lastKind]
        · have hother : lastKind [⟨index, kind, text⟩] i = none :=
            lastKind_eq_none (by simpa using Ne.symm hi)
          rw [AList.lookup_insert_ne hi, h.streamed, hother, Option.none_or]
      · simp [htext, said_append, h.pieces, Envelope.piece?, Delta.piece]
  | assistant content =>
    obtain ⟨i, hmatched⟩ := hok
    have hkept := hmatched.said_kept (m := s.translator.partialBlocks) (n := content.length) ?_ ?_
    · refine ⟨fun _ => rfl, fun k => ?_⟩
      simp only [List.filterMap_append, said_append, h.pieces]
      rw [List.append_assoc]
      refine (congrArg _ ?_).trans (List.append_nil _).symm
      refine (congrArg _ ?_).trans (hkept k)
      exact congrArg (said k) (stamp_spec _ _).1
    · intro a _ ha
      refine lookup_partialIndex h.streamed fun hn d hd => ?_
      obtain ⟨b, -, hb, heq⟩ := hmatched.index_mem hd
      simpa [hn] using heq
    · intro a b hab hb
      have hn : content.length ≠ 1 := by omega
      simp only [hn, if_false]
      omega
  | result =>
    have hnone : s.pending = [] := hok
    refine ⟨fun i => ?_, ?_⟩
    · simp [hnone, lastKind]
    · simpa [translate] using h.pieces
  | other => simpa [translate] using h

theorem sequence_step {s t : Session} {line : Line} (hs : s.step line = some t)
    (h : s.out.filterMap Envelope.sequence? = List.range' 1 s.translator.seq) :
    t.out.filterMap Envelope.sequence? = List.range' 1 t.translator.seq := by
  cases hs
  cases line with
  | delta index kind text =>
    by_cases htext : text = ""
    · simpa [translate, htext] using h
    · simp [htext, h, Envelope.sequence?, List.range'_1_concat, Nat.add_comm 1]
  | assistant content =>
    obtain ⟨-, n, hlast, hseqs⟩ := stamp_spec s.translator.seq
      (kept s.translator.partialBlocks content.length 0 content)
    simp only [List.filterMap_append, h, hlast, hseqs]
    rw [Nat.add_comm s.translator.seq 1, List.range'_append_1]
  | result | other => simpa [translate] using h

/-- Sequence numbers strictly increase, and if every frame follows the deltas of its own blocks,
text and thinking come out once. -/
theorem text_forwarded_once (lines : List Line) (s : Session)
    (hrun : runTrace Session.step {} lines = some s) :
    (s.out.filterMap Envelope.sequence?).Pairwise (· < ·) ∧
      (StepsMeet Session.step FrameMatches {} lines → ∀ k,
        said k (s.out.filterMap Envelope.piece?) =
          said k (s.blocks.filterMap Block.piece?) ++ said k (s.pending.map Delta.piece)) := by
  constructor
  · rw [runTrace_invariant (fun _ _ _ _ hs h => sequence_step hs h) (stepsMeet_true _ _) hrun rfl]
    exact List.pairwise_lt_range' ..
  · intro hmeet
    have hinit : Forwarded {} := ⟨fun _ => rfl, fun _ => rfl⟩
    exact (runTrace_invariant (fun _ _ _ hok hs h => h.step hok hs) hmeet hrun hinit).pieces

def earlyLines : List Line :=
  [.delta 0 .text "a", .delta 1 .text "b", .assistant [.piece .text "a"],
    .assistant [.piece .text "b"]]

theorem second_block_repeated :
    ∃ s, runTrace Session.step {} earlyLines = some s ∧ s.pending = [] ∧
      said .text (s.blocks.filterMap Block.piece?) = "ab".toList ∧
      said .text (s.out.filterMap Envelope.piece?) = "abb".toList :=
  ⟨_, rfl, rfl, rfl, rfl⟩

def orderlyLines : List Line :=
  [.delta 0 .text "a", .assistant [.piece .text "a"], .delta 1 .text "b",
    .assistant [.piece .text "b"]]

theorem text_forwarded_once_orderly :
    ∃ s, runTrace Session.step {} orderlyLines = some s ∧
      said .text (s.out.filterMap Envelope.piece?) = "ab".toList := by
  have hframe (i : Int) (text : String) : Matched (fun j => if 1 = 1 then i else j) 0
      [.piece .text text] [⟨i, .text, text⟩] :=
    @Matched.streamed _ 0 .text text [] [] [text] (by simp) (by simp) .nil
  refine ⟨_, rfl, ((text_forwarded_once orderlyLines _ rfl).2 ?_ .text).trans rfl⟩
  refine ⟨trivial, ?_⟩
  rintro _ ⟨⟩
  refine ⟨⟨0, hframe 0 "a"⟩, ?_⟩
  rintro _ ⟨⟩
  refine ⟨trivial, ?_⟩
  rintro _ ⟨⟩
  exact ⟨⟨1, hframe 1 "b"⟩, fun _ _ => trivial⟩

end Parsar.ClaudeCode
