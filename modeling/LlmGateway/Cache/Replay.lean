import LlmGateway.Cache.Exact
import LlmGateway.Text.Words
import Mathlib.Data.PNat.Defs
import Mathlib.Logic.Relation

/-!
# Cutting a stored answer at any width

`chunk_for_replay` over every `target_chars`. A window is cut behind the last
blank it holds, so what it promises of words rests on what stands in a window
that holds none.
-/

namespace LlmGateway

namespace Exact

namespace Replay

open Text

section

variable (text : List Char) (targetChars : ℕ+)

/-- Where the window from `start` is cut. A blank at its very beginning does not count. -/
def windowEnd (start : Nat) : Nat :=
  let stop := min (start + targetChars) text.length
  if stop < text.length then
    match rfind ' ' text start stop with
    | some boundary => if start < boundary then boundary + 1 else stop
    | none => stop
  else stop

/-! ## The windows -/

/-- **From one window to the next**: behind the last blank there is after the first character, or
a whole width on if there is none. -/
inductive Next (start : Nat) : Nat → Prop
  | blank {boundary : Nat} (hinside : start + targetChars < text.length) (hlt : start < boundary)
      (hstop : boundary < start + targetChars) (hblank : text[boundary]? = some ' ')
      (hlast : ∀ i, boundary < i → i < start + targetChars → text[i]? ≠ some ' ') :
      Next start (boundary + 1)
  | full (hinside : start + targetChars < text.length)
      (hnone : ∀ i, start < i → i < start + targetChars → text[i]? ≠ some ' ') :
      Next start (start + targetChars)

/-- **The windows of a text**: one opens at its beginning, and one where another is cut. -/
def Opens (start : Nat) : Prop := Relation.ReflTransGen (Next text targetChars) 0 start

variable {text targetChars} {start stop : Nat}

/-- The code cuts where the next window opens, or at the end. -/
theorem windowEnd_cases (text : List Char) (targetChars : ℕ+) (start : Nat) :
    windowEnd text targetChars start = text.length ∧ text.length ≤ start + targetChars ∨
      Next text targetChars start (windowEnd text targetChars start) := by
  by_cases hinside : start + targetChars < text.length
  · right
    have hmin : min (start + targetChars) text.length = start + (targetChars : Nat) := by omega
    have hpos := targetChars.pos
    simp only [windowEnd, hmin, if_pos hinside]
    split
    next boundary hfound =>
      obtain ⟨hle, hlt, hblank, hlast⟩ := rfind_eq_some hfound
      split
      next hbehind => exact .blank hinside hbehind hlt hblank hlast
      next hbehind =>
        -- The only blank is the one the window begins with.
        have heq : boundary = start := by omega
        exact .full hinside fun i hi => hlast i (by omega)
    next hnone => exact .full hinside fun i hi => rfind_eq_none hnone i (by omega)
  · left
    have hmin : min (start + targetChars) text.length = text.length := by omega
    refine ⟨?_, by omega⟩
    simp only [windowEnd, hmin, if_neg (Nat.lt_irrefl _)]

theorem Next.lt (h : Next text targetChars start stop) : start < stop := by
  have hpos := targetChars.pos
  cases h with
  | blank _ hlt _ _ _ => omega
  | full _ _ => omega

theorem Next.le_add (h : Next text targetChars start stop) : stop ≤ start + targetChars := by
  cases h with
  | blank _ _ hstop _ _ => omega
  | full _ _ => omega

theorem Next.inside (h : Next text targetChars start stop) :
    start + targetChars < text.length := by
  cases h with
  | blank hinside _ _ _ _ => exact hinside
  | full hinside _ => exact hinside

/-- There is one next window at most. -/
theorem Next.unique {stop' : Nat} (h : Next text targetChars start stop)
    (h' : Next text targetChars start stop') : stop = stop' := by
  cases h with
  | @blank boundary _ hlt hstop hblank hlast =>
    cases h' with
    | @blank boundary' _ hlt' hstop' hblank' hlast' =>
      rcases Nat.lt_trichotomy boundary boundary' with hb | hb | hb
      · exact absurd hblank' (hlast _ hb hstop')
      · rw [hb]
      · exact absurd hblank (hlast' _ hb hstop)
    | full _ hnone => exact absurd hblank (hnone _ hlt hstop)
  | full _ hnone =>
    cases h' with
    | blank _ hlt' hstop' hblank' _ => exact absurd hblank' (hnone _ hlt' hstop')
    | full _ _ => rfl

theorem Next.windowEnd_eq (h : Next text targetChars start stop) :
    windowEnd text targetChars start = stop := by
  have hinside := h.inside
  rcases windowEnd_cases text targetChars start with ⟨-, hend⟩ | hnext
  · exact absurd hinside (by omega)
  · exact hnext.unique h

/-- A window takes at least one character, at most its width, and stays in the text. -/
theorem windowEnd_bounds (targetChars : ℕ+) (hstart : start < text.length) :
    start < windowEnd text targetChars start ∧
      windowEnd text targetChars start ≤ start + targetChars ∧
      windowEnd text targetChars start ≤ text.length := by
  rcases windowEnd_cases text targetChars start with ⟨heq, hend⟩ | hnext
  · rw [heq]
    exact ⟨hstart, hend, Nat.le_refl _⟩
  · have hlt := hnext.lt
    have hle := hnext.le_add
    have hinside := hnext.inside
    omega

end

/-! ## The chunks -/

/-- The loop of `chunk_for_replay`, from `start` on. -/
def chunksFrom (text : List Char) (targetChars : ℕ+) (start : Nat) : List (List Char) :=
  if h : start < text.length then
    (text.take (windowEnd text targetChars start)).drop start ::
      chunksFrom text targetChars (windowEnd text targetChars start)
  else []
termination_by text.length - start
decreasing_by
  have hlt := (windowEnd_bounds targetChars h).1
  omega

/-- `chunk_for_replay`. -/
def chunkForReplay (text : String) (targetChars : ℕ+) : List String :=
  (chunksFrom text.toList targetChars 0).map String.ofList

/-! ## Nothing is lost, and where the cuts are -/

section

variable {text : List Char} {targetChars : ℕ+} {start stop : Nat}

theorem chunksFrom_of_lt (h : start < text.length) :
    chunksFrom text targetChars start =
      (text.take (windowEnd text targetChars start)).drop start ::
        chunksFrom text targetChars (windowEnd text targetChars start) := by
  rw [chunksFrom, dif_pos h]

theorem chunksFrom_of_le (h : text.length ≤ start) : chunksFrom text targetChars start = [] := by
  rw [chunksFrom, dif_neg (Nat.not_lt.mpr h)]

theorem length_slice (targetChars : ℕ+) (hstart : start < text.length) :
    ((text.take (windowEnd text targetChars start)).drop start).length =
      windowEnd text targetChars start - start := by
  have hbounds := windowEnd_bounds targetChars hstart
  rw [List.length_drop, List.length_take, Nat.min_eq_left hbounds.2.2]

theorem flatten_chunksFrom (start : Nat) :
    (chunksFrom text targetChars start).flatten = text.drop start := by
  induction start using chunksFrom.induct text targetChars with
  | case1 start h ih =>
    have hbounds := windowEnd_bounds targetChars h
    rw [chunksFrom_of_lt h, List.flatten_cons, ih]
    have hsplit : text.drop start = (text.take (windowEnd text targetChars start) ++
        text.drop (windowEnd text targetChars start)).drop start := by
      rw [List.take_append_drop]
    rw [hsplit, List.drop_append_of_le_length]
    rw [List.length_take, Nat.min_eq_left hbounds.2.2]
    omega
  | case2 start h =>
    rw [chunksFrom_of_le (Nat.not_lt.mp h), List.drop_eq_nil_of_le (Nat.not_lt.mp h)]
    rfl

theorem length_of_mem_chunksFrom {chunk : List Char}
    (h : chunk ∈ chunksFrom text targetChars start) :
    0 < chunk.length ∧ chunk.length ≤ targetChars := by
  induction start using chunksFrom.induct text targetChars with
  | case1 start hstart ih =>
    rw [chunksFrom_of_lt hstart, List.mem_cons] at h
    rcases h with rfl | h
    · have hbounds := windowEnd_bounds targetChars hstart
      rw [length_slice _ hstart]
      omega
    · exact ih h
  | case2 start hstart =>
    rw [chunksFrom_of_le (Nat.not_lt.mp hstart)] at h
    cases h

/-- **Every cut is where a window opens**, or at the end. -/
theorem opens_of_append {pre suf : List (List Char)}
    (h : chunksFrom text targetChars start = pre ++ suf)
    (hin : start + pre.flatten.length < text.length) :
    Relation.ReflTransGen (Next text targetChars) start (start + pre.flatten.length) := by
  induction pre generalizing start with
  | nil => exact .refl
  | cons chunk pre ih =>
    by_cases hstart : start < text.length
    · rw [chunksFrom_of_lt hstart, List.cons_append, List.cons.injEq] at h
      obtain ⟨rfl, h⟩ := h
      have hbounds := windowEnd_bounds targetChars hstart
      rw [List.flatten_cons, List.length_append, length_slice _ hstart, ← Nat.add_assoc,
        Nat.add_sub_cancel' hbounds.1.le] at hin ⊢
      have hrest := ih h hin
      rcases windowEnd_cases text targetChars start with ⟨heq, -⟩ | hnext
      · exact absurd hin (by omega)
      · exact hrest.head hnext
    · rw [chunksFrom_of_le (Nat.not_lt.mp hstart)] at h
      cases h

/-- **Every window but the first opens at a cut.** -/
theorem append_of_opens (h : Relation.ReflTransGen (Next text targetChars) start stop) :
    ∃ pre suf, chunksFrom text targetChars start = pre ++ suf ∧
      start + pre.flatten.length = stop := by
  induction h using Relation.ReflTransGen.head_induction_on with
  | refl => exact ⟨[], _, rfl, rfl⟩
  | @head start next hnext _ ih =>
    obtain ⟨pre, suf, hchunks, hlen⟩ := ih
    have hinside := hnext.inside
    have hstart : start < text.length := by omega
    refine ⟨(text.take next).drop start :: pre, suf, ?_, ?_⟩
    · rw [chunksFrom_of_lt hstart, hnext.windowEnd_eq, hchunks, List.cons_append]
    · have hlt := hnext.lt
      have hslice := length_slice targetChars hstart
      rw [hnext.windowEnd_eq] at hslice
      rw [List.flatten_cons, List.length_append, hslice]
      omega

end

/-! ## The default width -/

/-- `CACHE_REPLAY_CHUNK_CHARS`. -/
def defaultChars : ℕ+ := ⟨replayChunkChars, by decide⟩

theorem lastSpace_eq_rfind (text : List Char) (n : Nat) :
    lastSpace text n = rfind ' ' text 0 n := by
  induction n with
  | zero => rfl
  | succ n ih =>
    rw [rfind, if_neg (Nat.not_lt_zero n), ← ih, lastSpace, List.range_succ, List.reverse_append,
      List.reverse_singleton, List.singleton_append, List.find?_cons]
    by_cases hblank : text[n]? = some ' '
    · simp only [hblank, decide_true, if_true]
    · simp only [hblank, decide_false, if_false]
      rfl

/-- The first piece of what is left ends where the next window opens. -/
theorem next_pieceEnd {text : List Char} {start : Nat}
    (h : start + replayChunkChars < text.length) :
    Next text defaultChars start (start + pieceEnd (text.drop start)) := by
  have hlong : replayChunkChars < (text.drop start).length := by
    rw [List.length_drop]
    omega
  have hwidth : (defaultChars : Nat) = replayChunkChars := rfl
  rw [pieceEnd, if_pos hlong, lastSpace_eq_rfind]
  split
  next boundary hfound =>
    obtain ⟨-, hlt, hblank, hlast⟩ := rfind_eq_some hfound
    rw [List.getElem?_drop] at hblank
    have hlast' : ∀ i, start + boundary < i → i < start + defaultChars → text[i]? ≠ some ' ' := by
      intro i hi hstop
      have h' := hlast (i - start) (by omega) (by omega)
      rwa [List.getElem?_drop, Nat.add_sub_cancel' (by omega)] at h'
    split
    next hpos =>
      rw [← Nat.add_assoc]
      exact .blank h (by omega) (by omega) hblank hlast'
    next hpos =>
      -- A blank that opens the window would leave an empty piece.
      exact .full h fun i hi => hlast' i (by omega)
  next hnone =>
    refine .full h fun i hi hstop => ?_
    have h' := rfind_eq_none hnone (i - start) (Nat.zero_le _) (by omega)
    rwa [List.getElem?_drop, Nat.add_sub_cancel' (by omega)] at h'

theorem windowEnd_eq_pieceEnd {text : List Char} {start : Nat} (h : start < text.length) :
    windowEnd text defaultChars start = start + pieceEnd (text.drop start) := by
  by_cases hlong : start + replayChunkChars < text.length
  · exact (next_pieceEnd hlong).windowEnd_eq
  · rcases windowEnd_cases text defaultChars start with ⟨heq, -⟩ | hnext
    · rw [heq, pieceEnd, if_neg (by rw [List.length_drop]; omega), List.length_drop]
      omega
    · exact absurd hnext.inside hlong

/-- The loop over what is left is the loop over the windows. -/
theorem pieces_drop (text : List Char) (start : Nat) :
    pieces (text.drop start) = chunksFrom text defaultChars start := by
  induction start using chunksFrom.induct text defaultChars with
  | case1 start h ih =>
    have hne : text.drop start ≠ [] := by
      rw [ne_eq, List.drop_eq_nil_iff]
      omega
    rw [windowEnd_eq_pieceEnd h] at ih
    rw [pieces, dif_neg hne, List.drop_drop, ih, chunksFrom_of_lt h, windowEnd_eq_pieceEnd h,
      List.take_drop]
  | case2 start h =>
    rw [List.drop_eq_nil_of_le (Nat.not_lt.mp h), chunksFrom_of_le (Nat.not_lt.mp h), pieces,
      dif_pos rfl]

/-- **A replay of the stream cuts at the default width.** -/
theorem chunkForReplay_defaultChars (text : String) :
    Exact.chunkForReplay text = chunkForReplay text defaultChars := by
  rw [Exact.chunkForReplay, chunkForReplay, ← pieces_drop, List.drop_zero]

/-! ## What is promised of the chunks -/

/-- **What a replay promises**: the chunks are not empty, no wider than the target, and join to
the text; and no cut stands inside a word that is shorter than the target. -/
structure Replays (text : String) (targetChars : ℕ+) (chunks : List String) : Prop where
  nonempty : ∀ chunk ∈ chunks, chunk ≠ ""
  short : ∀ chunk ∈ chunks, chunk.length ≤ targetChars
  whole : String.join chunks = text
  aligned : ∀ pre suf, chunks = pre ++ suf → ∀ a b, Word text.toList a b → b - a < targetChars →
    ¬(a < (String.join pre).length ∧ (String.join pre).length < b)

/-- **A window without a blank that holds other white space**: behind its first character there is
no blank, but there is other white space, and right behind that a word shorter than the target
runs across the window's end. -/
structure Misses (text : List Char) (targetChars : ℕ+) (start : Nat) : Prop where
  none : ∀ i, start < i → i < start + targetChars → text[i]? ≠ some ' '
  across : ∃ i b, start < i ∧ i + 1 < start + targetChars ∧ start + targetChars < b ∧
    Word text (i + 1) b ∧ b - (i + 1) < targetChars

variable {text : String} {targetChars : ℕ+}

theorem length_join_map (chunks : List (List Char)) :
    (String.join (chunks.map String.ofList)).length = chunks.flatten.length := by
  rw [← String.length_toList, toList_join_map]

/-- The part that holds of every text. -/
theorem replays_iff_aligned :
    Replays text targetChars (chunkForReplay text targetChars) ↔
      ∀ pre suf, chunksFrom text.toList targetChars 0 = pre ++ suf → ∀ a b,
        Word text.toList a b → b - a < targetChars →
          ¬(a < pre.flatten.length ∧ pre.flatten.length < b) := by
  constructor
  · intro h pre suf hchunks a b hword hshort
    rw [← length_join_map]
    refine h.aligned (pre.map String.ofList) (suf.map String.ofList) ?_ a b hword hshort
    rw [chunkForReplay, hchunks, List.map_append]
  · intro h
    refine ⟨?_, ?_, ?_, ?_⟩
    · intro chunk hchunk
      obtain ⟨chars, hchars, rfl⟩ := List.mem_map.mp hchunk
      have hpos := (length_of_mem_chunksFrom hchars).1
      intro hempty
      have hnil : chars = [] := by simpa using hempty
      rw [hnil] at hpos
      exact absurd hpos (Nat.lt_irrefl 0)
    · intro chunk hchunk
      obtain ⟨chars, hchars, rfl⟩ := List.mem_map.mp hchunk
      rw [String.length_ofList]
      exact (length_of_mem_chunksFrom hchars).2
    · apply String.toList_inj.mp
      rw [chunkForReplay, toList_join_map, flatten_chunksFrom, List.drop_zero]
    · intro pre suf hchunks a b hword hshort
      obtain ⟨pre, suf, hsplit, rfl, rfl⟩ := List.map_eq_append_iff.mp hchunks
      rw [length_join_map]
      exact h pre suf hsplit a b hword hshort

/-- A cut behind a blank stands in no word, and a cut a whole width on stands in a short word only
where the window misses it. -/
theorem Next.aligned_or_misses {text : List Char} {start stop a b : Nat}
    (h : Next text targetChars start stop) (hword : Word text a b) (hshort : b - a < targetChars)
    (ha : a < stop) (hb : stop < b) : Misses text targetChars start := by
  cases h with
  | @blank boundary _ _ _ hblank _ =>
    have hspace := hword.not_space (by omega) (by omega) hblank
    exact absurd hspace (by decide)
  | full _ hnone =>
    -- The word is too short to begin with the window, so white space stands before it.
    refine ⟨hnone, a - 1, b, by omega, by omega, hb, ?_, ?_⟩
    · rwa [Nat.sub_add_cancel (by omega)]
    · rwa [Nat.sub_add_cancel (by omega)]

/-- **A replay keeps its promise exactly where no window misses.** -/
theorem chunkForReplay_iff (text : String) (targetChars : ℕ+) :
    Replays text targetChars (chunkForReplay text targetChars) ↔
      ∀ start, Opens text.toList targetChars start → ¬Misses text.toList targetChars start := by
  rw [replays_iff_aligned]
  constructor
  · intro h start hopens hmisses
    obtain ⟨i, b, hstart, hi, hb, hword, hshort⟩ := hmisses.across
    have hend := hword.le_length
    -- The window is cut a whole width on, inside the word.
    have hnext : Next text.toList targetChars start (start + targetChars) :=
      .full (by omega) hmisses.none
    obtain ⟨pre, suf, hchunks, hlen⟩ := append_of_opens (hopens.tail hnext)
    exact h pre suf hchunks _ b hword hshort (by omega)
  · intro h pre suf hchunks a b hword hshort hcut
    have hend := hword.le_length
    have hopens := opens_of_append hchunks (by omega)
    rw [Nat.zero_add] at hopens
    rcases Relation.ReflTransGen.cases_tail hopens with hzero | ⟨start, hstart, hnext⟩
    · omega
    · exact h start hstart (hnext.aligned_or_misses hword hshort hcut.1 hcut.2)

/-- A short word behind a line break is split. -/
theorem not_chunkForReplay :
    ¬Replays "a
bc" 3 (chunkForReplay "a
bc" 3) := by
  have hfirst : windowEnd ['a', '\n', 'b', 'c'] 3 0 = 3 := by decide
  have hlast : windowEnd ['a', '\n', 'b', 'c'] 3 3 = 4 := by decide
  have hchunks : chunksFrom ['a', '\n', 'b', 'c'] 3 0 = [['a', '\n', 'b']] ++ [['c']] := by
    rw [chunksFrom_of_lt (by decide), hfirst, chunksFrom_of_lt (by decide), hlast,
      chunksFrom_of_le (by decide)]
    rfl
  have hword : Word ['a', '\n', 'b', 'c'] 2 4 := by
    refine ⟨by decide, fun i ha hb => ?_, fun _ => ⟨'\n', rfl, by decide⟩, fun c hc => nomatch hc⟩
    obtain rfl | rfl : i = 2 ∨ i = 3 := by omega
    · exact ⟨'b', rfl, by decide⟩
    · exact ⟨'c', rfl, by decide⟩
  intro h
  exact replays_iff_aligned.mp h _ _ hchunks 2 4 hword (by decide) (by decide)

end Replay

end Exact

end LlmGateway
