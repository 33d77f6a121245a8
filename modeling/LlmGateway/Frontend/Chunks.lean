import LlmGateway.Frontend.Sse
import Mathlib.Data.List.Induction

/-!
# Where a stream is cut

A chunk's line endings are made one before it is put behind the others, so a CR
at the end of a chunk and the LF at the beginning of the next are two line ends.
A stream is read twice here, as a whole and in its chunks, symbol by symbol: the
two readers part where such a pair ends a line of a frame that goes on, and only
there.
-/

namespace LlmGateway

namespace Frontend

open Frames

/-! ## Line endings, symbol by symbol -/

/-- One symbol, for a reader that knows whether the last was a CR. -/
def rawFeed (s : Reader UInt16 × Bool) (x : UInt16) : Reader UInt16 × Bool :=
  (if s.2 = true ∧ x = nl then s.1 else s.1.feed nl (if x = cr then nl else x), decide (x = cr))

section

variable {r : Reader UInt16} {b : Bool} {x : UInt16}

theorem rawFeed_cr : rawFeed (r, b) cr = (r.feed nl nl, true) := by
  rw [rawFeed, if_neg (by rintro ⟨-, h⟩; cases h), if_pos rfl]
  rfl

theorem rawFeed_nl : rawFeed (r, false) nl = (r.feed nl nl, false) := by
  rw [rawFeed, if_neg (by rintro ⟨h, -⟩; cases h)]
  rfl

theorem rawFeed_crlf : rawFeed (r, true) nl = (r, false) := by
  rw [rawFeed, if_pos ⟨rfl, rfl⟩]
  rfl

theorem rawFeed_of_ne (hcr : x ≠ cr) (hnl : x ≠ nl) : rawFeed (r, b) x = (r.feed nl x, false) := by
  rw [rawFeed, if_neg fun h => hnl h.2, if_neg hcr, decide_eq_false hcr]

/-- Only an LF can belong to a CR. -/
theorem rawFeed_eq (h : b = false ∨ x ≠ nl) : rawFeed (r, b) x = rawFeed (r, false) x := by
  rcases h with rfl | hx
  · rfl
  · simp [rawFeed, hx]

/-- **The line endings of a text**, made one beforehand or on the way. -/
theorem foldl_rawFeed (text : JsString) :
    (text.foldl rawFeed (r, false)).1 = r.read nl (normalize text) := by
  fun_induction normalize text generalizing r with
  | case1 => rfl
  | case2 x =>
    by_cases hx : x = cr
    · subst hx
      rfl
    · simp [rawFeed, hx]
  | case3 rest ih =>
    rw [List.foldl_cons, List.foldl_cons, rawFeed_cr, rawFeed_crlf, ih]
    rfl
  | case4 y rest hy ih =>
    rw [List.foldl_cons, rawFeed_cr, List.foldl_cons, rawFeed_eq (.inr hy), ← List.foldl_cons, ih]
    rfl
  | case5 x y rest hx ih =>
    have hfeed : rawFeed (r, false) x = (r.feed nl x, false) := by
      by_cases hnl : x = nl
      · subst hnl
        exact rawFeed_nl
      · exact rawFeed_of_ne hx hnl
    rw [List.foldl_cons, hfeed, ih]
    rfl

end

/-! ## The whole and its chunks -/

/-- The symbols of the chunks, and which of them are the first of their chunk. -/
def marks : List JsString → List (Bool × UInt16)
  | [] => []
  | [] :: chunks => marks chunks
  | (x :: chunk) :: chunks => (true, x) :: (chunk.map (Prod.mk false) ++ marks chunks)

/-- A reader of the whole and one of the chunks, behind the same text. -/
structure Pair where
  whole : Reader UInt16 := {}
  parts : Reader UInt16 := {}
  /-- Whether the last symbol was a CR. -/
  afterCr : Bool := false

def Pair.step (p : Pair) (m : Bool × UInt16) : Pair where
  whole := (rawFeed (p.whole, p.afterCr) m.2).1
  parts := (rawFeed (p.parts, p.afterCr && !m.1) m.2).1
  afterCr := decide (m.2 = cr)

section

variable {p : Pair} {m : Bool × UInt16} {after : JsString}

/-- **What a symbol does**: it is a line end for both readers, or the LF of a CR for both, or for
one only, or one of a line. -/
theorem Pair.step_cases (p : Pair) (m : Bool × UInt16) :
    ((m.2 = cr ∨ (p.afterCr = false ∧ m.2 = nl)) ∧
        p.step m = ⟨p.whole.feed nl nl, p.parts.feed nl nl, decide (m.2 = cr)⟩) ∨
      (p.afterCr = true ∧ m = (false, nl) ∧ p.step m = ⟨p.whole, p.parts, false⟩) ∨
      (p.afterCr = true ∧ m = (true, nl) ∧ p.step m = ⟨p.whole, p.parts.feed nl nl, false⟩) ∨
      (m.2 ≠ cr ∧ m.2 ≠ nl ∧
        p.step m = ⟨p.whole.feed nl m.2, p.parts.feed nl m.2, false⟩) := by
  obtain ⟨whole, parts, b⟩ := p
  obtain ⟨first, x⟩ := m
  show _ ∨ _ ∨ _ ∨ (x ≠ cr ∧ x ≠ nl ∧ _)
  by_cases hcr : x = cr
  · subst hcr
    refine .inl ⟨.inl rfl, ?_⟩
    show Pair.mk (rawFeed (whole, b) cr).1 (rawFeed (parts, b && !first) cr).1 _ = _
    rw [rawFeed_cr, rawFeed_cr]
  · by_cases hnl : x = nl
    · subst hnl
      cases b with
      | false => exact .inl ⟨.inr ⟨rfl, rfl⟩, by
          show Pair.mk (rawFeed (whole, false) nl).1 (rawFeed (parts, false) nl).1 _ = _
          rw [rawFeed_nl, rawFeed_nl]⟩
      | true =>
        cases first with
        | false => exact .inr (.inl ⟨rfl, rfl, rfl⟩)
        | true => exact .inr (.inr (.inl ⟨rfl, rfl, rfl⟩))
    · refine .inr (.inr (.inr ⟨hcr, hnl, ?_⟩))
      show Pair.mk (rawFeed (whole, b) x).1 (rawFeed (parts, b && !first) x).1 _ = _
      rw [rawFeed_of_ne hcr hnl, rawFeed_of_ne hcr hnl, decide_eq_false hcr]

theorem map_snd_marks (chunks : List JsString) : (marks chunks).map Prod.snd = chunks.flatten := by
  fun_induction marks chunks with
  | case1 => rfl
  | case2 chunks ih => exact ih
  | case3 x chunk chunks ih =>
    have hchunk : chunk.map (Prod.snd ∘ Prod.mk false) = chunk := List.map_id chunk
    rw [List.map_cons, List.map_append, ih, List.map_map, hchunk]
    rfl

theorem whole_foldl (ms : List (Bool × UInt16)) :
    ((ms.foldl Pair.step p).whole, (ms.foldl Pair.step p).afterCr) =
      (ms.map Prod.snd).foldl rawFeed (p.whole, p.afterCr) := by
  induction ms generalizing p with
  | nil => rfl
  | cons m ms ih => exact ih

/-- Within a chunk. -/
theorem parts_foldl (chunk : JsString) :
    ((chunk.map (Prod.mk false)).foldl Pair.step p).parts =
      (chunk.foldl rawFeed (p.parts, p.afterCr)).1 := by
  induction chunk generalizing p with
  | nil => rfl
  | cons x chunk ih =>
    rw [List.map_cons, List.foldl_cons, ih, List.foldl_cons]
    simp [Pair.step, rawFeed]

theorem parts_foldl_marks (chunks : List JsString) :
    ((marks chunks).foldl Pair.step p).parts = p.parts.read nl (chunks.flatMap normalize) := by
  fun_induction marks chunks generalizing p with
  | case1 => rfl
  | case2 chunks ih => exact ih
  | case3 x chunk chunks ih =>
    have hfirst : ((p.step (true, x)).parts, (p.step (true, x)).afterCr) =
        rawFeed (p.parts, false) x := by
      simp [Pair.step, rawFeed]
    rw [List.foldl_cons, List.foldl_append, ih, parts_foldl, hfirst, ← List.foldl_cons,
      foldl_rawFeed, List.flatMap_cons, Reader.read_append]

/-! ## Where a line ending is torn -/

/-- The text goes on in a line. -/
def Goes (text : JsString) : Prop := text.head? ≠ some cr ∧ text.head? ≠ some nl

/-- **A cut that tears a frame**: it falls between the CR and the LF behind a line that is not
blank, and no blank line follows. -/
def Tears (before after : JsString) : Prop :=
  ∃ line x rest, before = line ++ [x, cr] ∧ x ≠ cr ∧ x ≠ nl ∧ after = nl :: rest ∧ Goes rest

/-- The same, of the two readers. -/
def Pair.Torn (p : Pair) (m : Bool × UInt16) (after : JsString) : Prop :=
  p.afterCr = true ∧ p.whole.lines ≠ [] ∧ m = (true, nl) ∧ Goes after

/-- What the reader of a text knows of its end. -/
theorem foldl_rawFeed_end (text : JsString) :
    ((text.foldl rawFeed ({}, false)).2 = true → (text.foldl rawFeed ({}, false)).1.part = []) ∧
      ((text.foldl rawFeed ({}, false)).1.part ≠ [] ↔
        ∃ line x, text = line ++ [x] ∧ x ≠ cr ∧ x ≠ nl) := by
  induction text using List.reverseRecOn with
  | nil => exact ⟨fun h => rfl, ⟨fun h => absurd rfl h, fun ⟨line, x, h, _⟩ => by simp at h⟩⟩
  | append_singleton text y ih =>
    obtain ⟨hflag, -⟩ := ih
    have hlast : (∃ line x, text ++ [y] = line ++ [x] ∧ x ≠ cr ∧ x ≠ nl) ↔ y ≠ cr ∧ y ≠ nl := by
      constructor
      · rintro ⟨line, x, heq, hx⟩
        obtain rfl := (List.cons.inj (List.append_inj' heq rfl).2).1
        exact hx
      · exact fun hy => ⟨text, y, rfl, hy⟩
    rw [List.foldl_append, hlast]
    show ((rawFeed (text.foldl rawFeed ({}, false)) y).2 = true → _) ∧ _
    generalize text.foldl rawFeed ({}, false) = s at hflag
    obtain ⟨r, b⟩ := s
    show ((rawFeed (r, b) y).2 = true → (rawFeed (r, b) y).1.part = []) ∧
      ((rawFeed (r, b) y).1.part ≠ [] ↔ y ≠ cr ∧ y ≠ nl)
    by_cases hcr : y = cr
    · subst hcr
      rw [rawFeed_cr]
      simp [Reader.part_feed_nl]
    · by_cases hnl : y = nl
      · subst hnl
        cases b with
        | false =>
          rw [rawFeed_nl]
          simp [Reader.part_feed_nl]
        | true =>
          rw [rawFeed_crlf]
          simpa using hflag rfl
      · rw [rawFeed_of_ne hcr hnl, Reader.feed_of_ne hnl]
        simp [hcr, hnl]

/-- **A cut tears a frame** where the two readers say so. -/
theorem torn_iff {ms : List (Bool × UInt16)} :
    (ms.foldl Pair.step {}).Torn m after ↔
      m.1 = true ∧ Tears (ms.map Prod.snd) (m.2 :: after) := by
  have hwhole : ((ms.foldl Pair.step {}).whole, (ms.foldl Pair.step {}).afterCr) =
      (ms.map Prod.snd).foldl rawFeed ({}, false) := whole_foldl ms
  unfold Pair.Torn
  rw [show (ms.foldl Pair.step {}).whole = _ from congrArg Prod.fst hwhole,
    show (ms.foldl Pair.step {}).afterCr = _ from congrArg Prod.snd hwhole]
  generalize ms.map Prod.snd = text
  rcases List.eq_nil_or_concat text with rfl | ⟨before, y, rfl⟩
  · constructor
    · rintro ⟨h, -⟩
      cases h
    · rintro ⟨-, line, x, rest, h, -⟩
      simp at h
  · rw [List.concat_eq_append, List.foldl_append]
    obtain ⟨-, hpart⟩ := foldl_rawFeed_end before
    show (rawFeed (before.foldl rawFeed ({}, false)) y).2 = true ∧
      (rawFeed (before.foldl rawFeed ({}, false)) y).1.lines ≠ [] ∧ _ ↔ _
    generalize before.foldl rawFeed ({}, false) = s at hpart
    obtain ⟨r, b⟩ := s
    constructor
    · rintro ⟨hcr, hlines, rfl, hafter⟩
      obtain rfl : y = cr := of_decide_eq_true hcr
      rw [rawFeed_cr] at hlines
      obtain ⟨line, x, rfl, hx⟩ := hpart.mp (Reader.lines_feed_nl.mp hlines)
      exact ⟨rfl, line, x, after, by simp, hx.1, hx.2, rfl, hafter⟩
    · rintro ⟨hm, line, x, rest, heq, hcr, hnl, hafter, hgoes⟩
      have hsplit : before ++ [y] = (line ++ [x]) ++ [cr] := by simpa using heq
      obtain ⟨rfl, hy⟩ := List.append_inj' hsplit rfl
      obtain rfl := (List.cons.inj hy).1
      obtain ⟨hm2, rfl⟩ := List.cons.inj hafter
      rw [rawFeed_cr]
      exact ⟨rfl, Reader.lines_feed_nl.mpr (hpart.mpr ⟨line, x, rfl, hcr, hnl⟩), Prod.ext hm hm2,
        hgoes⟩

/-! ## Where nothing is torn -/

/-- The two readers agree, or one has closed the frame the other is about to close. -/
inductive Agree : Pair → JsString → Prop
  | same (r : Reader UInt16) (b : Bool) (after : JsString) : Agree ⟨r, r, b⟩ after
  | ahead {r : Reader UInt16} {after : JsString} (hpart : r.part = []) (hafter : ¬ Goes after) :
      Agree ⟨r, r.close, false⟩ after

theorem Agree.step (h : Agree p (m.2 :: after)) (hflag : p.afterCr = true → p.whole.part = [])
    (htorn : ¬ p.Torn m after) : Agree (p.step m) after := by
  cases h with
  | same r b _ =>
    rcases Pair.step_cases ⟨r, r, b⟩ m with ⟨-, hstep⟩ | ⟨-, -, hstep⟩ | ⟨hb, hm, hstep⟩ |
      ⟨-, -, hstep⟩
    · exact hstep ▸ .same _ _ after
    · exact hstep ▸ .same _ _ after
    · have hpart : r.part = [] := hflag hb
      rw [hstep, Reader.feed_nl_of_part hpart]
      by_cases hlines : r.lines = []
      · rw [Reader.close_of_idle hlines hpart]
        exact .same r false after
      · exact .ahead hpart fun hgoes => htorn ⟨hb, hlines, hm, hgoes⟩
    · exact hstep ▸ .same _ _ after
  | @ahead r _ hpart hends =>
    rcases Pair.step_cases ⟨r, r.close, false⟩ m with ⟨-, hstep⟩ | ⟨hb, -⟩ | ⟨hb, -⟩ |
      ⟨hcr, hnl, -⟩
    · -- The line end closes the frame for the one, and is a blank line for the other.
      rw [hstep, Reader.feed_nl_of_part hpart, Reader.feed_close]
      exact .same _ _ after
    · cases hb
    · cases hb
    · exact absurd ⟨fun h => hcr (Option.some.inj h), fun h => hnl (Option.some.inj h)⟩ hends

/-- Behind a CR a line is at its beginning. -/
theorem Pair.part_step : (p.step m).afterCr = true → (p.step m).whole.part = [] := by
  intro hcr
  have hm : m.2 = cr := of_decide_eq_true hcr
  show (rawFeed (p.whole, p.afterCr) m.2).1.part = []
  rw [hm, rawFeed_cr]
  exact Reader.part_feed_nl

theorem Agree.foldl {ms : List (Bool × UInt16)} (h : Agree p (ms.map Prod.snd))
    (hflag : p.afterCr = true → p.whole.part = [])
    (htorn : ∀ before m after, ms = before ++ m :: after →
      ¬ (before.foldl Pair.step p).Torn m (after.map Prod.snd)) :
    Agree (ms.foldl Pair.step p) [] := by
  induction ms generalizing p with
  | nil => exact h
  | cons m ms ih =>
    refine ih (h.step hflag (htorn [] m ms rfl)) Pair.part_step fun before m' after heq => ?_
    exact htorn (m :: before) m' after (congrArg (m :: ·) heq)

theorem Agree.eq (h : Agree p []) : p.parts = p.whole := by
  cases h with
  | same r b _ => rfl
  | ahead hpart hends => exact absurd ⟨nofun, nofun⟩ hends

/-! ## Where something is -/

/-- The reader of the chunks is never behind the other. -/
structure Pair.Apace (p : Pair) : Prop where
  part : p.parts.part = p.whole.part
  lines : p.parts.lines ≠ [] → p.whole.lines ≠ []
  begun : p.whole.begun ≤ p.parts.begun
  afterCr : p.afterCr = true → p.whole.part = [] ∧ (p.whole.lines ≠ [] → p.parts.lines ≠ [])

namespace Pair.Apace

theorem busy (h : p.Apace) : p.parts.Busy → p.whole.Busy :=
  Or.imp h.lines fun hpart => h.part ▸ hpart

/-- So it has as many frames behind it. -/
theorem length_le (h : p.Apace) : p.whole.frames.length ≤ p.parts.frames.length := by
  have hbegun := h.begun
  have hbusy := h.busy
  unfold Reader.begun at hbegun
  by_cases hwhole : p.whole.Busy
  · rw [if_pos hwhole] at hbegun
    split at hbegun <;> omega
  · rw [if_neg hwhole, if_neg fun h => hwhole (hbusy h)] at hbegun
    exact hbegun

theorem length_lt (h : p.Apace) (hlt : p.whole.begun < p.parts.begun) :
    p.whole.frames.length < p.parts.frames.length := by
  have hbusy := h.busy
  unfold Reader.begun at hlt
  by_cases hwhole : p.whole.Busy
  · rw [if_pos hwhole] at hlt
    split at hlt <;> omega
  · rw [if_neg hwhole, if_neg fun h => hwhole (hbusy h)] at hlt
    exact hlt

theorem step (h : p.Apace) (m : Bool × UInt16) : (p.step m).Apace := by
  rcases p.step_cases m with ⟨-, hstep⟩ | ⟨-, -, hstep⟩ | ⟨hb, -, hstep⟩ | ⟨-, hnl, hstep⟩
  · have hlines : (p.whole.feed nl nl).lines ≠ [] ↔ (p.parts.feed nl nl).lines ≠ [] := by
      rw [Reader.lines_feed_nl, Reader.lines_feed_nl, h.part]
    rw [hstep]
    refine ⟨?_, hlines.mpr, ?_, fun _ => ⟨Reader.part_feed_nl, hlines.mp⟩⟩
    · rw [Reader.part_feed_nl, Reader.part_feed_nl]
    · rw [Reader.begun_feed_nl, Reader.begun_feed_nl]
      exact h.begun
  · rw [hstep]
    exact ⟨h.part, h.lines, h.begun, nofun⟩
  · -- One more line end for the chunks only.
    obtain ⟨hpart, -⟩ := h.afterCr hb
    have hparts : p.parts.part = [] := h.part.trans hpart
    rw [hstep]
    refine ⟨Reader.part_feed_nl.trans hpart.symm, fun hlines => ?_, ?_, nofun⟩
    · exact absurd hparts (Reader.lines_feed_nl.mp hlines)
    · rw [Reader.begun_feed_nl]
      exact h.begun
  · rw [hstep]
    refine ⟨?_, ?_, ?_, nofun⟩
    · rw [Reader.feed_of_ne hnl, Reader.feed_of_ne hnl]
      exact congrArg (· ++ [m.2]) h.part
    · rw [Reader.feed_of_ne hnl, Reader.feed_of_ne hnl]
      exact h.lines
    · rw [Reader.begun_feed_of_ne hnl, Reader.begun_feed_of_ne hnl]
      exact Nat.succ_le_succ h.length_le

theorem foldl (h : p.Apace) (ms : List (Bool × UInt16)) : (ms.foldl Pair.step p).Apace := by
  induction ms generalizing p with
  | nil => exact h
  | cons m ms ih => exact ih (h.step m)

end Pair.Apace

/-- One frame more has begun for the reader of the chunks, or is about to. -/
def Pair.Parted (p : Pair) (after : JsString) : Prop :=
  p.whole.begun < p.parts.begun ∨
    (p.whole.frames.length < p.parts.frames.length ∧ p.afterCr = false ∧ Goes after)

/-- **A torn frame** is one frame more. -/
theorem Pair.Torn.parted (h : p.Torn m after) (hapace : p.Apace) : (p.step m).Parted after := by
  obtain ⟨hb, hlines, rfl, hgoes⟩ := h
  obtain ⟨hpart, hmore⟩ := hapace.afterCr hb
  rcases p.step_cases (true, nl) with ⟨hm | ⟨hb', -⟩, -⟩ | ⟨-, hm, -⟩ | ⟨-, -, hstep⟩ | ⟨-, hnl, -⟩
  · cases hm
  · cases hb.symm.trans hb'
  · cases hm
  · rw [hstep]
    refine .inr ⟨?_, rfl, hgoes⟩
    rw [Reader.feed_nl_of_part (hapace.part.trans hpart), Reader.length_close (hmore hlines)]
    exact Nat.lt_succ_of_le hapace.length_le
  · exact absurd rfl hnl

theorem Pair.Parted.step (h : p.Parted (m.2 :: after)) (hapace : p.Apace) :
    (p.step m).Parted after := by
  rcases h with hlt | ⟨hlt, hb, hgoes⟩
  · refine .inl ?_
    rcases p.step_cases m with ⟨-, hstep⟩ | ⟨-, -, hstep⟩ | ⟨-, -, hstep⟩ | ⟨-, hnl, hstep⟩
    · rw [hstep, Reader.begun_feed_nl, Reader.begun_feed_nl]
      exact hlt
    · rw [hstep]
      exact hlt
    · rw [hstep, Reader.begun_feed_nl]
      exact hlt
    · rw [hstep, Reader.begun_feed_of_ne hnl, Reader.begun_feed_of_ne hnl]
      exact Nat.succ_lt_succ (hapace.length_lt hlt)
  · have hcr : m.2 ≠ cr := fun h => hgoes.1 (congrArg some h)
    have hnl : m.2 ≠ nl := fun h => hgoes.2 (congrArg some h)
    rcases p.step_cases m with ⟨hm, -⟩ | ⟨hb', -⟩ | ⟨hb', -⟩ | ⟨-, -, hstep⟩
    · exact absurd hm (not_or.mpr ⟨hcr, fun h => hnl h.2⟩)
    · cases hb.symm.trans hb'
    · cases hb.symm.trans hb'
    · refine .inl ?_
      rw [hstep, Reader.begun_feed_of_ne hnl, Reader.begun_feed_of_ne hnl]
      exact Nat.succ_lt_succ hlt

theorem Pair.Parted.foldl {ms : List (Bool × UInt16)} (h : p.Parted (ms.map Prod.snd))
    (hapace : p.Apace) : (ms.foldl Pair.step p).Parted [] := by
  induction ms generalizing p with
  | nil => exact h
  | cons m ms ih => exact ih (h.step hapace) (hapace.step m)

theorem Pair.Parted.length_lt (h : p.Parted []) (hapace : p.Apace) :
    p.whole.frames.length < p.parts.frames.length :=
  h.elim hapace.length_lt And.left

/-! ## Cuts and marks -/

/-- A symbol that is the first of a chunk has a cut before it. -/
theorem exists_cut {chunks : List JsString} {x : UInt16} {before after : List (Bool × UInt16)}
    (h : marks chunks = before ++ (true, x) :: after) :
    ∃ l r, chunks = l ++ r ∧ l.flatten = before.map Prod.snd ∧
      r.flatten = x :: after.map Prod.snd := by
  fun_induction marks chunks generalizing before with
  | case1 => simp at h
  | case2 chunks ih =>
    obtain ⟨l, r, rfl, hl, hr⟩ := ih h
    exact ⟨[] :: l, r, rfl, hl, hr⟩
  | case3 y chunk chunks ih =>
    cases before with
    | nil =>
      obtain ⟨hy, rfl⟩ := List.cons.inj h
      obtain rfl := (Prod.ext_iff.mp hy).2
      refine ⟨[], (y :: chunk) :: chunks, rfl, rfl, ?_⟩
      have hwhole := map_snd_marks ((y :: chunk) :: chunks)
      rw [← hwhole, marks, List.map_cons]
    | cons m before =>
      obtain ⟨rfl, htail⟩ := List.cons.inj h
      obtain ⟨more, rfl, hmore⟩ : ∃ more, before = chunk.map (Prod.mk false) ++ more ∧
          marks chunks = more ++ (true, x) :: after := by
        rcases List.append_eq_append_iff.mp htail with hbehind | ⟨more, hchunk, hmore⟩
        · exact hbehind
        · -- Those that only follow in this chunk are not the first of one.
          cases more with
          | nil => exact ⟨[], by rw [hchunk, List.append_nil, List.append_nil], hmore.symm⟩
          | cons m more =>
            have hmem : m ∈ chunk.map (Prod.mk false) := by simp [hchunk]
            obtain ⟨z, -, rfl⟩ := List.mem_map.mp hmem
            cases hmore
      obtain ⟨l, r, rfl, hl, hr⟩ := ih hmore
      have hchunk : chunk.map (Prod.snd ∘ Prod.mk false) = chunk := List.map_id chunk
      refine ⟨(y :: chunk) :: l, r, rfl, ?_, hr⟩
      rw [List.flatten_cons, hl, List.map_cons, List.map_append, List.map_map, hchunk]
      rfl

theorem marks_append (before after : List JsString) :
    marks (before ++ after) = marks before ++ marks after := by
  fun_induction marks before with
  | case1 => rfl
  | case2 chunks ih => exact ih
  | case3 x chunk chunks ih =>
    rw [List.cons_append, marks, ih, List.cons_append, List.append_assoc]

theorem exists_mark {chunks : List JsString} {x : UInt16} {rest : JsString}
    (h : chunks.flatten = x :: rest) :
    ∃ after, marks chunks = (true, x) :: after ∧ after.map Prod.snd = rest := by
  fun_induction marks chunks with
  | case1 => cases h
  | case2 chunks ih => exact ih h
  | case3 y chunk chunks ih =>
    have hwhole := map_snd_marks ((y :: chunk) :: chunks)
    rw [h, marks, List.map_cons] at hwhole
    obtain ⟨rfl, hrest⟩ := List.cons.inj hwhole
    exact ⟨_, rfl, hrest⟩

end

/-! ## Any chunks -/

/-- **No cut tears a frame.** -/
def Untorn (chunks : List JsString) : Prop :=
  ∀ before after, chunks = before ++ after → ¬ Tears before.flatten after.flatten

theorem not_torn_of_untorn {chunks : List JsString} (h : Untorn chunks)
    {before after : List (Bool × UInt16)} {m : Bool × UInt16}
    (hms : marks chunks = before ++ m :: after) :
    ¬ (before.foldl Pair.step {}).Torn m (after.map Prod.snd) := by
  rw [torn_iff]
  rintro ⟨hm, htears⟩
  obtain ⟨first, x⟩ := m
  obtain rfl : first = true := hm
  obtain ⟨l, r, hchunks, hl, hr⟩ := exists_cut hms
  exact h l r hchunks (by rw [hl, hr]; exact htears)

theorem exists_torn_of_not_untorn {chunks : List JsString} (h : ¬ Untorn chunks) :
    ∃ before m after, marks chunks = before ++ m :: after ∧
      (before.foldl Pair.step {}).Torn m (after.map Prod.snd) := by
  unfold Untorn at h
  push Not at h
  obtain ⟨l, r, rfl, htears⟩ := h
  obtain ⟨line, x, rest, hbefore, hcr, hnl, hafter, hgoes⟩ := id htears
  obtain ⟨after, hmarks, hrest⟩ := exists_mark hafter
  refine ⟨marks l, (true, nl), after, by rw [marks_append, hmarks], torn_iff.mpr ⟨rfl, ?_⟩⟩
  rw [map_snd_marks, hrest, ← hafter]
  exact htears

/-- What the two readers come to. -/
def together (chunks : List JsString) : Pair := (marks chunks).foldl Pair.step {}

theorem linesOf_parts (chunks : List JsString) :
    linesOf (framesAll [] chunks) = (together chunks).parts.frames := by
  rw [linesOf_framesAll chunks rfl, together, parts_foldl_marks]
  rfl

theorem linesOf_whole (chunks : List JsString) :
    linesOf (framesAll [] [chunks.flatten]) = (together chunks).whole.frames := by
  have hwhole : (together chunks).whole = _ := congrArg Prod.fst (whole_foldl (marks chunks))
  rw [linesOf_framesAll _ rfl, hwhole, map_snd_marks, foldl_rawFeed, List.flatMap_singleton]
  rfl

theorem linesOf_eq_iff (chunks : List JsString) :
    linesOf (framesAll [] chunks) = linesOf (framesAll [] [chunks.flatten]) ↔ Untorn chunks := by
  rw [linesOf_parts, linesOf_whole]
  constructor
  · intro hsame
    by_contra hcut
    obtain ⟨before, m, after, hmarks, htorn⟩ := exists_torn_of_not_untorn hcut
    have hstart : Pair.Apace {} := by
      refine ⟨rfl, id, Nat.le_refl _, fun h => ?_⟩
      cases h
    have hapace := hstart.foldl before
    have hparted := (htorn.parted hapace).foldl (hapace.step m)
    have hlt := hparted.length_lt ((hapace.step m).foldl after)
    rw [together, hmarks, List.foldl_append, List.foldl_cons] at hsame
    exact absurd (congrArg List.length hsame) (Nat.ne_of_gt hlt)
  · intro huntorn
    have hagree : Agree (together chunks) [] :=
      Agree.foldl (.same {} false _) (fun h => nomatch h) fun before m after hms =>
        not_torn_of_untorn huntorn hms
    exact congrArg Reader.frames hagree.eq

/-- **Where a stream is cut makes no difference** as long as no cut tears a frame; where one does,
other frames come out. -/
theorem pushAll_flatten {V : Type} (parse : JsString → Option V) (chunks : List JsString) :
    (Untorn chunks → pushAll parse [] chunks = pushAll parse [] [chunks.flatten]) ∧
      (linesOf (framesAll [] chunks) = linesOf (framesAll [] [chunks.flatten]) ↔
        Untorn chunks) := by
  refine ⟨fun huntorn => ?_, linesOf_eq_iff chunks⟩
  rw [pushAll_eq_filterMap, pushAll_eq_filterMap, filterMap_linesOf, filterMap_linesOf,
    (linesOf_eq_iff chunks).mpr huntorn]

/-- **A CRLF torn between two chunks loses an event**: the whole has one, the chunks have none. -/
theorem not_pushAll_flatten : ¬ ∀ chunks : List JsString,
    pushAll some [] chunks = pushAll some [] [chunks.flatten] := by
  intro h
  have hone := h [js "event: delta\r", js "\ndata: \x7b\x7d\n\n"]
  revert hone
  decide

end Frontend

end LlmGateway
