import Mathlib.Tactic.Common

/-!
# Frames behind blank lines

A text over any alphabet is cut into frames by blank lines. A reader takes it in
one symbol at a time, and what it has is what is left when the text is looked
through for two line ends in a row.
-/

namespace Frames

variable {α : Type} [DecidableEq α]

/-- What has been read of a text: the frames behind it, each its lines, and of the frame that goes
on its lines and the beginning of one more. -/
structure Reader (α : Type) where
  frames : List (List (List α)) := []
  lines : List (List α) := []
  part : List α := []
  deriving DecidableEq

/-- The lines of a text that are not blank. -/
def nonblank (nl : α) (text : List α) : List (List α) := (text.splitOn nl).filter (· ≠ [])

/-- Whether no two line ends come in a row. -/
def Close (nl : α) (text : List α) : Prop := text.IsChain fun x y => ¬ (x = nl ∧ y = nl)

namespace Reader

variable {nl : α} {r : Reader α} {x : α}

/-- A frame is put behind, unless nothing but blank lines was read of it. -/
def close (r : Reader α) : Reader α :=
  if r.lines = [] then { frames := r.frames } else { frames := r.frames ++ [r.lines] }

/-- One symbol. -/
def feed (nl : α) (r : Reader α) (x : α) : Reader α :=
  if x = nl then
    if r.part = [] then r.close else { r with lines := r.lines ++ [r.part], part := [] }
  else { r with part := r.part ++ [x] }

/-- A whole text. -/
def read (nl : α) (r : Reader α) (text : List α) : Reader α := text.foldl (feed nl) r

theorem feed_of_ne (hx : x ≠ nl) : r.feed nl x = { r with part := r.part ++ [x] } := if_neg hx

theorem feed_nl (hpart : r.part ≠ []) :
    r.feed nl nl = { r with lines := r.lines ++ [r.part], part := [] } := by
  rw [feed, if_pos rfl, if_neg hpart]

theorem feed_nl_of_part (hpart : r.part = []) : r.feed nl nl = r.close := by
  rw [feed, if_pos rfl, if_pos hpart]

/-- A blank line is nothing where a frame has not begun. -/
theorem close_of_idle (hlines : r.lines = []) (hpart : r.part = []) : r.close = r := by
  obtain ⟨frames, lines, part⟩ := r
  obtain rfl : lines = [] := hlines
  obtain rfl : part = [] := hpart
  exact if_pos rfl

omit [DecidableEq α] in
@[simp] theorem lines_close : r.close.lines = [] := by
  unfold close
  split <;> rfl

omit [DecidableEq α] in
@[simp] theorem part_close : r.close.part = [] := by
  unfold close
  split <;> rfl

/-- A second blank line. -/
theorem feed_close : r.close.feed nl nl = r.close := by
  rw [feed_nl_of_part part_close, close_of_idle lines_close part_close]

/-- A line end leaves no line begun. -/
theorem part_feed_nl : (r.feed nl nl).part = [] := by
  by_cases hpart : r.part = []
  · rw [feed_nl_of_part hpart, part_close]
  · rw [feed_nl hpart]

theorem lines_feed_nl : (r.feed nl nl).lines ≠ [] ↔ r.part ≠ [] := by
  by_cases hpart : r.part = []
  · simp [feed_nl_of_part hpart, hpart]
  · simp [feed_nl hpart, hpart]

/-! How many frames have begun. -/

/-- Whether something of a frame has been read. -/
def Busy (r : Reader α) : Prop := r.lines ≠ [] ∨ r.part ≠ []

instance : Decidable r.Busy := inferInstanceAs (Decidable (_ ∨ _))

def begun (r : Reader α) : Nat := r.frames.length + if r.Busy then 1 else 0

omit [DecidableEq α] in
theorem begun_of_busy (h : r.Busy) : r.begun = r.frames.length + 1 := by
  rw [begun, if_pos h]

omit [DecidableEq α] in
theorem length_close (h : r.lines ≠ []) : r.close.frames.length = r.frames.length + 1 := by
  rw [close, if_neg h, List.length_append, List.length_singleton]

/-- A line end begins no frame. -/
theorem begun_feed_nl : (r.feed nl nl).begun = r.begun := by
  by_cases hpart : r.part = []
  · have hidle : ¬ r.close.Busy := by simp [Busy]
    rw [feed_nl_of_part hpart, begun, if_neg hidle, begun]
    by_cases hlines : r.lines = []
    · rw [if_neg (by simp [Busy, hlines, hpart]), close_of_idle hlines hpart]
    · rw [if_pos (.inl hlines), length_close hlines, Nat.add_zero]
  · have hbusy : (r.feed nl nl).Busy := .inl (lines_feed_nl.mpr hpart)
    rw [begun_of_busy hbusy, feed_nl hpart, begun_of_busy (.inr hpart)]

theorem begun_feed_of_ne (hx : x ≠ nl) : (r.feed nl x).begun = r.frames.length + 1 := by
  have hbusy : (r.feed nl x).Busy := .inr (by simp [feed_of_ne hx])
  rw [begun_of_busy hbusy, feed_of_ne hx]

@[simp] theorem read_nil : r.read nl [] = r := rfl

@[simp] theorem read_cons (text : List α) : r.read nl (x :: text) = (r.feed nl x).read nl text := rfl

theorem read_append (before after : List α) :
    r.read nl (before ++ after) = (r.read nl before).read nl after := List.foldl_append ..

/-- The symbols of a line. -/
theorem read_of_not_mem {text : List α} (h : nl ∉ text) :
    r.read nl text = { r with part := r.part ++ text } := by
  induction text generalizing r with
  | nil => simp
  | cons x text ih =>
    have hx : x ≠ nl := fun heq => h (heq ▸ List.mem_cons_self)
    rw [read_cons, feed_of_ne hx, ih fun hmem => h (List.mem_cons_of_mem _ hmem)]
    simp

/-- A whole line. -/
theorem read_line {line : List α} (hpart : r.part = []) (hline : nl ∉ line) (hne : line ≠ [])
    (rest : List α) :
    r.read nl (line ++ nl :: rest) = ({ r with lines := r.lines ++ [line] } : Reader α).read nl
      rest := by
  obtain ⟨frames, lines, part⟩ := r
  obtain rfl : part = [] := hpart
  rw [read_append, read_of_not_mem hline, read_cons, feed_nl (by simpa using hne)]
  rfl

/-- The frames that were there. -/
def behind (frames : List (List (List α))) (r : Reader α) : Reader α :=
  { r with frames := frames ++ r.frames }

omit [DecidableEq α] in
theorem behind_behind (before after : List (List (List α))) :
    (r.behind after).behind before = r.behind (before ++ after) := by
  unfold behind
  rw [List.append_assoc]

omit [DecidableEq α] in
theorem behind_close (frames : List (List (List α))) :
    (r.behind frames).close = r.close.behind frames := by
  unfold close
  by_cases h : r.lines = []
  · rw [if_pos h, if_pos (show (r.behind frames).lines = [] from h)]
    rfl
  · rw [if_neg h, if_neg (show (r.behind frames).lines ≠ [] from h)]
    simp [behind]

/-- The frames behind a reader have no part in what it does. -/
theorem behind_read (frames : List (List (List α))) (text : List α) :
    (r.behind frames).read nl text = (r.read nl text).behind frames := by
  induction text generalizing r with
  | nil => rfl
  | cons x text ih =>
    have hfeed : (r.behind frames).feed nl x = (r.feed nl x).behind frames := by
      by_cases hx : x = nl
      · subst hx
        by_cases hpart : r.part = []
        · rw [feed_nl_of_part hpart, feed_nl_of_part (show (r.behind frames).part = [] from hpart)]
          exact behind_close frames
        · rw [feed_nl hpart, feed_nl (show (r.behind frames).part ≠ [] from hpart)]
          rfl
      · rw [feed_of_ne hx, feed_of_ne hx]
        rfl
    rw [read_cons, read_cons, hfeed, ih]

end Reader

/-! ## Texts without a blank line -/

section

variable {nl : α} {frames : List (List (List α))} {lines : List (List α)} {part : List α}

omit [DecidableEq α] in
theorem Close.tail {x : α} {text : List α} (h : Close nl (x :: text)) : Close nl text := by
  cases text with
  | nil => exact .nil
  | cons y text => exact (List.isChain_cons_cons.mp h).2

omit [DecidableEq α] in
theorem Close.head {text : List α} (h : Close nl (nl :: text)) : text.head? ≠ some nl := by
  cases text with
  | nil => exact nofun
  | cons y text =>
    intro hy
    exact (List.isChain_cons_cons.mp h).1 ⟨rfl, Option.some.inj hy⟩

/-- A line that has begun goes on in the text. -/
theorem splitOn_append_of_not_mem (hpart : nl ∉ part) (text : List α) :
    (part ++ nl :: text).splitOn nl = part :: text.splitOn nl :=
  List.splitOn_append_cons_self_of_not_mem hpart text

/-- **A frame's text** is read as its lines that are not blank, once a blank line is behind it. -/
theorem read_frame {text : List α} (hclose : Close nl text) (hpart : nl ∉ part)
    (hbegun : part = [] → lines ≠ [] → text.head? ≠ some nl) :
    (Reader.mk frames lines part).read nl (text ++ [nl, nl]) =
      (Reader.mk frames (lines ++ nonblank nl (part ++ text)) []).close := by
  induction text generalizing lines part with
  | nil =>
    have hsplit : nonblank nl (part ++ []) = if part = [] then [] else [part] := by
      rw [List.append_nil, nonblank, List.splitOn_eq_singleton hpart]
      by_cases h : part = [] <;> simp [h]
    rw [hsplit]
    show ((Reader.mk frames lines part).feed nl nl).feed nl nl = _
    by_cases h : part = []
    · subst h
      have hclosed : (Reader.mk frames lines []).feed nl nl = (Reader.mk frames lines []).close :=
        Reader.feed_nl_of_part rfl
      rw [hclosed, Reader.feed_close, if_pos rfl, List.append_nil]
    · have hended : (Reader.mk frames lines part).feed nl nl =
          Reader.mk frames (lines ++ [part]) [] := Reader.feed_nl h
      rw [hended, Reader.feed_nl_of_part rfl, if_neg h]
  | cons x text ih =>
    show ((Reader.mk frames lines part).feed nl x).read nl (text ++ [nl, nl]) = _
    by_cases hx : x = nl
    · subst hx
      have hnext := hclose.head
      rw [nonblank, splitOn_append_of_not_mem hpart]
      by_cases h : part = []
      · -- A blank line before the frame.
        subst h
        have hlines : lines = [] := by
          by_contra hne
          exact hbegun rfl hne rfl
        subst hlines
        rw [Reader.feed_nl_of_part rfl, Reader.close_of_idle rfl rfl,
          ih hclose.tail hpart fun _ h => absurd rfl h]
        rfl
      · rw [Reader.feed_nl h, ih hclose.tail (List.not_mem_nil) fun _ _ => hnext,
          List.filter_cons_of_pos (by simpa using h), List.append_assoc]
        rfl
    · rw [Reader.feed_of_ne hx, ih hclose.tail, List.append_assoc]
      · rfl
      · simpa [hpart] using Ne.symm hx
      · exact fun h => absurd h (by simp)

/-- Nothing is a frame before a blank line. -/
theorem frames_read {text : List α} (hclose : Close nl text)
    (hbegun : part = [] → lines ≠ [] → text.head? ≠ some nl) :
    ((Reader.mk frames lines part).read nl text).frames = frames := by
  induction text generalizing lines part with
  | nil => rfl
  | cons x text ih =>
    show (((Reader.mk frames lines part).feed nl x).read nl text).frames = frames
    by_cases hx : x = nl
    · subst hx
      by_cases h : part = []
      · subst h
        have hlines : lines = [] := by
          by_contra hne
          exact hbegun rfl hne rfl
        subst hlines
        rw [Reader.feed_nl_of_part rfl, Reader.close_of_idle rfl rfl]
        exact ih hclose.tail fun _ h => absurd rfl h
      · rw [Reader.feed_nl h]
        exact ih hclose.tail fun _ _ => hclose.head
    · rw [Reader.feed_of_ne hx]
      exact ih hclose.tail fun h => absurd h (by simp)

end

end Frames
