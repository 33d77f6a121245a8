import Mathlib.Data.Bool.AllAny
import LlmGateway.Providers.Events

/-!
# What a provider's stream says

A body is written as events are: a `data:` field for every line of a payload, a
blank line behind it, and comments and more blank lines in between. What the
adapter reads of it does not depend on when the lines come, as long as they come
in time, and so it is looked at apart from the clock.
-/

namespace LlmGateway

namespace Providers

namespace Events

open Text

/-! ## Apart from the clock -/

/-- What has been read of the events. -/
structure Assembly where
  dataLines : List (List Char) := []
  yielded : List (List Char) := []
  /-- `[DONE]` has been read. -/
  closed : Bool := false
  deriving DecidableEq, Repr

namespace Assembly

variable {a : Assembly}

/-- A blank line, or the end. -/
def flush (a : Assembly) : Assembly :=
  if a.dataLines = [] then a
  else
    let payload := ['\n'].intercalate a.dataLines
    if payload = sentinel then { a with dataLines := [], closed := true }
    else { a with dataLines := [], yielded := a.yielded ++ [payload] }

def take (a : Assembly) (raw : List Char) : Assembly :=
  let line := rstripEol raw
  if a.closed then a
  else if dataField.isPrefixOf line then
    { a with dataLines := a.dataLines ++ [lstrip (line.drop dataField.length)] }
  else if line = [] then a.flush
  else a

def read (a : Assembly) (lines : List (List Char)) : Assembly := lines.foldl take a

/-- What is handed on of a stream with these lines. -/
def finish (a : Assembly) : List (List Char) := if a.closed then a.yielded else a.flush.yielded

theorem take_of_closed (h : a.closed = true) (raw : List Char) : a.take raw = a := if_pos h

theorem read_of_closed (h : a.closed = true) (lines : List (List Char)) : a.read lines = a := by
  induction lines with
  | nil => rfl
  | cons line lines ih => rw [read, List.foldl_cons, take_of_closed h]; exact ih

theorem read_cons (line : List Char) (lines : List (List Char)) :
    a.read (line :: lines) = (a.take line).read lines := rfl

theorem read_append (before after : List (List Char)) :
    a.read (before ++ after) = (a.read before).read after := List.foldl_append ..

end Assembly

section

variable {E : Type} {idle now : Seconds} {loop : Loop E}

/-- What a loop has read. -/
def Loop.assembly (loop : Loop E) : Assembly where
  dataLines := loop.dataLines
  yielded := loop.yielded
  closed := loop.ended.isSome

theorem assembly_flush (h : loop.ended = none) : loop.flush.assembly = loop.assembly.flush := by
  unfold Loop.flush Assembly.flush Loop.assembly
  by_cases hlines : loop.dataLines = []
  · rw [if_pos hlines, if_pos hlines]
  · rw [if_neg hlines, if_neg hlines]
    dsimp only
    split
    · rfl
    · rw [h]

/-- **The clock has no part in what a line says.** -/
theorem assembly_take (idle now : Seconds) (h : loop.ended = none) (raw : List Char) :
    (loop.take idle now raw).assembly = loop.assembly.take raw := by
  have hopen : loop.assembly.closed = false := by
    rw [Loop.assembly, h]
    rfl
  unfold Loop.take Assembly.take
  dsimp only
  rw [hopen, if_neg Bool.false_ne_true]
  by_cases hcomment : (rstripEol raw).head? = some ':'
  · -- To the assembly a comment is a line like any other that is no field.
    cases hline : rstripEol raw with
    | nil =>
      rw [hline] at hcomment
      cases hcomment
    | cons c rest =>
      rw [hline] at hcomment
      obtain rfl := Option.some.inj hcomment
      rfl
  · rw [if_neg hcomment]
    split
    · simp [Loop.assembly, h]
    · split
      · exact assembly_flush h
      · rfl

/-- **What a stream in time hands on** is what its lines say. -/
theorem yielded_run {lines : List (List Char)} {ticks : List (Tick E)} (h : loop.ended = none)
    (hticks : ticks.map (·.coming) = lines.map .line ++ [.stop])
    (hdone : (loop.run idle ticks).ended = some .done) :
    (loop.run idle ticks).yielded = (loop.assembly.read lines).finish := by
  induction lines generalizing loop ticks with
  | nil =>
    obtain ⟨tick, rfl, hcoming⟩ := List.map_eq_singleton_iff.mp hticks
    change (loop.step idle tick).ended = _ at hdone
    change (loop.step idle tick).yielded = _
    rcases step_of_none idle tick h with ⟨hstep, -⟩ | ⟨hstep, -⟩
    · rw [hstep] at hdone
      cases hdone
    · rw [hstep, hcoming]
      have hopen : loop.assembly.closed = false := by
        rw [Loop.assembly, h]
        rfl
      rw [Assembly.read, List.foldl_nil, Assembly.finish, hopen, if_neg Bool.false_ne_true,
        ← assembly_flush h]
      rfl
  | cons line lines ih =>
    obtain ⟨tick, ticks, rfl, hcoming, hrest⟩ := List.map_eq_cons_iff.mp hticks
    rw [run_cons] at hdone ⊢
    rcases step_of_none idle tick h with ⟨hstep, -⟩ | ⟨hstep, -⟩
    · rw [hstep, run_of_some rfl] at hdone
      cases hdone
    · rw [hcoming] at hstep
      dsimp only at hstep
      rw [hstep] at hdone ⊢
      rw [Assembly.read_cons, ← assembly_take idle tick.now h]
      rcases ended_take idle tick.now h line with hnone | hend
      · exact ih hnone hrest hdone
      · -- Behind `[DONE]` nothing is read.
        have hclosed : (loop.take idle tick.now line).assembly.closed = true := by
          rw [Loop.assembly, hend]
          rfl
        rw [run_of_some (by rw [hend]; rfl), Assembly.read_of_closed hclosed, Assembly.finish,
          if_pos hclosed]
        rfl

end

/-! ## Writing events -/

/-- A comment is one line of the body. -/
structure Comment where
  text : List Char
  line : ∀ c ∈ text, isBreak c = false

/-- What a body is made of. -/
inductive Item where
  /-- An event, with a space behind each `data:` or without one. The sentinel is one of them. -/
  | event (payload : List Char) (spaced : Bool)
  | comment (keepalive : Comment)
  | blank

/-- One line of a payload. -/
def field (spaced : Bool) (line : List Char) : List Char :=
  dataField ++ ((if spaced then [' '] else []) ++ line)

def Item.lines : Item → List (List Char)
  | .event payload spaced => (payload.splitOn '\n').map (field spaced) ++ [[]]
  | .comment keepalive => [':' :: keepalive.text]
  | .blank => [[]]

/-- A body as it is sent. -/
def body (eol : Eol) (items : List Item) : List Char := unlines eol (items.flatMap (·.lines))

def Item.payload : Item → Option (List Char)
  | .event payload _ => some payload
  | .comment _ | .blank => none

/-- The payloads up to the sentinel. -/
def payloads (items : List Item) : List (List Char) :=
  (items.filterMap (·.payload)).takeWhile (· ≠ sentinel)

/-- A line that is read as it was written. -/
structure Fragment (line : List Char) : Prop where
  unbroken : ∀ c ∈ line, isBreak c = false
  flush : ∀ c ∈ line.head?, isSpace c = false

/-- **A payload that gets through**: no line of it holds a line boundary or begins with white
space. -/
def Whole (payload : List Char) : Prop := ∀ line ∈ payload.splitOn '\n', Fragment line

theorem whole_sentinel : Whole sentinel := by
  intro line hline
  obtain rfl := List.mem_singleton.mp hline
  refine ⟨unbroken_of_any (by decide), fun c hc => ?_⟩
  obtain rfl := Option.some.inj hc
  decide

/-- **What JSON leaves to a payload on one line**: all that may cut it are the three characters
beyond ASCII that end a line, and JSON takes them in a string as they are. -/
theorem whole_iff_of_line {payload : List Char} (hline : ∀ c ∈ payload, ' '.toNat ≤ c.toNat)
    (hhead : ∀ c ∈ payload.head?, isSpace c = false) :
    Whole payload ↔ ∀ c ∈ payload, c.toNat ≠ 0x85 ∧ c.toNat ≠ 0x2028 ∧ c.toNat ≠ 0x2029 := by
  have hone : payload.splitOn '\n' = [payload] := by
    refine List.splitOn_eq_singleton fun hmem => ?_
    exact absurd (hline _ hmem) (by decide)
  have hbreak : ∀ c ∈ payload, isBreak c = false ↔
      c.toNat ≠ 0x85 ∧ c.toNat ≠ 0x2028 ∧ c.toNat ≠ 0x2029 := by
    intro c hc
    have hvisible : 32 ≤ c.toNat := hline c hc
    rw [← Bool.not_eq_true]
    unfold isBreak
    simp only [Bool.or_eq_true, Bool.and_eq_true, decide_eq_true_eq]
    omega
  unfold Whole
  rw [hone]
  constructor
  · intro hwhole c hc
    exact (hbreak c hc).mp ((hwhole payload (List.mem_singleton_self _)).unbroken c hc)
  · intro hchars line hmem
    obtain rfl := List.mem_singleton.mp hmem
    exact ⟨fun c hc => (hbreak c hc).mpr (hchars c hc), hhead⟩

/-! ## Reading what was written -/

section

variable {a : Assembly}

theorem rstripEol_of_unbroken {line : List Char} (h : ∀ c ∈ line, isBreak c = false) :
    rstripEol line = line := by
  have hreverse : line.reverse.dropWhile (fun c => c = '\r' || c = '\n') = line.reverse := by
    cases hline : line.reverse with
    | nil => rfl
    | cons c rest =>
      have hc : isBreak c = false := h c (List.mem_reverse.mp (by rw [hline]; exact List.mem_cons_self))
      have hcr : c ≠ '\r' := by
        rintro rfl
        exact absurd hc (by decide)
      have hlf : c ≠ '\n' := by
        rintro rfl
        exact absurd hc (by decide)
      exact List.dropWhile_cons_of_neg (by simp [hcr, hlf])
  rw [rstripEol, hreverse, List.reverse_reverse]

theorem unbroken_field {spaced : Bool} {line : List Char} (h : ∀ c ∈ line, isBreak c = false) :
    ∀ c ∈ field spaced line, isBreak c = false := by
  have hname : ∀ c ∈ dataField, isBreak c = false := unbroken_of_any (by decide)
  have hspace : ∀ c ∈ (if spaced then [' '] else []), isBreak c = false :=
    unbroken_of_any (by cases spaced <;> decide)
  intro c hc
  rcases List.mem_append.mp hc with hc | hc
  · exact hname c hc
  · rcases List.mem_append.mp hc with hc | hc
    · exact hspace c hc
    · exact h c hc

theorem take_field (hopen : a.closed = false) {line : List Char} (h : Fragment line)
    (spaced : Bool) :
    a.take (field spaced line) = { a with dataLines := a.dataLines ++ [line] } := by
  have hprefix : dataField.isPrefixOf (field spaced line) = true :=
    List.isPrefixOf_iff_prefix.mpr (List.prefix_append _ _)
  have hvalue : lstrip ((field spaced line).drop dataField.length) = line := by
    rw [field, List.drop_left]
    -- The space behind the colon goes with the white space a value begins with.
    cases spaced with
    | false => exact lstrip_of_head h.flush
    | true => exact lstrip_of_head h.flush
  unfold Assembly.take
  rw [hopen, rstripEol_of_unbroken (unbroken_field h.unbroken)]
  dsimp only
  rw [if_neg Bool.false_ne_true, if_pos hprefix, hvalue]

theorem take_blank (hopen : a.closed = false) : a.take [] = a.flush := by
  unfold Assembly.take
  rw [hopen]
  rfl

theorem Comment.unbroken (comment : Comment) : ∀ c ∈ ':' :: comment.text, isBreak c = false := by
  intro c hc
  rcases List.mem_cons.mp hc with rfl | hc
  · decide
  · exact comment.line c hc

theorem take_comment (comment : Comment) : a.take (':' :: comment.text) = a := by
  unfold Assembly.take
  rw [rstripEol_of_unbroken comment.unbroken]
  dsimp only
  split
  · rfl
  · rfl

theorem read_fields (hopen : a.closed = false) {lines : List (List Char)}
    (h : ∀ line ∈ lines, Fragment line) (spaced : Bool) :
    a.read (lines.map (field spaced)) = { a with dataLines := a.dataLines ++ lines } := by
  induction lines generalizing a with
  | nil => simp [Assembly.read]
  | cons line lines ih =>
    rw [List.map_cons, Assembly.read_cons, take_field hopen (h line List.mem_cons_self)]
    rw [ih (a := { a with dataLines := a.dataLines ++ [line] }) hopen
      fun other hother => h other (List.mem_cons_of_mem _ hother)]
    simp

/-- **One event** that gets through. -/
theorem read_event (hopen : a.closed = false) (hidle : a.dataLines = []) {payload : List Char}
    (h : Whole payload) (spaced : Bool) :
    a.read (Item.event payload spaced).lines =
      if payload = sentinel then { a with closed := true }
      else { a with yielded := a.yielded ++ [payload] } := by
  have hpayload : ['\n'].intercalate (payload.splitOn '\n') = payload := List.intercalate_splitOn _
  rw [Item.lines, Assembly.read_append, read_fields hopen h, hidle, List.nil_append]
  change Assembly.take _ [] = _
  rw [take_blank (a := { a with dataLines := payload.splitOn '\n' }) hopen, Assembly.flush,
    if_neg (List.splitOn_ne_nil _ _)]
  simp only [hpayload]

/-- The lines of an event that gets through are not cut. -/
theorem unbroken_lines {payload : List Char} (h : Whole payload) (spaced : Bool) :
    ∀ line ∈ (Item.event payload spaced).lines, ∀ c ∈ line, isBreak c = false := by
  intro line hline
  rcases List.mem_append.mp hline with hfield | hblank
  · obtain ⟨fragment, hfragment, rfl⟩ := List.mem_map.mp hfield
    exact unbroken_field (h fragment hfragment).unbroken
  · rw [List.mem_singleton.mp hblank]
    exact fun c hc => absurd hc List.not_mem_nil

/-- No line of a body begins where a line feed is read. -/
theorem head?_lines (items : List Item) :
    ∀ line ∈ items.flatMap (·.lines), line.head? ≠ some '\n' := by
  intro line hline
  obtain ⟨item, -, hitem⟩ := List.mem_flatMap.mp hline
  cases item with
  | event payload spaced =>
    rcases List.mem_append.mp hitem with hfield | hblank
    · obtain ⟨fragment, -, rfl⟩ := List.mem_map.mp hfield
      exact fun hhead => absurd (Option.some.inj hhead) (by decide)
    · rw [List.mem_singleton.mp hblank]
      exact nofun
  | comment keepalive =>
    rw [List.mem_singleton.mp hitem]
    exact fun hhead => absurd (Option.some.inj hhead) (by decide)
  | blank =>
    rw [List.mem_singleton.mp hitem]
    exact nofun

theorem splitlines_body_cons {eol : Eol} {item : Item} (items : List Item)
    (h : ∀ line ∈ item.lines, ∀ c ∈ line, isBreak c = false) :
    splitlines (body eol (item :: items)) = item.lines ++ splitlines (body eol items) := by
  rw [body, List.flatMap_cons]
  exact splitlines_unlines h (head?_lines items)

/-- **A body whose payloads get through** is read as it was written. -/
theorem finish_read_body {eol : Eol} {items : List Item} (hopen : a.closed = false)
    (hidle : a.dataLines = []) (h : ∀ payload ∈ payloads items, Whole payload) :
    (a.read (splitlines (body eol items))).finish = a.yielded ++ payloads items := by
  -- Between two items no field is pending.
  induction items generalizing a with
  | nil =>
    change a.finish = _
    rw [Assembly.finish, hopen, if_neg Bool.false_ne_true, Assembly.flush, if_pos hidle]
    exact (List.append_nil _).symm
  | cons item items ih =>
    cases item with
    | event payload spaced =>
      by_cases hend : payload = sentinel
      · -- What is behind the sentinel need not get through.
        subst hend
        have hlines := unbroken_lines whole_sentinel spaced
        rw [splitlines_body_cons items hlines, Assembly.read_append,
          read_event hopen hidle whole_sentinel, if_pos rfl, Assembly.read_of_closed rfl]
        simp [Assembly.finish, payloads, Item.payload]
      · have hpayloads : payloads (.event payload spaced :: items) = payload :: payloads items := by
          simp [payloads, Item.payload, hend]
        rw [hpayloads] at h ⊢
        have hwhole := h payload List.mem_cons_self
        rw [splitlines_body_cons items (unbroken_lines hwhole spaced), Assembly.read_append,
          read_event hopen hidle hwhole, if_neg hend]
        rw [ih (a := { a with yielded := a.yielded ++ [payload] }) hopen hidle
          fun other hother => h other (List.mem_cons_of_mem _ hother)]
        simp
    | comment keepalive =>
      have hline : ∀ line ∈ (Item.comment keepalive).lines, ∀ c ∈ line, isBreak c = false := by
        intro line hline
        rw [List.mem_singleton.mp hline]
        exact keepalive.unbroken
      rw [splitlines_body_cons items hline, Assembly.read_append]
      change ((Assembly.take a _).read _).finish = _
      rw [take_comment keepalive]
      exact ih hopen hidle h
    | blank =>
      have hline : ∀ line ∈ Item.blank.lines, ∀ c ∈ line, isBreak c = false := by
        intro line hline c hc
        rw [List.mem_singleton.mp hline] at hc
        exact absurd hc List.not_mem_nil
      rw [splitlines_body_cons items hline, Assembly.read_append]
      change ((Assembly.take a _).read _).finish = _
      rw [take_blank hopen, Assembly.flush, if_pos hidle]
      exact ih hopen hidle h

/-! ## What can be read at all -/

/-- What has been read is whole. -/
structure Assembly.Whole (a : Assembly) : Prop where
  dataLines : ∀ line ∈ a.dataLines, Fragment line
  yielded : ∀ payload ∈ a.yielded, Events.Whole payload

theorem whole_intercalate {lines : List (List Char)} (hne : lines ≠ [])
    (h : ∀ line ∈ lines, Fragment line) : Whole (['\n'].intercalate lines) := by
  have hlf : ∀ line ∈ lines, '\n' ∉ line := by
    intro line hline hmem
    exact absurd ((h line hline).unbroken _ hmem) (by decide)
  unfold Whole
  rw [List.splitOn_intercalate _ hlf hne]
  exact h

theorem Assembly.Whole.flush (h : a.Whole) : a.flush.Whole := by
  unfold Assembly.flush
  by_cases hlines : a.dataLines = []
  · rw [if_pos hlines]
    exact h
  · rw [if_neg hlines]
    dsimp only
    split
    · exact ⟨fun line hline => absurd hline List.not_mem_nil, h.yielded⟩
    · refine ⟨fun line hline => absurd hline List.not_mem_nil, fun payload hpayload => ?_⟩
      rcases List.mem_append.mp hpayload with hold | hnew
      · exact h.yielded payload hold
      · rw [List.mem_singleton.mp hnew]
        exact whole_intercalate hlines h.dataLines

/-- A line that holds no boundary says nothing that does. -/
theorem Assembly.Whole.take (h : a.Whole) {line : List Char} (hline : ∀ c ∈ line, isBreak c = false) :
    (a.take line).Whole := by
  unfold Assembly.take
  rw [rstripEol_of_unbroken hline]
  dsimp only
  split
  · exact h
  · split
    · refine ⟨fun other hother => ?_, h.yielded⟩
      rcases List.mem_append.mp hother with hold | hnew
      · exact h.dataLines other hold
      · rw [List.mem_singleton.mp hnew]
        refine ⟨fun c hc => hline c ?_, fun c hc => not_isSpace_head_lstrip hc⟩
        exact List.mem_of_mem_drop ((List.dropWhile_sublist isSpace).subset hc)
    · split
      · exact h.flush
      · exact h

theorem Assembly.Whole.read (h : a.Whole) {lines : List (List Char)}
    (hlines : ∀ line ∈ lines, ∀ c ∈ line, isBreak c = false) : (a.read lines).Whole := by
  induction lines generalizing a with
  | nil => exact h
  | cons line lines ih =>
    exact ih (h.take (hlines line List.mem_cons_self)) fun other hother =>
      hlines other (List.mem_cons_of_mem _ hother)

theorem Assembly.Whole.finish (h : a.Whole) : ∀ payload ∈ a.finish, Events.Whole payload := by
  unfold Assembly.finish
  split
  · exact h.yielded
  · exact h.flush.yielded

end

section

variable {E : Type}

/-! ## A stream without a delay -/

/-- Every line is there at once. -/
def calm (start : Seconds) (lines : List (List Char)) : List (Tick E) :=
  (lines.map Coming.line ++ [Coming.stop]).map fun coming =>
    { coming, top := start, arrival := start, now := start }

theorem coming_calm (start : Seconds) (lines : List (List Char)) :
    (calm start lines : List (Tick E)).map (·.coming) = lines.map .line ++ [.stop] := by
  rw [calm, List.map_map]
  exact List.map_id _

/-- Within the deadline a loop takes what comes. -/
theorem step_calm {idle start : Seconds} (hidle : 0 < idle) (coming : Coming E) {loop : Loop E}
    (h : loop.ended = none) (hdeadline : loop.deadline = start + idle) :
    loop.step idle { coming, top := start, arrival := start, now := start } =
      match coming with
      | .line raw => loop.take idle start raw
      | .stop => { loop.flush with ended := some .done }
      | .fault fault => { loop with ended := some (.failed fault) } := by
  rcases step_of_none idle { coming, top := start, arrival := start, now := start } h with
    ⟨-, hlate⟩ | ⟨hstep, -⟩
  · rw [hdeadline] at hlate
    rcases hlate with hlate | hlate <;> dsimp only at hlate <;> linarith
  · exact hstep

/-- It ends as it should. -/
theorem ended_calm {idle start : Seconds} (hidle : 0 < idle) (lines : List (List Char))
    {loop : Loop E} (h : loop.ended = none) (hdeadline : loop.deadline = start + idle) :
    (loop.run idle (calm start lines)).ended = some .done := by
  induction lines generalizing loop with
  | nil =>
    change (loop.step idle _).ended = _
    rw [step_calm hidle .stop h hdeadline]
  | cons line lines ih =>
    change ((loop.step idle _).run idle (calm start lines)).ended = _
    rw [step_calm hidle (.line line) h hdeadline]
    rcases ended_take idle start h line with hnone | hend
    · refine ih hnone ?_
      rw [deadline_take, hdeadline]
      split <;> rfl
    · dsimp only
      rw [run_of_some (by rw [hend]; rfl), hend]

theorem ended_streamEvents_calm {idle : Seconds} (start : Seconds) (hidle : 0 < idle)
    (lines : List (List Char)) :
    (streamEvents (.answered 200 ()) idle start (calm start lines)).ended = some .done := by
  rw [streamEvents_of_lt () (by decide)]
  exact ended_calm hidle lines rfl rfl

end

/-- A greeting between comments, and the sentinel. -/
def greeting : List Item :=
  [.comment ⟨"OPENROUTER PROCESSING".toList, unbroken_of_any (by decide)⟩, .blank,
    .event "\x7b\"text\":\"hi\"\x7d".toList true, .event sentinel true]

/-- A line separator inside a string of JSON. -/
def separated : List Item :=
  [.event "\x7b\"text\":\"a\u2028b\"\x7d".toList true, .event sentinel true]

end Events

end Providers

end LlmGateway
