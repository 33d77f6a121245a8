import LlmGateway.Text.Words
import Mathlib.Data.List.Infix

/-!
# Lines

A text cut into lines, where a line may end at more than a line feed. Nothing is
left of the line ends, and a text that ends with one has no empty line behind it.
-/

namespace LlmGateway

namespace Text

/-- The line boundaries of `str.splitlines`. -/
def isBreak (c : Char) : Bool :=
  let n := c.toNat
  (10 ≤ n && n ≤ 13) || (28 ≤ n && n ≤ 30) || n = 0x85 || n = 0x2028 || n = 0x2029

/-- `str.splitlines()`. -/
def splitlines : List Char → List (List Char)
  | [] => []
  | '\r' :: '\n' :: rest => [] :: splitlines rest
  | c :: rest =>
    if isBreak c then [] :: splitlines rest
    else match splitlines rest with
      | [] => [[c]]
      | line :: lines => (c :: line) :: lines

/-- How a line may end where only carriage returns and line feeds end one. -/
inductive Eol where
  | lf
  | cr
  | crlf
  deriving DecidableEq, Repr

def Eol.chars : Eol → List Char
  | .lf => ['\n']
  | .cr => ['\r']
  | .crlf => ['\r', '\n']

/-- `str.lstrip()`. -/
def lstrip (text : List Char) : List Char := text.dropWhile isSpace

theorem unbroken_of_any {line : List Char} (h : line.any isBreak = false) :
    ∀ c ∈ line, isBreak c = false := by
  intro c hc
  exact Bool.not_eq_true _ |>.mp (List.any_eq_false.mp h c hc)

/-- What is left of a text does not begin with white space. -/
theorem not_isSpace_head_lstrip {text : List Char} {c : Char} (h : c ∈ (lstrip text).head?) :
    isSpace c = false := by
  have hhead := List.head?_dropWhile_not isSpace text
  rw [show (text.dropWhile isSpace).head? = some c from h] at hhead
  exact hhead

theorem lstrip_of_head {text : List Char} (h : ∀ c ∈ text.head?, isSpace c = false) :
    lstrip text = text := by
  cases text with
  | nil => rfl
  | cons c rest => exact List.dropWhile_cons_of_neg (by simp [h c rfl])

/-- **No line holds a line boundary.** -/
theorem not_isBreak_of_mem_splitlines {text line : List Char} (h : line ∈ splitlines text) :
    ∀ c ∈ line, isBreak c = false := by
  induction text using splitlines.induct generalizing line with
  | case1 => exact absurd h List.not_mem_nil
  | case2 rest ih =>
    -- Carriage return and line feed together end one line.
    rw [splitlines] at h
    rcases List.mem_cons.mp h with rfl | hrest
    · exact fun c hc => absurd hc List.not_mem_nil
    · exact ih hrest
  | case3 c rest hcrlf hbreak ih =>
    rw [splitlines.eq_3 _ _ hcrlf, if_pos hbreak] at h
    rcases List.mem_cons.mp h with rfl | hrest
    · exact fun c hc => absurd hc List.not_mem_nil
    · exact ih hrest
  | case4 c rest hcrlf hbreak hlines ih =>
    rw [splitlines.eq_3 _ _ hcrlf, if_neg hbreak, hlines] at h
    intro d hd
    rw [List.mem_singleton.mp h] at hd
    rw [List.mem_singleton.mp hd]
    exact eq_false_of_ne_true hbreak
  | case5 c rest hcrlf hbreak first lines hlines ih =>
    rw [splitlines.eq_3 _ _ hcrlf, if_neg hbreak, hlines] at h
    rw [hlines] at ih
    rcases List.mem_cons.mp h with rfl | hrest
    · intro d hd
      rcases List.mem_cons.mp hd with rfl | hfirst
      · exact eq_false_of_ne_true hbreak
      · exact ih List.mem_cons_self d hfirst
    · exact ih (List.mem_cons_of_mem _ hrest)

/-- A line end, unless what follows makes another one of it. -/
theorem splitlines_eol {eol : Eol} {rest : List Char}
    (h : eol = .cr → rest.head? ≠ some '\n') :
    splitlines (eol.chars ++ rest) = [] :: splitlines rest := by
  cases eol with
  | lf => rfl
  | crlf => rfl
  | cr =>
    cases rest with
    | nil => rfl
    | cons c rest =>
      have hc : c ≠ '\n' := fun heq => h rfl (congrArg some heq)
      exact splitlines.eq_3 _ _ fun after _ heq => hc (List.cons_eq_cons.mp heq).1

/-- **One line** and its end. -/
theorem splitlines_line {eol : Eol} {line rest : List Char} (hline : ∀ c ∈ line, isBreak c = false)
    (hrest : eol = .cr → rest.head? ≠ some '\n') :
    splitlines (line ++ (eol.chars ++ rest)) = line :: splitlines rest := by
  induction line with
  | nil => exact splitlines_eol hrest
  | cons c line ih =>
    have hc : isBreak c = false := hline c List.mem_cons_self
    have hcrlf : ∀ after, c = '\r' → line ++ (eol.chars ++ rest) = '\n' :: after → False := by
      rintro after rfl -
      exact absurd hc (by decide)
    rw [List.cons_append, splitlines.eq_3 _ _ hcrlf, hc,
      ih fun d hd => hline d (List.mem_cons_of_mem _ hd)]
    rfl

/-! ## Writing lines -/

/-- A text of lines, each with its end. -/
def unlines (eol : Eol) (lines : List (List Char)) : List Char :=
  lines.flatMap fun line => line ++ eol.chars

theorem unlines_cons (eol : Eol) (line : List Char) (lines : List (List Char)) :
    unlines eol (line :: lines) = line ++ (eol.chars ++ unlines eol lines) := by
  rw [unlines, List.flatMap_cons, List.append_assoc]
  rfl

/-- Where lines end in carriage returns, none of them begins where a line feed is read. -/
theorem head?_unlines {lines : List (List Char)} (h : ∀ line ∈ lines, line.head? ≠ some '\n') :
    (unlines .cr lines).head? ≠ some '\n' := by
  cases lines with
  | nil => exact fun hhead => nomatch hhead
  | cons line lines =>
    have hline := h line List.mem_cons_self
    rw [unlines_cons]
    cases line with
    | nil => exact fun hhead => absurd (Option.some.inj hhead) (by decide)
    | cons c line => exact hline

/-- **Whole lines are read as they were written**, whatever is made of the ones behind them. -/
theorem splitlines_unlines {eol : Eol} {before after : List (List Char)}
    (hbefore : ∀ line ∈ before, ∀ c ∈ line, isBreak c = false)
    (hafter : ∀ line ∈ after, line.head? ≠ some '\n') :
    splitlines (unlines eol (before ++ after)) = before ++ splitlines (unlines eol after) := by
  induction before with
  | nil => rfl
  | cons line before ih =>
    have hrest : ∀ other ∈ before ++ after, other.head? ≠ some '\n' := by
      intro other hother hhead
      rcases List.mem_append.mp hother with hmem | hmem
      · have hbreak := hbefore other (List.mem_cons_of_mem _ hmem) _ (List.mem_of_mem_head? hhead)
        exact absurd hbreak (by decide)
      · exact hafter other hmem hhead
    rw [List.cons_append, unlines_cons, splitlines_line (hbefore line List.mem_cons_self),
      ih fun other hother => hbefore other (List.mem_cons_of_mem _ hother)]
    · rfl
    · rintro rfl
      exact head?_unlines hrest

end Text

end LlmGateway
