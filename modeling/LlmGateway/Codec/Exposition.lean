import Mathlib.Tactic.Common

/-!
# Labelled samples, a line each

A sample is a name, labels in braces, and a value. What a label says is quoted, so
that it may hold any character, and a reader goes over a line character by
character. A line that begins with a hash says nothing.
-/

namespace LlmGateway

namespace Exposition

/-! ## Quoting -/

/-- What a character is inside quotes. -/
def escapeChar (c : Char) : List Char :=
  if c = '\\' then ['\\', '\\']
  else if c = '"' then ['\\', '"']
  else if c = '\n' then ['\\', 'n']
  else [c]

def escaped (text : List Char) : List Char := text.flatMap escapeChar

theorem newline_not_mem_escaped (text : List Char) : '\n' ∉ escaped text := by
  intro h
  obtain ⟨c, -, hc⟩ := List.mem_flatMap.mp h
  unfold escapeChar at hc
  split at hc
  next => exact absurd hc (by decide)
  next =>
    split at hc
    next => exact absurd hc (by decide)
    next =>
      split at hc
      next => exact absurd hc (by decide)
      next hnl => exact hnl (List.mem_singleton.mp hc).symm

/-! ## Samples -/

structure Sample where
  name : List Char := []
  labels : List (List Char × List Char) := []
  value : List Char := []
  deriving DecidableEq, Repr

def labelText (label : List Char × List Char) : List Char :=
  label.1 ++ ('=' :: '"' :: (escaped label.2 ++ ['"']))

/-- `name{key="text",...} value`. -/
def Sample.text (s : Sample) : List Char :=
  s.name ++ ('{' :: ([','].intercalate (s.labels.map labelText) ++ ('}' :: ' ' :: s.value)))

/-- Which texts a sample is made of without a reader being misled. -/
structure Sample.Plain (s : Sample) : Prop where
  name_ne : s.name ≠ []
  name_head : s.name.head? ≠ some '#'
  name : '{' ∉ s.name ∧ '\n' ∉ s.name
  keys : ∀ label ∈ s.labels, '=' ∉ label.1 ∧ '}' ∉ label.1 ∧ '\n' ∉ label.1
  value : '\n' ∉ s.value

/-! ## Reading -/

/-- Where in a line a reader is. -/
inductive Mode where
  | name
  | key
  | quote
  | text
  | slash
  | next
  | gap
  | value
  | failed
  deriving DecidableEq, Repr

/-- What it has read so far. -/
structure Reading where
  mode : Mode := .name
  sample : Sample := {}
  key : List Char := []
  text : List Char := []
  deriving DecidableEq, Repr

namespace Reading

def failed (r : Reading) : Reading := { r with mode := .failed }

/-- The label it has come to the end of. -/
def close (r : Reading) : Reading :=
  { r with
    mode := .next
    sample := { r.sample with labels := r.sample.labels ++ [(r.key, r.text)] }
    key := [], text := [] }

def step (r : Reading) (c : Char) : Reading :=
  match r.mode with
  | .name =>
    if c = '{' then { r with mode := .key }
    else { r with sample := { r.sample with name := r.sample.name ++ [c] } }
  | .key =>
    if c = '=' then { r with mode := .quote }
    else if c = '}' then (if r.key = [] then { r with mode := .gap } else r.failed)
    else { r with key := r.key ++ [c] }
  | .quote => if c = '"' then { r with mode := .text } else r.failed
  | .text =>
    if c = '"' then r.close
    else if c = '\\' then { r with mode := .slash }
    else { r with text := r.text ++ [c] }
  | .slash =>
    if c = 'n' then { r with mode := .text, text := r.text ++ ['\n'] }
    else if c = '\\' ∨ c = '"' then { r with mode := .text, text := r.text ++ [c] }
    else r.failed
  | .next =>
    if c = ',' then { r with mode := .key }
    else if c = '}' then { r with mode := .gap }
    else r.failed
  | .gap => if c = ' ' then { r with mode := .value } else r.failed
  | .value => { r with sample := { r.sample with value := r.sample.value ++ [c] } }
  | .failed => r

end Reading

/-- The sample of a line. -/
def readSample (line : List Char) : Option Sample :=
  let r := line.foldl Reading.step {}
  if r.mode = .value then some r.sample else none

/-- Whether a line says anything. -/
def telling (line : List Char) : Bool := line ≠ [] ∧ line.head? ≠ some '#'

/-- **What a scraper reads** of a text. -/
def scrape (text : List Char) : Option (List Sample) :=
  ((text.splitOn '\n').filter telling).mapM readSample

/-! ## Lines read back -/

/-- Characters that are collected one by one are collected together. -/
theorem foldl_collect {part : List Char} (put : List Char → Reading)
    (h : ∀ before, ∀ c ∈ part, (put before).step c = put (before ++ [c])) (before : List Char) :
    part.foldl Reading.step (put before) = put (before ++ part) := by
  induction part generalizing before with
  | nil => rw [List.foldl_nil, List.append_nil]
  | cons c part ih =>
    rw [List.foldl_cons, h before c List.mem_cons_self,
      ih (fun before d hd => h before d (List.mem_cons_of_mem c hd)), List.append_assoc,
      List.singleton_append]

section

variable {r : Reading}

/-- What was quoted. -/
theorem foldl_escaped (text : List Char) (h : r.mode = .text) :
    (escaped text).foldl Reading.step r = { r with text := r.text ++ text } := by
  induction text generalizing r with
  | nil => simp [escaped]
  | cons c text ih =>
    have hone : (escapeChar c).foldl Reading.step r = { r with text := r.text ++ [c] } := by
      unfold escapeChar
      split
      next hc => simp [Reading.step, h, hc]
      next hslash =>
        split
        next hc => simp [Reading.step, h, hc]
        next hquote =>
          split
          next hc => simp [Reading.step, h, hc]
          next => simp [Reading.step, h, hslash, hquote]
    have hmode : ({ r with text := r.text ++ [c] } : Reading).mode = .text := h
    rw [escaped, List.flatMap_cons, List.foldl_append, hone]
    refine (ih hmode).trans ?_
    simp only [List.append_assoc, List.singleton_append]

/-- One label. -/
theorem foldl_labelText (label : List Char × List Char)
    (hplain : '=' ∉ label.1 ∧ '}' ∉ label.1) (hmode : r.mode = .key) (hkey : r.key = [])
    (htext : r.text = []) :
    (labelText label).foldl Reading.step r =
      { r with
        mode := .next
        sample := { r.sample with labels := r.sample.labels ++ [label] } } := by
  have hname : label.1.foldl Reading.step r = { r with key := label.1 } := by
    have hstart : r = { r with key := [] } := by rw [← hkey]
    rw [hstart]
    refine foldl_collect (fun before => { r with key := before }) ?_ []
    intro before c hc
    have heq : c ≠ '=' := fun h => hplain.1 (h ▸ hc)
    have hbrace : c ≠ '}' := fun h => hplain.2 (h ▸ hc)
    simp [Reading.step, hmode, heq, hbrace]
  rw [labelText, List.foldl_append, hname]
  let r₁ : Reading := { r with mode := .text, key := label.1 }
  have hopen : ('=' :: '"' :: (escaped label.2 ++ ['"'])).foldl Reading.step
      { r with key := label.1 } = (escaped label.2 ++ ['"']).foldl Reading.step r₁ := by
    simp [Reading.step, hmode, r₁]
  rw [hopen, List.foldl_append, foldl_escaped label.2 (r := r₁) rfl]
  simp [Reading.step, Reading.close, r₁, hkey, htext]

/-- The labels, to the brace that closes them. -/
theorem foldl_labels (labels : List (List Char × List Char))
    (hplain : ∀ label ∈ labels, '=' ∉ label.1 ∧ '}' ∉ label.1) (hmode : r.mode = .key)
    (hkey : r.key = []) (htext : r.text = []) :
    ([','].intercalate (labels.map labelText) ++ ['}']).foldl Reading.step r =
      { r with
        mode := .gap
        sample := { r.sample with labels := r.sample.labels ++ labels } } := by
  induction labels generalizing r with
  | nil => simp [List.intercalate, Reading.step, hmode, hkey]
  | cons label labels ih =>
    have hone := foldl_labelText label (hplain label List.mem_cons_self) hmode hkey htext
    cases labels with
    | nil =>
      have hlast : [','].intercalate ([label].map labelText) = labelText label := by
        simp [List.intercalate]
      rw [hlast, List.foldl_append, hone]
      simp [Reading.step]
    | cons second labels =>
      have hmore : [','].intercalate ((label :: second :: labels).map labelText) =
          labelText label ++ (',' :: [','].intercalate ((second :: labels).map labelText)) := by
        simp [List.intercalate]
      rw [hmore, List.append_assoc, List.foldl_append, hone, List.cons_append, List.foldl_cons]
      let r₁ : Reading :=
        { r with mode := .key
                 sample := { r.sample with labels := r.sample.labels ++ [label] } }
      have hcomma : Reading.step
          { r with
            mode := .next
            sample := { r.sample with labels := r.sample.labels ++ [label] } } ',' = r₁ := by
        simp [Reading.step, r₁]
      rw [hcomma]
      refine (ih (r := r₁) (fun other h => hplain other (List.mem_cons_of_mem _ h)) rfl hkey
        htext).trans ?_
      simp [r₁]

end

/-- **A sample is read back** from its line. -/
theorem readSample_text {s : Sample} (h : s.Plain) : readSample s.text = some s := by
  have hname : s.name.foldl Reading.step {} = { sample := { name := s.name } } := by
    refine foldl_collect (fun before => { sample := { name := before } }) ?_ []
    intro before c hc
    have hbrace : c ≠ '{' := fun heq => h.name.1 (heq ▸ hc)
    simp [Reading.step, hbrace]
  have hlabels := foldl_labels s.labels (r := { mode := .key, sample := { name := s.name } })
    (fun label hlabel => ⟨(h.keys label hlabel).1, (h.keys label hlabel).2.1⟩) rfl rfl rfl
  have hvalue : ∀ r : Reading, r.mode = .value →
      s.value.foldl Reading.step r =
        { r with sample := { r.sample with value := r.sample.value ++ s.value } } := by
    intro r hr
    refine foldl_collect (fun before => { r with
      sample := { r.sample with value := before } }) ?_ r.sample.value
    intro before c _
    simp [Reading.step, hr]
  have hline : s.text.foldl Reading.step {} = { mode := .value, sample := s } := by
    have hsplit : s.text = s.name ++ ('{' :: (([','].intercalate (s.labels.map labelText) ++
        ['}']) ++ (' ' :: s.value))) := by
      simp [Sample.text]
    have hopen : Reading.step { sample := { name := s.name } } '{' =
        { mode := .key, sample := { name := s.name } } := by
      simp [Reading.step]
    rw [hsplit, List.foldl_append, hname, List.foldl_cons, hopen, List.foldl_append, hlabels,
      List.foldl_cons]
    refine (hvalue _ ?_).trans ?_
    · simp [Reading.step]
    · simp [Reading.step]
  rw [readSample, hline]
  rfl

/-! ## Texts read back -/

/-- A line that says nothing, or a sample. -/
inductive Line where
  | comment (text : List Char)
  | sample (s : Sample)

def Line.text : Line → List Char
  | .comment text => '#' :: text
  | .sample s => s.text

def Line.sample? : Line → Option Sample
  | .comment _ => none
  | .sample s => some s

def Line.Plain : Line → Prop
  | .comment text => '\n' ∉ text
  | .sample s => s.Plain

theorem Sample.Plain.telling {s : Sample} (h : s.Plain) : telling s.text = true := by
  obtain ⟨c, rest, hname⟩ := List.exists_cons_of_ne_nil h.name_ne
  have hhash : c ≠ '#' := fun heq => h.name_head (by rw [hname, heq]; rfl)
  simp [Exposition.telling, Sample.text, hname, hhash]

theorem newline_not_mem_intercalate {parts : List (List Char)} (h : ∀ part ∈ parts, '\n' ∉ part) :
    '\n' ∉ [','].intercalate parts := by
  induction parts with
  | nil => simp [List.intercalate]
  | cons part parts ih =>
    have hrest := ih fun other hother => h other (List.mem_cons_of_mem part hother)
    cases parts with
    | nil =>
      have hlast : [','].intercalate [part] = part := by simp [List.intercalate]
      rw [hlast]
      exact h part List.mem_cons_self
    | cons second parts =>
      have hmore : [','].intercalate (part :: second :: parts) =
          part ++ (',' :: [','].intercalate (second :: parts)) := by
        simp [List.intercalate]
      rw [hmore, List.mem_append, List.mem_cons]
      rintro (hpart | hcomma | hmem)
      · exact h part List.mem_cons_self hpart
      · exact absurd hcomma (by decide)
      · exact hrest hmem

theorem Sample.Plain.newline_not_mem {s : Sample} (h : s.Plain) : '\n' ∉ s.text := by
  have hlabels : '\n' ∉ [','].intercalate (s.labels.map labelText) := by
    refine newline_not_mem_intercalate ?_
    intro part hpart
    obtain ⟨label, hlabel, rfl⟩ := List.mem_map.mp hpart
    simp [labelText, (h.keys label hlabel).2.2, newline_not_mem_escaped]
  simp [Sample.text, h.name.2, hlabels, h.value]

theorem Line.Plain.newline_not_mem {line : Line} (h : line.Plain) : '\n' ∉ line.text := by
  cases line with
  | comment text =>
    have htext : '\n' ∉ text := h
    simp [Line.text, htext]
  | sample s => exact Sample.Plain.newline_not_mem h

/-- Lines put one below the other. -/
def body (lines : List (List Char)) : List Char := ['\n'].intercalate lines ++ ['\n']

theorem splitOn_body {lines : List (List Char)} (h : ∀ line ∈ lines, '\n' ∉ line)
    (hne : lines ≠ []) : (body lines).splitOn '\n' = lines ++ [[]] := by
  induction lines with
  | nil => exact absurd rfl hne
  | cons line lines ih =>
    have hline := h line List.mem_cons_self
    cases lines with
    | nil =>
      have hlast : body [line] = line ++ '\n' :: [] := by simp [body, List.intercalate]
      rw [hlast, List.splitOn_append_cons_self_of_not_mem hline]
      rfl
    | cons second lines =>
      have hmore : body (line :: second :: lines) = line ++ '\n' :: body (second :: lines) := by
        simp [body, List.intercalate]
      rw [hmore, List.splitOn_append_cons_self_of_not_mem hline,
        ih (fun other hother => h other (List.mem_cons_of_mem line hother)) (by simp)]
      rfl

/-- **Samples are read back** from the text they are written in, in their order. -/
theorem scrape_body {lines : List Line} (h : ∀ line ∈ lines, line.Plain) (hne : lines ≠ []) :
    scrape (body (lines.map Line.text)) = some (lines.filterMap Line.sample?) := by
  have hlines : ∀ line ∈ lines.map Line.text, '\n' ∉ line := by
    intro text htext
    obtain ⟨line, hline, rfl⟩ := List.mem_map.mp htext
    exact (h line hline).newline_not_mem
  rw [scrape, splitOn_body hlines (by simpa using hne), List.filter_append]
  have hblank : [([] : List Char)].filter telling = [] := rfl
  rw [hblank, List.append_nil]
  clear hlines hne
  induction lines with
  | nil => rfl
  | cons line lines ih =>
    have hrest := ih fun other hother => h other (List.mem_cons_of_mem line hother)
    have hline := h line List.mem_cons_self
    rw [List.map_cons]
    cases line with
    | comment text =>
      rw [List.filter_cons_of_neg (by simp [telling, Line.text]), hrest]
      rfl
    | sample s =>
      have hplain : s.Plain := hline
      have htelling : telling (Line.sample s).text = true := hplain.telling
      rw [List.filter_cons_of_pos htelling, List.mapM_cons, hrest]
      show (readSample s.text >>= _) = _
      rw [readSample_text hplain]
      rfl

end Exposition

end LlmGateway
