import LlmGateway.Codec.Frames
import LlmGateway.Codec.Utf

/-!
# The streaming client

`SseParser` of the browser: a chunk's line endings are made one, it is put behind
what was left, and every blank line closes a frame. What comes out is what a
reader of the chunks, each with its own line endings, has behind it.
-/

namespace LlmGateway

namespace Frontend

open Frames

/-- A JavaScript string. -/
abbrev JsString : Type := List UInt16

/-- A literal. -/
def js (text : String) : JsString := Utf.utf16 text.toList

def nl : UInt16 := 10

def cr : UInt16 := 13

def colon : UInt16 := 58

def space : UInt16 := 32

/-! ## Framing -/

/-- `EVENT_NAMES`. -/
def eventNames : List JsString := [js "meta", js "delta", js "restart", js "done"]

/-- `chunk.replace(/\r\n?/g, "\n")`. -/
def normalize : JsString → JsString
  | [] => []
  | [x] => [if x = cr then nl else x]
  | x :: y :: rest =>
    if x = cr then
      if y = nl then nl :: normalize rest else nl :: normalize (y :: rest)
    else x :: normalize (y :: rest)

/-- `buffer.indexOf("\n\n")`. -/
def boundary : JsString → Option Nat
  | [] => none
  | x :: rest => if x = nl ∧ rest.head? = some nl then some 0 else (boundary rest).map (· + 1)

/-- The loop of `push`, of at most so many rounds: the frames, and what is left. -/
def drain : Nat → JsString → List JsString × JsString
  | 0, buffer => ([], buffer)
  | rounds + 1, buffer =>
    match boundary buffer with
    | none => ([], buffer)
    | some i =>
      let (frames, rest) := drain rounds (buffer.drop (i + 2))
      (buffer.take i :: frames, rest)

/-- What `parseFrame` has of a frame after some of its lines. -/
structure Fields where
  name : JsString := []
  data : List JsString := []
  deriving DecidableEq, Repr

/-- `value.replace(/^ /, "")`. -/
def stripSpace (value : JsString) : JsString :=
  if value.head? = some space then value.tail else value

/-- One line of a frame. -/
def readLine (fields : Fields) (line : JsString) : Fields :=
  if line = [] ∨ line.head? = some colon then fields
  else
    let field := line.takeWhile (· ≠ colon)
    let value := stripSpace ((line.dropWhile (· ≠ colon)).drop 1)
    if field = js "event" then { fields with name := value }
    else if field = js "data" then { fields with data := fields.data ++ [value] }
    else fields

/-- `StreamEvent`, over what `JSON.parse` returns. -/
structure StreamEvent (V : Type) where
  event : JsString
  data : V
  deriving DecidableEq, Repr

section

variable {V : Type} (parse : JsString → Option V)

/-- The event of a frame's lines, unless its name is unknown, it has no data or that does not
parse. -/
def eventOf (lines : List JsString) : Option (StreamEvent V) :=
  let fields := lines.foldl readLine {}
  if fields.name ∉ eventNames ∨ fields.data = [] then none
  else (parse ([nl].intercalate fields.data)).map fun data => ⟨fields.name, data⟩

/-- `parseFrame`. -/
def parseFrame (frame : JsString) : Option (StreamEvent V) := eventOf parse (frame.splitOn nl)

/-- The frames a chunk completes, and what is left behind them. -/
def pushFrames (buffer chunk : JsString) : List JsString × JsString :=
  let buffer := buffer ++ normalize chunk
  drain buffer.length buffer

/-- `SseParser.push`, from what the parser holds. -/
def push (buffer chunk : JsString) : List (StreamEvent V) × JsString :=
  let (frames, rest) := pushFrames buffer chunk
  (frames.filterMap (parseFrame parse), rest)

/-- The events of one chunk after another. -/
def pushAll (buffer : JsString) : List JsString → List (StreamEvent V)
  | [] => []
  | chunk :: chunks => (push parse buffer chunk).1 ++ pushAll (push parse buffer chunk).2 chunks

/-- The frames of one chunk after another. -/
def framesAll (buffer : JsString) : List JsString → List JsString
  | [] => []
  | chunk :: chunks => (pushFrames buffer chunk).1 ++ framesAll (pushFrames buffer chunk).2 chunks

theorem pushAll_eq_filterMap (buffer : JsString) (chunks : List JsString) :
    pushAll parse buffer chunks = (framesAll buffer chunks).filterMap (parseFrame parse) := by
  induction chunks generalizing buffer with
  | nil => rfl
  | cons chunk chunks ih => rw [pushAll, framesAll, List.filterMap_append, ← ih]; rfl

/-! ## Only the lines count -/

theorem eventOf_nonblank (lines : List JsString) :
    eventOf parse (lines.filter (· ≠ [])) = eventOf parse lines := by
  have hfold : (lines.filter (· ≠ [])).foldl readLine {} = lines.foldl readLine {} := by
    generalize ({} : Fields) = fields
    induction lines generalizing fields with
    | nil => rfl
    | cons line lines ih =>
      by_cases h : line = []
      · have hblank : readLine fields line = fields := if_pos (.inl h)
        rw [List.filter_cons_of_neg (by simpa using h), List.foldl_cons, hblank, ih]
      · rw [List.filter_cons_of_pos (by simpa using h), List.foldl_cons, List.foldl_cons, ih]
  rw [eventOf, eventOf, hfold]

end

/-- The lines of the frames that have any. -/
def linesOf (frames : List JsString) : List (List JsString) :=
  (frames.map (nonblank nl)).filter (· ≠ [])

theorem linesOf_append (before after : List JsString) :
    linesOf (before ++ after) = linesOf before ++ linesOf after := by
  rw [linesOf, List.map_append, List.filter_append]; rfl

/-- **The events are those of the lines.** -/
theorem filterMap_linesOf {V : Type} (parse : JsString → Option V) (frames : List JsString) :
    frames.filterMap (parseFrame parse) = (linesOf frames).filterMap (eventOf parse) := by
  induction frames with
  | nil => rfl
  | cons frame frames ih =>
    have hframe : parseFrame parse frame = eventOf parse (nonblank nl frame) :=
      (eventOf_nonblank parse _).symm
    by_cases h : nonblank nl frame = []
    · have hnone : parseFrame parse frame = none := by rw [hframe, h]; rfl
      have hlines : linesOf (frame :: frames) = linesOf frames := by
        rw [linesOf, List.map_cons, List.filter_cons_of_neg (by simpa using h)]; rfl
      rw [List.filterMap_cons_none hnone, hlines, ih]
    · have hlines : linesOf (frame :: frames) = nonblank nl frame :: linesOf frames := by
        rw [linesOf, List.map_cons, List.filter_cons_of_pos (by simpa using h)]; rfl
      rw [List.filterMap_cons, hlines, List.filterMap_cons, hframe, ih]

/-! ## The loop -/

theorem boundary_eq_some {buffer : JsString} {i : Nat} (h : boundary buffer = some i) :
    Close nl (buffer.take i) ∧ buffer = buffer.take i ++ [nl, nl] ++ buffer.drop (i + 2) := by
  induction buffer generalizing i with
  | nil => cases h
  | cons x rest ih =>
    unfold boundary at h
    split at h
    next hx =>
      obtain rfl := Option.some.inj h
      obtain ⟨rfl, hhead⟩ := hx
      obtain ⟨after, rfl⟩ : ∃ after, rest = nl :: after := by
        cases rest with
        | nil => cases hhead
        | cons y after => exact ⟨after, by rw [Option.some.inj hhead]⟩
      exact ⟨.nil, rfl⟩
    next hx =>
      obtain ⟨j, hj, rfl⟩ := Option.map_eq_some_iff.mp h
      obtain ⟨hclose, heq⟩ := ih hj
      refine ⟨?_, congrArg (x :: ·) heq⟩
      rw [List.take_succ_cons]
      cases htake : rest.take j with
      | nil => exact .singleton x
      | cons y taken =>
        refine List.isChain_cons_cons.mpr ⟨fun hxy => hx ⟨hxy.1, ?_⟩, htake ▸ hclose⟩
        rw [heq, htake]
        exact congrArg some hxy.2

theorem close_of_boundary {buffer : JsString} (h : boundary buffer = none) : Close nl buffer := by
  induction buffer with
  | nil => exact .nil
  | cons x rest ih =>
    unfold boundary at h
    split at h
    next => cases h
    next hx =>
      cases rest with
      | nil => exact .singleton x
      | cons y rest =>
        exact List.isChain_cons_cons.mpr
          ⟨fun hxy => hx ⟨hxy.1, congrArg some hxy.2⟩, ih (Option.map_eq_none_iff.mp h)⟩

/-- **What the loop cuts** is what a reader has behind it, and what it leaves is what that reader
has begun. -/
theorem read_drain {rounds : Nat} {buffer : JsString} (h : buffer.length ≤ rounds) :
    ({} : Reader UInt16).read nl buffer =
        (({} : Reader UInt16).read nl (drain rounds buffer).2).behind
          (linesOf (drain rounds buffer).1) ∧
      (({} : Reader UInt16).read nl (drain rounds buffer).2).frames = [] := by
  induction rounds generalizing buffer with
  | zero =>
    obtain rfl := List.length_eq_zero_iff.mp (Nat.le_zero.mp h)
    exact ⟨rfl, rfl⟩
  | succ rounds ih =>
    unfold drain
    split
    next hnone => exact ⟨rfl, frames_read (close_of_boundary hnone) fun _ h => absurd rfl h⟩
    next i hsome =>
      obtain ⟨hclose, heq⟩ := boundary_eq_some hsome
      have hlength := congrArg List.length heq
      simp only [List.length_append, List.length_cons, List.length_nil] at hlength
      obtain ⟨hread, hrest⟩ := @ih (buffer.drop (i + 2)) (by omega)
      refine ⟨?_, hrest⟩
      have hframe : ({} : Reader UInt16).read nl (buffer.take i ++ [nl, nl]) =
          (Reader.mk [] (nonblank nl (buffer.take i)) []).close :=
        read_frame hclose (by simp) fun _ h => absurd rfl h
      calc ({} : Reader UInt16).read nl buffer
          = (Reader.mk [] (nonblank nl (buffer.take i)) []).close.read nl
              (buffer.drop (i + 2)) := by
            rw [← hframe, ← Reader.read_append, ← heq]
        _ = (({} : Reader UInt16).behind (linesOf [buffer.take i])).read nl
              (buffer.drop (i + 2)) := by
            congr 1
            unfold Reader.close linesOf
            by_cases hblank : nonblank nl (buffer.take i) = []
            · simp [hblank, Reader.behind]
            · simp [hblank, Reader.behind]
        _ = _ := by
            rw [Reader.behind_read, hread]
            show _ = Reader.behind (linesOf ([buffer.take i] ++ (drain rounds _).1)) _
            rw [linesOf_append, Reader.behind_behind]

/-- **One chunk after another**: the frames that come out are those behind a reader of the chunks,
each with its line endings made one. -/
theorem linesOf_framesAll {buffer : JsString} (chunks : List JsString)
    (hbuffer : (({} : Reader UInt16).read nl buffer).frames = []) :
    linesOf (framesAll buffer chunks) =
      ((({} : Reader UInt16).read nl buffer).read nl (chunks.flatMap normalize)).frames := by
  induction chunks generalizing buffer with
  | nil => exact hbuffer.symm
  | cons chunk chunks ih =>
    obtain ⟨hread, hrest⟩ := read_drain (Nat.le_refl (buffer ++ normalize chunk).length)
    rw [framesAll, linesOf_append, List.flatMap_cons, ← Reader.read_append, ← List.append_assoc,
      Reader.read_append, hread, Reader.behind_read]
    exact congrArg _ (ih hrest)

theorem normalize_of_not_mem {text : JsString} (h : cr ∉ text) : normalize text = text := by
  fun_induction normalize text with
  | case1 => rfl
  | case2 x =>
    rw [if_neg fun heq => h (by simp [heq])]
  | case3 rest ih => exact absurd List.mem_cons_self h
  | case4 y rest hy ih => exact absurd List.mem_cons_self h
  | case5 x y rest hx ih => rw [ih fun hmem => h (List.mem_cons_of_mem _ hmem)]

/-- **The events of the chunks**, in order. -/
theorem pushAll_eq {V : Type} (parse : JsString → Option V) (chunks : List JsString) :
    pushAll parse [] chunks =
      (({} : Reader UInt16).read nl (chunks.flatMap normalize)).frames.filterMap
        (eventOf parse) := by
  rw [pushAll_eq_filterMap, filterMap_linesOf, linesOf_framesAll chunks rfl]
  rfl

end Frontend

end LlmGateway
