import LlmGateway.Frontend.Sse
import LlmGateway.Streaming.Turn
import Mathlib.Data.List.Basic

/-!
# From the gateway's events to the browser's

What `format_event` and `format_heartbeat` put on the wire, cut anywhere and
decoded as it arrives, is read by `SseParser` as the events it was made of.
-/

namespace LlmGateway

namespace Frontend

open Frames Streaming

/-! ## What the gateway sends -/

/-- The pieces of text of a delta, one in each of its choices. -/
structure DeltaEvent where
  choices : List String
  deriving DecidableEq, Repr

inductive StreamEventPayload where
  | «meta» (data : MetaEvent)
  | delta (data : DeltaEvent)
  | restart (data : RestartEvent)
  | done (data : DoneEvent)
  deriving DecidableEq, Repr

/-- `_EVENT_NAMES`. -/
def StreamEventPayload.name : StreamEventPayload → String
  | .meta _ => "meta"
  | .delta _ => "delta"
  | .restart _ => "restart"
  | .done _ => "done"

/-- What is sent, one after another. -/
inductive Emission where
  | event (data : StreamEventPayload)
  | heartbeat
  deriving DecidableEq, Repr

section

variable (modelDumpJson : StreamEventPayload → String)

/-- `format_event`, before it is encoded. -/
def eventText (data : StreamEventPayload) : String :=
  "event: " ++ data.name ++ "\ndata: " ++ modelDumpJson data ++ "\n\n"

/-- `format_heartbeat`, before it is encoded. -/
def heartbeatText : String := ": heartbeat\n\n"

def formatEvent (data : StreamEventPayload) : List UInt8 :=
  Utf.utf8 (eventText modelDumpJson data).toList

def formatHeartbeat : List UInt8 := Utf.utf8 heartbeatText.toList

def Emission.format : Emission → List UInt8
  | .event data => formatEvent modelDumpJson data
  | .heartbeat => formatHeartbeat

def Emission.text : Emission → List Char
  | .event data => (eventText modelDumpJson data).toList
  | .heartbeat => heartbeatText.toList

theorem format_eq (emissions : List Emission) :
    emissions.flatMap (Emission.format modelDumpJson) =
      Utf.utf8 (emissions.flatMap (Emission.text modelDumpJson)) := by
  induction emissions with
  | nil => rfl
  | cons emission emissions ih =>
    have hone : emission.format modelDumpJson = Utf.utf8 (emission.text modelDumpJson) := by
      cases emission <;> rfl
    rw [List.flatMap_cons, List.flatMap_cons, Utf.utf8_append, ih, hone]

/-- The lines of a frame. -/
def Emission.lines : Emission → List JsString
  | .event data => [js ("event: " ++ data.name), js "data: " ++ js (modelDumpJson data)]
  | .heartbeat => [js ": heartbeat"]

end

/-- What the browser is to read, where `value` is what the JSON of a payload means. -/
def Emission.read {V : Type} (value : StreamEventPayload → V) : Emission → Option (StreamEvent V)
  | .event data => some ⟨js data.name, value data⟩
  | .heartbeat => none

/-! ## What the browser reads -/

section

variable {V : Type} {modelDumpJson : StreamEventPayload → String} {value : StreamEventPayload → V}
  {parse : JsString → Option V}

theorem js_append (before after : String) : js (before ++ after) = js before ++ js after := by
  rw [js, String.toList_append, Utf.utf16_append]
  rfl

/-- A data line hands on what is behind its space. -/
theorem readLine_data (fields : Fields) (body : JsString) :
    readLine fields (js "data: " ++ body) = { fields with data := fields.data ++ [body] } := by
  have hdata : js "data: " = [100, 97, 116, 97, 58, 32] := by decide
  rw [hdata]
  rfl

/-- The names, and the lines that give them. -/
theorem readLine_event : ∀ name ∈ ["meta", "delta", "restart", "done"],
    readLine {} (js ("event: " ++ name)) = { name := js name } ∧ js name ∈ eventNames ∧
      nl ∉ js ("event: " ++ name) := by
  decide

theorem name_mem (data : StreamEventPayload) :
    data.name ∈ ["meta", "delta", "restart", "done"] := by
  cases data <;> simp [StreamEventPayload.name]

/-- **A frame's lines** are read as its event. -/
theorem eventOf_lines (hparse : ∀ data, parse (js (modelDumpJson data)) = some (value data))
    (emission : Emission) :
    eventOf parse (emission.lines modelDumpJson) = emission.read value := by
  cases emission with
  | heartbeat => rfl
  | event data =>
    obtain ⟨hevent, hname, -⟩ := readLine_event _ (name_mem data)
    have hfields : (Emission.lines modelDumpJson (.event data)).foldl readLine {} =
        { name := js data.name, data := [js (modelDumpJson data)] } := by
      rw [Emission.lines, List.foldl_cons, List.foldl_cons, List.foldl_nil, hevent, readLine_data]
      rfl
    have hknown : ¬ (js data.name ∉ eventNames ∨ [js (modelDumpJson data)] = []) := by
      rintro (h | h)
      · exact h hname
      · cases h
    have hbody : [nl].intercalate [js (modelDumpJson data)] = js (modelDumpJson data) := by simp
    rw [eventOf, hfields]
    show (if _ then _ else _) = _
    rw [if_neg hknown, hbody, hparse]
    rfl

theorem nl_not_mem (hraw : ∀ data, '\n' ∉ (modelDumpJson data).toList)
    (data : StreamEventPayload) : nl ∉ js "data: " ++ js (modelDumpJson data) := by
  have hdata : nl ∉ js "data: " := by decide
  rw [List.mem_append, not_or]
  exact ⟨hdata, fun hmem => hraw data (Utf.mem_of_mem_utf16 (c := '\n') (by decide) hmem)⟩

/-- **What is sent** is read as its lines. -/
theorem read_emission (hraw : ∀ data, '\n' ∉ (modelDumpJson data).toList) (emission : Emission)
    (frames : List (List JsString)) (rest : JsString) :
    (Reader.mk frames [] []).read nl (Utf.utf16 (emission.text modelDumpJson) ++ rest) =
      (Reader.mk (frames ++ [emission.lines modelDumpJson]) [] []).read nl rest := by
  cases emission with
  | heartbeat =>
    have htext : Utf.utf16 (Emission.heartbeat.text modelDumpJson) =
        js ": heartbeat" ++ nl :: [nl] := by
      show js ": heartbeat\n\n" = _
      decide
    rw [htext, List.append_assoc, List.cons_append,
      Reader.read_line rfl (by decide) (by decide)]
    rfl
  | event data =>
    obtain ⟨-, -, hevent⟩ := readLine_event _ (name_mem data)
    have hsep : js "\ndata: " = nl :: js "data: " := by decide
    have hend : js "\n\n" = [nl, nl] := by decide
    have htext : Utf.utf16 ((Emission.event data).text modelDumpJson) =
        js ("event: " ++ data.name) ++
          nl :: ((js "data: " ++ js (modelDumpJson data)) ++ nl :: [nl]) := by
      show js ("event: " ++ data.name ++ "\ndata: " ++ modelDumpJson data ++ "\n\n") = _
      rw [js_append, js_append, js_append, hsep, hend]
      simp
    have hne : js ("event: " ++ data.name) ≠ [] := by
      rw [js_append]
      exact nofun
    rw [htext, List.append_assoc, List.cons_append, Reader.read_line rfl hevent hne,
      List.append_assoc, List.cons_append,
      Reader.read_line rfl (nl_not_mem hraw data) (by exact nofun)]
    rfl

/-- The frames of what was sent. -/
theorem frames_emissions (hraw : ∀ data, '\n' ∉ (modelDumpJson data).toList)
    (emissions : List Emission) (frames : List (List JsString)) :
    (Reader.mk frames [] []).read nl
        (Utf.utf16 (emissions.flatMap (Emission.text modelDumpJson))) =
      Reader.mk (frames ++ emissions.map (Emission.lines modelDumpJson)) [] [] := by
  induction emissions generalizing frames with
  | nil => simp [Utf.utf16]
  | cons emission emissions ih =>
    rw [List.flatMap_cons, Utf.utf16_append, read_emission hraw, ih, List.map_cons,
      List.append_assoc]
    rfl

theorem cr_not_mem (hraw : ∀ data, '\r' ∉ (modelDumpJson data).toList)
    (emissions : List Emission) :
    cr ∉ Utf.utf16 (emissions.flatMap (Emission.text modelDumpJson)) := by
  intro hmem
  obtain ⟨emission, -, hcr⟩ :=
    List.mem_flatMap.mp (Utf.mem_of_mem_utf16 (c := '\r') (by decide) hmem)
  cases emission with
  | heartbeat => exact absurd hcr (show '\r' ∉ heartbeatText.toList by decide)
  | event data =>
    have hnames : ∀ name ∈ ["meta", "delta", "restart", "done"], '\r' ∉ name.toList := by decide
    simp only [Emission.text, eventText, String.toList_append, List.mem_append] at hcr
    rcases hcr with (((h | h) | h) | h) | h
    · exact absurd h (by decide)
    · exact hnames _ (name_mem data) h
    · exact absurd h (by decide)
    · exact hraw data h
    · exact absurd h (by decide)

/-- No byte order mark begins what is sent. -/
theorem head_ne_mark (emissions : List Emission) :
    (emissions.flatMap (Emission.text modelDumpJson)).head? ≠ some (Char.ofNat 0xFEFF) := by
  cases emissions with
  | nil => exact nofun
  | cons emission emissions =>
    cases emission with
    | heartbeat => simp [Emission.text, heartbeatText]
    | event data => simp [Emission.text, eventText, String.toList_append]

/-- **The round trip.** Whatever events and heartbeats are sent, and however the bytes are cut on
their way, the browser reads exactly the events, in order, with the values they were made from, if
no JSON has a line end of its own and `JSON.parse` has the value back. -/
theorem pushAll_emissions (hnl : ∀ data, '\n' ∉ (modelDumpJson data).toList)
    (hcr : ∀ data, '\r' ∉ (modelDumpJson data).toList)
    (hparse : ∀ data, parse (js (modelDumpJson data)) = some (value data))
    (emissions : List Emission) (chunks : List (List UInt8))
    (hchunks : chunks.flatten = emissions.flatMap (Emission.format modelDumpJson)) :
    pushAll parse [] (Utf.Decoder.decodeAll {} chunks) =
      emissions.filterMap (Emission.read value) := by
  have htext : (Utf.Decoder.decodeAll {} chunks).flatten =
      Utf.utf16 (emissions.flatMap (Emission.text modelDumpJson)) :=
    Utf.Decoder.decodeAll_utf8 (head_ne_mark emissions) (hchunks.trans (format_eq _ _))
  have hplain : (Utf.Decoder.decodeAll {} chunks).flatMap normalize =
      (Utf.Decoder.decodeAll {} chunks).flatten := by
    rw [← List.flatMap_id']
    refine List.flatMap_congr fun chunk hchunk => normalize_of_not_mem fun hmem => ?_
    have hwhole := List.mem_flatten.mpr ⟨chunk, hchunk, hmem⟩
    rw [htext] at hwhole
    exact cr_not_mem hcr emissions hwhole
  rw [pushAll_eq, hplain, htext, frames_emissions hnl emissions []]
  show List.filterMap (eventOf parse) (emissions.map (Emission.lines modelDumpJson)) = _
  rw [List.filterMap_map]
  exact List.filterMap_congr fun emission _ => eventOf_lines hparse emission

end

/-! ## A delta -/

def greeting : StreamEventPayload := .delta ⟨["é\n"]⟩

def greetingJson : String :=
  "\x7b\"choices\":[\x7b\"delta\":\x7b\"content\":\"é\\n\"\x7d\x7d]\x7d"

/-- A serializer that knows the one payload. -/
def dumpGreeting (data : StreamEventPayload) : String :=
  if data = greeting then greetingJson else "null"

def valueGreeting (data : StreamEventPayload) : Option (List String) :=
  if data = greeting then some ["é\n"] else none

def parseGreeting (text : JsString) : Option (Option (List String)) :=
  if text = js greetingJson then some (some ["é\n"])
  else if text = js "null" then some none
  else none

/-- Its bytes, cut within a character, between two heartbeats. -/
def greetingBytes : List UInt8 :=
  [.heartbeat, .event greeting, .heartbeat].flatMap (Emission.format dumpGreeting)

theorem pushAll_greeting :
    pushAll parseGreeting [] (Utf.Decoder.decodeAll {}
        [greetingBytes.take 66, greetingBytes.drop 66]) =
      [⟨js "delta", some ["é\n"]⟩] := by
  have hplain : ∀ c ∈ ['\n', '\r'], ∀ data, c ∉ (dumpGreeting data).toList := by
    have hjson : ∀ c ∈ ['\n', '\r'], c ∉ greetingJson.toList ∧ c ∉ "null".toList := by
      simp [greetingJson]
    intro c hc data
    unfold dumpGreeting
    split
    · exact (hjson c hc).1
    · exact (hjson c hc).2
  have hparse : ∀ data, parseGreeting (js (dumpGreeting data)) = some (valueGreeting data) := by
    intro data
    unfold dumpGreeting valueGreeting
    split
    · decide
    · decide
  exact pushAll_emissions (hplain '\n' (by decide)) (hplain '\r' (by decide)) hparse
    [.heartbeat, .event greeting, .heartbeat] _ (by simp [greetingBytes])

end Frontend

end LlmGateway
