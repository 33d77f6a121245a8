import LlmGateway.Providers.Answers

/-!
# What an adapter reads out of a stream

A provider's stream is a sequence of events, one JSON text each. An adapter makes a
chunk of each, skips what is no object, and raises on a text that is no JSON and on a
refusal. OpenRouter also raises on an error object; the other two do not look for one.
-/

namespace LlmGateway

namespace Providers

open Json

variable {F : Type} (readings : Readings F)

/-! ## Chunks -/

/-- `isinstance(value, int)`, and no `bool`. -/
def intOf : Option (Value F) → Option Int
  | some (.int n) => some n
  | _ => none

/-- The usage of two counts, where both are integers. -/
def usageOf (tokensIn tokensOut : Option (Value F)) : Option Usage := do
  let tokensIn ← intOf tokensIn
  let tokensOut ← intOf tokensOut
  return { tokensIn, tokensOut }

/-- The usage block of the common dialect. -/
def usageIn : Option (Value F) → Option Usage
  | some (.obj raw) =>
    usageOf ((Value.obj raw).get? "prompt_tokens") ((Value.obj raw).get? "completion_tokens")
  | _ => none

/-- The first item of a list, if it is an object. -/
def firstObject : Option (Value F) → Option (Value F)
  | some (.arr (.obj members :: _)) => some (.obj members)
  | _ => none

/-- The text of a choice's delta. -/
def deltaText (choice : Value F) : String :=
  match choice.get? "delta" with
  | some (.obj delta) =>
    match (Value.obj delta).get? "content" with
    | some (.str content) => content
    | _ => ""
  | _ => ""

/-- The finish reason of a choice, where it is a string. -/
def rawFinish (choice : Value F) : Option String :=
  match choice.get? "finish_reason" with
  | some (.str s) => some s
  | _ => none

/-- `_stream_chunk_from_event`, what is common to Groq and OpenRouter. -/
def streamChunkFromEvent (finishReasons : List (String × String)) (usage : Option Usage)
    (event : Value F) : StreamChunk :=
  match firstObject (event.get? "choices") with
  | some choice =>
    { delta := deltaText choice
      finishReason := (rawFinish choice).map fun raw => (finishReasons.lookup raw).getD raw
      usage }
  | none => { delta := "", usage }

/-- A refusal is raised, any other chunk is handed on. -/
def onChunk (provider model : String) (chunk : StreamChunk) : Except Exn (Option StreamChunk) :=
  if chunk.finishReason = some "content_filter" then
    .error (contentFiltered provider model "the model declined to generate a response")
  else .ok (some chunk)

namespace Groq

/-- `_stream_chunk_from_event`. -/
def streamChunkFromEvent (event : Value F) : StreamChunk :=
  Providers.streamChunkFromEvent finishReasons
    (match event.get? "x_groq" with
      | some (.obj xGroq) => usageIn ((Value.obj xGroq).get? "usage")
      | _ => none)
    event

/-- The body of the loop in `stream`. -/
def onEvent (model : String) : Value F → Except Exn (Option StreamChunk)
  | .obj members => onChunk "groq" model (streamChunkFromEvent (.obj members))
  | _ => .ok none

end Groq

namespace Gemini

/-- `_stream_chunk_from_event`: a blocked prompt is looked for first. -/
def streamChunkFromEvent (event : Value F) : StreamChunk :=
  if (blockReason readings event).isSome then
    { delta := "", finishReason := some "content_filter" }
  else
    let usage := match event.get? "usageMetadata" with
      | some (.obj raw) =>
        (usageOf ((Value.obj raw).get? "promptTokenCount")
          ((Value.obj raw).get? "candidatesTokenCount")).map fun usage =>
            { usage with tokensOut :=
                usage.tokensOut + (intOf ((Value.obj raw).get? "thoughtsTokenCount")).getD 0 }
      | _ => none
    match firstObject (event.get? "candidates") with
    | some candidate =>
      { delta := candidateText candidate
        finishReason := (rawFinish candidate).map fun raw =>
          if blockFinishReasons.contains raw then "content_filter"
          else (finishReasons.lookup raw).getD raw
        usage }
    | none => { delta := "", usage }

/-- The body of the loop in `stream`. -/
def onEvent (model : String) : Value F → Except Exn (Option StreamChunk)
  | .obj members => onChunk "gemini" model (streamChunkFromEvent readings (.obj members))
  | _ => .ok none

end Gemini

namespace OpenRouter

/-- `_stream_chunk_from_event`. -/
def streamChunkFromEvent (event : Value F) : StreamChunk :=
  Providers.streamChunkFromEvent finishReasons (usageIn (event.get? "usage")) event

/-- The body of the loop in `stream`: an event whose body is an error object is that error. -/
def onEvent (model : String) : Value F → Except Exn (Option StreamChunk)
  | .obj members =>
    match (Value.obj members).get? "error" with
    | some (.obj _) => .error (.provider (readings.classify 200 (.obj members) model))
    | _ => onChunk "openrouter" model (streamChunkFromEvent (.obj members))
  | _ => .ok none

end OpenRouter

/-! ## Streams -/

/-- What `json.loads` makes of the text of an event, if it is JSON. -/
abbrev Frame (F : Type) : Type := Option (Value F)

def Adapter.name : Adapter → String
  | .groq => "groq"
  | .gemini => "gemini"
  | .openrouter => "openrouter"

/-- What an adapter makes of an event. -/
def Adapter.onEvent (model : String) (event : Value F) :
    Adapter → Except Exn (Option StreamChunk)
  | .groq => Groq.onEvent model event
  | .gemini => Gemini.onEvent readings model event
  | .openrouter => OpenRouter.onEvent readings model event

/-- What an adapter makes of the text of an event. -/
def Adapter.onFrame (adapter : Adapter) (model : String) : Frame F → Except Exn (Option StreamChunk)
  | some event => adapter.onEvent readings model event
  | none => .error (.provider
      { kind := .unavailable, message := adapter.name ++ " sent a malformed stream frame"
        provider := adapter.name, model })

/-- `stream`: the chunks of the events up to the first that raises, or up to where the events
themselves end. -/
def Adapter.stream (adapter : Adapter) (model : String) (ending : StreamEnd) :
    List (Frame F) → List StreamChunk × StreamEnd
  | [] => ([], ending)
  | frame :: frames =>
    match adapter.onFrame readings model frame with
    | .error e => ([], .raised e)
    | .ok none => adapter.stream model ending frames
    | .ok (some chunk) =>
      let (chunks, ending) := adapter.stream model ending frames
      (chunk :: chunks, ending)

/-! ## Where a stream raises -/

section

variable {readings : Readings F} {adapter : Adapter} {model : String} {frames : List (Frame F)}

/-- The text of an event on which an adapter raises. -/
def Adapter.Raises (readings : Readings F) (adapter : Adapter) (model : String) (frame : Frame F) :
    Prop :=
  ∃ e, adapter.onFrame readings model frame = .error (.provider e)

/-- **Raised by then**: whatever comes behind these events, the stream has ended on one of them
with a normalized error. -/
def Adapter.RaisesBy (readings : Readings F) (adapter : Adapter) (model : String)
    (frames : List (Frame F)) : Prop :=
  ∃ chunks e, ∀ rest ending,
    adapter.stream readings model ending (frames ++ rest) = (chunks, .raised (.provider e))

theorem isProvider_onChunk {provider : String} {chunk : StreamChunk} {e : Exn}
    (h : onChunk provider model chunk = .error e) : e.isProvider := by
  unfold onChunk at h
  split at h
  · cases h
    rfl
  · cases h

/-- An adapter raises nothing but normalized errors. -/
theorem Adapter.isProvider_onFrame {frame : Frame F} {e : Exn}
    (h : adapter.onFrame readings model frame = .error e) : e.isProvider := by
  cases frame with
  | none =>
    cases h
    rfl
  | some event =>
    cases adapter with
    | groq =>
      cases event with
      | obj members => exact isProvider_onChunk h
      | _ => cases h
    | gemini =>
      cases event with
      | obj members => exact isProvider_onChunk h
      | _ => cases h
    | openrouter =>
      cases event with
      | obj members =>
        simp only [Adapter.onFrame, Adapter.onEvent, OpenRouter.onEvent] at h
        split at h
        · cases h
          rfl
        · exact isProvider_onChunk h
      | _ => cases h

/-- What an adapter makes of an event on which it does not raise. -/
theorem Adapter.onFrame_eq_ok {frame : Frame F} (h : ¬ adapter.Raises readings model frame) :
    ∃ chunk, adapter.onFrame readings model frame = .ok chunk := by
  cases hread : adapter.onFrame readings model frame with
  | ok chunk => exact ⟨chunk, rfl⟩
  | error e =>
    have hprovider := adapter.isProvider_onFrame hread
    cases e with
    | provider e => exact absurd ⟨e, hread⟩ h
    | _ => cases hprovider

/-- A stream none of whose events raises ends as its events do. -/
theorem Adapter.stream_ending (ending : StreamEnd)
    (h : ∀ frame ∈ frames, ¬ adapter.Raises readings model frame) :
    (adapter.stream readings model ending frames).2 = ending := by
  induction frames with
  | nil => rfl
  | cons frame frames ih =>
    have hrest := ih fun frame hframe => h frame (List.mem_cons_of_mem _ hframe)
    obtain ⟨chunk, hread⟩ := adapter.onFrame_eq_ok (h frame List.mem_cons_self)
    cases chunk with
    | none => simpa only [Adapter.stream, hread] using hrest
    | some chunk => simpa only [Adapter.stream, hread] using hrest

/-- **A stream has raised by then exactly when one of the events raises.** -/
theorem Adapter.raisesBy_iff :
    adapter.RaisesBy readings model frames ↔
      ∃ frame ∈ frames, adapter.Raises readings model frame := by
  constructor
  · rintro ⟨chunks, e, hstream⟩
    by_contra hnone
    push Not at hnone
    have hstopped := adapter.stream_ending .stopped hnone
    have hraised := hstream [] .stopped
    rw [List.append_nil] at hraised
    rw [hraised] at hstopped
    cases hstopped
  · rintro ⟨frame, hframe, hraises⟩
    induction frames with
    | nil => cases hframe
    | cons first frames ih =>
      by_cases hfirst : adapter.Raises readings model first
      · obtain ⟨e, hread⟩ := hfirst
        exact ⟨[], e, fun rest ending => by simp only [List.cons_append, Adapter.stream, hread]⟩
      · have hlater : frame ∈ frames :=
          (List.mem_cons.mp hframe).resolve_left fun heq => hfirst (heq ▸ hraises)
        obtain ⟨chunks, e, hstream⟩ := ih hlater
        obtain ⟨chunk, hread⟩ := adapter.onFrame_eq_ok hfirst
        cases chunk with
        | none =>
          refine ⟨chunks, e, fun rest ending => ?_⟩
          simpa only [List.cons_append, Adapter.stream, hread] using hstream rest ending
        | some chunk =>
          refine ⟨chunk :: chunks, e, fun rest ending => ?_⟩
          simp only [List.cons_append, Adapter.stream, hread, hstream rest ending]

/-! ## Which events raise -/

/-- An event that is an error. -/
def IsError (frame : Frame F) : Prop :=
  ∃ members error, frame = some (.obj members) ∧
    (Value.obj members).get? "error" = some (.obj error)

/-- An event that is no JSON, or in which the provider refuses. -/
def Adapter.Refuses (readings : Readings F) (adapter : Adapter) : Frame F → Prop
  | none => True
  | some (.obj members) =>
    match adapter with
    | .groq | .openrouter =>
      (firstObject ((Value.obj members).get? "choices")).bind rawFinish = some "content_filter"
    | .gemini =>
      (Gemini.blockReason readings (.obj members)).isSome ∨
        ∃ raw, (firstObject ((Value.obj members).get? "candidates")).bind Gemini.rawFinish =
          some raw ∧ (raw ∈ Gemini.blockFinishReasons ∨ raw = "content_filter")
  | some _ => False

theorem onChunk_eq_error_iff {provider : String} {chunk : StreamChunk} :
    (∃ e, onChunk provider model chunk = .error (.provider e)) ↔
      chunk.finishReason = some "content_filter" := by
  unfold onChunk
  split
  next h => exact ⟨fun _ => h, fun _ => ⟨_, rfl⟩⟩
  next h => exact ⟨fun ⟨_, he⟩ => (nomatch he), fun hreason => absurd hreason h⟩

/-- What a table that is asked with a default gives for a key. -/
theorem lookup_getD_eq_iff {table : List (String × String)} {raw reason : String}
    (h : ∀ entry ∈ table, entry.1 = raw → (entry.2 = reason ↔ raw = reason)) :
    (table.lookup raw).getD raw = reason ↔ raw = reason := by
  induction table with
  | nil => rfl
  | cons entry table ih =>
    obtain ⟨key, value⟩ := entry
    by_cases hkey : raw = key
    · have hentry := h (key, value) List.mem_cons_self hkey.symm
      rwa [hkey, List.lookup_cons_self, Option.getD_some, ← hkey]
    · rw [List.lookup_cons, beq_eq_false_iff_ne.mpr hkey]
      exact ih fun entry hentry => h entry (List.mem_cons_of_mem _ hentry)

/-- In the common dialect nothing but its own name becomes a refusal. -/
theorem finishReason_streamChunkFromEvent {finishReasons : List (String × String)}
    {usage : Option Usage} {event : Value F}
    (htable : ∀ entry ∈ finishReasons,
      (entry.2 = "content_filter" ↔ entry.1 = "content_filter")) :
    (streamChunkFromEvent finishReasons usage event).finishReason = some "content_filter" ↔
      (firstObject (event.get? "choices")).bind rawFinish = some "content_filter" := by
  have hlookup : ∀ raw, (finishReasons.lookup raw).getD raw = "content_filter" ↔
      raw = "content_filter" := fun raw =>
    lookup_getD_eq_iff fun entry hentry hkey => hkey ▸ htable entry hentry
  unfold streamChunkFromEvent
  cases firstObject (event.get? "choices") with
  | none => constructor <;> intro h <;> cases h
  | some choice =>
    dsimp only [Option.bind_some]
    rw [Option.map_eq_some_iff]
    constructor
    · rintro ⟨raw, hraw, hreason⟩
      rw [hraw, (hlookup raw).mp hreason]
    · intro hraw
      exact ⟨_, hraw, (hlookup _).mpr rfl⟩

theorem Gemini.finishReason_streamChunkFromEvent {event : Value F} :
    (Gemini.streamChunkFromEvent readings event).finishReason = some "content_filter" ↔
      (Gemini.blockReason readings event).isSome ∨
        ∃ raw, (firstObject (event.get? "candidates")).bind Gemini.rawFinish = some raw ∧
          (raw ∈ Gemini.blockFinishReasons ∨ raw = "content_filter") := by
  unfold Gemini.streamChunkFromEvent
  split
  next hblocked => exact iff_of_true rfl (.inl hblocked)
  next hblocked =>
    rw [or_iff_right hblocked]
    cases firstObject (event.get? "candidates") with
    | none =>
      constructor
      · intro h
        cases h
      · rintro ⟨raw, hraw, -⟩
        cases hraw
    | some candidate =>
      dsimp only [Option.bind_some]
      rw [Option.map_eq_some_iff]
      refine exists_congr fun raw => and_congr_right fun _ => ?_
      split
      next hlisted => exact iff_of_true rfl (.inl (List.contains_iff_mem.mp hlisted))
      next hlisted =>
        rw [List.contains_iff_mem] at hlisted
        rw [or_iff_right hlisted]
        refine lookup_getD_eq_iff fun entry hentry hkey => ?_
        -- What the table has for a refusal is listed.
        have htable : ∀ entry ∈ Gemini.finishReasons, entry.1 ∉ Gemini.blockFinishReasons →
            (entry.2 = "content_filter" ↔ entry.1 = "content_filter") := by decide
        exact hkey ▸ htable entry hentry (hkey ▸ hlisted)

/-- **The events on which an adapter raises**: those that are no JSON, the refusals, and for
OpenRouter the errors. -/
theorem Adapter.raises_iff {frame : Frame F} :
    adapter.Raises readings model frame ↔
      adapter.Refuses readings frame ∨ adapter = .openrouter ∧ IsError frame := by
  cases frame with
  | none => exact iff_of_true ⟨_, rfl⟩ (.inl trivial)
  | some event =>
    cases event with
    | obj members =>
      cases adapter with
      | groq =>
        rw [or_iff_left (fun h => nomatch h.1)]
        exact onChunk_eq_error_iff.trans (finishReason_streamChunkFromEvent (by decide))
      | gemini =>
        rw [or_iff_left (fun h => nomatch h.1)]
        exact onChunk_eq_error_iff.trans Gemini.finishReason_streamChunkFromEvent
      | openrouter =>
        by_cases herror : ∃ error, (Value.obj members).get? "error" = some (.obj error)
        · obtain ⟨error, herror⟩ := herror
          refine iff_of_true ⟨readings.classify 200 (.obj members) model, ?_⟩
            (.inr ⟨rfl, members, error, rfl, herror⟩)
          simp only [Adapter.onFrame, Adapter.onEvent, OpenRouter.onEvent, herror]
        · have hread : Adapter.openrouter.onFrame readings model (some (.obj members)) =
              onChunk "openrouter" model (OpenRouter.streamChunkFromEvent (.obj members)) := by
            simp only [Adapter.onFrame, Adapter.onEvent, OpenRouter.onEvent]
            split
            next error heq => exact absurd ⟨error, heq⟩ herror
            next => rfl
          have hchunk : ¬ IsError (some (.obj members)) := by
            rintro ⟨_, error, heq, hget⟩
            cases heq
            exact herror ⟨error, hget⟩
          rw [or_iff_left fun h => hchunk h.2, Adapter.Raises, hread]
          exact onChunk_eq_error_iff.trans (finishReason_streamChunkFromEvent (by decide))
    | _ =>
      refine iff_of_false ?_ ?_
      · rintro ⟨e, he⟩
        cases adapter <;> cases he
      · rintro (hrefuses | ⟨-, members, error, heq, -⟩)
        · exact hrefuses
        · cases heq

end

end Providers

end LlmGateway
