import LlmGateway.Codec.Json
import LlmGateway.Routing.Interface
import LlmGateway.Text.Words

/-!
# What an adapter reads out of a 200

The text and the finish reason of a response body, or why there is none. Groq
and OpenRouter speak one dialect, Gemini another.
-/

namespace LlmGateway

namespace Providers

open Json Text

variable {F : Type}

/-- What a reading takes from outside itself. -/
structure Readings (F : Type) where
  /-- Whether a float is zero. -/
  isZero : F → Bool
  /-- `str()` of a value that is not a string. -/
  str : Value F → String
  /-- `_classify` of OpenRouter, for a body that came without an error status. -/
  classify : Nat → Value F → String → ProviderError

variable (readings : Readings F)

/-- `bool()`. -/
def truthy : Value F → Bool
  | .null => false
  | .bool b => b
  | .int n => n != 0
  | .float x => !readings.isZero x
  | .str s => s != ""
  | .arr items => !items.isEmpty
  | .obj members => !members.isEmpty

/-- `str()`. -/
def shown : Value F → String
  | .str s => s
  | v => readings.str v

def emptyResponse (provider model message : String) : Exn :=
  .provider { kind := .emptyResponse, message, provider, model }

def contentFiltered (provider model message : String) : Exn :=
  .provider { kind := .contentFiltered, message, provider, model }

/-- Whether an exception is an `EmptyResponse`. -/
def isEmptyResponse : Exn → Bool
  | .provider e => e.kind == .emptyResponse
  | _ => false

/-- Nothing but white space is no answer. -/
def usable (provider model text : String) : Except Exn String :=
  if strip text.toList = [] then
    .error (emptyResponse provider model "response carried no usable content")
  else .ok text

/-! ## Groq and OpenRouter -/

/-- The finish reason of a choice; a list and an object are no keys of a table. -/
def finishReasonOf (finishReasons : List (String × String)) :
    Option (Value F) → Except Exn String
  | none => .ok "stop"
  | some raw =>
    if truthy readings raw then
      match raw with
      | .str s => .ok ((finishReasons.lookup s).getD "stop")
      | .arr _ | .obj _ => .error (.other "TypeError")
      | _ => .ok "stop"
    else .ok "stop"

/-- The content of a choice's message, if it is an object. -/
def messageContent (choice : Value F) : Option (Value F) :=
  match choice.get? "message" with
  | some (.obj message) => (Value.obj message).get? "content"
  | _ => none

/-- `_read_choice`, what is common to both. -/
def readChoice (provider : String) (finishReasons : List (String × String)) (model : String)
    (body : Value F) : Except Exn (String × String) :=
  match body.get? "choices" with
  | some (.arr (.obj choice :: _)) => do
    let rawFinish := (Value.obj choice).get? "finish_reason"
    match rawFinish with
    | some (.str "content_filter") =>
      .error (contentFiltered provider model "the model declined to generate a response")
    | _ =>
      let text ← match messageContent (.obj choice) with
        | some (.str content) => usable provider model content
        | _ => .error (emptyResponse provider model "response carried no usable content")
      let finishReason ← finishReasonOf readings finishReasons rawFinish
      return (text, finishReason)
  | some (.arr (_ :: _)) => .error (emptyResponse provider model "malformed choice object")
  | _ => .error (emptyResponse provider model "response carried no choices")

namespace Groq

/-- `_FINISH_REASONS`. -/
def finishReasons : List (String × String) :=
  [("stop", "stop"), ("length", "length"), ("max_tokens", "length"),
    ("content_filter", "content_filter")]

/-- `_read_choice`. -/
def readChoice (model : String) (body : Value F) : Except Exn (String × String) :=
  Providers.readChoice readings "groq" finishReasons model body

end Groq

namespace OpenRouter

/-- `_FINISH_REASONS`. -/
def finishReasons : List (String × String) :=
  [("stop", "stop"), ("length", "length"), ("max_tokens", "length"),
    ("content_filter", "content_filter"), ("error", "error")]

/-- `_read_choice`: a 200 whose body is an error object is that error. -/
def readChoice (status : Nat) (model : String) (body : Value F) :
    Except Exn (String × String) :=
  match body.get? "error" with
  | some (.obj _) => .error (.provider (readings.classify status body model))
  | _ => Providers.readChoice readings "openrouter" finishReasons model body

end OpenRouter

/-! ## Gemini -/

namespace Gemini

/-- `_BLOCK_FINISH_REASONS`. -/
def blockFinishReasons : List String :=
  ["SAFETY", "RECITATION", "BLOCKLIST", "PROHIBITED_CONTENT", "SPII", "IMAGE_SAFETY"]

/-- `_FINISH_REASONS`. -/
def finishReasons : List (String × String) :=
  [("STOP", "stop"), ("MAX_TOKENS", "length"), ("SAFETY", "content_filter"),
    ("RECITATION", "content_filter")]

/-- The text of one part. -/
def partText (part : Value F) : Option String :=
  match part.get? "text" with
  | some (.str text) => some text
  | _ => none

/-- `_candidate_text`: the parts are segments of one answer. -/
def candidateText (candidate : Value F) : String :=
  match candidate.get? "content" with
  | some (.obj content) =>
    match (Value.obj content).get? "parts" with
    | some (.arr parts) => String.join (parts.filterMap partText)
    | _ => ""
  | _ => ""

/-- Why the prompt was blocked, if it was. -/
def blockReason (body : Value F) : Option (Value F) :=
  match body.get? "promptFeedback" with
  | some (.obj feedback) => ((Value.obj feedback).get? "blockReason").filter (truthy readings)
  | _ => none

/-- The finish reason of a candidate, where it is a string. -/
def rawFinish (candidate : Value F) : Option String :=
  match candidate.get? "finishReason" with
  | some (.str s) => some s
  | _ => none

/-- `_read_candidate`: a blocked prompt comes back without candidates, so it is looked for
first. -/
def readCandidate (model : String) (body : Value F) : Except Exn (String × String) :=
  match blockReason readings body with
  | some reason =>
    .error (contentFiltered "gemini" model
      ("gemini blocked the prompt (" ++ shown readings reason ++ ")"))
  | none =>
    match body.get? "candidates" with
    | some (.arr (.obj candidate :: _)) =>
      match (rawFinish (.obj candidate)).filter (blockFinishReasons.contains ·) with
      | some reason =>
        .error (contentFiltered "gemini" model
          ("the model declined to generate a response (" ++ reason ++ ")"))
      | none => do
        let text ← usable "gemini" model (candidateText (.obj candidate))
        let finishReason := (rawFinish (.obj candidate)).bind fun raw => finishReasons.lookup raw
        return (text, finishReason.getD "stop")
    | some (.arr (_ :: _)) => .error (emptyResponse "gemini" model "malformed candidate object")
    | _ => .error (emptyResponse "gemini" model "response carried no candidates")

end Gemini

/-! ## The three together -/

inductive Adapter where
  | groq
  | gemini
  | openrouter
  deriving DecidableEq, Repr

/-- What an adapter reads. -/
def Adapter.read (status : Nat) (model : String) (body : Value F) :
    Adapter → Except Exn (String × String)
  | .groq => Groq.readChoice readings model body
  | .gemini => Gemini.readCandidate readings model body
  | .openrouter => OpenRouter.readChoice readings status model body

/-- **A generated text in a body of the common dialect**: no refusal, and the first choice holds
it. -/
structure ChoiceCarries (body : Value F) (text : String) (choice : List (String × Value F))
    (rest : List (Value F)) : Prop where
  choices : body.get? "choices" = some (.arr (.obj choice :: rest))
  finish : (Value.obj choice).get? "finish_reason" ≠ some (.str "content_filter")
  content : messageContent (.obj choice) = some (.str text)

/-- **A generated text in a body of Gemini's**: no refusal, and the first candidate's parts join
to it. -/
structure CandidateCarries (body : Value F) (text : String) (candidate : List (String × Value F))
    (rest : List (Value F)) : Prop where
  feedback : Gemini.blockReason readings body = none
  candidates : body.get? "candidates" = some (.arr (.obj candidate :: rest))
  finish : ∀ reason, Gemini.rawFinish (.obj candidate) = some reason →
    reason ∉ Gemini.blockFinishReasons
  content : Gemini.candidateText (.obj candidate) = text

/-- The body of a 200 carries a generated text. -/
def Adapter.Carries (body : Value F) (text : String) : Adapter → Prop
  | .groq => ∃ choice rest, ChoiceCarries body text choice rest
  | .gemini => ∃ candidate rest, CandidateCarries readings body text candidate rest
  | .openrouter => (∀ members, body.get? "error" ≠ some (.obj members)) ∧
      ∃ choice rest, ChoiceCarries body text choice rest

/-- The reading ended in an `EmptyResponse`. -/
def RejectsAsEmpty {α : Type} (r : Except Exn α) : Prop := ∃ e, r = .error e ∧ isEmptyResponse e

variable {readings} {body : Value F} {text : String}

/-- What is read behind the text ends in no `EmptyResponse`. -/
theorem not_rejectsAsEmpty_finishReasonOf {finishReasons : List (String × String)}
    {raw : Option (Value F)} : ¬ RejectsAsEmpty (finishReasonOf readings finishReasons raw) := by
  rintro ⟨e, he, hempty⟩
  unfold finishReasonOf at he
  split at he
  · cases he
  · split at he
    · split at he <;> cases he <;> cases hempty
    · cases he

/-- **A text is rejected as empty exactly when it is blank**, if what is made of it is not. -/
theorem rejectsAsEmpty_usable_bind {provider model : String} {α : Type} {f : String → Except Exn α}
    (hf : ¬ RejectsAsEmpty (f text)) :
    RejectsAsEmpty (usable provider model text >>= f) ↔ strip text.toList = [] := by
  unfold usable
  split
  next hblank => exact ⟨fun _ => hblank, fun _ => ⟨_, rfl, rfl⟩⟩
  next hblank =>
    constructor
    · intro h
      exact absurd h hf
    · intro h
      exact absurd h hblank

theorem ChoiceCarries.rejects_iff {provider model : String}
    {finishReasons : List (String × String)} {choice : List (String × Value F)}
    {rest : List (Value F)} (h : ChoiceCarries body text choice rest) :
    RejectsAsEmpty (readChoice readings provider finishReasons model body) ↔
      strip text.toList = [] := by
  simp only [readChoice, h.choices]
  split
  next hfilter => exact absurd hfilter h.finish
  next =>
    simp only [h.content]
    refine rejectsAsEmpty_usable_bind ?_
    rintro ⟨e, he, hempty⟩
    have hfinish : ¬ RejectsAsEmpty (finishReasonOf readings finishReasons
      ((Value.obj choice).get? "finish_reason")) := not_rejectsAsEmpty_finishReasonOf
    revert he hfinish
    cases finishReasonOf readings finishReasons ((Value.obj choice).get? "finish_reason") with
    | ok reason => exact fun he => nomatch he
    | error e' =>
      intro he hfinish
      cases he
      exact hfinish ⟨e, rfl, hempty⟩

theorem CandidateCarries.rejects_iff {model : String} {candidate : List (String × Value F)}
    {rest : List (Value F)} (h : CandidateCarries readings body text candidate rest) :
    RejectsAsEmpty (Gemini.readCandidate readings model body) ↔ strip text.toList = [] := by
  have hfinish : (Gemini.rawFinish (.obj candidate)).filter
      (Gemini.blockFinishReasons.contains ·) = none := by
    rw [Option.filter_eq_none_iff]
    intro reason hreason
    simpa using h.finish reason hreason
  simp only [Gemini.readCandidate, h.feedback, h.candidates, hfinish, h.content]
  exact rejectsAsEmpty_usable_bind fun ⟨e, he, _⟩ => nomatch he

/-- **The three adapters agree**: a text is rejected as empty exactly when it is blank. -/
theorem Adapter.rejects_iff {adapter : Adapter} {status : Nat} {model : String}
    (h : adapter.Carries readings body text) :
    RejectsAsEmpty (adapter.read readings status model body) ↔ strip text.toList = [] := by
  cases adapter with
  | groq =>
    obtain ⟨choice, rest, h⟩ := h
    exact h.rejects_iff
  | gemini =>
    obtain ⟨candidate, rest, h⟩ := h
    exact h.rejects_iff
  | openrouter =>
    obtain ⟨herror, choice, rest, h⟩ := h
    have hread : OpenRouter.readChoice readings status model body =
        readChoice readings "openrouter" OpenRouter.finishReasons model body := by
      unfold OpenRouter.readChoice
      split
      next members heq => exact absurd heq (herror members)
      next => rfl
    rw [Adapter.read, hread]
    exact h.rejects_iff

end Providers

end LlmGateway
