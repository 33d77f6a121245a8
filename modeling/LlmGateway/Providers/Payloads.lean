import LlmGateway.Memory.Render

/-!
# What each provider is sent

The payloads of the three adapters: Groq and OpenRouter speak one dialect,
Gemini another.
-/

namespace LlmGateway

namespace Providers

open Fitting Render

variable {F : Type}

/-! ## Content -/

/-- The error of a reference that was not resolved. -/
def unresolved (ref : FileRef) : RenderFailure :=
  .valueError ("file_ref " ++ String.ofList (ref.fileHash.toList.take 12)
    ++ "… reached build_payload unresolved; render step 1 must resolve every attachment first")

/-- One block's part of a message's text; `place` says what a resolved file contributes. -/
def renderBlock (place : ResolvedAttachment → Except RenderFailure (Option String))
    (attachments : ByHash) : ContentBlock → Except RenderFailure (Option String)
  | .text text => pure (some text)
  | .omissionMarker omittedCount _ => pure (some (omissionText omittedCount))
  | .fileRef ref =>
    match attachments ref.fileHash with
    | none => throw (unresolved ref)
    | some attachment => place attachment

/-- The text of one message: its parts, a blank line between. -/
def renderText (place : ResolvedAttachment → Except RenderFailure (Option String))
    (attachments : ByHash) (message : Message) : Except RenderFailure String := do
  let parts ← message.content.mapM (renderBlock place attachments)
  return String.intercalate "\n\n" (parts.filterMap id)

/-- Inject a document, and refuse a native file with `refusal`. -/
def injectOnly (refusal : ResolvedAttachment → String) (attachment : ResolvedAttachment) :
    Except RenderFailure (Option String) :=
  match attachment.mode with
  | .native => throw (.notImplemented (refusal attachment))
  | .injected => pure (some (documentEnvelope attachment))

/-! ## The dialect of Groq and OpenRouter -/

def roleName : Role → String
  | .system => "system"
  | .user => "user"
  | .assistant => "assistant"

/-- The members only some requests have. -/
def optional {α : Type} (key : String) (value : Option α) (toJson : α → Json.Value F) :
    List (String × Json.Value F) :=
  match value with
  | some a => [(key, toJson a)]
  | none => []

/-- The clamped output limit. -/
def clamped (spec : RenderSpec) (params : GenParams F) : Option Int :=
  params.maxTokens.map fun maxTokens => min maxTokens spec.maxOutputTokens

/-- The stop sequences, if there are any. -/
def stops (params : GenParams F) : Option (List String) :=
  if params.stop.isEmpty then none else some params.stop

def strings (texts : List String) : Json.Value F := .arr (texts.map .str)

/-- `build_payload` of a chat-completions provider. -/
def chatPayload (refusal : ResolvedAttachment → String) (messages : List Message)
    (spec : RenderSpec) (params : GenParams F) (attachments : List ResolvedAttachment) :
    Except RenderFailure (Json.Value F) := do
  let rendered ← messages.mapM fun message => do
    let content ← renderText (injectOnly refusal) (byHash attachments) message
    return .obj [("role", .str (roleName message.role)), ("content", .str content)]
  return .obj ([("model", .str spec.model), ("messages", .arr rendered),
      ("temperature", .float params.temperature), ("stream", .bool params.stream)]
    ++ optional "max_tokens" (clamped spec params) .int
    ++ optional "top_p" params.topP .float
    ++ optional "stop" (stops params) strings)

/-- What a text costs. -/
def textTokens (length : Nat) : Int := (length / charsPerToken : Nat)

/-- What one message of a chat payload costs. -/
def chatMessageTokens : Json.Value F → Int
  | .obj members =>
    let text := match Json.Value.get? "content" (.obj members) with
      | some (.str content) => textTokens content.length
      | _ => 0
    text + perMessageTokenOverhead
  | _ => 0

/-- `estimate_tokens` of a chat-completions provider. -/
def chatTokens (payload : Json.Value F) : Int :=
  match payload.get? "messages" with
  | some (.arr messages) => max 1 ((messages.map chatMessageTokens).sum)
  | _ => 1

def groq : ProviderAdapter F where
  buildPayload := chatPayload fun attachment =>
    "groq cannot read " ++ attachment.mime
      ++ " natively; render step 1 must route this file through the perception lane"
  estimateTokens := chatTokens

def openrouter : ProviderAdapter F where
  buildPayload := chatPayload fun attachment =>
    "openrouter's configured models cannot read " ++ attachment.mime
      ++ " natively; render step 1 must route this file through the perception lane"
  estimateTokens := chatTokens

/-! ## Gemini -/

/-- Native bytes are no text: they leave here, and come back as a part of their own. -/
def injectOrLeave (attachment : ResolvedAttachment) : Except RenderFailure (Option String) :=
  match attachment.mode with
  | .native => pure none
  | .injected => pure (some (documentEnvelope attachment))

/-- The base-64 digit of six bits. -/
def base64Digit (n : Nat) : Char :=
  "ABCDEFGHIJKLMNOPQRSTUVWXYZabcdefghijklmnopqrstuvwxyz0123456789+/".toList.getD (n % 64) '='

/-- `base64.b64encode`. -/
def b64encode : List UInt8 → List Char
  | [] => []
  | [a] => [base64Digit (a.toNat / 4), base64Digit (a.toNat * 16), '=', '=']
  | [a, b] =>
    let n := a.toNat * 256 + b.toNat
    [base64Digit (n / 1024), base64Digit (n / 16), base64Digit (n * 4), '=']
  | a :: b :: c :: rest =>
    let n := (a.toNat * 256 + b.toNat) * 256 + c.toNat
    base64Digit (n / 262144) :: base64Digit (n / 4096) :: base64Digit (n / 64)
      :: base64Digit n :: b64encode rest

/-- The `inline_data` part of one block, if it has one. -/
def nativePart (attachments : ByHash) (block : ContentBlock) :
    Except RenderFailure (Option (Json.Value F)) :=
  match block.ref?.bind fun ref => attachments ref.fileHash with
  | none => pure none
  | some attachment =>
    match attachment.mode, attachment.data with
    | .injected, _ => pure none
    | .native, none => throw (.valueError ("native attachment "
        ++ String.ofList (attachment.fileHash.toList.take 12)
        ++ "… reached build_payload with no bytes; render step 1 resolves mode='native' only when it has them"))
    | .native, some data => pure (some (.obj [("inline_data", .obj [
        ("mime_type", .str attachment.mime), ("data", .str (String.ofList (b64encode data)))])]))

/-- `_render_parts`: a message's text, then the bytes beside it. -/
def renderParts (attachments : ByHash) (message : Message) :
    Except RenderFailure (List (Json.Value F)) := do
  let text ← renderText injectOrLeave attachments message
  let native ← message.content.mapM (nativePart attachments)
  let native := native.filterMap id
  if text ≠ "" ∨ native = [] then return .obj [("text", .str text)] :: native
  else return native

/-- `_ROLES`; a system message is hoisted out before it is asked. -/
def geminiRole : Role → String
  | .assistant => "model"
  | _ => "user"

def geminiPayload (messages : List Message) (spec : RenderSpec) (params : GenParams F)
    (attachments : List ResolvedAttachment) : Except RenderFailure (Json.Value F) := do
  let systemTexts ← (messages.filter (·.role = .system)).mapM
    (renderText injectOrLeave (byHash attachments))
  let contents ← (messages.filter (·.role ≠ .system)).mapM fun message => do
    let parts ← renderParts (byHash attachments) message
    return .obj [("role", .str (geminiRole message.role)), ("parts", .arr parts)]
  let system := if systemTexts.isEmpty then none else some systemTexts
  return .obj ([("_model", .str spec.model)]
    ++ optional "system_instruction" system (fun texts =>
      .obj [("parts", .arr [.obj [("text", .str (String.intercalate "\n\n" texts))]])])
    ++ [("contents", .arr contents),
      ("generationConfig", .obj ([("temperature", .float params.temperature)]
        ++ optional "maxOutputTokens" (clamped spec params) .int
        ++ optional "topP" params.topP .float
        ++ optional "stopSequences" (stops params) strings))])

/-- `_parts_length`, of what is under `parts`. -/
def partsLength : Option (Json.Value F) → Nat
  | some (.arr parts) => (parts.map fun part =>
      match part.get? "text" with
      | some (.str text) => text.length
      | _ => 0).sum
  | _ => 0

/-- What an object with parts costs. -/
def entryTokens : Json.Value F → Int
  | .obj members =>
    textTokens (partsLength (Json.Value.get? "parts" (.obj members))) + perMessageTokenOverhead
  | _ => 0

def geminiTokens (payload : Json.Value F) : Int :=
  let system := match payload.get? "system_instruction" with
    | some value => entryTokens value
    | none => 0
  let contents := match payload.get? "contents" with
    | some (.arr entries) => (entries.map entryTokens).sum
    | _ => 0
  max 1 (system + contents)

def gemini : ProviderAdapter F where
  buildPayload := geminiPayload
  estimateTokens := geminiTokens

end Providers

end LlmGateway
