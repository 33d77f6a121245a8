import LlmGateway.Codec.Json
import LlmGateway.Memory.Fitting

/-!
# The render pipeline

Every provider payload comes out of here: the history is validated, its
attachments resolved, the whole made to fit, and the adapter has the last word
on the shape.
-/

namespace LlmGateway

namespace Render

open Fitting

/-- `document_envelope`: the name is the uploader's, the text the lane's. -/
def documentEnvelope (attachment : ResolvedAttachment) : String :=
  let confidence := match attachment.confidence with
    | some confidence => " confidence=\"" ++ confidence.name ++ "\""
    | none => ""
  "<document name=\"" ++ attachment.filename ++ "\" source=\"extracted\"" ++ confidence ++ ">\n"
    ++ attachment.text.getD "" ++ "\n</document>"

/-- The text an omission marker stands for. -/
def omissionText (omittedCount : Nat) : String :=
  "[" ++ toString omittedCount ++ " earlier messages omitted]"

/-- What `materialize` makes of one block. -/
def materializeBlock (attachments : ByHash) : ContentBlock → Option String
  | .text text => some text
  | .omissionMarker omittedCount _ => some (omissionText omittedCount)
  | .fileRef ref =>
    (attachments ref.fileHash).map fun attachment =>
      match attachment.mode with
      | .injected => documentEnvelope attachment
      | .native => "[" ++ attachment.mime ++ " attachment: " ++ attachment.filename ++ "]"

/-- `materialize`: the text a message will contribute, for measuring it. -/
def materialize (message : Message) (attachments : ByHash) : String :=
  String.intercalate "\n\n" (message.content.filterMap (materializeBlock attachments))

/-- `_TIER_RANK`. -/
def tierRank : ExtractionTier → Nat
  | .native => 0
  | .llm => 1
  | .cache => 2
  | .local => 3

/-- `worst_tier`: the most fallen-back-on tier of a turn. -/
def worstTier (attachments : List ResolvedAttachment) : Option ExtractionTier :=
  (attachments.filterMap (·.tier)).foldl (fun worst tier =>
    match worst with
    | none => some tier
    | some held => if tierRank held < tierRank tier then some tier else some held) none

/-- The two calls rendering makes on an adapter. -/
structure ProviderAdapter (F : Type) where
  buildPayload : List Message → RenderSpec → GenParams F → List ResolvedAttachment →
    Except RenderFailure (Json.Value F)
  estimateTokens : Json.Value F → Int

variable {F : Type}

/-- Step 6, for attachments and a payload. -/
def report (adapter : ProviderAdapter F) (attachments : List ResolvedAttachment)
    (result : FitResult Message) (payload : Json.Value F) : PipelineReport where
  messagesDropped := result.messagesDropped
  documentsTruncated := result.documentsTruncated
  estimatedTokens := adapter.estimateTokens payload + nativeTokens result.attachments
  degraded := attachments.any fun attachment => attachment.confidence = some .low
  extractionTier := worstTier attachments
  attachmentsNative := (attachments.filter (·.mode = .native)).length
  attachmentsInjected :=
    attachments.length - (attachments.filter (·.mode = .native)).length

/-- Steps 1 to 6, of messages that passed the invariants. -/
def renderValid (messages : List Message) (spec : RenderSpec) (params : GenParams F)
    (adapter : ProviderAdapter F)
    (resolve : List FileRef → RenderSpec → Except RenderFailure (List ResolvedAttachment))
    (strategy : FitStrategy) : Except RenderFailure (Json.Value F × PipelineReport) := do
  let attachments ← resolve (messages.flatMap (·.fileRefs)) spec
  let budget := inputBudget spec params
  if budget ≤ 0 then
    throw (.contextTooLong {
      kind := .contextTooLong (some spec.contextWindow)
      message := spec.provider ++ "/" ++ spec.model ++ " is configured with a "
        ++ toString spec.maxOutputTokens ++ "-token output ceiling inside a "
        ++ toString spec.contextWindow
        ++ "-token window, leaving no room for input; fix config/providers.yaml"
      provider := spec.provider
      model := spec.model })
  let result ← fit materialize estimateTextTokens messages attachments budget spec strategy
  let payload ← adapter.buildPayload result.messages spec params result.attachments
  return (payload, report adapter attachments result payload)

/-- `render`: canonical history in, provider payload out. -/
def render (history : List CanonicalMessage) (spec : RenderSpec) (params : GenParams F)
    (adapter : ProviderAdapter F)
    (resolve : List FileRef → RenderSpec → Except RenderFailure (List ResolvedAttachment))
    (strategy : FitStrategy := .truncate) : Except RenderFailure (Json.Value F × PipelineReport) :=
  match validate history with
  | .error violation => throw (.violation violation)
  | .ok () => renderValid (history.map (·.toMessage)) spec params adapter resolve strategy

/-- Past the invariants, only what the messages say is read. -/
theorem render_congr {history history' : List CanonicalMessage}
    (hvalid : validate history = .ok ()) (hvalid' : validate history' = .ok ())
    (hsay : history.map (·.toMessage) = history'.map (·.toMessage)) (spec : RenderSpec)
    (params : GenParams F) (adapter : ProviderAdapter F)
    (resolve : List FileRef → RenderSpec → Except RenderFailure (List ResolvedAttachment))
    (strategy : FitStrategy) :
    render history spec params adapter resolve strategy
      = render history' spec params adapter resolve strategy := by
  unfold render
  rw [hvalid, hvalid', hsay]

end Render

end LlmGateway
