import LlmGateway.Providers.Errors

/-!
# What the router handles

The candidates, credentials, quota records and generations the failover loop
passes around. Fields the loop neither reads nor writes are left out.
-/

namespace LlmGateway

/-- One routable (provider, model) pair. -/
structure ModelSpec where
  /-- The client-facing identity. -/
  slot : String
  provider : String
  model : String
  /-- The tokens the model accepts; a re-fit narrows it. -/
  contextWindow : Int
  deriving DecidableEq, Repr

/-- `(provider, model)`, the identity quota and the breaker key on. -/
def ModelSpec.key (spec : ModelSpec) : String × String := (spec.provider, spec.model)

/-- A model spec with the capabilities rendering asks about. -/
structure RenderSpec extends ModelSpec where
  maxOutputTokens : Int
  supportsVision : Bool := false
  supportsPdf : Bool := false
  maxFileBytes : Option Nat := none
  deriving DecidableEq, Repr

/-- Whether the model reads `mime` itself, with no extraction. -/
def RenderSpec.supportsMime (spec : RenderSpec) (mime : String) : Bool :=
  if mime = "application/pdf" then spec.supportsPdf
  else spec.supportsVision && "image/".toList.isPrefixOf mime.toList

/-- Generation knobs, over whatever floats are. -/
structure GenParams (F : Type) where
  temperature : F
  maxTokens : Option Int := none
  topP : Option F := none
  stop : List String := []
  stream : Bool := false
  deriving DecidableEq, Repr

/-- Token accounting for one attempt. -/
structure Usage where
  tokensIn : Int
  tokensOut : Int
  /-- Whether the numbers are ours rather than the provider's. -/
  estimated : Bool := false
  deriving DecidableEq, Repr

/-- A finished non-streaming generation. -/
structure Completion where
  text : String
  usage : Usage
  finishReason : String
  deriving DecidableEq, Repr

/-- One incremental piece of a streamed generation. -/
structure StreamChunk where
  delta : String
  finishReason : Option String := none
  usage : Option Usage := none
  deriving DecidableEq, Repr

/-- Ground truth scraped from a provider's rate-limit headers. -/
structure QuotaHint where
  requestsRemaining : Option Int := none
  tokensRemaining : Option Int := none
  requestsResetS : Option Seconds := none
  tokensResetS : Option Seconds := none
  deriving DecidableEq, Repr

/-- A provider's request body. The router measures and sends it but never
looks inside. -/
abbrev Payload : Type := String

/-- How an attachment reached the model. -/
inductive ExtractionTier where
  | cache
  | native
  | llm
  | «local»
  deriving DecidableEq, Repr

/-- How a resolved attachment reaches the model. -/
inductive AttachmentMode where
  | native
  | injected
  deriving DecidableEq, Repr

/-- The grade of a reading. -/
inductive Confidence where
  | high
  | medium
  | low
  deriving DecidableEq, Repr

def Confidence.name : Confidence → String
  | .high => "high"
  | .medium => "medium"
  | .low => "low"

/-- A file reference once it is decided how it reaches the model. -/
structure ResolvedAttachment where
  fileHash : String
  filename : String
  mime : String
  sizeBytes : Nat
  mode : AttachmentMode
  /-- Raw content, of a native one. -/
  data : Option (List UInt8) := none
  /-- Extracted text, of an injected one. -/
  text : Option String := none
  confidence : Option Confidence := none
  tier : Option ExtractionTier := none
  /-- What a native one costs the model, in tokens. -/
  tokenCost : Int := 0
  deriving DecidableEq, Repr

/-- What rendering reports; the router reads the token estimate. -/
structure RenderReport where
  messagesDropped : Nat := 0
  documentsTruncated : Nat := 0
  /-- The adapter's estimate of the finished payload. -/
  estimatedTokens : Int := 0
  /-- Some attachment was read by local OCR. -/
  degraded : Bool := false
  /-- The worst tier the turn's attachments needed. -/
  extractionTier : Option ExtractionTier := none
  deriving DecidableEq, Repr

/-- Whether anything was lost making the history fit. -/
def RenderReport.truncated (report : RenderReport) : Bool :=
  decide (0 < report.messagesDropped) || decide (0 < report.documentsTruncated)

/-- What the render pipeline reports in full. -/
structure PipelineReport extends RenderReport where
  attachmentsNative : Nat := 0
  attachmentsInjected : Nat := 0
  deriving DecidableEq, Repr

/-- Which pool a credential came from. -/
inductive KeyPool where
  | shared
  | «private»
  deriving DecidableEq, Repr

/-- One candidate's credential and the quota scope it is spent under. -/
structure ResolvedKey where
  provider : String
  key : String
  pool : KeyPool
  scope : String
  keyId : Option String := none
  /-- The personal daily ceiling on the shared pool, if there is one. -/
  sharedDailyCap : Option Int := none
  userId : Option String := none
  deriving DecidableEq, Repr

/-- The four windows a provider may publish. -/
inductive QuotaWindow where
  | rpm
  | rpd
  | tpm
  | tpd
  deriving DecidableEq, Repr

/-- How a window's counter comes back to zero. -/
inductive ResetKind where
  | rolling60s
  | fixedDailyUtc
  | fixedDailyPt
  | rollingDaily
  deriving DecidableEq, Repr

/-- One quota window's full addressing. -/
structure WindowGrant where
  window : QuotaWindow
  limit : Int
  reset : ResetKind
  costIsTokens : Bool
  key : String
  deriving DecidableEq, Repr

/-- Budget taken out on an attempt, and the receipt that settles it. -/
structure Reservation where
  scope : String
  provider : String
  model : String
  requestId : String
  tokens : Int
  windows : List QuotaWindow := []
  counterKeys : List String := []
  deriving DecidableEq, Repr

/-- May this candidate be attempted, and if not, when is it worth asking again? -/
structure QuotaDecision where
  allowed : Bool
  reservation : Option Reservation := none
  blockedWindow : Option QuotaWindow := none
  retryAfterS : Option Seconds := none
  degraded : Bool := false
  deriving DecidableEq, Repr

/-- The state names of a circuit breaker. -/
inductive BreakerState where
  | closed
  | open
  | halfOpen
  deriving DecidableEq, Repr

/-- The breaker's answer to one caller, carried to the matching record call. -/
structure BreakerDecision where
  allowed : Bool
  provider : String
  model : String
  state : BreakerState
  /-- Whether this caller holds the half-open probe. -/
  isProbe : Bool := false
  failures : Int := 0
  retryAfterS : Option Seconds := none
  /-- Decided without Redis. -/
  degraded : Bool := false
  deriving DecidableEq, Repr

end LlmGateway
