import LlmGateway.Streaming.Orchestrator

/-!
# The collector

What is written when a stream is over: the rows of the turn, the cache entry, and
the end of the idempotency claim.
-/

namespace LlmGateway

namespace Streaming

open Effects Chat

/-- A `Collector`, over the claim it has to finish, if there is one. -/
structure Collector where
  /-- Whether there is a cache to write to. -/
  cache : Bool := false
  cacheKey : Option String := none
  /-- The request id of the claim. -/
  idempotency : Option String := none
  deriving DecidableEq, Repr

/-- `_replay_body`: the stored answer, in the shape a replay is served from. It
has no `warning`. -/
def replayBody (requestId : String) (created : Int) (servedBy : ServedBy)
    (text finishReason : String) (usage : UsageOut) (requestedSlot : String) (substituted : Bool)
    (attempts : Nat) (degraded : Bool) (extractionTier : Option ExtractionTier)
    (messagesDropped : Nat) (keyPool : Option KeyPool) (conversationId messageId : String) :
    ChatCompletionResponse :=
  { id := requestId, created, model := servedBy.model, content := text, finishReason, usage
    servedBy, requestedSlot, substituted, attempts, degraded, extractionTier, messagesDropped
    keyPool, conversationId, messageId }

namespace Collector

/-- `async with self._session_factory()`: the session is closed either way. -/
def withSession {α : Type} (p : Eff α) : Eff α := do
  openSession
  match ← p.attempt with
  | .ok a =>
    closeSession
    return a
  | .error e =>
    closeSession
    .raise e

/-! ## A live turn -/

/-- The row of a served turn. -/
def provenance (result : StreamResult) (spec : ModelSpec) : MessageMeta :=
  { providerUsed := some spec.provider, modelUsed := some spec.model, slotUsed := some spec.slot
    requestedSlot := some result.requestedSlot, substituted := result.substituted
    attempts := result.attempts, tokensIn := some result.usage.tokensIn
    tokensOut := some result.usage.tokensOut, wastedTokensOut := result.wastedTokensOut
    degraded := result.degraded, extractionTier := result.extractionTier
    messagesDropped := result.messagesDropped, keyPool := result.keyPool }

/-- Where the answer is cached, if it is. -/
def cacheSlot (c : Collector) (result : StreamResult) : Option String :=
  if c.cache && !result.degraded && result.messagesDropped == 0 then c.cacheKey else none

/-- The body of the envelope. -/
def envelope (result : StreamResult) (spec : ModelSpec) (requestId : String) (created : Int) :
    ChatCompletionResponse :=
  replayBody requestId created spec.servedBy result.text result.finishReason
    (UsageOut.of result.usage.tokensIn result.usage.tokensOut result.usage.estimated)
    result.requestedSlot result.substituted result.attempts result.degraded result.extractionTier
    result.messagesDropped result.keyPool result.conversationId result.messageId

/-- The write to the cache. -/
def cacheAnswer (c : Collector) (result : StreamResult) (spec : ModelSpec) : Eff Unit :=
  match c.cacheSlot result with
  | none => return
  | some key => do
    let createdAt ← isoNow
    cachePut key
      { text := result.text, provider := spec.provider, model := spec.model, slot := spec.slot
        finishReason := result.finishReason, tokensIn := result.usage.tokensIn
        tokensOut := result.usage.tokensOut, usageEstimated := result.usage.estimated, createdAt }

/-- The end of the claim. -/
def completeClaim (c : Collector) (result : StreamResult) (spec : ModelSpec) : Eff Unit :=
  match c.idempotency with
  | none => return
  | some requestId => do
    let created ← timestamp
    complete (envelope result spec requestId created)
      (some (if c.cacheKey.isSome then .miss else .bypass))

/-- `_persist_success`. -/
def persistSuccess (c : Collector) (result : StreamResult) : Eff Unit :=
  match result.spec with
  | none => .raise (.exn (.other "AssertionError"))
  | some spec => do
    let _ ← append .assistant result.text (some result.messageId) (provenance result spec)
    record .success
    c.cacheAnswer result spec
    c.completeClaim result spec

/-- `_persist_failure`: no message row. -/
def persistFailure (c : Collector) : Eff Unit := do
  record .streamFailure
  if c.idempotency.isSome then release

/-- **`persist`**: one transaction, whichever branch it takes. -/
def persist (c : Collector) (result : StreamResult) : Eff Unit :=
  withSession do
    if result.status = .ok then c.persistSuccess result else c.persistFailure
    commitSession

/-! ## A cache hit -/

/-- The row of a cached turn. -/
def cachedProvenance (cached : Exact.CachedResponse) (requestedSlot : String) : MessageMeta :=
  { providerUsed := some cached.provider, modelUsed := some cached.model
    slotUsed := some cached.slot, requestedSlot := some requestedSlot
    substituted := isSubstitution requestedSlot cached.slot, attempts := 0, tokensIn := some 0
    tokensOut := some 0 }

/-- The body of its envelope. -/
def cachedEnvelope (cached : Exact.CachedResponse)
    (requestedSlot conversationId messageId requestId : String) (created : Int) :
    ChatCompletionResponse :=
  replayBody requestId created
    { slot := cached.slot, provider := cached.provider, model := cached.model } cached.text "stop"
    (UsageOut.of 0 0 false) requestedSlot (isSubstitution requestedSlot cached.slot) 0 false none 0
    none conversationId messageId

/-- **`persist_cache_hit`**. -/
def persistCacheHit (c : Collector) (cached : Exact.CachedResponse)
    (requestedSlot conversationId messageId : String) : Eff Unit := do
  withSession do
    let _ ← append .assistant cached.text (some messageId) (cachedProvenance cached requestedSlot)
    record .cacheHit
    commitSession
  match c.idempotency with
  | none => return
  | some requestId =>
    let created ← timestamp
    complete (cachedEnvelope cached requestedSlot conversationId messageId requestId created)
      (some .hit)

end Collector

end Streaming

end LlmGateway
