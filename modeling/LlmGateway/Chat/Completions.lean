import LlmGateway.Routing.Laws
import LlmGateway.Streaming.Collector

/-!
# The chat endpoint

`create_chat_completion`: the idempotency gate around a turn, the turn in its two
modes, and what a key that was used before is answered with. A streamed response
is a program of its own, which the server runs when the endpoint has returned.
-/

namespace LlmGateway

namespace Chat

open Effects Streaming

/-! ## The request -/

/-- One request, with what the endpoint is given beside its body. -/
structure Request where
  body : ChatCompletionRequest
  /-- The `Idempotency-Key` header. -/
  idempotencyKey : Option String := none
  /-- `get_request_id()`. -/
  requestId : String
  /-- Whether there is an exact cache. -/
  cache : Bool := true
  /-- `request_hash` over the request's own history. -/
  requestHash : String
  /-- The rules of `_validated_idempotency_key`. -/
  acceptsKey : String → Bool

/-- The claim a turn has to finish: its request id. -/
abbrev ClaimTicket : Type := String

/-- What the endpoint returns, with its `X-Cache`. -/
inductive Served where
  | json (response : ChatCompletionResponse) (cacheStatus : Exact.CacheStatus)
  | stream (body : Eff Unit) (cacheStatus : Exact.CacheStatus)

/-- `to_app_error`, by its code. -/
def toAppError (e : ProviderError) : Fault := .app e.code

/-- Where the answer to a request may be cached, as far as that is known before
there is one. -/
def Request.cacheKey (req : Request) : Option String :=
  if req.cache && Exact.isCacheable req.body.temperature then some req.requestHash else none

/-- The collector of a live stream. -/
def Request.collector (req : Request) (ticket : Option ClaimTicket) : Collector :=
  { cache := req.cache, cacheKey := req.cacheKey, idempotency := ticket }

/-! ## Streaming -/

/-- `await frames.__anext__()`: run up to the first frame. -/
def prime : Eff Unit → Eff (Frame × (Consumer → Eff Unit))
  | .ret _ => .raise (.exn (.other "StopAsyncIteration"))
  | .raise e => .raise e
  | .ask (.yield frame) rest => .ret (frame, rest)
  | .ask q k => .ask q fun a => prime (k a)

/-- The row of a failed turn, and the error its client gets. -/
def failTurn {α : Type} (failure : RoutingFailed) : Eff α := do
  let _ ← elapsedMs
  record .failure
  commitSession
  .raise (toAppError failure.error)

/-- A live stream, driven up to its first frame. -/
def serveLive (req : Request) (ticket : Option ClaimTicket) (conversation : Conversation)
    (messageId : String) : Eff Served := do
  let xCache : Exact.CacheStatus := if req.cacheKey.isSome then .miss else .bypass
  let (events, ending) ← routeStream
  let frames := streamCompletion (req.collector ticket).persist conversation.id messageId
    req.body.model conversation.pinnedModel events ending
  match ← (prime frames).attempt with
  | .ok (first, rest) => return .stream (.ask (.yield first) rest) xCache
  | .error (.routing failure) => failTurn failure
  | .error e => .raise e

/-- `_stream_chat_completion`. -/
def streamChatCompletion (req : Request) (ticket : Option ClaimTicket)
    (conversation : Conversation) : Eff Served := do
  let messageId ← uuid4
  match req.cacheKey with
  | none => serveLive req ticket conversation messageId
  | some key =>
    match ← cacheGet key with
    | none => serveLive req ticket conversation messageId
    | some cached =>
      let _ ← elapsedMs
      let collector : Collector := { idempotency := ticket }
      return .stream
        (streamCachedCompletion
          (some (collector.persistCacheHit cached req.body.model conversation.id messageId))
          cached req.body.model conversation.id messageId)
        .hit

/-! ## One answer at once -/

/-- `_serve_cache_hit`. -/
def serveCacheHit (req : Request) (conversation : Conversation) (cached : Exact.CachedResponse) :
    Eff Served := do
  let assistant ← append .assistant cached.text none
    (Collector.cachedProvenance cached req.body.model)
  let _ ← elapsedMs
  record .cacheHit
  commitSession
  let created ← timestamp
  return .json
    { id := req.requestId, created, model := cached.model, content := cached.text
      finishReason := cached.finishReason, usage := UsageOut.of 0 0 false
      servedBy := { slot := cached.slot, provider := cached.provider, model := cached.model }
      requestedSlot := req.body.model
      substituted := isSubstitution req.body.model cached.slot, attempts := 0
      warning := pinWarning conversation.pinnedModel req.body.model cached.slot
      conversationId := conversation.id, messageId := assistant }
    .hit

/-- The row of a served turn. -/
def provenance (req : Request) (outcome : RouterOutcome) : MessageMeta :=
  { providerUsed := some outcome.spec.provider, modelUsed := some outcome.spec.model
    slotUsed := some outcome.spec.slot, requestedSlot := some req.body.model
    substituted := isSubstitution req.body.model outcome.spec.slot, attempts := outcome.attempts
    tokensIn := some outcome.completion.usage.tokensIn
    tokensOut := some outcome.completion.usage.tokensOut, degraded := outcome.report.degraded
    extractionTier := outcome.report.extractionTier
    messagesDropped := outcome.report.messagesDropped, keyPool := some outcome.keyPool }

/-- Where the answer is cached, if it is. -/
def cacheSlot (req : Request) (report : RenderReport) : Option String :=
  if Exact.isCacheable req.body.temperature report.degraded report.truncated then req.cacheKey
  else none

/-- The write to the cache. -/
def cacheAnswer (req : Request) (outcome : RouterOutcome) : Eff Unit :=
  match cacheSlot req outcome.report with
  | none => return
  | some key => do
    let createdAt ← isoNow
    cachePut key
      { text := outcome.completion.text, provider := outcome.spec.provider
        model := outcome.spec.model, slot := outcome.spec.slot
        finishReason := outcome.completion.finishReason
        tokensIn := outcome.completion.usage.tokensIn
        tokensOut := outcome.completion.usage.tokensOut
        usageEstimated := outcome.completion.usage.estimated, createdAt }

/-- The turn behind a routed answer. -/
def serveOutcome (req : Request) (conversation : Conversation) (xCache : Exact.CacheStatus)
    (outcome : RouterOutcome) : Eff Served := do
  let _ ← elapsedMs
  let assistant ← append .assistant outcome.completion.text none (provenance req outcome)
  record .success
  commitSession
  cacheAnswer req outcome
  let created ← timestamp
  return .json
    { id := req.requestId, created, model := outcome.spec.model
      content := outcome.completion.text, finishReason := outcome.completion.finishReason
      usage := UsageOut.of outcome.completion.usage.tokensIn outcome.completion.usage.tokensOut
        outcome.completion.usage.estimated
      servedBy := outcome.spec.servedBy, requestedSlot := req.body.model
      substituted := isSubstitution req.body.model outcome.spec.slot
      attempts := outcome.attempts, degraded := outcome.report.degraded
      extractionTier := outcome.report.extractionTier
      messagesDropped := outcome.report.messagesDropped
      warning := pinWarning conversation.pinnedModel req.body.model outcome.spec.slot
      keyPool := some outcome.keyPool, conversationId := conversation.id, messageId := assistant }
    xCache

/-- A routed turn. -/
def serveRouted (req : Request) (conversation : Conversation) (xCache : Exact.CacheStatus) :
    Eff Served := do
  match ← route with
  | .error failure => failTurn failure
  | .ok outcome => serveOutcome req conversation xCache outcome

/-- The turn that is answered at once. -/
def completeChatCompletion (req : Request) (conversation : Conversation) : Eff Served := do
  match req.cacheKey with
  | none => serveRouted req conversation .bypass
  | some key =>
    match ← cacheGet key with
    | none => serveRouted req conversation .miss
    | some cached => serveCacheHit req conversation cached

/-! ## The turn -/

/-- The messages of the request, in order. -/
def appendAll : List InputMessage → Eff Unit
  | [] => return
  | message :: messages => do
    let _ ← append message.role.role message.content none {}
    appendAll messages

/-- `_serve_completion`. -/
def serveCompletion (req : Request) (ticket : Option ClaimTicket) : Eff Served := do
  let conversation ← resolveConversation
  resolveFileRefs
  appendAll req.body.messages
  touch req.body.model
  commitSession
  listForConversation
  if req.body.stream then streamChatCompletion req ticket conversation
  else completeChatCompletion req conversation

/-! ## Replays -/

/-- `_as_replayable`: the stored body, as a cached answer. -/
def asReplayable (stored : ChatCompletionResponse) (createdAt : String) : Exact.CachedResponse :=
  { text := stored.content, provider := stored.servedBy.provider, model := stored.servedBy.model
    slot := stored.servedBy.slot, finishReason := stored.finishReason
    tokensIn := stored.usage.promptTokens, tokensOut := stored.usage.completionTokens
    usageEstimated := stored.usage.estimated, createdAt }

/-- `_serve_replay`; `none` when the envelope cannot be turned into a response. -/
def serveReplay (req : Request) (envelope : Envelope) : Eff (Option Served) :=
  match envelope.response with
  | none => return none
  | some stored => do
    let _ ← elapsedMs
    record .replay
    commitSession
    let cacheStatus := envelope.cacheStatus.getD .bypass
    if req.body.stream then
      let createdAt ← isoNow
      return some (.stream
        (streamCachedCompletion none (asReplayable stored createdAt) req.body.model
          stored.conversationId stored.messageId)
        cacheStatus)
    else return some (.json stored cacheStatus)

/-! ## The endpoint -/

/-- The gate: the claim of a turn that is to be served, or the answer to one
that is not. -/
def gate (req : Request) (key : String) : Eff (Served ⊕ Option ClaimTicket) := do
  if req.acceptsKey key = false then .raise (.app "invalid_idempotency_key")
  match ← claim with
  | .claimed => return .inr (some req.requestId)
  | .inFlight => .raise (.app "idempotency_in_flight")
  | .fingerprintMismatch => .raise (.app "idempotency_key_reuse")
  | .replay envelope =>
    match ← serveReplay req envelope with
    | some replayed => return .inl replayed
    -- The key belongs to whoever wrote that envelope.
    | none => return .inr none

/-- A turn under its claim. -/
def serveClaimed (req : Request) (ticket : Option ClaimTicket) : Eff Served := do
  match ← (serveCompletion req ticket).attempt with
  | .error e =>
    if ticket.isSome then release
    .raise e
  | .ok (.json response cacheStatus) =>
    if ticket.isSome then complete response (some cacheStatus)
    return .json response cacheStatus
  | .ok (.stream body cacheStatus) => return .stream body cacheStatus

/-- **`create_chat_completion`**. -/
def createChatCompletion (req : Request) : Eff Served := do
  validateSlot req.body.model
  match req.idempotencyKey with
  | none => serveClaimed req none
  | some key =>
    match ← gate req key with
    | .inl replayed => return replayed
    | .inr ticket => serveClaimed req ticket

/-- **A turn**: the endpoint, and the response body it leaves to the server. -/
def turn (req : Request) : Eff Unit := do
  match ← createChatCompletion req with
  | .json _ _ => return
  | .stream body _ => body

/-! ## A turn on which nothing goes wrong -/

/-- A question at temperature zero. -/
def cold : Request :=
  { body := { model := auto, messages := [{ role := .user, content := "hello" }], temperature := 0,
              stream := true }
    requestId := "r", requestHash := "h", acceptsKey := fun _ => true }

/-- An answer, over a report. -/
def answered (report : RenderReport) : RouterOutcome :=
  { spec := Router.groq
    completion := { text := "hi", usage := { tokensIn := 3, tokensOut := 1 }, finishReason := "stop" }
    report, trail := [], attempts := 1, latencyMs := 5, keyPool := .shared }

/-- The same answer at the end of a stream. -/
def streamed (report : RenderReport) : StreamCompleted :=
  { spec := Router.groq, usage := { tokensIn := 3, tokensOut := 1 }, finishReason := "stop", report
    trail := [], attempts := 1, latencyMs := 5, ttftMs := 1, wastedTokensOut := 0
    keyPool := .shared }

/-- The router answers, at once or in a stream of one piece. -/
def answering : (q : Ask) → Ans q
  | .route => .ok (.ok (answered {}))
  | .routeStream => ([.started 1 Router.groq, .delta "hi", .completed (streamed {})], Ending.stopped)
  | q => oblige q

end Chat

end LlmGateway
