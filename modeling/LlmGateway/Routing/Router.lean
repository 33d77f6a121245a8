import LlmGateway.Routing.Interface
import Mathlib.Algebra.Order.Ring.Rat

/-!
# The failover loop

`route` and `routeStream` walk a candidate chain under one attempt budget. The
walk over the chain, with its breaker question, is the same text in both; a
pass of the inner `while True` is written out for each.
-/

namespace LlmGateway

namespace Router

open Effects

/-- Retries against the same candidate. -/
def maxSameProviderRetries : Nat := 1

def retryBaseDelayS : ℚ := 1 / 4

def retryMaxDelayS : ℚ := 2

def discardedCharsPerToken : Nat := 4

/-- The keyword arguments of the loop that its decisions read. -/
structure Config where
  /-- The slot the caller asked for. -/
  requested : String := "auto"
  maxAttempts : Nat := 3
  /-- Whether there is a quota tracker. -/
  quota : Bool := true
  /-- Whether there is a latency table. -/
  metrics : Bool := true

/-- The locals of the walk over the chain. -/
structure Walk where
  trail : List AttemptRecord := []
  attempts : Nat := 0
  /-- `route_stream` only. -/
  wastedTotal : Nat := 0
  lastError : Option ProviderError := none
  lastSpec : Option ModelSpec := none
  lastKeyPool : Option KeyPool := none

/-- Append an event, numbered by its place. -/
def Walk.append (w : Walk) (record : Nat → AttemptRecord) : Walk :=
  { w with trail := w.trail ++ [record (w.trail.length + 1)] }

/-- The locals of one candidate's `while True`. `spec` differs from the
candidate only after a re-fit. -/
structure Visit where
  spec : ModelSpec
  refitUsed : Bool := false
  retriesUsed : Nat := 0
  walk : Walk

/-- The times the `while True` can still go round. -/
def Visit.left (v : Visit) : Nat :=
  (if v.refitUsed then 0 else 1) + (maxSameProviderRetries - v.retriesUsed)

/-- How a pass of the `while True` ends: round again, or out of it. A raised
`RoutingFailed` ends the whole function, as a `return` does. -/
abbrev Pass (ω : Type) (v : Visit) : Type :=
  Prog.Again Visit.left v ⊕ Flow Walk (Except RoutingFailed ω)

/-! ## The helpers both paths call -/

/-- `_elapsed_ms`: whole milliseconds, truncated. -/
def elapsedMs (since : Seconds) : Eff Int := do
  let t ← now
  let ms := (t - since) * 1000
  return Int.tdiv ms.num ms.den

/-- `_estimate_discarded_tokens`. -/
def estimateDiscardedTokens (chars : Nat) : Nat := chars / discardedCharsPerToken

/-- `_retry_would_starve_failover`. -/
def retryWouldStarveFailover (attempts maxAttempts candidatesRemaining : Nat) : Bool :=
  decide (maxAttempts ≤ attempts + 1) && decide (0 < candidatesRemaining)

/-- `_retry_delay_s`: exponential backoff with full jitter. -/
def retryDelayS (attempt : Nat) : Eff Seconds :=
  uniform 0 (min retryMaxDelayS (retryBaseDelayS * 2 ^ (attempt - 1)))

/-- `allocations.shared_pool_grants` for a cap that is set. -/
def sharedPoolGrants (spec : ModelSpec) (userId : String) (cap : Int) : List WindowGrant :=
  [{ window := .rpd, limit := cap, reset := .rollingDaily, costIsTokens := false,
     key := "q:" ++ userId ++ ":" ++ spec.provider ++ ":" ++ spec.model ++ ":alloc:rpd" }]

/-- `_extra_grants`. -/
def extraGrants (spec : ModelSpec) (resolved : ResolvedKey) : List WindowGrant :=
  match resolved.pool, resolved.sharedDailyCap, resolved.userId with
  | .shared, some cap, some userId => sharedPoolGrants spec userId cap
  | _, _, _ => []

/-- `_reconcile_hint`: drained always, applied only under quota. -/
def reconcileHint (cfg : Config) (spec : ModelSpec) (scope : String) : Eff Unit := do
  match ← takeHint with
  | some hint => if cfg.quota then applyHint spec scope hint else return
  | none => return

/-- `commit`, where there is a tracker and a reservation to settle. -/
def settle (cfg : Config) (reservation : Option Reservation) (tokensIn tokensOut : Int) :
    Eff Unit :=
  match cfg.quota, reservation with
  | true, some r => commit r tokensIn tokensOut
  | _, _ => return

/-- A private key that fails is disclosed to its owner. -/
def discloseAuthFailure (resolved : ResolvedKey) (exc : ProviderError) : Eff Unit :=
  if exc.isAuthFailed && resolved.pool == .«private» then recordAuthFailure resolved else return

/-- `metrics.record`, where there is a latency table. -/
def recordLatency (cfg : Config) (spec : ModelSpec) (series : Series) (ms : Int) : Eff Unit :=
  if cfg.metrics then metricsRecord spec.provider spec.model series ms else return

/-- `min(.., default=None)` over the hints that are there. -/
def minHint : List (Option Seconds) → Option Seconds
  | [] => none
  | none :: hints => minHint hints
  | some s :: hints => match minHint hints with
    | none => some s
    | some t => some (min s t)

/-- `_all_skipped`: the error of a run that attempted nothing. -/
def allSkipped (chain : List ModelSpec) (trail : List AttemptRecord) : ProviderError :=
  match trail.filter (·.outcome == .skippedQuota) with
  | first :: rest =>
    { kind := .rateLimited (minHint ((first :: rest).map (·.retryAfterS)))
      message := "every candidate is blocked on quota"
      provider := first.provider
      model := first.model }
  | [] =>
    { kind := .unavailable
      message := "every candidate is in circuit-breaker cooldown"
      provider := (chain.head?.map (·.provider)).getD "none"
      model := (chain.head?.map (·.model)).getD "none" }

/-- The reservation step, made after render. -/
inductive Gate where
  | go (reservation : Option Reservation)
  | refused (decision : QuotaDecision)

/-- Reserve for one attempt, or find the window that says no. -/
def takeReservation (cfg : Config) (spec : ModelSpec) (resolved : ResolvedKey)
    (report : RenderReport) : Eff Gate := do
  if cfg.quota then
    let requestId ← uuid4
    let decision ← reserve spec resolved.scope report.estimatedTokens requestId
      (extraGrants spec resolved)
    if decision.allowed then return .go decision.reservation else return .refused decision
  else return .go none

/-- The `skipped_quota` event, and the `break` out of the candidate. -/
def skipQuota {ω : Type} (v : Visit) (decision : BreakerDecision) (resolved : ResolvedKey)
    (refusal : QuotaDecision) : Eff (Pass ω v) := do
  let walk := v.walk.append fun n =>
    { n, slot := v.spec.slot, provider := v.spec.provider, model := v.spec.model,
      outcome := .skippedQuota, breaker := decision.state, retryAfterS := refusal.retryAfterS,
      blockedWindow := refusal.blockedWindow, keyPool := some resolved.pool }
  log (.candidateSkippedQuota v.spec refusal.blockedWindow refusal.retryAfterS refusal.degraded)
  return .inr (.next walk)

/-! ## The walk over the chain -/

/-- One candidate: the budget, the breaker, then the `while True`. -/
def visitCandidate {ω : Type} (cfg : Config)
    (pass : BreakerDecision → Nat → (v : Visit) → Eff (Pass ω v))
    (candidate : ModelSpec) (rest : List ModelSpec) (w : Walk) :
    Eff (Flow Walk (Except RoutingFailed ω)) := do
  if cfg.maxAttempts ≤ w.attempts then return .stop w
  else
    let decision ← allows candidate.provider candidate.model
    if decision.allowed then
      Prog.iterate Visit.left (pass decision rest.length) { spec := candidate, walk := w }
    else
      log (.candidateSkipped candidate decision.state decision.retryAfterS)
      return .next (w.append fun n =>
        { n, slot := candidate.slot, provider := candidate.provider, model := candidate.model,
          outcome := .skippedBreaker, breaker := decision.state,
          retryAfterS := decision.retryAfterS })

/-- The end of a walk nothing served. -/
def exhausted {ω : Type} (cfg : Config) (chain : List ModelSpec) (started : Seconds) (w : Walk) :
    Eff (Except RoutingFailed ω) := do
  log (.exhausted cfg.requested w.attempts chain.length (w.lastError.map (·.code)) w.wastedTotal)
  let latencyMs ← elapsedMs started
  return .error
    { error := w.lastError.getD (allSkipped chain w.trail), spec := w.lastSpec, trail := w.trail,
      attempts := w.attempts, latencyMs, wastedTokensOut := w.wastedTotal,
      keyPool := w.lastKeyPool }

/-- The walk: every candidate in turn, then what nothing served comes to. -/
def walkChain {ω : Type} (cfg : Config) (started : Seconds)
    (pass : BreakerDecision → Nat → (v : Visit) → Eff (Pass ω v)) (chain : List ModelSpec) :
    Eff (Except RoutingFailed ω) := do
  match ← Prog.forEach (visitCandidate cfg pass) chain {} with
  | .done w => return w
  | .next w | .stop w => exhausted cfg chain started w

/-! ## The non-streaming path -/

namespace Complete

/-- The locals of a pass that an exception out of its `try` block leaves set. -/
structure Tried where
  attempts : Nat
  reservation : Option Reservation := none

/-- How the `try` block ends without an exception. -/
inductive Tries where
  | refused (decision : QuotaDecision)
  | answered (tried : Tried) (report : RenderReport) (completion : Completion)

/-- The `try` block: render, reserve, call. -/
def tryAttempt (cfg : Config) (v : Visit) (resolved : ResolvedKey) :
    Prog iface (Exn × Tried) Tries := do
  let before : Tried := { attempts := v.walk.attempts }
  let (payload, report) ← (render v.spec).withLocals before
  match ← (takeReservation cfg v.spec resolved report).withLocals before with
  | .refused decision => return .refused decision
  | .go reservation =>
    let tried : Tried := { attempts := v.walk.attempts + 1, reservation }
    let completion ← (complete v.spec payload resolved.key).withLocals tried
    return .answered tried report completion

/-- The end of `except ProviderError`: count the failure, then fail over or
stop. -/
def giveUp (started : Seconds) (decision : BreakerDecision) (resolved : ResolvedKey)
    (v : Visit) (walk : Walk) (exc : ProviderError) : Eff (Pass RouterOutcome v) := do
  recordFailure decision exc
  if exc.failoverEligible then return .inr (.next walk)
  else
    log (.aborted exc.code walk.attempts)
    let latencyMs ← elapsedMs started
    return .inr (.done (.error
      { error := exc, spec := some v.spec, trail := walk.trail, attempts := walk.attempts,
        latencyMs, keyPool := some resolved.pool }))

/-- The decisions of `except ProviderError`, after the bookkeeping: re-fit,
retry, or give the candidate up. -/
def decideNext (cfg : Config) (started : Seconds) (decision : BreakerDecision)
    (candidatesRemaining : Nat) (resolved : ResolvedKey) (v : Visit) (walk : Walk)
    (exc : ProviderError) : Eff (Pass RouterOutcome v) := do
  if hr : v.refitUsed = false ∧ exc.limitTokens.isSome ∧ walk.attempts < cfg.maxAttempts then
    let limit := exc.limitTokens.get hr.2.1
    log (.refitting v.spec.provider v.spec.model limit)
    return .inl ⟨{ v with spec := { v.spec with contextWindow := limit }, refitUsed := true, walk },
      by simp [Visit.left, hr.1]⟩
  else
    let retryable := exc.retryableSameProvider && !exc.isContextTooLong
    if ht : retryable ∧ v.retriesUsed < maxSameProviderRetries then
      if retryWouldStarveFailover walk.attempts cfg.maxAttempts candidatesRemaining then
        log (.retryYielded v.spec.provider v.spec.model walk.attempts)
        giveUp started decision resolved v walk exc
      else
        let delay ← retryDelayS (v.retriesUsed + 1)
        sleep delay
        return .inl ⟨{ v with retriesUsed := v.retriesUsed + 1, walk },
          by have h := ht.2; simp only [Visit.left]; omega⟩
    else giveUp started decision resolved v walk exc

/-- The handler `except ProviderError as exc`. -/
def onError (cfg : Config) (started attemptStarted : Seconds) (decision : BreakerDecision)
    (candidatesRemaining : Nat) (resolved : ResolvedKey) (v : Visit) (tried : Tried)
    (exc : ProviderError) : Eff (Pass RouterOutcome v) := do
  let latencyMs ← elapsedMs attemptStarted
  settle cfg tried.reservation 0 0
  reconcileHint cfg v.spec resolved.scope
  discloseAuthFailure resolved exc
  let walk := { v.walk with
      attempts := tried.attempts, lastError := some exc, lastSpec := some v.spec,
      lastKeyPool := some resolved.pool }.append fun n =>
    { n, slot := v.spec.slot, provider := v.spec.provider, model := v.spec.model,
      outcome := .error, errorCode := some exc.code, latencyMs, breaker := decision.state,
      keyPool := some resolved.pool }
  log (.attemptFailed exc v.spec.slot tried.attempts latencyMs 0 0)
  decideNext cfg started decision candidatesRemaining resolved v walk exc

/-- The `else` branch: settle, record, report. -/
def onSuccess (cfg : Config) (started attemptStarted : Seconds) (decision : BreakerDecision)
    (resolved : ResolvedKey) (v : Visit) (tried : Tried) (report : RenderReport)
    (completion : Completion) : Eff (Pass RouterOutcome v) := do
  let latencyMs ← elapsedMs attemptStarted
  settle cfg tried.reservation completion.usage.tokensIn completion.usage.tokensOut
  reconcileHint cfg v.spec resolved.scope
  recordSuccess decision
  recordLatency cfg v.spec .complete latencyMs
  let walk := v.walk.append fun n =>
    { n, slot := v.spec.slot, provider := v.spec.provider, model := v.spec.model, outcome := .ok,
      latencyMs, breaker := decision.state, keyPool := some resolved.pool }
  log (.served v.spec cfg.requested tried.attempts latencyMs none 0)
  let totalMs ← elapsedMs started
  return .inr (.done (.ok
    { spec := v.spec, completion, report, trail := walk.trail, attempts := tried.attempts,
      latencyMs := totalMs, keyPool := resolved.pool }))

/-- One pass of the `while True` of `route`. -/
def pass (cfg : Config) (started : Seconds) (decision : BreakerDecision)
    (candidatesRemaining : Nat) (v : Visit) : Eff (Pass RouterOutcome v) := do
  let attemptStarted ← now
  adapterForSpec v.spec
  let resolved ← forProvider v.spec.provider v.spec.model
  match ← (tryAttempt cfg v resolved).attempt with
  | .ok (.refused refusal) => skipQuota v decision resolved refusal
  | .ok (.answered tried report completion) =>
    onSuccess cfg started attemptStarted decision resolved v tried report completion
  | .error (.provider exc, tried) =>
    onError cfg started attemptStarted decision candidatesRemaining resolved v tried exc
  | .error (e, _) => .raise e

end Complete

/-- **`route`**: serve one non-streaming turn over the chain the selection
ranked. -/
def route (cfg : Config) (chain : List ModelSpec) : Eff (Except RoutingFailed RouterOutcome) := do
  let started ← now
  walkChain cfg started (Complete.pass cfg started) chain

/-! ## The streaming path -/

namespace Stream

/-- The locals of a pass that an exception out of its `try` block leaves set. -/
structure Tried where
  attempts : Nat
  reservation : Option Reservation := none
  deliveredChars : Nat := 0
  ttftMs : Option Int := none
  usage : Option Usage := none
  finishReason : String := "stop"

/-- How the `try` block ends without an exception. -/
inductive Tries where
  | refused (decision : QuotaDecision)
  | answered (tried : Tried) (report : RenderReport)

/-- The time to the first token, read from the clock at the first chunk only. -/
def firstTokenMs (attemptStarted : Seconds) (t : Tried) : Eff Int :=
  match t.ttftMs with
  | some ms => return ms
  | none => elapsedMs attemptStarted

/-- Take over what a chunk reports beside its text. -/
def Tried.read (t : Tried) (chunk : StreamChunk) (ttftMs : Int) : Tried :=
  { t with
    ttftMs := some ttftMs
    usage := chunk.usage <|> t.usage
    finishReason := match chunk.finishReason with
      | some reason => if reason = "" then t.finishReason else reason
      | none => t.finishReason }

/-- The loop over the chunks, up to where the provider ends them: read the
fields of each, hand its text on. -/
def pump (attemptStarted : Seconds) : List StreamChunk → Tried → Prog iface (Exn × Tried) Tried
  | [], t => return t
  | chunk :: chunks, t => do
    let ttftMs ← (firstTokenMs attemptStarted t).withLocals t
    let t := t.read chunk ttftMs
    if chunk.delta = "" then pump attemptStarted chunks t
    else
      let t := { t with deliveredChars := t.deliveredChars + chunk.delta.length }
      (yieldEvent (.delta chunk.delta)).withLocals t
      pump attemptStarted chunks t

/-- What the end of the chunks raises, if anything. A `TimeoutError` at any
position is the same stall. -/
def endExn (spec : ModelSpec) : StreamEnd → Option Exn
  | .stopped => none
  | .timedOut => some (.provider
      { kind := .unavailable
        message := "first-token stall: no chunk from provider within the budget"
        provider := spec.provider, model := spec.model })
  | .raised e => some e

/-- Leave the loop over the chunks at their end. -/
def atEnd (spec : ModelSpec) (ending : StreamEnd) (t : Tried) : Prog iface (Exn × Tried) Tried :=
  match endExn spec ending with
  | none => return t
  | some e => .raise (e, t)

/-- The chunks and their end, with the `finally` that closes the stream: an
exception out of `aclose` replaces the one it interrupts. -/
def drain (spec : ModelSpec) (attemptStarted : Seconds) (chunks : List StreamChunk)
    (ending : StreamEnd) (t : Tried) : Prog iface (Exn × Tried) Tried := do
  match ← (do atEnd spec ending (← pump attemptStarted chunks t)).attempt with
  | .ok t =>
    aclose.withLocals t
    return t
  | .error (e, t) =>
    aclose.withLocals t
    .raise (e, t)

/-- The `try` block: render, reserve, open the stream and drain it. -/
def tryAttempt (cfg : Config) (attemptStarted : Seconds) (v : Visit) (resolved : ResolvedKey) :
    Prog iface (Exn × Tried) Tries := do
  let before : Tried := { attempts := v.walk.attempts }
  let (payload, report) ← (render v.spec).withLocals before
  match ← (takeReservation cfg v.spec resolved report).withLocals before with
  | .refused decision => return .refused decision
  | .go reservation =>
    let tried : Tried := { attempts := v.walk.attempts + 1, reservation }
    (yieldEvent (.started tried.attempts v.spec)).withLocals tried
    let (chunks, ending) ← (stream v.spec payload resolved.key).withLocals tried
    let tried ← drain v.spec attemptStarted chunks ending tried
    if tried.deliveredChars = 0 then
      .raise (.provider
        { kind := .emptyResponse, message := "stream closed without producing any content"
          provider := v.spec.provider, model := v.spec.model }, tried)
    else return .answered tried report

/-- The end of `except ProviderError`: count the failure, then fail over or
stop. -/
def giveUp (started : Seconds) (decision : BreakerDecision) (resolved : ResolvedKey)
    (v : Visit) (walk : Walk) (exc : ProviderError) : Eff (Pass Unit v) := do
  recordFailure decision exc
  if exc.failoverEligible then return .inr (.next walk)
  else
    log (.aborted exc.code walk.attempts)
    let latencyMs ← elapsedMs started
    return .inr (.done (.error
      { error := exc, spec := some v.spec, trail := walk.trail, attempts := walk.attempts,
        latencyMs, wastedTokensOut := walk.wastedTotal, keyPool := some resolved.pool }))

/-- The decisions of `except ProviderError`. Text that was delivered rules out
both the re-fit and the retry. -/
def decideNext (cfg : Config) (started : Seconds) (decision : BreakerDecision)
    (candidatesRemaining : Nat) (resolved : ResolvedKey) (v : Visit) (walk : Walk)
    (deliveredChars : Nat) (exc : ProviderError) : Eff (Pass Unit v) := do
  if hr : deliveredChars = 0 ∧ v.refitUsed = false ∧ exc.limitTokens.isSome ∧
      walk.attempts < cfg.maxAttempts then
    let limit := exc.limitTokens.get hr.2.2.1
    log (.refitting v.spec.provider v.spec.model limit)
    return .inl ⟨{ v with spec := { v.spec with contextWindow := limit }, refitUsed := true, walk },
      by simp [Visit.left, hr.2.1]⟩
  else
    let retryable := exc.retryableSameProvider && !exc.isContextTooLong && deliveredChars == 0
    if ht : retryable ∧ v.retriesUsed < maxSameProviderRetries then
      if retryWouldStarveFailover walk.attempts cfg.maxAttempts candidatesRemaining then
        log (.retryYielded v.spec.provider v.spec.model walk.attempts)
        giveUp started decision resolved v walk exc
      else
        let delay ← retryDelayS (v.retriesUsed + 1)
        sleep delay
        return .inl ⟨{ v with retriesUsed := v.retriesUsed + 1, walk },
          by have h := ht.2; simp only [Visit.left]; omega⟩
    else giveUp started decision resolved v walk exc

/-- The handler `except ProviderError as exc`. -/
def onError (cfg : Config) (started attemptStarted : Seconds) (decision : BreakerDecision)
    (candidatesRemaining : Nat) (resolved : ResolvedKey) (v : Visit) (tried : Tried)
    (exc : ProviderError) : Eff (Pass Unit v) := do
  let latencyMs ← elapsedMs attemptStarted
  let wasted := estimateDiscardedTokens tried.deliveredChars
  settle cfg tried.reservation 0 wasted
  reconcileHint cfg v.spec resolved.scope
  discloseAuthFailure resolved exc
  let walk := { v.walk with
      attempts := tried.attempts, wastedTotal := v.walk.wastedTotal + wasted,
      lastError := some exc, lastSpec := some v.spec,
      lastKeyPool := some resolved.pool }.append fun n =>
    { n, slot := v.spec.slot, provider := v.spec.provider, model := v.spec.model,
      outcome := .error, errorCode := some exc.code, latencyMs, wastedTokensOut := wasted,
      breaker := decision.state, keyPool := some resolved.pool }
  log (.attemptFailed exc v.spec.slot tried.attempts latencyMs tried.deliveredChars wasted)
  yieldEvent (.aborted tried.attempts v.spec exc tried.deliveredChars wasted)
  decideNext cfg started decision candidatesRemaining resolved v walk tried.deliveredChars exc

/-- The `else` branch: settle, record, and yield the terminal event. -/
def onSuccess (cfg : Config) (started attemptStarted : Seconds) (decision : BreakerDecision)
    (resolved : ResolvedKey) (v : Visit) (tried : Tried) (report : RenderReport) :
    Eff (Pass Unit v) := do
  let latencyMs ← elapsedMs attemptStarted
  let firstTokenMs := tried.ttftMs.getD latencyMs
  let finalUsage := tried.usage.getD
    { tokensIn := report.estimatedTokens
      tokensOut := estimateDiscardedTokens tried.deliveredChars, estimated := true }
  settle cfg tried.reservation finalUsage.tokensIn finalUsage.tokensOut
  reconcileHint cfg v.spec resolved.scope
  recordSuccess decision
  recordLatency cfg v.spec .stream firstTokenMs
  let walk := v.walk.append fun n =>
    { n, slot := v.spec.slot, provider := v.spec.provider, model := v.spec.model, outcome := .ok,
      latencyMs, breaker := decision.state, keyPool := some resolved.pool }
  log (.served v.spec cfg.requested tried.attempts latencyMs (some firstTokenMs)
    v.walk.wastedTotal)
  let totalMs ← elapsedMs started
  yieldEvent (.completed
    { spec := v.spec, usage := finalUsage, finishReason := tried.finishReason, report,
      trail := walk.trail, attempts := tried.attempts, latencyMs := totalMs,
      ttftMs := firstTokenMs, wastedTokensOut := v.walk.wastedTotal, keyPool := resolved.pool })
  return .inr (.done (.ok ()))

/-- One pass of the `while True` of `route_stream`. -/
def pass (cfg : Config) (started : Seconds) (decision : BreakerDecision)
    (candidatesRemaining : Nat) (v : Visit) : Eff (Pass Unit v) := do
  let attemptStarted ← now
  adapterForSpec v.spec
  let resolved ← forProvider v.spec.provider v.spec.model
  match ← (tryAttempt cfg attemptStarted v resolved).attempt with
  | .ok (.refused refusal) => skipQuota v decision resolved refusal
  | .ok (.answered tried report) =>
    onSuccess cfg started attemptStarted decision resolved v tried report
  | .error (.provider exc, tried) =>
    onError cfg started attemptStarted decision candidatesRemaining resolved v tried exc
  | .error (e, _) => .raise e

end Stream

/-- **`route_stream`**: the streaming twin, an async generator whose consumer
answers each `yield`. -/
def routeStream (cfg : Config) (chain : List ModelSpec) : Eff (Except RoutingFailed Unit) := do
  let started ← now
  walkChain cfg started (Stream.pass cfg started) chain

end Router

end LlmGateway
