import LlmGateway.Chat.Interface

/-!
# The streaming orchestrator

`stream_completion` turns the events of the router into frames, and
`stream_cached_completion` a stored answer. Both are async generators whose
consumer answers each `yield`; what they hand to persistence is a parameter.
-/

namespace LlmGateway

namespace Streaming

open Effects Chat

/-! ## Waiting for the router -/

/-- A check that fails reads as still connected. -/
def gone (r : Except Exn Bool) : Except Fault Bool :=
  match r with
  | .ok gone => .ok gone
  | .error e => if (Fault.exn e).isException then .ok false else .error (.exn e)

/-- `_client_gone`. -/
def clientGone : Eff Bool := .ask .isDisconnected fun a => .ofExcept (gone a)

/-- The waits that run into the heartbeat interval, and whether the client was
found gone at one of them. -/
def beat (s : Turn) : Nat → Eff Bool
  | 0 => return false
  | n + 1 => do
    if ← clientGone then return true
    else
      if s.committed then yieldFrame .heartbeat
      beat s n

/-- Wait for the router's next event; whether the client is gone by then. -/
def awaitNext (s : Turn) (pulled : Pulled) : Eff Bool := do
  let waited ← wait pulled
  if ← beat s waited.timeouts then return true
  else if waited.cancelled then .raise (.exn .cancelled)
  else clientGone

/-! ## The loop -/

/-- How the loop is left without an exception but `RoutingFailed`. -/
inductive Driven where
  | gone
  | stopped (s : Turn)
  | failed (s : Turn) (failure : RoutingFailed)

/-- `record_attempt`, which never fails a stream. -/
def recordAttempt : Eff Unit := .ask .recordAttempt shrug

/-- The frames of one event, one `yield` each. -/
def yieldAll : List Frame → Eff Unit
  | [] => return
  | frame :: frames => do
    yieldFrame frame
    yieldAll frames

/-- `AttemptStarted` is counted in Redis. -/
def countAttempt : RouteStreamEvent → Eff Unit
  | .started _ _ => recordAttempt
  | _ => return

/-- The generator of the router has ended. -/
def leave (s : Turn) : Ending → Eff Driven
  | .stopped => return .stopped s
  | .failed failure => return .failed s failure
  | .raised e => .raise (.exn e)

/-- The `while True` over the router's events. -/
def drive (s : Turn) : List RouteStreamEvent → Ending → Eff Driven
  | [], ending => do
    if ← awaitNext s (.ended ending) then return .gone
    else leave s ending
  | ev :: evs, ending => do
    if ← awaitNext s (.event ev) then return .gone
    else
      let (s, frames) ← Prog.ofExcept (lift (s.apply ev))
      yieldAll frames
      countAttempt ev
      if s.done then return .stopped s else drive s evs ending

/-! ## The generator -/

/-- `_persist`: hand the finished turn over, and swallow what comes back. -/
def handOver (persistence : StreamResult → Eff Unit) (s : Turn) : Eff Unit := do
  if s.done then .ofExcept (shrugged (← (persistence s.result).attempt))

/-- The handler `except RoutingFailed`, behind the first byte. -/
def failInBand (s : Turn) : Eff Unit := do
  let e ← Prog.ofExcept (lift s.doneEvent)
  yieldFrame (.done e)

/-- **`stream_completion`** over what the router's generator hands over. -/
def streamCompletion (persistence : StreamResult → Eff Unit)
    (conversationId messageId requested : String) (pinned : Option String)
    (events : List RouteStreamEvent) (ending : Ending) : Eff Unit := do
  match ← (drive { conversationId, messageId, requested, pinned } events ending).attempt with
  | .ok .gone => closeEvents
  | .ok (.stopped s) =>
    closeEvents
    handOver persistence s
  | .ok (.failed s failure) =>
    if s.committed = false then
      closeEvents
      .raise (.routing failure)
    else
      let s := s.recordFailure failure
      match ← (failInBand s).attempt with
      | .ok _ =>
        closeEvents
        handOver persistence s
      | .error e =>
        closeEvents
        .raise e
  | .error e =>
    closeEvents
    .raise e

/-! ## Replays -/

/-- The `meta` of a stored answer. -/
def cachedMeta (cached : Exact.CachedResponse) (requestedSlot conversationId messageId : String) :
    MetaEvent :=
  { attempt := 0, slot := cached.slot, provider := cached.provider, model := cached.model
    requestedSlot, conversationId, messageId }

/-- And its `done`. -/
def cachedDone (cached : Exact.CachedResponse) (requestedSlot : String) : DoneEvent :=
  { servedBy := { slot := cached.slot, provider := cached.provider, model := cached.model }
    requestedSlot, substituted := isSubstitution requestedSlot cached.slot, attempts := 0
    usage := UsageOut.of cached.tokensIn cached.tokensOut cached.usageEstimated
    wastedTokensOut := 0, degraded := false
    -- Nothing was rendered and no credential spent.
    extractionTier := none, messagesDropped := 0, warning := none, keyPool := none
    status := .ok, partialContent := none }

/-- The frames of a stored answer. -/
def cachedFrames (cached : Exact.CachedResponse) (requestedSlot conversationId messageId : String) :
    List Frame :=
  .meta (cachedMeta cached requestedSlot conversationId messageId) ::
    ((Exact.chunkForReplay cached.text).map .delta ++ [.done (cachedDone cached requestedSlot)])

/-- **`stream_cached_completion`**: a stored answer, framed like a stream. -/
def streamCachedCompletion (persistence : Option (Eff Unit)) (cached : Exact.CachedResponse)
    (requestedSlot conversationId messageId : String) : Eff Unit := do
  yieldAll (cachedFrames cached requestedSlot conversationId messageId)
  match persistence with
  | none => return
  | some persistCacheHit => .ofExcept (shrugged (← persistCacheHit.attempt))

end Streaming

end LlmGateway
