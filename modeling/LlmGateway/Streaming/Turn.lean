import LlmGateway.Routing.Interface

/-!
# One streamed turn

What the orchestrator remembers of a turn, what each router event does to it,
and the frames it sends. Nothing here awaits.
-/

namespace LlmGateway

/-! ## Disclosure -/

/-- `AUTO`, the slot that leaves the choice to the gateway. -/
def auto : String := "auto"

/-- `is_substitution`. -/
def isSubstitution (requestedSlot servedSlot : String) : Bool :=
  requestedSlot != auto && requestedSlot != servedSlot

/-- `pin_warning`. -/
def pinWarning (pinnedModel : Option String) (requestedSlot servedSlot : String) :
    Option String :=
  match pinnedModel with
  | none => none
  | some pinned =>
    if requestedSlot = servedSlot then none
    else some ("conversation pinned to " ++ pinned ++ " due to prior tool use")

/-- Which model answered. -/
structure ServedBy where
  slot : String
  provider : String
  model : String
  deriving DecidableEq, Repr

/-- The candidate as the client is told about it. -/
def ModelSpec.servedBy (spec : ModelSpec) : ServedBy :=
  { slot := spec.slot, provider := spec.provider, model := spec.model }

/-- Token accounting as a response carries it. -/
structure UsageOut where
  promptTokens : Int
  completionTokens : Int
  totalTokens : Int
  estimated : Bool
  deriving DecidableEq, Repr

/-- The usage block over the two counts. -/
def UsageOut.of (tokensIn tokensOut : Int) (estimated : Bool) : UsageOut :=
  { promptTokens := tokensIn, completionTokens := tokensOut, totalTokens := tokensIn + tokensOut,
    estimated }

namespace Streaming

/-! ## Frames -/

structure MetaEvent where
  attempt : Nat
  slot : String
  provider : String
  model : String
  requestedSlot : String
  conversationId : String
  messageId : String
  deriving DecidableEq, Repr

structure RestartEvent where
  reason : String
  failedProvider : String
  failedModel : String
  nextSlot : String
  nextProvider : String
  nextModel : String
  attempt : Nat
  discardedChars : Nat
  deriving DecidableEq, Repr

inductive Status where
  | ok
  | failed
  deriving DecidableEq, Repr

structure DoneEvent where
  servedBy : ServedBy
  requestedSlot : String
  substituted : Bool
  attempts : Nat
  usage : UsageOut
  wastedTokensOut : Nat
  degraded : Bool
  extractionTier : Option ExtractionTier
  messagesDropped : Nat
  warning : Option String
  keyPool : Option KeyPool
  status : Status
  partialContent : Option String
  deriving DecidableEq, Repr

/-- One frame on the wire. -/
inductive Frame where
  | «meta» (e : MetaEvent)
  | delta (content : String)
  | restart (e : RestartEvent)
  | done (e : DoneEvent)
  | heartbeat
  deriving DecidableEq, Repr

/-! ## The turn -/

/-- `MIN_PARTIAL_CONTENT_CHARS`. -/
def minPartialContentChars : Nat := 40

/-- Everything the collector needs, assembled once the stream is over. -/
structure StreamResult where
  conversationId : String
  messageId : String
  requestedSlot : String
  spec : Option ModelSpec
  text : String
  usage : Usage
  finishReason : String
  status : Status
  errorCode : Option String
  substituted : Bool
  attempts : Nat
  trail : List AttemptRecord
  latencyMs : Int
  ttftMs : Option Int
  wastedTokensOut : Nat
  degraded : Bool
  extractionTier : Option ExtractionTier
  messagesDropped : Nat
  keyPool : Option KeyPool
  deriving DecidableEq, Repr

/-- The mutable half of the state machine. -/
structure Turn where
  conversationId : String
  messageId : String
  requested : String
  pinned : Option String
  /-- The current attempt's text. -/
  buffer : List String := []
  /-- The furthest any discarded attempt got. -/
  longestPartial : String := ""
  committed : Bool := false
  done : Bool := false
  attempt : Nat := 0
  attempts : Nat := 0
  spec : Option ModelSpec := none
  /-- The failed candidate, the reason and the characters withdrawn, until the
  next attempt speaks. -/
  pendingRestart : Option (ModelSpec × String × Nat) := none
  status : Status := .ok
  errorCode : Option String := none
  usage : Usage := { tokensIn := 0, tokensOut := 0, estimated := true }
  finishReason : String := "error"
  trail : List AttemptRecord := []
  latencyMs : Int := 0
  ttftMs : Option Int := none
  wastedTokensOut : Nat := 0
  degraded : Bool := false
  extractionTier : Option ExtractionTier := none
  messagesDropped : Nat := 0
  keyPool : Option KeyPool := none
  deriving DecidableEq, Repr

namespace Turn

/-- The text of the current attempt. -/
def text (s : Turn) : String := String.join s.buffer

/-- The longer of the two partials; the earlier one where they tie. -/
def furthest (s : Turn) : String :=
  if s.longestPartial.length < s.text.length then s.text else s.longestPartial

/-! ### Transitions -/

def begin (s : Turn) (attempt : Nat) (spec : ModelSpec) : Turn :=
  { s with attempt, attempts := attempt, spec := some spec }

def abort (s : Turn) (spec : ModelSpec) (error : ProviderError) (discardedChars : Nat) : Turn :=
  { s with
    longestPartial := s.furthest
    pendingRestart := if s.text = "" then s.pendingRestart
      else some (spec, error.code, discardedChars)
    buffer := [] }

def complete (s : Turn) (c : StreamCompleted) : Turn :=
  { s with
    spec := some c.spec, status := .ok, usage := c.usage, finishReason := c.finishReason
    trail := c.trail, attempts := c.attempts, latencyMs := c.latencyMs, ttftMs := some c.ttftMs
    wastedTokensOut := c.wastedTokensOut, degraded := c.report.degraded
    extractionTier := c.report.extractionTier, messagesDropped := c.report.messagesDropped
    keyPool := some c.keyPool, done := true }

def recordFailure (s : Turn) (failure : RoutingFailed) : Turn :=
  { s with
    status := .failed, errorCode := some failure.error.code, spec := failure.spec <|> s.spec
    trail := failure.trail, attempts := failure.attempts, latencyMs := failure.latencyMs
    wastedTokensOut := failure.wastedTokensOut, keyPool := failure.keyPool
    longestPartial := s.furthest, done := true }

/-! ### Events -/

/-- `_served`: the candidate the client is being told about. -/
def served (s : Turn) : Except Exn ModelSpec :=
  match s.spec with
  | some spec => .ok spec
  | none => .error (.other "AssertionError")

def metaEvent (s : Turn) : Except Exn MetaEvent := do
  let spec ← s.served
  return { attempt := s.attempt, slot := spec.slot, provider := spec.provider, model := spec.model
           requestedSlot := s.requested, conversationId := s.conversationId
           messageId := s.messageId }

def restartEvent (s : Turn) : Except Exn RestartEvent :=
  match s.pendingRestart with
  | none => .error (.other "AssertionError")
  | some (failed, reason, discarded) => do
    let spec ← s.served
    return { reason, failedProvider := failed.provider, failedModel := failed.model
             nextSlot := spec.slot, nextProvider := spec.provider, nextModel := spec.model
             attempt := s.attempt, discardedChars := discarded }

/-- The salvage offer of a failed stream. -/
def partialContent (s : Turn) : Option String :=
  if s.status ≠ .failed then none
  else if s.longestPartial.length < minPartialContentChars then none
  else some s.longestPartial

def doneEvent (s : Turn) : Except Exn DoneEvent := do
  let spec ← s.served
  return { servedBy := spec.servedBy, requestedSlot := s.requested
           substituted := isSubstitution s.requested spec.slot, attempts := s.attempts
           usage := UsageOut.of s.usage.tokensIn s.usage.tokensOut s.usage.estimated
           wastedTokensOut := s.wastedTokensOut, degraded := s.degraded
           extractionTier := s.extractionTier, messagesDropped := s.messagesDropped
           warning := pinWarning s.pinned s.requested spec.slot, keyPool := s.keyPool
           status := s.status, partialContent := s.partialContent }

def result (s : Turn) : StreamResult :=
  { conversationId := s.conversationId, messageId := s.messageId, requestedSlot := s.requested
    spec := s.spec, text := if s.status = .ok then s.text else s.longestPartial
    usage := s.usage, finishReason := s.finishReason, status := s.status, errorCode := s.errorCode
    substituted := match s.spec with
      | some spec => isSubstitution s.requested spec.slot
      | none => false
    attempts := s.attempts, trail := s.trail, latencyMs := s.latencyMs, ttftMs := s.ttftMs
    wastedTokensOut := s.wastedTokensOut, degraded := s.degraded
    extractionTier := s.extractionTier, messagesDropped := s.messagesDropped
    keyPool := s.keyPool }

/-- What goes out before a delta: `meta` before the first byte of the response,
a deferred `restart` once the next attempt speaks. -/
def announce (s : Turn) : Except Exn (Turn × List Frame) :=
  if s.committed = false then do
    let e ← s.metaEvent
    return ({ s with committed := true, pendingRestart := none }, [.meta e])
  else if s.pendingRestart.isSome then do
    let e ← s.restartEvent
    return ({ s with pendingRestart := none }, [.restart e])
  else return (s, [])

/-- `_apply`: fold one router event into the turn, and say what goes on the
wire. -/
def apply (s : Turn) : RouteStreamEvent → Except Exn (Turn × List Frame)
  | .started attempt spec => .ok (s.begin attempt spec, [])
  | .aborted _ spec error discardedChars _ => .ok (s.abort spec error discardedChars, [])
  | .completed c => do
    let s := s.complete c
    let e ← s.doneEvent
    return (s, [.done e])
  | .delta text => do
    let (s, frames) ← s.announce
    return ({ s with buffer := s.buffer ++ [text] }, frames ++ [.delta text])

/-! ### The last frame -/

variable {s : Turn}

/-- The candidate named on the wire is there, once there is one. -/
theorem served_of_isSome (h : s.spec.isSome) : ∃ spec, s.served = .ok spec := by
  obtain ⟨spec, hspec⟩ := Option.isSome_iff_exists.mp h
  exact ⟨spec, by rw [served, hspec]⟩

/-- So is what the turn ends with. -/
theorem doneEvent_of_isSome (h : s.spec.isSome) :
    ∃ e, s.doneEvent = .ok e ∧ e.partialContent = s.partialContent ∧ e.status = s.status := by
  obtain ⟨spec, hserved⟩ := served_of_isSome h
  unfold doneEvent
  rw [hserved]
  refine ⟨_, rfl, ?_, ?_⟩ <;> rfl

/-- A failure names a candidate or leaves the one there was. -/
theorem spec_recordFailure (h : s.spec.isSome) (failure : RoutingFailed) :
    (s.recordFailure failure).spec.isSome := by
  change (failure.spec <|> s.spec).isSome
  cases failure.spec with
  | none => exact h
  | some _ => rfl

end Turn

end Streaming

end LlmGateway
