import LlmGateway.Effects.Loop
import LlmGateway.Providers.Types

/-!
# What the failover loop asks for

Everything the loop touches outside its own locals is a question: the clock,
the breaker, the renderer, the quota tracker, the adapters, the credentials,
the latency table, the log, and, on the streaming path, the consumer that
resumes the generator or closes it. A question that awaits may raise, and
what it raises is part of its answer.
-/

namespace LlmGateway

open Effects

/-! ## The trail -/

/-- What became of one event of the trail. -/
inductive AttemptOutcome where
  | ok
  | error
  | skippedBreaker
  | skippedQuota
  deriving DecidableEq, Repr

/-- One event in the trail written to `requests.attempts`. -/
structure AttemptRecord where
  /-- Numbers events, not attempts: a skipped candidate takes one too. -/
  n : Nat
  slot : String
  provider : String
  model : String
  outcome : AttemptOutcome
  errorCode : Option String := none
  latencyMs : Int := 0
  wastedTokensOut : Nat := 0
  breaker : BreakerState := .closed
  retryAfterS : Option Seconds := none
  blockedWindow : Option QuotaWindow := none
  keyPool : Option KeyPool := none
  deriving DecidableEq, Repr

/-- No candidate served the request. Carries the trail, not just the error. -/
structure RoutingFailed where
  error : ProviderError
  /-- The last candidate attempted, or `none` when every one was skipped. -/
  spec : Option ModelSpec
  trail : List AttemptRecord
  attempts : Nat
  latencyMs : Int
  wastedTokensOut : Nat := 0
  keyPool : Option KeyPool := none
  deriving DecidableEq, Repr

/-- What the loop came back with, and everything it did on the way. -/
structure RouterOutcome where
  spec : ModelSpec
  completion : Completion
  report : RenderReport
  trail : List AttemptRecord
  attempts : Nat
  latencyMs : Int
  keyPool : KeyPool
  deriving DecidableEq, Repr

/-- The terminal event of a successful stream, and the loop's whole report. -/
structure StreamCompleted where
  spec : ModelSpec
  usage : Usage
  finishReason : String
  report : RenderReport
  trail : List AttemptRecord
  attempts : Nat
  latencyMs : Int
  ttftMs : Int
  wastedTokensOut : Nat
  keyPool : KeyPool
  deriving DecidableEq, Repr

/-- What the streaming loop yields. -/
inductive RouteStreamEvent where
  | started (attempt : Nat) (spec : ModelSpec)
  | delta (text : String)
  | aborted (attempt : Nat) (spec : ModelSpec) (error : ProviderError)
      (discardedChars wastedTokensOut : Nat)
  | completed (c : StreamCompleted)
  deriving DecidableEq, Repr

/-! ## Exceptions -/

/-- What an awaited call may raise. The loop's own `RoutingFailed` is not
among them: only the loop raises it, and nothing in the loop catches it. -/
inductive Exn where
  /-- A normalized provider failure. -/
  | provider (e : ProviderError)
  /-- Any other exception class. -/
  | other (cls : String)
  /-- The task was cancelled. -/
  | cancelled
  /-- The consumer closed the generator. -/
  | generatorExit
  deriving DecidableEq, Repr

/-- Whether `except ProviderError` catches it. -/
def Exn.isProvider : Exn → Bool
  | .provider _ => true
  | _ => false

@[simp] theorem Exn.isProvider_provider (e : ProviderError) : (Exn.provider e).isProvider := rfl

/-- How a provider's stream ended, after its last chunk. -/
inductive StreamEnd where
  | stopped
  | timedOut
  | raised (e : Exn)
  deriving DecidableEq, Repr

/-- How a settlement call came back. One that raises, a cancellation, may
have run its script or not. -/
inductive Settled where
  | done
  | raised (e : Exn) (applied : Bool)
  deriving DecidableEq, Repr

/-- How a settlement call comes back to its caller. -/
def Settled.outcome : Settled → Except Exn Unit
  | .done => .ok ()
  | .raised e _ => .error e

/-- What the consumer of the generator does at a `yield`: ask for the next
event, or close the generator. -/
inductive Consumer where
  | next
  | closes
  deriving DecidableEq, Repr

/-- What the generator sees of it. -/
def Consumer.outcome : Consumer → Except Exn Unit
  | .next => .ok ()
  | .closes => .error .generatorExit

/-! ## The interface -/

namespace Router

/-- The two latency series. -/
inductive Series where
  | complete
  | stream
  deriving DecidableEq, Repr

/-- The structured log lines of the loop. -/
inductive LogLine where
  | candidateSkipped (candidate : ModelSpec) (breaker : BreakerState)
      (retryAfterS : Option Seconds)
  | candidateSkippedQuota (spec : ModelSpec) (blockedWindow : Option QuotaWindow)
      (retryAfterS : Option Seconds) (degraded : Bool)
  | attemptFailed (exc : ProviderError) (slot : String) (attempt : Nat) (latencyMs : Int)
      (discardedChars wastedTokensOut : Nat)
  | refitting (provider model : String) (limitTokens : Int)
  | retryYielded (provider model : String) (attempts : Nat)
  | aborted (errorCode : String) (attempts : Nat)
  | served (spec : ModelSpec) (requestedSlot : String) (attempts : Nat) (latencyMs : Int)
      (ttftMs : Option Int) (wastedTokensOut : Nat)
  | exhausted (requestedSlot : String) (attempts candidates : Nat) (errorCode : Option String)
      (wastedTokensOut : Nat)
  deriving DecidableEq, Repr

/-- The questions of the loop. -/
inductive Ask where
  | now
  | adapterForSpec (spec : ModelSpec)
  | forProvider (provider model : String)
  | allows (provider model : String)
  | render (spec : ModelSpec)
  | uuid4
  | reserve (spec : ModelSpec) (scope : String) (estimatedTokens : Int) (requestId : String)
      (extraGrants : List WindowGrant)
  | complete (spec : ModelSpec) (payload : Payload) (key : String)
  | stream (spec : ModelSpec) (payload : Payload) (key : String)
  | aclose
  | yield (ev : RouteStreamEvent)
  | commit (reservation : Reservation) (tokensIn tokensOut : Int)
  | takeHint
  | applyHint (spec : ModelSpec) (scope : String) (hint : QuotaHint)
  | recordAuthFailure (resolved : ResolvedKey)
  | uniform (lo hi : ℚ)
  | sleep (delay : Seconds)
  | recordFailure (decision : BreakerDecision) (exc : ProviderError)
  | recordSuccess (decision : BreakerDecision)
  | metricsRecord (provider model : String) (series : Series) (ms : Int)
  | log (line : LogLine)
  deriving DecidableEq, Repr

/-- The answers. A stream is answered with the chunks it will hand over and
the way it ends, which the loop then takes one at a time. -/
def Ans : Ask → Type
  | .now => Seconds
  | .adapterForSpec _ => Except Exn Unit
  | .forProvider _ _ => Except Exn ResolvedKey
  | .allows _ _ => Except Exn BreakerDecision
  | .render _ => Except Exn (Payload × RenderReport)
  | .uuid4 => String
  | .reserve _ _ _ _ _ => Except Exn QuotaDecision
  | .complete _ _ _ => Except Exn Completion
  | .stream _ _ _ => Except Exn (List StreamChunk × StreamEnd)
  | .aclose => Except Exn Unit
  | .yield _ => Consumer
  | .commit _ _ _ => Settled
  | .takeHint => Option QuotaHint
  | .applyHint _ _ _ => Except Exn Unit
  | .recordAuthFailure _ => Except Exn Unit
  | .uniform _ _ => ℚ
  | .sleep _ => Except Exn Unit
  | .recordFailure _ _ => Except Exn Unit
  | .recordSuccess _ => Except Exn Unit
  | .metricsRecord _ _ _ _ => Unit
  | .log _ => Unit

/-- The interface of the loop. -/
abbrev iface : Iface := ⟨Ask, Ans⟩

/-- A computation of the loop. -/
abbrev Eff (α : Type) : Type := Prog iface Exn α

def now : Eff Seconds := .ask .now .ret

def adapterForSpec (spec : ModelSpec) : Eff Unit := .ask (.adapterForSpec spec) .ofExcept

def forProvider (provider model : String) : Eff ResolvedKey :=
  .ask (.forProvider provider model) .ofExcept

def allows (provider model : String) : Eff BreakerDecision :=
  .ask (.allows provider model) .ofExcept

def render (spec : ModelSpec) : Eff (Payload × RenderReport) := .ask (.render spec) .ofExcept

def uuid4 : Eff String := .ask .uuid4 .ret

def reserve (spec : ModelSpec) (scope : String) (estimatedTokens : Int) (requestId : String)
    (extraGrants : List WindowGrant) : Eff QuotaDecision :=
  .ask (.reserve spec scope estimatedTokens requestId extraGrants) .ofExcept

def complete (spec : ModelSpec) (payload : Payload) (key : String) : Eff Completion :=
  .ask (.complete spec payload key) .ofExcept

def stream (spec : ModelSpec) (payload : Payload) (key : String) :
    Eff (List StreamChunk × StreamEnd) :=
  .ask (.stream spec payload key) .ofExcept

def aclose : Eff Unit := .ask .aclose .ofExcept

def yieldEvent (ev : RouteStreamEvent) : Eff Unit :=
  .ask (.yield ev) fun a => .ofExcept a.outcome

def commit (reservation : Reservation) (tokensIn tokensOut : Int) : Eff Unit :=
  .ask (.commit reservation tokensIn tokensOut) fun a => .ofExcept a.outcome

def takeHint : Eff (Option QuotaHint) := .ask .takeHint .ret

def applyHint (spec : ModelSpec) (scope : String) (hint : QuotaHint) : Eff Unit :=
  .ask (.applyHint spec scope hint) .ofExcept

def recordAuthFailure (resolved : ResolvedKey) : Eff Unit :=
  .ask (.recordAuthFailure resolved) .ofExcept

def uniform (lo hi : ℚ) : Eff ℚ := .ask (.uniform lo hi) .ret

def sleep (delay : Seconds) : Eff Unit := .ask (.sleep delay) .ofExcept

def recordFailure (decision : BreakerDecision) (exc : ProviderError) : Eff Unit :=
  .ask (.recordFailure decision exc) .ofExcept

def recordSuccess (decision : BreakerDecision) : Eff Unit :=
  .ask (.recordSuccess decision) .ofExcept

def metricsRecord (provider model : String) (series : Series) (ms : Int) : Eff Unit :=
  .ask (.metricsRecord provider model series ms) .ret

def log (line : LogLine) : Eff Unit := .ask (.log line) .ret

end Router

end LlmGateway
