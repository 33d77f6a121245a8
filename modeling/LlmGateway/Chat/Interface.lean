import LlmGateway.Cache.Exact
import LlmGateway.Effects.Loop
import LlmGateway.Memory.Canonical
import LlmGateway.Streaming.Turn

/-!
# What a chat turn asks for

The endpoint, the generator that streams an answer and the collector behind it
run as one program for a turn. Its questions go to the idempotency store, the
database, the exact cache, the router, the event loop and the consumer of the
response body.
-/

namespace LlmGateway

namespace Chat

open Effects Streaming

/-! ## Requests and responses -/

/-- The roles a request may speak in. -/
inductive InputRole where
  | system
  | user
  deriving DecidableEq, Repr

def InputRole.role : InputRole → Role
  | .system => .system
  | .user => .user

structure InputMessage where
  role : InputRole
  content : String
  fileRefs : List String := []
  deriving DecidableEq, Repr

/-- `ChatCompletionRequest`, but for the knobs only a provider reads. -/
structure ChatCompletionRequest where
  model : String
  messages : List InputMessage
  temperature : ℚ
  stream : Bool
  deriving DecidableEq, Repr

/-- The row a turn belongs to. -/
structure Conversation where
  id : String
  pinnedModel : Option String := none
  deriving DecidableEq, Repr

/-- `ChatCompletionResponse`, with its one choice. -/
structure ChatCompletionResponse where
  id : String
  created : Int
  model : String
  content : String
  finishReason : String
  usage : UsageOut
  servedBy : ServedBy
  requestedSlot : String
  substituted : Bool := false
  attempts : Nat := 1
  degraded : Bool := false
  extractionTier : Option ExtractionTier := none
  messagesDropped : Nat := 0
  warning : Option String := none
  keyPool : Option KeyPool := none
  conversationId : String
  messageId : String
  deriving DecidableEq, Repr

/-! ## Idempotency -/

/-- A stored envelope, as a replay sees it: the body, unless there is none or it
does not validate any more. -/
structure Envelope where
  response : Option ChatCompletionResponse
  cacheStatus : Option Exact.CacheStatus := none
  deriving DecidableEq, Repr

/-- The four results of a claim. -/
inductive ClaimResult where
  | claimed
  | replay (envelope : Envelope)
  | inFlight
  | fingerprintMismatch
  deriving DecidableEq, Repr

/-- How the commands of a claim came back. One that raises may have taken the key
or not. -/
inductive Claim where
  | result (r : ClaimResult)
  | raised (e : Exn) (taken : Bool)
  deriving DecidableEq, Repr

/-! ## Faults -/

/-- What a turn may raise. -/
inductive Fault where
  | exn (e : Exn)
  | routing (failure : RoutingFailed)
  | app (code : String)
  deriving DecidableEq, Repr

/-- What `except Exception` catches. -/
def Fault.isException : Fault → Bool
  | .exn .cancelled | .exn .generatorExit => false
  | _ => true

/-- Hand an awaited call's outcome on. -/
def lift {α : Type} (r : Except Exn α) : Except Fault α :=
  match r with
  | .ok a => .ok a
  | .error e => .error (.exn e)

/-! ## The interface -/

/-- How `route_stream` ends, behind its last event. -/
inductive Ending where
  | stopped
  | failed (failure : RoutingFailed)
  | raised (e : Exn)
  deriving DecidableEq, Repr

/-- The same, read off a run of it. -/
def Ending.of : Except Exn (Except RoutingFailed Unit) → Ending
  | .ok (.ok _) => .stopped
  | .ok (.error failure) => .failed failure
  | .error e => .raised e

/-- What `__anext__` of the router's generator comes back with. -/
inductive Pulled where
  | event (ev : RouteStreamEvent)
  | ended (ending : Ending)
  deriving DecidableEq, Repr

/-- How the waits for it go: so many run into the heartbeat interval, then it is
there or the task is cancelled. -/
structure Waited where
  timeouts : Nat
  cancelled : Bool := false
  deriving DecidableEq, Repr

/-- The rows of the `requests` table. -/
inductive UsageRow where
  | success
  | failure
  | streamFailure
  | cacheHit
  | replay
  deriving DecidableEq, Repr

/-- The questions of a turn. -/
inductive Ask where
  | validateSlot (requested : String)
  | claim
  | complete (response : ChatCompletionResponse) (cacheStatus : Option Exact.CacheStatus)
  | release
  | resolveConversation
  | resolveFileRefs
  | openSession
  | closeSession
  | append (role : Role) (content : String) (messageId : Option String) (provenance : MessageMeta)
  | touch (preferredSlot : String)
  | listForConversation
  | record (row : UsageRow)
  | commitSession
  | cacheGet (key : String)
  | cachePut (key : String) (value : Exact.CachedResponse)
  | route
  | routeStream
  | wait (pulled : Pulled)
  | isDisconnected
  | yield (frame : Frame)
  | recordAttempt
  | closeEvents
  | persist (result : StreamResult)
  | uuid4
  | isoNow
  | timestamp
  | elapsedMs
  deriving DecidableEq, Repr

/-- The answers. A stream is answered with the events it will hand over and the
way it ends, which the turn then waits for one at a time. -/
def Ans : Ask → Type
  | .validateSlot _ => Except Fault Unit
  | .claim => Claim
  | .complete _ _ => Settled
  | .release => Settled
  | .resolveConversation => Except Fault Conversation
  | .resolveFileRefs => Except Fault Unit
  | .openSession => Except Exn Unit
  | .closeSession => Except Exn Unit
  | .append _ _ _ _ => Except Exn String
  | .touch _ => Except Exn Unit
  | .listForConversation => Except Exn Unit
  | .record _ => Except Exn Unit
  | .commitSession => Settled
  | .cacheGet _ => Except Exn (Option Exact.CachedResponse)
  | .cachePut _ _ => Settled
  | .route => Except Exn (Except RoutingFailed RouterOutcome)
  | .routeStream => List RouteStreamEvent × Ending
  | .wait _ => Waited
  | .isDisconnected => Except Exn Bool
  | .yield _ => Consumer
  | .recordAttempt => Except Exn Unit
  | .closeEvents => Unit
  | .persist _ => Except Exn Unit
  | .uuid4 => String
  | .isoNow => String
  | .timestamp => Int
  | .elapsedMs => Int

/-- The interface of a turn. -/
abbrev iface : Iface := ⟨Ask, Ans⟩

/-- A computation of a turn. -/
abbrev Eff (α : Type) : Type := Prog iface Fault α

def validateSlot (requested : String) : Eff Unit := .ask (.validateSlot requested) .ofExcept

/-- What is left of an outcome whose `Exception`s are logged and forgotten. -/
def shrugged (r : Except Fault Unit) : Except Fault Unit :=
  match r with
  | .ok _ => .ok ()
  | .error e => if e.isException then .ok () else .error e

/-- A call whose `Exception`s the caller logs and forgets. -/
def shrug (r : Except Exn Unit) : Eff Unit := .ofExcept (shrugged (lift r))

/-- A claim fails open. -/
def Claim.outcome : Claim → Except Fault ClaimResult
  | .result r => .ok r
  | .raised e _ => if (Fault.exn e).isException then .ok .claimed else .error (.exn e)

/-- `IdempotencyStore.claim`. -/
def claim : Eff ClaimResult := .ask .claim fun a => .ofExcept a.outcome

/-- `ClaimTicket.complete`. -/
def complete (response : ChatCompletionResponse) (cacheStatus : Option Exact.CacheStatus) :
    Eff Unit :=
  .ask (.complete response cacheStatus) fun a => shrug a.outcome

/-- `ClaimTicket.release`. -/
def release : Eff Unit := .ask .release fun a => shrug a.outcome

def resolveConversation : Eff Conversation := .ask .resolveConversation .ofExcept

def resolveFileRefs : Eff Unit := .ask .resolveFileRefs .ofExcept

def openSession : Eff Unit := .ask .openSession fun a => .ofExcept (lift a)

def closeSession : Eff Unit := .ask .closeSession fun a => .ofExcept (lift a)

def append (role : Role) (content : String) (messageId : Option String)
    (provenance : MessageMeta) : Eff String :=
  .ask (.append role content messageId provenance) fun a => .ofExcept (lift a)

def touch (preferredSlot : String) : Eff Unit :=
  .ask (.touch preferredSlot) fun a => .ofExcept (lift a)

def listForConversation : Eff Unit := .ask .listForConversation fun a => .ofExcept (lift a)

def record (row : UsageRow) : Eff Unit := .ask (.record row) fun a => .ofExcept (lift a)

def commitSession : Eff Unit := .ask .commitSession fun a => .ofExcept (lift a.outcome)

/-- A read of the cache that fails is a miss. -/
def found (r : Except Exn (Option Exact.CachedResponse)) :
    Except Fault (Option Exact.CachedResponse) :=
  match r with
  | .ok cached => .ok cached
  | .error e => if (Fault.exn e).isException then .ok none else .error (.exn e)

/-- `ExactCache.get`. -/
def cacheGet (key : String) : Eff (Option Exact.CachedResponse) :=
  .ask (.cacheGet key) fun a => .ofExcept (found a)

/-- `ExactCache.put`. -/
def cachePut (key : String) (value : Exact.CachedResponse) : Eff Unit :=
  .ask (.cachePut key value) fun a => shrug a.outcome

def route : Eff (Except RoutingFailed RouterOutcome) := .ask .route fun a => .ofExcept (lift a)

def routeStream : Eff (List RouteStreamEvent × Ending) := .ask .routeStream .ret

def wait (pulled : Pulled) : Eff Waited := .ask (.wait pulled) .ret

def yieldFrame (frame : Frame) : Eff Unit :=
  .ask (.yield frame) fun a => .ofExcept (lift a.outcome)

def closeEvents : Eff Unit := .ask .closeEvents .ret

/-- The whole transaction of a collector that is not looked into. -/
def persist (result : StreamResult) : Eff Unit :=
  .ask (.persist result) fun a => .ofExcept (lift a)

def uuid4 : Eff String := .ask .uuid4 .ret

def isoNow : Eff String := .ask .isoNow .ret

def timestamp : Eff Int := .ask .timestamp .ret

def elapsedMs : Eff Int := .ask .elapsedMs .ret

/-! ## A turn on which nothing goes wrong -/

/-- Every call succeeds, the key is free, nothing is cached, the client reads to
the end. The router has no answer of its own here. -/
def oblige : (q : Ask) → Ans q
  | .validateSlot _ => .ok ()
  | .claim => Claim.result .claimed
  | .complete _ _ => Settled.done
  | .release => Settled.done
  | .resolveConversation => .ok { id := "conversation" }
  | .resolveFileRefs => .ok ()
  | .openSession => .ok ()
  | .closeSession => .ok ()
  | .append _ _ _ _ => .ok "message"
  | .touch _ => .ok ()
  | .listForConversation => .ok ()
  | .record _ => .ok ()
  | .commitSession => Settled.done
  | .cacheGet _ => .ok none
  | .cachePut _ _ => Settled.done
  | .route => .error (.other "NotImplementedError")
  | .routeStream => ([], Ending.raised (.other "NotImplementedError"))
  | .wait _ => { timeouts := 0 }
  | .isDisconnected => .ok false
  | .yield _ => Consumer.next
  | .recordAttempt => .ok ()
  | .closeEvents => ()
  | .persist _ => .ok ()
  | .uuid4 => "uuid"
  | .isoNow => "now"
  | .timestamp => (0 : Int)
  | .elapsedMs => (0 : Int)

/-- The run of a program against an environment that keeps no state. -/
def against {α : Type} (E : (q : Ask) → Ans q) (p : Eff α) :
    List (Event iface) × Except Fault α :=
  p.play (fun (_ : Unit) q => (E q, ())) ()

theorem against_runs {α : Type} (E : (q : Ask) → Ans q) (p : Eff α) :
    p.Runs (against E p).1 (against E p).2 :=
  p.play_runs _ _

end Chat

end LlmGateway
