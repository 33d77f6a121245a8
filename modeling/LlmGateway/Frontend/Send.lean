import LlmGateway.Frontend.Conversation
import LlmGateway.Frontend.RoundTrip

/-!
# The send path of the browser

`useSendMessage` over the events of one response: what is on the screen while an
answer is written, and what is left of the turn when the response is over. The
adapters of `provenance.ts` say who is named under the bubble.
-/

namespace LlmGateway

namespace Frontend

open Streaming

/-! ## Provenance -/

inductive Outcome where
  | failed
  | served
  deriving DecidableEq, Repr

/-- One provider attempt of the trail. -/
structure Attempt where
  attempt : Nat
  provider : String
  model : String
  slot : String
  outcome : Outcome := .failed
  reason : Option String := none
  deriving DecidableEq, Repr

/-- What the indicator is given. -/
structure Provenance where
  servedBy : ServedBy
  requestedSlot : Option String
  substituted : Bool
  attempts : Nat
  degraded : Bool := false
  extractionTier : Option ExtractionTier := none
  messagesDropped : Nat := 0
  warning : Option String := none
  keyPool : Option KeyPool := none
  tokensIn : Option Int := none
  tokensOut : Option Int := none
  wastedTokensOut : Nat := 0
  attemptTrail : Option (List Attempt) := none
  deriving DecidableEq, Repr

/-- A text that is there and says something. -/
def truthy (text : Option String) : Option String := text.filter (· ≠ "")

def fromMessageMeta («meta» : MessageMeta) : Option Provenance := do
  let provider ← truthy meta.providerUsed
  let model ← truthy meta.modelUsed
  return { servedBy := { slot := meta.slotUsed.getD "", provider, model }
           requestedSlot := meta.requestedSlot, substituted := meta.substituted
           attempts := meta.attempts, degraded := meta.degraded
           extractionTier := meta.extractionTier, messagesDropped := meta.messagesDropped
           keyPool := meta.keyPool, tokensIn := meta.tokensIn, tokensOut := meta.tokensOut
           wastedTokensOut := meta.wastedTokensOut }

def fromDoneEvent (done : DoneEvent) (attemptTrail : Option (List Attempt) := none) :
    Provenance :=
  { servedBy := done.servedBy, requestedSlot := some done.requestedSlot
    substituted := done.substituted, attempts := done.attempts, degraded := done.degraded
    extractionTier := done.extractionTier, messagesDropped := done.messagesDropped
    warning := done.warning, keyPool := done.keyPool
    tokensIn := some done.usage.promptTokens, tokensOut := some done.usage.completionTokens
    wastedTokensOut := done.wastedTokensOut, attemptTrail }

def fromMetaEvent (e : MetaEvent) : Provenance :=
  { servedBy := { slot := e.slot, provider := e.provider, model := e.model }
    requestedSlot := some e.requestedSlot
    substituted := e.requestedSlot != "auto" && e.requestedSlot != e.slot
    attempts := e.attempt }

/-- `RESTART_REASONS`. -/
def restartReasons : List (String × String) :=
  [("rate_limited", "rate limited"), ("provider_unavailable", "provider unavailable"),
    ("provider_auth_failed", "provider rejected our key"),
    ("empty_response", "returned nothing usable")]

def restartReason (code : String) : String :=
  (restartReasons.lookup code).getD
    (String.ofList (code.toList.map fun c => if c = '_' then ' ' else c))

/-- The attempt a `meta` opens. -/
def Attempt.ofMeta (e : MetaEvent) : Attempt :=
  { attempt := e.attempt, provider := e.provider, model := e.model, slot := e.slot }

/-- The attempt a restart opens. -/
def Attempt.ofRestart (e : RestartEvent) : Attempt :=
  { attempt := e.attempt, provider := e.nextProvider, model := e.nextModel, slot := e.nextSlot }

/-- The attempt a restart closes. -/
def Attempt.broken (a : Attempt) (e : RestartEvent) : Attempt :=
  { a with outcome := .failed, reason := some (restartReason e.reason) }

/-- The open attempt when the stream is over. -/
def Attempt.closed (a : Attempt) : Status → Attempt
  | .ok => { a with outcome := .served }
  | .failed => { a with outcome := .failed, reason := some "no providers left to try" }

/-- The loop of `buildAttemptTrail` from an open attempt: the attempts closed, and the last. -/
def trailFrom (current : Attempt) : List RestartEvent → List Attempt × Attempt
  | [] => ([], current)
  | restart :: restarts =>
    let (trail, last) := trailFrom (.ofRestart restart) restarts
    (current.broken restart :: trail, last)

def buildAttemptTrail (e : Option MetaEvent) (restarts : List RestartEvent) (status : Status) :
    List Attempt :=
  match e with
  | none => []
  | some e =>
    let (trail, last) := trailFrom (.ofMeta e) restarts
    trail ++ [last.closed status]

/-! ## The turn in flight -/

inductive PendingStatus where
  | sending
  | streaming
  | «unsaved»
  | failed
  deriving DecidableEq, Repr

structure GatewayError where
  status : Nat
  code : String
  message : String
  requestId : Option String
  deriving DecidableEq, Repr

inductive SendError where
  | gateway (error : GatewayError)
  | network (message : String)
  deriving DecidableEq, Repr

/-- The turn in flight, and everything on screen because of it. -/
structure PendingTurn where
  text : String
  attachments : List FileRef
  status : PendingStatus := .sending
  answer : String := ""
  provenance : Option Provenance := none
  restarts : List RestartEvent := []
  salvaged : Option String := none
  error : Option SendError := none
  deriving DecidableEq, Repr

/-- What one `send` writes to: what is rendered, the refs beside it, and its signal. -/
structure Sending where
  pending : Option PendingTurn
  metaRef : Option MetaEvent := none
  doneRef : Option DoneEvent := none
  answerRef : String := ""
  aborted : Bool := false
  deriving DecidableEq, Repr

namespace Sending

/-- `setPending((current) => current && …)`. -/
def setPending (s : Sending) (f : PendingTurn → PendingTurn) : Sending :=
  { s with pending := s.pending.map f }

/-- A `send`, up to its request. -/
def start (text : String) (attachments : List FileRef) : Sending :=
  { pending := some { text, attachments } }

def onMeta (s : Sending) (e : MetaEvent) : Sending :=
  setPending { s with metaRef := some e } fun current =>
    { current with status := .streaming, provenance := some (fromMetaEvent e) }

def onDelta (s : Sending) (delta : DeltaEvent) : Sending :=
  match delta.choices.head? with
  | none => s
  | some chunk =>
    if chunk = "" then s
    else
      let answer := s.answerRef ++ chunk
      setPending { s with answerRef := answer } fun current => { current with answer }

def onRestart (s : Sending) (e : RestartEvent) : Sending :=
  setPending { s with answerRef := "" } fun current =>
    let restarts := current.restarts ++ [e]
    { current with
      answer := "", restarts
      provenance := current.provenance.map fun provenance =>
        { provenance with
          servedBy := { slot := e.nextSlot, provider := e.nextProvider, model := e.nextModel }
          attempts := e.attempt
          attemptTrail := some (buildAttemptTrail s.metaRef restarts .ok) } }

def onDone (s : Sending) (e : DoneEvent) : Sending := { s with doneRef := some e }

/-- `dispatch`. -/
def dispatch (s : Sending) : StreamEventPayload → Sending
  | .meta e => s.onMeta e
  | .delta e => s.onDelta e
  | .restart e => s.onRestart e
  | .done e => s.onDone e

/-- `stop`. -/
def stop (s : Sending) : Sending := { s with aborted := true }

/-- `dismiss`. -/
def dismiss (s : Sending) : Sending := { s with aborted := true, pending := none }

end Sending

/-- What happens while a response is read. -/
inductive Happening where
  | event (data : StreamEventPayload)
  | stop
  | dismiss
  deriving DecidableEq, Repr

def Happening.event? : Happening → Option StreamEventPayload
  | .event data => some data
  | _ => none

def Sending.step (s : Sending) : Happening → Sending
  | .event data => s.dispatch data
  | .stop => s.stop
  | .dismiss => s.dismiss

/-! ## The response -/

/-- How the reads of a body come to their end. -/
inductive BodyEnd where
  | exhausted
  | aborted
  | died
  deriving DecidableEq, Repr

/-- What `fetch` comes back with. -/
inductive Response where
  | aborted
  | unreachable
  | refused (error : GatewayError)
  | bodyless
  | opened (happenings : List Happening) (ending : BodyEnd)
  deriving DecidableEq, Repr

/-- `NetworkError`'s own message. -/
def couldNotReach : String := "Could not reach the gateway."

def StreamEventPayload.isDone : StreamEventPayload → Bool
  | .done _ => true
  | _ => false

/-- `openCompletionStream`: the handlers called, and how the promise is settled. -/
def openCompletionStream (s : Sending) : Response → Sending × Except SendError Unit
  | .aborted => (s, .ok ())
  | .unreachable => (s, .error (.network couldNotReach))
  | .refused error => (s, .error (.gateway error))
  | .bodyless => (s, .error (.network "The gateway returned no response body."))
  | .opened happenings ending =>
    let s := happenings.foldl Sending.step s
    let sawDone := (happenings.filterMap (·.event?)).any (·.isDone)
    match ending with
    | .aborted => (s, .ok ())
    | .died => (s, .error (.network couldNotReach))
    | .exhausted =>
      if !sawDone && !s.aborted then
        (s, .error (.network "The connection closed before the model finished."))
      else (s, .ok ())

/-! ## The end of a turn -/

def conversationsKey : String := "/v1/conversations"

def conversationKey (id : String) : String := "/v1/conversations/" ++ id

def modelsKey : String := "/v1/models"

/-- What a `send` leaves behind it: the screen, the keys it has fetched anew, the turn it has put
into the transcript of a conversation, and the page it goes on to. -/
structure Sent where
  pending : Option PendingTurn
  refreshed : List String := []
  stored : Option (String × CompletedTurn) := none
  page : Option String := none

/-- The row's `meta`, as `applyOptimisticTurn` writes it. -/
def optimisticMeta (done : DoneEvent) : MessageMeta :=
  { providerUsed := some done.servedBy.provider, modelUsed := some done.servedBy.model
    slotUsed := some done.servedBy.slot, requestedSlot := some done.requestedSlot
    substituted := done.substituted, attempts := done.attempts
    tokensIn := some done.usage.promptTokens, tokensOut := some done.usage.completionTokens
    wastedTokensOut := done.wastedTokensOut, degraded := done.degraded
    extractionTier := done.extractionTier, messagesDropped := done.messagesDropped
    keyPool := done.keyPool }

/-- The handler of what `openCompletionStream` throws. -/
def Sending.threw (s : Sending) (conversationId : Option String) (error : SendError) : Sent :=
  { pending := s.pending.map fun current =>
      { current with status := .failed, answer := "", error := some error }
    refreshed := match error with
      | .network _ => []
      | .gateway _ => (conversationId.map conversationKey).toList ++ [modelsKey] }

/-- A turn that has no answer. -/
def Sending.failed (s : Sending) (conversationId : Option String) : Sent :=
  { pending := s.pending.map fun current =>
      { current with
        status := .failed, answer := ""
        salvaged := s.doneRef.bind (·.partialContent)
        provenance := match s.doneRef, s.metaRef with
          | some done, some e =>
            some (fromDoneEvent done (some (buildAttemptTrail (some e) current.restarts .failed)))
          | _, _ => current.provenance }
    refreshed :=
      ((conversationId <|> s.metaRef.map (·.conversationId)).map conversationKey).toList ++
        [modelsKey] }

/-- A turn that has one. -/
def Sending.completed (s : Sending) (text : String) (attachments : List FileRef)
    (conversationId : Option String) (e : MetaEvent) (done : DoneEvent) : Sent :=
  { pending := none
    refreshed := [conversationKey e.conversationId, modelsKey, conversationsKey]
    page := if conversationId = none then some ("/chat/" ++ e.conversationId) else none
    stored := some (e.conversationId,
      { messageId := e.messageId, userText := text, attachments, answer := s.answerRef
        «meta» := optimisticMeta done }) }

/-- What `send` does once the response is over. -/
def Sending.settle (s : Sending) (text : String) (attachments : List FileRef)
    (conversationId : Option String) : Sent :=
  if s.aborted then
    { pending := s.pending.map fun current => { current with status := .unsaved } }
  else
    match s.metaRef, s.doneRef with
    | some e, some done =>
      if done.status = .failed then s.failed conversationId
      else s.completed text attachments conversationId e done
    | _, _ => s.failed conversationId

/-- **`send`**, of a text that is not blank. -/
def send (text : String) (attachments : List FileRef) (conversationId : Option String)
    (response : Response) : Sent :=
  match openCompletionStream (.start text attachments) response with
  | (s, .error error) => s.threw conversationId error
  | (s, .ok _) => s.settle text attachments conversationId

end Frontend

end LlmGateway
