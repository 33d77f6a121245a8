import LlmGateway.Routing.Interface

/-!
# The extraction walk

`_walk_candidates` of the perception lane's second tier: a candidate walk of its
own, with the answer lane's breaker and quota discipline and neither its retries
nor its budget of attempts.
-/

namespace LlmGateway

namespace Perception

open Effects

/-- A candidate of the `perception` slot. -/
structure Candidate extends ModelSpec where
  maxFileBytes : Option Nat := none
  deriving DecidableEq, Repr

/-- One reading of one file. -/
structure Extraction where
  fileHash : String
  text : String
  confidence : Confidence
  tier : String
  provider : String
  model : String
  deriving DecidableEq, Repr

/-- The structured log lines of the walk. -/
inductive LogLine where
  | candidateTooSmall (provider model : String) (sizeBytes maxFileBytes : Nat)
  | candidateSkipped (provider model : String) (breaker : BreakerState)
  | candidateSkippedQuota (provider model : String) (blockedWindow : Option QuotaWindow)
      (retryAfterS : Option Seconds) (degraded : Bool)
  | attemptFailed (exc : ProviderError) (fileHash : String)
  | extracted (fileHash provider model tier : String) (confidence : Confidence) (chars : Nat)
  | chainExhausted (fileHash : String) (candidates : Nat)
  deriving DecidableEq, Repr

/-- The questions of the walk. -/
inductive Ask where
  | allows (provider model : String)
  | adapterForSpec (spec : Candidate)
  /-- The request body, and the adapter's estimate of its text. -/
  | buildPayload (spec : Candidate)
  | forProvider (provider model : String)
  | uuid4
  | reservePerception (spec : Candidate) (scope : String) (estimatedTokens : Int)
      (requestId : String)
  | complete (spec : Candidate) (payload : Payload) (key : String)
  | commitPerception (reservation : Reservation) (tokensIn tokensOut : Int)
  | releasePerception (reservation : Reservation)
  | recordFailure (decision : BreakerDecision) (exc : ProviderError)
  | recordSuccess (decision : BreakerDecision)
  | recordAuthFailure (resolved : ResolvedKey)
  | persist (extraction : Extraction)
  | log (line : LogLine)
  deriving DecidableEq, Repr

def Ans : Ask → Type
  | .allows _ _ => Except Exn BreakerDecision
  | .adapterForSpec _ => Except Exn Unit
  | .buildPayload _ => Except Exn (Payload × Int)
  | .forProvider _ _ => Except Exn ResolvedKey
  | .uuid4 => String
  | .reservePerception _ _ _ _ => Except Exn QuotaDecision
  | .complete _ _ _ => Except Exn Completion
  | .commitPerception _ _ _ => Except Exn Unit
  | .releasePerception _ => Except Exn Unit
  | .recordFailure _ _ => Except Exn Unit
  | .recordSuccess _ => Except Exn Unit
  | .recordAuthFailure _ => Except Exn Unit
  | .persist _ => Except Exn Unit
  | .log _ => Unit

/-- The interface of the walk. -/
abbrev iface : Iface := ⟨Ask, Ans⟩

/-- A computation of the walk. -/
abbrev Eff (α : Type) : Type := Prog iface Exn α

def allows (provider model : String) : Eff BreakerDecision :=
  .ask (.allows provider model) .ofExcept

def adapterForSpec (spec : Candidate) : Eff Unit := .ask (.adapterForSpec spec) .ofExcept

def buildPayload (spec : Candidate) : Eff (Payload × Int) := .ask (.buildPayload spec) .ofExcept

def forProvider (provider model : String) : Eff ResolvedKey :=
  .ask (.forProvider provider model) .ofExcept

def uuid4 : Eff String := .ask .uuid4 .ret

def reservePerception (spec : Candidate) (scope : String) (estimatedTokens : Int)
    (requestId : String) : Eff QuotaDecision :=
  .ask (.reservePerception spec scope estimatedTokens requestId) .ofExcept

def complete (spec : Candidate) (payload : Payload) (key : String) : Eff Completion :=
  .ask (.complete spec payload key) .ofExcept

def commitPerception (reservation : Reservation) (tokensIn tokensOut : Int) : Eff Unit :=
  .ask (.commitPerception reservation tokensIn tokensOut) .ofExcept

def releasePerception (reservation : Reservation) : Eff Unit :=
  .ask (.releasePerception reservation) .ofExcept

def recordFailure (decision : BreakerDecision) (exc : ProviderError) : Eff Unit :=
  .ask (.recordFailure decision exc) .ofExcept

def recordSuccess (decision : BreakerDecision) : Eff Unit :=
  .ask (.recordSuccess decision) .ofExcept

def recordAuthFailure (resolved : ResolvedKey) : Eff Unit :=
  .ask (.recordAuthFailure resolved) .ofExcept

def persist (extraction : Extraction) : Eff Unit := .ask (.persist extraction) .ofExcept

def log (line : LogLine) : Eff Unit := .ask (.log line) .ret

/-! ## The walk -/

/-- What the walk is given beside its chain. -/
structure Config where
  fileHash : String
  /-- `len(data)`. -/
  sizeBytes : Nat
  /-- Whether there is a quota tracker. -/
  quota : Bool := true
  /-- `grade`, of the text of a reading. -/
  grade : String → Confidence

/-- `_estimated_tokens`: the prompt, plus the file's share. -/
def estimatedTokens (textTokens : Int) (sizeBytes : Nat) : Int :=
  textTokens + max 1 (sizeBytes / 1024 : Nat)

/-- `continue`, or the function's `return`. -/
abbrev Step : Type := Flow Unit (Option Extraction)

/-- A settling call, where there is a tracker and a reservation to settle. -/
def settle (cfg : Config) (reservation : Option Reservation) (p : Reservation → Eff Unit) :
    Eff Unit :=
  match cfg.quota, reservation with
  | true, some r => p r
  | _, _ => return

/-- The reservation step: what to settle afterwards, or the window that says
no. -/
def takeReservation (cfg : Config) (spec : Candidate) (resolved : ResolvedKey) (textTokens : Int) :
    Eff (QuotaDecision ⊕ Option Reservation) :=
  if cfg.quota then do
    let requestId ← uuid4
    let granted ← reservePerception spec resolved.scope (estimatedTokens textTokens cfg.sizeBytes)
      requestId
    if granted.allowed then return .inr granted.reservation else return .inl granted
  else return .inr none

/-- A private key that fails is disclosed to its owner. -/
def discloseAuthFailure (resolved : ResolvedKey) (exc : ProviderError) : Eff Unit :=
  if exc.isAuthFailed && resolved.pool == .«private» then recordAuthFailure resolved else return

/-- The handler `except ProviderError as exc`. -/
def onError (cfg : Config) (decision : BreakerDecision) (resolved : ResolvedKey)
    (reservation : Option Reservation) (exc : ProviderError) : Eff Step := do
  settle cfg reservation (commitPerception · 0 0)
  recordFailure decision exc
  log (.attemptFailed exc cfg.fileHash)
  discloseAuthFailure resolved exc
  if exc.failoverEligible then return .next () else return .done none

/-- What follows a reading. -/
def onSuccess (cfg : Config) (spec : Candidate) (decision : BreakerDecision)
    (reservation : Option Reservation) (completion : Completion) : Eff Step := do
  settle cfg reservation
    (commitPerception · completion.usage.tokensIn completion.usage.tokensOut)
  recordSuccess decision
  let extraction : Extraction :=
    { fileHash := cfg.fileHash, text := completion.text, confidence := cfg.grade completion.text,
      tier := "llm", provider := spec.provider, model := spec.model }
  persist extraction
  log (.extracted cfg.fileHash spec.provider spec.model "llm" extraction.confidence
    completion.text.length)
  return .done (some extraction)

/-- The one attempt at a candidate its breaker allowed. -/
def attempt (cfg : Config) (spec : Candidate) (decision : BreakerDecision) : Eff Step := do
  adapterForSpec spec
  let (payload, textTokens) ← buildPayload spec
  let resolved ← forProvider spec.provider spec.model
  match ← takeReservation cfg spec resolved textTokens with
  | .inl refusal =>
    log (.candidateSkippedQuota spec.provider spec.model refusal.blockedWindow refusal.retryAfterS
      refusal.degraded)
    return .next ()
  | .inr reservation =>
    match ← (complete spec payload resolved.key).attempt with
    | .ok completion => onSuccess cfg spec decision reservation completion
    | .error (.provider exc) => onError cfg decision resolved reservation exc
    | .error (.other cls) => do
      -- `except Exception`: nothing reached the provider, so nothing was spent.
      settle cfg reservation releasePerception
      .raise (.other cls)
    | .error e => .raise e

/-- One candidate: the size of the file, the breaker, then the attempt. -/
def visitCandidate (cfg : Config) (spec : Candidate) (_ : List Candidate) (_ : Unit) :
    Eff Step := do
  if spec.maxFileBytes.any (· < cfg.sizeBytes) then
    -- Not a failure of this candidate but a fact about the file.
    log (.candidateTooSmall spec.provider spec.model cfg.sizeBytes (spec.maxFileBytes.getD 0))
    return .next ()
  else
    let decision ← allows spec.provider spec.model
    if decision.allowed then attempt cfg spec decision
    else
      log (.candidateSkipped spec.provider spec.model decision.state)
      return .next ()

/-- **`_walk_candidates`.** -/
def walkCandidates (cfg : Config) (chain : List Candidate) : Eff (Option Extraction) := do
  match ← Prog.forEach (visitCandidate cfg) chain () with
  | .done w => return w
  | .next _ | .stop _ =>
    log (.chainExhausted cfg.fileHash chain.length)
    return none

end Perception

end LlmGateway
