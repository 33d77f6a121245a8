import Mathlib.Data.Rat.Defs
import Mathlib.Tactic.Common

/-!
# The normalized provider errors

Every provider failure reaches the router as one of seven kinds. The three
routing flags are facts about the kind and not about the occurrence, so they
are functions of the kind alone.
-/

namespace LlmGateway

/-- Durations and instants in seconds. -/
abbrev Seconds : Type := ℚ

namespace ProviderError

/-- The seven classes of the hierarchy, with the fields only they declare. -/
inductive Kind where
  | rateLimited (retryAfterS : Option Seconds)
  | unavailable
  | authFailed
  | badRequest
  | contextTooLong (limitTokens : Option Int)
  | contentFiltered
  | emptyResponse
  deriving DecidableEq, Repr

end ProviderError

/-- A normalized failure of one attempt. -/
structure ProviderError where
  /-- Which class of the hierarchy it is. -/
  kind : ProviderError.Kind
  /-- The text it was raised with. -/
  message : String
  /-- The provider that failed. -/
  provider : String
  /-- The model that failed. -/
  model : String
  /-- The HTTP status behind it, when there was one. -/
  statusCode : Option Nat := none
  deriving DecidableEq, Repr

namespace ProviderError

/-- Whether the same candidate may be asked again. -/
def retryableSameProvider (e : ProviderError) : Bool :=
  match e.kind with
  | .unavailable | .contextTooLong _ | .emptyResponse => true
  | .rateLimited _ | .authFailed | .badRequest | .contentFiltered => false

/-- Whether another candidate may be asked. -/
def failoverEligible (e : ProviderError) : Bool :=
  match e.kind with
  | .rateLimited _ | .unavailable | .authFailed | .emptyResponse => true
  | .badRequest | .contextTooLong _ | .contentFiltered => false

/-- Whether the failure counts against the candidate's circuit breaker. -/
def breakerEligible (e : ProviderError) : Bool :=
  match e.kind with
  | .rateLimited _ | .unavailable | .authFailed => true
  | .badRequest | .contextTooLong _ | .contentFiltered | .emptyResponse => false

/-- The stable identifier written to the trail. -/
def code (e : ProviderError) : String :=
  match e.kind with
  | .rateLimited _ => "rate_limited"
  | .unavailable => "provider_unavailable"
  | .authFailed => "provider_auth_failed"
  | .badRequest => "bad_request"
  | .contextTooLong _ => "context_too_long"
  | .contentFiltered => "content_filtered"
  | .emptyResponse => "empty_response"

/-- `isinstance(exc, AuthFailed)`. -/
def isAuthFailed (e : ProviderError) : Bool :=
  match e.kind with
  | .authFailed => true
  | _ => false

/-- `isinstance(exc, ContextTooLong)`. -/
def isContextTooLong (e : ProviderError) : Bool :=
  match e.kind with
  | .contextTooLong _ => true
  | _ => false

/-- `limit_tokens`, which only `ContextTooLong` declares. -/
def limitTokens (e : ProviderError) : Option Int :=
  match e.kind with
  | .contextTooLong limit => limit
  | _ => none

/-- What the breaker counts, the router may always fail over from. -/
theorem failoverEligible_of_breakerEligible {e : ProviderError} (h : e.breakerEligible) :
    e.failoverEligible := by
  rcases e with ⟨kind, _, _, _, _⟩
  cases kind <;> simp_all [breakerEligible, failoverEligible]

/-- `ContextTooLong` is the one kind that may be asked again of the same
candidate and of no other. -/
theorem isContextTooLong_iff {e : ProviderError} :
    e.isContextTooLong ↔ e.retryableSameProvider ∧ e.failoverEligible = false := by
  rcases e with ⟨kind, _, _, _, _⟩
  cases kind <;> simp [isContextTooLong, retryableSameProvider, failoverEligible]

theorem isContextTooLong_of_limitTokens {e : ProviderError} (h : e.limitTokens.isSome) :
    e.isContextTooLong := by
  rcases e with ⟨kind, _, _, _, _⟩
  cases kind <;> simp_all [limitTokens, isContextTooLong]

end ProviderError

end LlmGateway
