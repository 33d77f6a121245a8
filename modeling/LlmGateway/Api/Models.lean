import LlmGateway.Quota.Tracker
import LlmGateway.Routing.CircuitBreaker
import LlmGateway.Routing.Selection
import LlmGateway.Usage.Exposition
import Mathlib.Data.List.MinMax

/-!
# The status page

`GET /v1/models` lists every slot its caller may name, with what each candidate's
breaker and counters say. Each candidate is read once, however many slots list it. It
asks other questions than the router does before an attempt: `peek`, which claims no
probe, and `remaining`, which spends nothing.
-/

namespace LlmGateway

namespace Models

open Effects Selection

/-! ## The page -/

/-- `SlotStatus`. -/
inductive SlotStatus where
  | available
  | rateLimited
  | unavailable
  | unknown
  deriving DecidableEq, Repr

/-- `_STATUS_RANK`, best to worst. -/
def statusRank : SlotStatus → ℕ
  | .available => 0
  | .rateLimited => 1
  | .unavailable => 2
  | .unknown => 3

/-- `WindowStatus`. -/
structure WindowStatus where
  window : QuotaWindow
  limit : ℤ
  remaining : ℤ
  resetsAt : Seconds
  deriving DecidableEq

/-- `CandidateStatus`. -/
structure CandidateStatus where
  provider : String
  model : String
  status : SlotStatus
  breakerState : BreakerState
  resetsAt : Option Seconds := none
  windows : List WindowStatus := []
  deriving DecidableEq

def CandidateStatus.key (status : CandidateStatus) : Pair := (status.provider, status.model)

/-- `ModelEntry`. -/
structure ModelEntry where
  id : String
  created : ℤ
  ownedBy : Option String
  status : SlotStatus
  resetsAt : Option Seconds
  description : String
  candidates : List CandidateStatus
  deriving DecidableEq

/-- `_CREATED_PLACEHOLDER`. -/
def createdPlaceholder : ℤ := 0

/-- `_AUTO_DESCRIPTION`. -/
def autoDescription : String := "Gateway picks the best available option."

/-! ## The interface -/

inductive Ask where
  | forProvider (provider model : String)
  | peek (provider model : String)
  | remaining (spec : ModelSpec) (scope : String)
  | now
  deriving DecidableEq

def Ans : Ask → Type
  | .forProvider _ _ => Except Exn ResolvedKey
  | .peek _ _ => BreakerDecision
  | .remaining _ _ => List Metrics.WindowState
  | .now => Seconds

abbrev iface : Iface := ⟨Ask, Ans⟩

abbrev Eff (α : Type) : Type := Prog iface Exn α

def forProvider (provider model : String) : Eff ResolvedKey :=
  .ask (.forProvider provider model) .ofExcept

def peek (provider model : String) : Eff BreakerDecision := .ask (.peek provider model) .ret

def remaining (spec : ModelSpec) (scope : String) : Eff (List Metrics.WindowState) :=
  .ask (.remaining spec scope) .ret

def now : Eff Seconds := .ask .now .ret

/-! ## One candidate -/

/-- `WindowState.exhausted`. -/
def exhausted (state : Metrics.WindowState) : Bool := state.limit ≤ state.used

/-- The windows of a candidate, as the page shows them. -/
def windowStatus (state : Metrics.WindowState) : WindowStatus where
  window := state.window
  limit := state.limit
  remaining := max 0 (state.limit - state.used)
  resetsAt := state.resetsAt

/-- What its counters say of a candidate whose breaker is closed. -/
def quotaStatus (spec : ModelSpec) (state : BreakerState) (states : List Metrics.WindowState) :
    CandidateStatus :=
  if states = [] then
    { provider := spec.provider, model := spec.model, status := .unknown, breakerState := state }
  else
    match (states.filter exhausted).argmin (·.resetsAt) with
    | some earliest =>
      { provider := spec.provider, model := spec.model, status := .rateLimited
        breakerState := state, resetsAt := some earliest.resetsAt
        windows := states.map windowStatus }
    | none =>
      { provider := spec.provider, model := spec.model, status := .available
        breakerState := state, windows := states.map windowStatus }

/-- `_candidate_status`; there may be no tracker. -/
def candidateStatus (quota : Bool) (spec : ModelSpec) (scope : String) : Eff CandidateStatus := do
  let decision ← peek spec.provider spec.model
  if decision.allowed = false then
    let resetsAt ← match decision.retryAfterS with
      | some retryAfterS => (fun now => some (now + retryAfterS)) <$> now
      | none => pure none
    return { provider := spec.provider, model := spec.model, status := .unavailable
             breakerState := decision.state, resetsAt }
  else if quota = false then
    return { provider := spec.provider, model := spec.model, status := .available
             breakerState := decision.state }
  else
    let states ← remaining spec scope
    return quotaStatus spec decision.state states

/-- `_summarize`. -/
def summarize (candidates : List CandidateStatus) : SlotStatus × Option Seconds :=
  match (candidates.map (·.status)).argmin statusRank with
  | none => (.unknown, none)
  | some .available => (.available, none)
  | some status => (status, (candidates.filterMap (·.resetsAt)).min?)

/-! ## The whole page -/

/-- `resolved_cache` and `status_cache`. -/
structure Caches where
  resolved : Pair → Option ResolvedKey := fun _ => none
  status : Pair × String → Option CandidateStatus := fun _ => none

/-- `resolved_for`. -/
def resolvedFor (spec : ModelSpec) (c : Caches) : Eff (ResolvedKey × Caches) :=
  match c.resolved spec.key with
  | some resolved => return (resolved, c)
  | none => do
    let resolved ← forProvider spec.provider spec.model
    return (resolved, { c with resolved := Function.update c.resolved spec.key (some resolved) })

/-- `status_for`. -/
def statusFor (quota : Bool) (spec : ModelSpec) (c : Caches) : Eff (CandidateStatus × Caches) := do
  let (resolved, c) ← resolvedFor spec c
  match c.status (spec.key, resolved.scope) with
  | some status => return (status, c)
  | none =>
    let status ← candidateStatus quota spec resolved.scope
    return (status,
      { c with status := Function.update c.status (spec.key, resolved.scope) (some status) })

def statusesFor (quota : Bool) : List ModelSpec → Caches → Eff (List CandidateStatus × Caches)
  | [], c => return ([], c)
  | spec :: specs, c => do
    let (status, c) ← statusFor quota spec c
    let (statuses, c) ← statusesFor quota specs c
    return (status :: statuses, c)

/-- The loop of `resolves_private_for_every_provider`. -/
def resolvesPrivate (seen : List String) : List ModelSpec → Eff Bool
  | [] => return true
  | spec :: specs =>
    if spec.provider ∈ seen then resolvesPrivate seen specs
    else do
      let resolved ← forProvider spec.provider spec.model
      if resolved.pool ≠ .private then return false
      else resolvesPrivate (spec.provider :: seen) specs

/-- The entry of a slot, over its candidates. -/
def entryOf (id : String) (ownedBy : Option String) (description : String)
    (statuses : List CandidateStatus) : ModelEntry where
  id := id
  created := createdPlaceholder
  ownedBy := ownedBy
  status := (summarize statuses).1
  resetsAt := (summarize statuses).2
  description := description
  candidates := statuses

section

variable (registry : ProviderRegistry) (quota : Bool) (description : String → String)

/-- What a lookup in the table raises. -/
def lookup {α : Type} (r : Except UnknownSlot α) : Eff α :=
  .ofExcept (r.mapError fun _ => .other "UnknownSlot")

/-- The entry of a slot whose caller may name it. -/
def listEntry (slot : String) (specs : List ModelSpec) (c : Caches) :
    Eff (Option ModelEntry × Caches) := do
  let (statuses, c) ← statusesFor quota specs c
  match specs with
  | [] => .raise (.other "IndexError")
  | primary :: _ =>
    return (some (entryOf slot (some primary.provider) (description slot) statuses), c)

/-- One turn of the loop over the slots. -/
def slotEntry (slot : String) (c : Caches) : Eff (Option ModelEntry × Caches) := do
  let specs ← lookup (registry.candidates slot)
  let reachable ← if registry.requiresPrivateKey slot then resolvesPrivate [] specs else pure true
  if reachable = false then return (none, c)
  else listEntry quota description slot specs c

def slotEntries : List String → Caches → Eff (List ModelEntry)
  | [], _ => return []
  | slot :: slots, c => do
    let (entry, c) ← slotEntry registry quota description slot c
    let entries ← slotEntries slots c
    return entry.toList ++ entries

/-- `list_models`. -/
def listModels : Eff (List ModelEntry) := do
  let chain ← lookup (candidates registry Selection.auto none (none : Option (LatencySnapshot ℚ)))
  let (statuses, c) ← statusesFor quota chain {}
  let entries ← slotEntries registry quota description registry.slots c
  return entryOf Selection.auto none autoDescription statuses :: entries

end

end Models

end LlmGateway
