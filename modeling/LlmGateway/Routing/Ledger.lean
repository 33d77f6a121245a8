import LlmGateway.Routing.Router

/-!
# The ledger of a run

An observer of the failover loop. It sees the questions and answers of a run
and nothing of the loop's locals, and keeps what the laws of the loop speak
about: the calls made, the reservations granted and settled, and how each
candidate was treated.
-/

namespace LlmGateway

namespace Router

open Effects

/-- What an observer holds of a run so far. -/
structure Ledger where
  /-- Provider calls made and provider streams opened. -/
  calls : Nat := 0
  /-- A retry was begun when the calls had already used up the budget. -/
  overdue : Bool := false
  /-- Reservations granted, in order. -/
  granted : List Reservation := []
  /-- Reservations settled, in order. -/
  settled : List Reservation := []
  /-- The reservation granted and not yet settled. -/
  owed : Option Reservation := none
  /-- What the drained stream ended in, while it is being closed. -/
  leaving : Option Exn := none
  /-- An attempt that still owed its reservation was left for good. -/
  torn : Bool := false
  /-- The current candidate has been called. -/
  visitCalled : Bool := false
  /-- The last error of the current candidate. -/
  visitError : Option ProviderError := none
  /-- The current candidate has delivered text. -/
  visitText : Bool := false
  visitRefits : Nat := 0
  visitRetries : Nat := 0
  /-- Quota refused a candidate whose last error is not failover-eligible. -/
  refusedAtFault : Bool := false
  /-- The loop moved on from a called candidate whose last error is not
  failover-eligible. -/
  strayed : Bool := false
  /-- A candidate was called again after it had delivered text. -/
  recalled : Bool := false
  /-- A candidate got a second re-fit, or a retry past the limit. -/
  overtried : Bool := false
  /-- The (provider, model) of each latency sample recorded. -/
  metered : List (String × String) := []
  /-- The terminal event, once yielded. -/
  completed : Option StreamCompleted := none

namespace Ledger

/-- The current candidate was called and has not failed in a way that lets
another be asked. -/
def atFault (g : Ledger) : Bool :=
  g.visitCalled && !g.visitError.any (·.failoverEligible)

/-- The walk turns to the next candidate. -/
def newVisit (g : Ledger) : Ledger :=
  { g with
    strayed := g.strayed || g.atFault
    visitCalled := false, visitError := none, visitText := false
    visitRefits := 0, visitRetries := 0 }

/-- Quota answered. -/
def reserved (g : Ledger) (d : QuotaDecision) : Ledger :=
  if d.allowed then
    { g with granted := g.granted ++ d.reservation.toList, owed := d.reservation }
  else { g with refusedAtFault := g.refusedAtFault || g.atFault }

/-- A provider is called, or its stream opened. -/
def call (g : Ledger) : Ledger :=
  { g with calls := g.calls + 1, visitCalled := true, recalled := g.recalled || g.visitText }

/-- The `try` block is left with `e`: only a provider error reaches the handler
that settles. -/
def leave (g : Ledger) (e : Exn) : Ledger :=
  { g with torn := g.torn || (g.owed.isSome && !e.isProvider), leaving := none }

/-- A reservation is settled. -/
def settle (g : Ledger) (r : Reservation) : Ledger :=
  { g with settled := g.settled ++ [r], owed := none }

/-- A retry of the same candidate begins. -/
def retry (maxAttempts : Nat) (g : Ledger) : Ledger :=
  { g with
    overdue := g.overdue || decide (maxAttempts ≤ g.calls)
    visitRetries := g.visitRetries + 1
    overtried := g.overtried || decide (maxSameProviderRetries ≤ g.visitRetries) }

/-- A re-fit of the same candidate begins. -/
def refit (g : Ledger) : Ledger :=
  { g with visitRefits := g.visitRefits + 1, overtried := g.overtried || decide (1 ≤ g.visitRefits) }

/-- **One event, noted.** -/
def note (maxAttempts : Nat) (g : Ledger) : Event iface → Ledger
  | ⟨.allows _ _, _⟩ => g.newVisit
  | ⟨.reserve _ _ _ _ _, .ok d⟩ => g.reserved d
  | ⟨.complete _ _ _, .ok _⟩ => g.call
  | ⟨.complete _ _ _, .error e⟩ => g.call.leave e
  | ⟨.yield (.started _ _), .closes⟩ => g.leave .generatorExit
  | ⟨.stream spec _ _, .ok (_, ending)⟩ => { g.call with leaving := Stream.endExn spec ending }
  | ⟨.stream _ _ _, .error e⟩ => g.call.leave e
  | ⟨.yield (.delta _), .next⟩ => { g with visitText := true }
  | ⟨.yield (.delta _), .closes⟩ =>
    { g with visitText := true, leaving := some .generatorExit }
  | ⟨.aclose, .error e⟩ => g.leave e
  | ⟨.aclose, .ok _⟩ => match g.leaving with
    | some e => g.leave e
    | none => g
  | ⟨.commit r _ _, .done⟩ => g.settle r
  | ⟨.commit r _ _, .raised _ true⟩ => g.settle r
  | ⟨.commit _ _ _, .raised _ false⟩ => { g with torn := true }
  | ⟨.sleep _, _⟩ => g.retry maxAttempts
  | ⟨.log (.refitting _ _ _), _⟩ => g.refit
  | ⟨.log (.attemptFailed exc _ _ _ _ _), _⟩ => { g with visitError := some exc }
  | ⟨.metricsRecord provider model _ _, _⟩ =>
    { g with metered := g.metered ++ [(provider, model)] }
  | ⟨.yield (.completed c), _⟩ => { g with completed := some c }
  | _ => g

end Ledger

/-- The ledger of a trace. -/
def ledger (maxAttempts : Nat) (tr : List (Event iface)) : Ledger :=
  tr.foldl (Ledger.note maxAttempts) {}

/-! ## What the ledger counts -/

/-- Whether an event is a provider call or the opening of a provider stream. -/
def isCall : Event iface → Bool
  | ⟨.complete _ _ _, _⟩ | ⟨.stream _ _ _, _⟩ => true
  | _ => false

/-- The provider calls of a trace. -/
def calls (tr : List (Event iface)) : Nat := tr.countP isCall

/-- Whether an event begins a retry of the same candidate. -/
def isRetry : Event iface → Bool
  | ⟨.sleep _, _⟩ => true
  | _ => false

/-- The reservations granted in a trace, in order. -/
def grants (tr : List (Event iface)) : List Reservation :=
  tr.flatMap fun
    | ⟨.reserve _ _ _ _ _, .ok d⟩ => if d.allowed then d.reservation.toList else []
    | _ => []

/-- The reservations settled in a trace, in order. -/
def settlements (tr : List (Event iface)) : List Reservation :=
  tr.flatMap fun
    | ⟨.commit r _ _, .done⟩ | ⟨.commit r _ _, .raised _ true⟩ => [r]
    | _ => []

theorem calls_cons (e : Event iface) (tr : List (Event iface)) :
    calls (e :: tr) = calls [e] + calls tr := by
  rw [calls, ← List.singleton_append, List.countP_append]
  rfl

theorem grants_cons (e : Event iface) (tr : List (Event iface)) :
    grants (e :: tr) = grants [e] ++ grants tr := by
  simp [grants]

theorem settlements_cons (e : Event iface) (tr : List (Event iface)) :
    settlements (e :: tr) = settlements [e] ++ settlements tr := by
  simp [settlements]

namespace Ledger

theorem reserved_counts (g : Ledger) (d : QuotaDecision) :
    (g.reserved d).calls = g.calls ∧ (g.reserved d).settled = g.settled ∧
      (g.reserved d).overdue = g.overdue ∧
      (g.reserved d).granted = g.granted ++ if d.allowed then d.reservation.toList else [] := by
  unfold reserved
  split <;> simp

end Ledger

/-- What one event adds to the counts, and when it makes the run overdue. -/
theorem note_counts (m : Nat) (g : Ledger) (e : Event iface) :
    (g.note m e).calls = g.calls + calls [e] ∧ (g.note m e).granted = g.granted ++ grants [e] ∧
      (g.note m e).settled = g.settled ++ settlements [e] ∧
      (g.note m e).overdue = (g.overdue || isRetry e && decide (m ≤ g.calls)) := by
  obtain ⟨q, a⟩ := e
  cases q with
  | allows => simp [Ledger.note, Ledger.newVisit, calls, isCall, grants, settlements, isRetry]
  | reserve =>
    cases a with
    | error e => simp [Ledger.note, calls, isCall, grants, settlements, isRetry]
    | ok d =>
      obtain ⟨hc, hs, ho, hg⟩ := g.reserved_counts d
      simp [Ledger.note, calls, isCall, grants, settlements, isRetry, hc, hs, ho, hg]
  | complete =>
    cases a <;>
      simp [Ledger.note, Ledger.call, Ledger.leave, calls, isCall, grants, settlements, isRetry]
  | stream =>
    rcases a with e | ⟨chunks, ending⟩ <;>
      simp [Ledger.note, Ledger.call, Ledger.leave, calls, isCall, grants, settlements, isRetry]
  | aclose =>
    cases a with
    | error e => simp [Ledger.note, Ledger.leave, calls, isCall, grants, settlements, isRetry]
    | ok _ =>
      cases h : g.leaving <;>
        simp [Ledger.note, h, Ledger.leave, calls, isCall, grants, settlements, isRetry]
  | yield ev =>
    cases ev <;> cases a <;>
      simp [Ledger.note, Ledger.leave, calls, isCall, grants, settlements, isRetry]
  | commit =>
    rcases a with _ | ⟨e, _ | _⟩ <;>
      simp [Ledger.note, Ledger.settle, calls, isCall, grants, settlements, isRetry]
  | sleep => simp [Ledger.note, Ledger.retry, calls, isCall, grants, settlements, isRetry]
  | log line =>
    cases line <;> simp [Ledger.note, Ledger.refit, calls, isCall, grants, settlements, isRetry]
  | _ => simp [Ledger.note, calls, isCall, grants, settlements, isRetry]

theorem foldl_counts (m : Nat) (g : Ledger) (tr : List (Event iface)) :
    (tr.foldl (Ledger.note m) g).calls = g.calls + calls tr ∧
      (tr.foldl (Ledger.note m) g).granted = g.granted ++ grants tr ∧
      (tr.foldl (Ledger.note m) g).settled = g.settled ++ settlements tr := by
  induction tr generalizing g with
  | nil => simp [calls, grants, settlements]
  | cons e tr ih =>
    obtain ⟨hc, hg, hs⟩ := ih (g.note m e)
    obtain ⟨hc', hg', hs', -⟩ := note_counts m g e
    rw [List.foldl_cons, hc, hg, hs, hc', hg', hs', calls_cons e tr, grants_cons e tr,
      settlements_cons e tr]
    exact ⟨Nat.add_assoc .., List.append_assoc .., List.append_assoc ..⟩

/-- The ledger counts what the trace holds. -/
theorem ledger_counts (m : Nat) (tr : List (Event iface)) :
    (ledger m tr).calls = calls tr ∧ (ledger m tr).granted = grants tr ∧
      (ledger m tr).settled = settlements tr := by
  simpa [ledger] using foldl_counts m {} tr

end Router

end LlmGateway
