import LlmGateway.Effects.Pool
import LlmGateway.Quota.Calls

/-!
# Provider hints

`apply_hint`, command by command, beside the scripts, which run to their end.
A hint reads a counter, compares, and may set it; between its commands others
run theirs and keys expire.
-/

namespace LlmGateway

namespace Quota

open Effects

/-! ## The commands -/

namespace Db

/-- `SET` with `EX`. -/
def setEx (db : Db) (k : String) (value ttl : ℤ) : Db :=
  { db with
    counters := Function.update db.counters k
      (some { value, deadline := some (db.clock + ttl) }) }

/-- `SET` with `KEEPTTL`. -/
def setKeepTtl (db : Db) (k : String) (value : ℤ) : Db :=
  { db with
    counters := Function.update db.counters k
      (some { value, deadline := (db.counters k).bind (·.deadline) }) }

end Db

namespace Hints

/-- What a command raises that Redis does not answer. -/
inductive Fault where
  | unanswered
  deriving DecidableEq, Repr

/-- The commands of a hint, the scripts, and the log line of a failure. -/
inductive Ask where
  | get (key : String)
  | ttl (key : String)
  | setEx (key : String) (value ttl : ℤ)
  | setKeepTtl (key : String) (value : ℤ)
  | reserve (now : Seconds) (grants : List WindowGrant) (scope provider model : String)
      (estimatedTokens : ℤ) (requestId : String)
  | commit (now : Seconds) (reservation : Reservation) (tokensIn tokensOut : ℤ)
  | release (reservation : Reservation)
  | hintApplyFailed (window : QuotaWindow)

def Ans : Ask → Type
  | .get _ => Except Fault (Option ℤ)
  | .ttl _ => Except Fault ℤ
  | .setEx _ _ _ => Except Fault Unit
  | .setKeepTtl _ _ => Except Fault Unit
  | .reserve _ _ _ _ _ _ _ => Unit
  | .commit _ _ _ _ => Unit
  | .release _ => Unit
  | .hintApplyFailed _ => Unit

abbrev iface : Iface := ⟨Ask, Ans⟩

abbrev Eff (α : Type) : Type := Prog iface Fault α

def get (key : String) : Eff (Option ℤ) := .ask (.get key) .ofExcept

def ttl (key : String) : Eff ℤ := .ask (.ttl key) .ofExcept

def setEx (key : String) (value ttl : ℤ) : Eff Unit := .ask (.setEx key value ttl) .ofExcept

def setKeepTtl (key : String) (value : ℤ) : Eff Unit := .ask (.setKeepTtl key value) .ofExcept

def hintApplyFailed (window : QuotaWindow) : Eff Unit := .ask (.hintApplyFailed window) .ret

/-- What Redis does: a command it does not answer has no effect. -/
def redis (T : Tracker) : World iface Db
  | db, .get k, a, db' =>
    db' = db ∧ (a = .ok ((db.counters k).map (·.value)) ∨ a = .error .unanswered)
  | db, .ttl k, a, db' => db' = db ∧ (a = .ok (db.ttl k) ∨ a = .error .unanswered)
  | db, .setEx k value ttl, a, db' =>
    a = .ok () ∧ db' = db.setEx k value ttl ∨ a = .error .unanswered ∧ db' = db
  | db, .setKeepTtl k value, a, db' =>
    a = .ok () ∧ db' = db.setKeepTtl k value ∨ a = .error .unanswered ∧ db' = db
  | db, .reserve now grants scope provider model estimatedTokens requestId, _, db' =>
    db' = db ∨ ∃ decision,
      T.reserveWindows db now grants scope provider model estimatedTokens requestId =
        .ok (decision, db')
  | db, .commit now r tokensIn tokensOut, _, db' =>
    db' = db ∨ db' = T.commit db now r tokensIn tokensOut
  | db, .release r, _, db' => db' = db ∨ db' = Tracker.release db r
  | db, .hintApplyFailed _, _, db' => db' = db

/-- Time goes by. -/
def passes (db db' : Db) : Prop := ∃ t, db' = db.waitUntil t

/-! ## `apply_hint` -/

/-- The distance a reported reset is from a window's own. -/
def distance (pacific : Calendar) (now reported : Seconds) (w : WindowSpec) : Seconds :=
  |ttlS pacific w.reset now - reported|

/-- `_closest_window`; the first of the closest. -/
def closestWindow (pacific : Calendar) (candidates : List WindowSpec)
    (reportedResetS : Option Seconds) (now : Seconds) : Option WindowSpec :=
  match candidates, reportedResetS with
  | [], _ => none
  | [w], _ => some w
  | _, none => none
  | w :: ws, some reported =>
    some (ws.foldl (fun best w =>
      if distance pacific now reported w < distance pacific now reported best then w else best) w)

/-- The `try` block of `_apply_one`. -/
def reconcile (pacific : Calendar) (key : String) (window : WindowSpec) (used : ℤ)
    (now : Seconds) : Eff Unit := do
  let current ← get key
  -- it would lower or match what is tracked
  if used ≤ current.getD 0 then return
  else if window.reset.converging then setEx key used (ttlS pacific window.reset now)
  else
    let left ← ttl key
    if 0 < left then setKeepTtl key used else setEx key used (ttlS pacific window.reset now)

/-- `_apply_one`. -/
def applyOne (T : Tracker) (spec : ModelSpec) (scope : String) (costIsTokens : Bool)
    (remaining : ℤ) (reportedResetS : Option Seconds) (now : Seconds) : Eff Unit :=
  let candidates := (T.declared spec.provider spec.model).filter
    fun w => w.costIsTokens = costIsTokens
  match closestWindow T.pacific candidates reportedResetS now with
  | none => return
  | some window => do
    let limit := T.effectiveLimit spec window.limit
    let used := min limit (max 0 (limit - remaining))
    let key := quotaKey scope spec.provider spec.model window.window
    match ← (reconcile T.pacific key window used now).attempt with
    | .ok () => return
    | .error (_ : Fault) => hintApplyFailed window.window

/-- `apply_hint`. -/
def applyHint (T : Tracker) (spec : ModelSpec) (scope : String) (hint : QuotaHint)
    (now : Seconds) : Eff Unit := do
  match hint.requestsRemaining with
  | some remaining => applyOne T spec scope false remaining hint.requestsResetS now
  | none => pure ()
  match hint.tokensRemaining with
  | some remaining => applyOne T spec scope true remaining hint.tokensResetS now
  | none => pure ()

/-! ## The pool -/

/-- What a member of the pool is to do. -/
inductive Job where
  | hint (spec : ModelSpec) (scope : String) (reported : QuotaHint) (now : Seconds)
  | reserve (now : Seconds) (grants : List WindowGrant) (scope provider model : String)
      (estimatedTokens : ℤ) (requestId : String)
  | commit (now : Seconds) (reservation : Reservation) (tokensIn tokensOut : ℤ)
  | release (reservation : Reservation)

def Job.run (T : Tracker) : Job → Eff Unit
  | .hint spec scope reported now => applyHint T spec scope reported now
  | .reserve now grants scope provider model estimatedTokens requestId =>
    .ask (.reserve now grants scope provider model estimatedTokens requestId) .ret
  | .commit now r tokensIn tokensOut => .ask (.commit now r tokensIn tokensOut) .ret
  | .release r => .ask (.release r) .ret

/-- Any number of them at one database. -/
def desk {ι : Type} (T : Tracker) (db : Db) (jobs : ι → Job) : Pool ι iface Fault Unit Db :=
  ⟨db, fun i => (jobs i).run T⟩

end Hints

end Quota

end LlmGateway
