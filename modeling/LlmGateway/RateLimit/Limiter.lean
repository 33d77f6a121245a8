import LlmGateway.Effects.Prog
import LlmGateway.Quota.Windows

/-!
# The rate limiter

`RateLimiter` over the counters of one user, command by command. A request is
counted first, in every window at once, and given back if the answer turns out
to be no; the pipelines are batches, not transactions.
-/

namespace LlmGateway

namespace RateLimit

open Effects

/-! ## Windows and limits -/

/-- The windows we limit our own users on. -/
inductive GatewayWindow where
  | rpm
  | rpd
  | rph
  deriving DecidableEq, Repr

namespace GatewayWindow

/-- The name in capitals. -/
def upper : GatewayWindow → String
  | .rpm => "RPM"
  | .rpd => "RPD"
  | .rph => "RPH"

/-- `RATE_LIMIT_WINDOW_S`. -/
def widthS : GatewayWindow → ℤ
  | .rpm => 60
  | .rpd => 86400
  | .rph => 3600

theorem widthS_pos (w : GatewayWindow) : 0 < w.widthS := by cases w <;> decide

/-- The epoch second a bucket opened. -/
def start (w : GatewayWindow) (now : Seconds) : ℤ := ⌊now / w.widthS⌋ * w.widthS

theorem start_le (w : GatewayWindow) (now : Seconds) : (w.start now : ℚ) ≤ now := by
  have hpos : (0 : ℚ) < w.widthS := by exact_mod_cast w.widthS_pos
  have hfloor := Int.floor_le (now / w.widthS)
  rw [le_div_iff₀ hpos] at hfloor
  unfold start
  push_cast
  exact hfloor

theorem lt_start_add (w : GatewayWindow) (now : Seconds) : now < w.start now + w.widthS := by
  have hpos : (0 : ℚ) < w.widthS := by exact_mod_cast w.widthS_pos
  have hfloor := Int.lt_floor_add_one (now / w.widthS)
  rw [div_lt_iff₀ hpos] at hfloor
  unfold start
  push_cast
  linarith

end GatewayWindow

/-- The limits of one tier. -/
structure GatewayLimits where
  rpm : ℤ
  rpd : ℤ
  rpm_pos : 0 < rpm
  rpd_pos : 0 < rpd

/-- `keys.rate_limit` of one user: the window, and the second its bucket opened. -/
structure Key where
  window : GatewayWindow
  start : ℤ
  deriving DecidableEq, Repr

/-- `RATE_LIMIT_TTL_MULTIPLIER`. -/
def ttlMultiplier : ℤ := 2

/-- `sliding_count`, or the fraction that is out of range. -/
def slidingCount (previous current : ℤ) (elapsedFraction : ℚ) : Except ℚ ℚ :=
  if 0 ≤ elapsedFraction ∧ elapsedFraction ≤ 1 then
    .ok (previous * (1 - elapsedFraction) + current)
  else .error elapsedFraction

/-! ## The interface -/

/-- What a call raises. -/
inductive Fault where
  | redis
  | outOfRange (elapsedFraction : ℚ)
  | tooManyRequests (message : String) (retryAfterS : ℤ)
  deriving DecidableEq, Repr

/-- How a call has ended for its caller. -/
inductive Verdict where
  | accepted
  | refused (why : Fault)
  deriving DecidableEq, Repr

/-- The clock, the commands, and that a call has returned. -/
inductive Ask where
  | now
  | incr (key : Key)
  | expire (key : Key) (ttl : ℤ)
  | get (key : Key)
  | decr (key : Key)
  | returned (verdict : Verdict)
  deriving DecidableEq, Repr

def Ans : Ask → Type
  | .now => Seconds
  | .incr _ => Except Fault ℤ
  | .expire _ _ => Except Fault Bool
  | .get _ => Except Fault (Option ℤ)
  | .decr _ => Except Fault ℤ
  | .returned _ => Unit

abbrev iface : Iface := ⟨Ask, Ans⟩

abbrev Eff (α : Type) : Type := Prog iface Fault α

def now : Eff Seconds := .ask .now .ret

def returned (verdict : Verdict) : Eff Unit := .ask (.returned verdict) .ret

/-! ## Counting -/

/-- A window and its limit. -/
abbrev Check : Type := GatewayWindow × ℤ

/-- `_Counted`: one window, after this request has been counted into it. -/
structure Counted where
  name : GatewayWindow
  limit : ℤ
  start : ℤ
  previous : ℤ
  current : ℤ
  count : ℚ
  deriving DecidableEq, Repr

def Counted.widthS (c : Counted) : ℤ := c.name.widthS

def Counted.key (c : Counted) : Key := ⟨c.name, c.start⟩

/-- What the three commands of a window are answered. -/
structure Replies where
  current : Except Fault ℤ
  expires : Except Fault Bool
  previous : Except Fault (Option ℤ)

/-- The first error of a window's replies, or its current and previous counts. -/
def Replies.results (r : Replies) : Except Fault (ℤ × ℤ) := do
  let current ← r.current
  let _ ← r.expires
  let previous ← r.previous
  return (current, previous.getD 0)

/-- The batch of `_count`, which runs to its end whatever a command answers. -/
def execute (now : Seconds) : List Check → Eff (List Replies)
  | [] => return []
  | (name, _) :: checks => do
    let start := name.start now
    let current ← .ask (.incr ⟨name, start⟩) .ret
    let expires ← .ask (.expire ⟨name, start⟩ (name.widthS * ttlMultiplier)) .ret
    let previous ← .ask (.get ⟨name, max 0 (start - name.widthS)⟩) .ret
    let replies ← execute now checks
    return ⟨current, expires, previous⟩ :: replies

/-- How far into its current bucket an instant is. -/
def elapsedFraction (name : GatewayWindow) (now : Seconds) : ℚ :=
  (now - name.start now) / name.widthS

/-- One window of `_count`. -/
def counted (now : Seconds) (check : Check) (results : ℤ × ℤ) : Except Fault Counted := do
  let (name, limit) := check
  let (current, previous) := results
  let count ← (slidingCount previous current (elapsedFraction name now)).mapError .outOfRange
  return { name, limit, start := name.start now, previous, current, count }

/-- `_count`. -/
def count (checks : List Check) (now : Seconds) : Eff (List Counted) := do
  let replies ← execute now checks
  let results ← .ofExcept (replies.mapM Replies.results)
  .ofExcept ((checks.zip results).mapM fun (check, r) => counted now check r)

/-! ## Refusing -/

/-- The batch of `_refund`. -/
def giveBack : List Counted → Eff (List (Except Fault ℤ))
  | [] => return []
  | c :: cs => do
    let left ← .ask (.decr c.key) .ret
    let rest ← giveBack cs
    return left :: rest

/-- `_refund`; what fails is logged. -/
def refund (cs : List Counted) : Eff Unit := do
  let _ ← giveBack cs
  return

/-- `_at_least_one`. -/
def atLeastOne (seconds : ℚ) : ℤ := max 1 ⌈seconds⌉

/-- The tail of `_retry_after_s`: the bucket is over the limit on its own. -/
def retryNextBucketS (c : Counted) (now : Seconds) : ℤ :=
  let nextStart := c.start + c.widthS
  let carried := max 0 (c.current - 1)
  let allowance := c.limit - 1
  if allowance < carried then
    let needed : ℚ := 1 - allowance / carried
    atLeastOne (nextStart + needed * c.widthS - now)
  else atLeastOne (nextStart - now)

/-- `_retry_after_s`. -/
def retryAfterS (c : Counted) (now : Seconds) : ℤ :=
  if 0 < c.previous ∧ c.current ≤ c.limit then
    let needed : ℚ := (c.previous + c.current - c.limit) / c.previous
    if needed ≤ 1 then atLeastOne (c.start + needed * c.widthS - now) else retryNextBucketS c now
  else retryNextBucketS c now

/-- The error of a window that is over its limit. -/
def tooManyRequests (c : Counted) (now : Seconds) : Fault :=
  let retry := retryAfterS c now
  .tooManyRequests
    (s!"You have used your {c.name.upper} allowance of " ++
      s!"{c.limit} requests. Try again in {retry}s.") retry

/-- `_raise_if_over`: the first window over its limit decides, and all are given back. -/
def raiseIfOver (cs : List Counted) (now : Seconds) : Eff Unit :=
  match cs.find? fun c => (c.limit : ℚ) < c.count with
  | none => return
  | some c => do
    refund cs
    .raise (tooManyRequests c now)

/-! ## Enforcing -/

/-- What `enforce` and `enforce_one` share: an unreachable Redis lets the request through. -/
def enforceChecks (checks : List Check) : Eff Unit := do
  let t ← now
  match ← (count checks t).attempt with
  | .error (_ : Fault) => return
  | .ok cs => raiseIfOver cs t

/-- The windows of a tier. -/
def GatewayLimits.checks (tier : GatewayLimits) : List Check := [(.rpm, tier.rpm), (.rpd, tier.rpd)]

/-- `enforce`, with the limits of the caller's tier if the configuration has them. -/
def enforce (tier : Option GatewayLimits) : Eff Unit :=
  match tier with
  | none => return
  | some tier => enforceChecks tier.checks

/-- `enforce_one`. -/
def enforceOne (window : GatewayWindow) (limit : ℤ) : Eff Unit := enforceChecks [(window, limit)]

/-- One request at the limiter, up to its answer. -/
def session (tier : Option GatewayLimits) : Eff Unit := do
  match ← (enforce tier).attempt with
  | .ok () => returned .accepted
  | .error why => returned (.refused why)

end RateLimit

end LlmGateway
