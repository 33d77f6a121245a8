import LlmGateway.Effects.Pool
import LlmGateway.Providers.Types
import Mathlib.Algebra.Order.Ring.Rat
import Mathlib.Tactic.Linarith
import Mathlib.Tactic.NormNum

/-!
# The circuit breaker

`CircuitBreaker` over the hash of one (provider, model), one Redis command at a
time. The hash is the whole state, so what two callers do to each other is what
the order of their commands makes of it.
-/

namespace LlmGateway

namespace Breaker

open Effects

/-- The constants of a breaker. -/
structure Config where
  failureThreshold : Int
  cooldownInitialS : Seconds
  cooldownMaxS : Seconds
  cooldownFactor : ℚ
  initial_pos : 0 < cooldownInitialS
  initial_le_max : cooldownInitialS ≤ cooldownMaxS
  one_le_factor : 1 ≤ cooldownFactor

/-- The constants the application runs with. -/
def defaults : Config where
  failureThreshold := 5
  cooldownInitialS := 30
  cooldownMaxS := 300
  cooldownFactor := 2
  initial_pos := by norm_num
  initial_le_max := by norm_num
  one_le_factor := by norm_num

/-- The TTL of the hash, refreshed on every write. -/
def breakerTtlS : Seconds := 3600

/-! ## The hash -/

/-- The fields of `cb:{provider}:{model}`. -/
structure Hash where
  state : Option BreakerState := none
  failures : Option Int := none
  openedAt : Option Seconds := none
  cooldownS : Option Seconds := none
  probeHolder : Option String := none
  deriving DecidableEq, Repr

/-- `_read_state`. -/
def Hash.readState (h : Hash) : BreakerState := h.state.getD .closed

/-- `_read_int(raw.get("failures"))`. -/
def Hash.readFailures (h : Hash) : Int := h.failures.getD 0

/-- `_read_float(raw.get("opened_at"))`. -/
def Hash.readOpenedAt (h : Hash) : Seconds := h.openedAt.getD 0

/-- `_read_float(raw) or None`: a zero reads as absent. -/
def readCooldown (raw : Option Seconds) : Option Seconds := raw.filter (· ≠ 0)

/-- `_next_cooldown`. -/
def nextCooldown (cfg : Config) (previous retryAfterS : Option Seconds) : Seconds :=
  match retryAfterS, previous with
  | some hint, _ => min (max hint cfg.cooldownInitialS) cfg.cooldownMaxS
  | none, none => cfg.cooldownInitialS
  | none, some p => min (p * cfg.cooldownFactor) cfg.cooldownMaxS

/-- The cooldown `allows` holds a breaker to. -/
def Hash.cooldown (cfg : Config) (h : Hash) : Seconds :=
  (readCooldown h.cooldownS).getD cfg.cooldownInitialS

/-- The writes of the breaker, one for each place that makes one. -/
inductive Write where
  /-- The claimed probe's lease. -/
  | lease (now : Seconds)
  /-- The takeover of a stale probe. -/
  | steal (now : Seconds) (holder : String)
  /-- The probe succeeded. -/
  | close
  /-- A success of a closed breaker wipes the streak. -/
  | wipe
  /-- An opening, and what its cooldown is computed from. -/
  | opening (now : Seconds) (failures : Int) (previous retryAfterS : Option Seconds)
  deriving DecidableEq, Repr

/-- `HSET` of the fields of a write. -/
def Hash.write (cfg : Config) (h : Hash) : Write → Hash
  | .lease now => { h with state := some .halfOpen, openedAt := some now }
  | .steal now holder =>
    { h with state := some .halfOpen, openedAt := some now, probeHolder := some holder }
  | .close =>
    { h with state := some .closed, failures := some 0, cooldownS := some cfg.cooldownInitialS }
  | .wipe => { h with failures := some 0 }
  | .opening now failures previous retryAfterS =>
    { h with
      state := some .open, openedAt := some now, failures := some failures
      cooldownS := some (nextCooldown cfg previous retryAfterS) }

/-! ## The interface -/

/-- A Redis command that failed. -/
structure RedisError where
  errorType : String
  deriving DecidableEq, Repr

/-- What the caller of `allows` comes back with. -/
inductive Report where
  | nothing
  | success
  | failure (error : ProviderError)
  deriving DecidableEq, Repr

/-- The questions of the breaker: the clock, the commands on its hash, and, of
its callers, that `allows` has returned and what became of the attempt. -/
inductive Ask where
  | now
  | hgetall
  | hgetCooldown
  | hset (w : Write)
  | hsetnxHolder (requestId : String)
  | hdelHolder
  | hincrbyFailures
  | expire
  | returned (decision : BreakerDecision)
  | outcome (decision : BreakerDecision)
  deriving DecidableEq, Repr

def Ans : Ask → Type
  | .now => Seconds
  | .hgetall => Except RedisError Hash
  | .hgetCooldown => Except RedisError (Option Seconds)
  | .hset _ => Except RedisError Unit
  | .hsetnxHolder _ => Except RedisError Bool
  | .hdelHolder => Except RedisError Unit
  | .hincrbyFailures => Except RedisError Int
  | .expire => Except RedisError Unit
  | .returned _ => Unit
  | .outcome _ => Report

/-- The interface of the breaker. -/
abbrev iface : Iface := ⟨Ask, Ans⟩

/-- A computation of the breaker. -/
abbrev Eff (α : Type) : Type := Prog iface RedisError α

def now : Eff Seconds := .ask .now .ret

def hgetall : Eff Hash := .ask .hgetall .ofExcept

def hgetCooldown : Eff (Option Seconds) := .ask .hgetCooldown .ofExcept

def hset (w : Write) : Eff Unit := .ask (.hset w) .ofExcept

def hsetnxHolder (requestId : String) : Eff Bool := .ask (.hsetnxHolder requestId) .ofExcept

def hdelHolder : Eff Unit := .ask .hdelHolder .ofExcept

def hincrbyFailures : Eff Int := .ask .hincrbyFailures .ofExcept

def expire : Eff Unit := .ask .expire .ofExcept

def returned (decision : BreakerDecision) : Eff Unit := .ask (.returned decision) .ret

def outcome (decision : BreakerDecision) : Eff Report := .ask (.outcome decision) .ret

/-! ## Asking -/

/-- `_write`: one `HSET`, then the TTL. -/
def write (w : Write) : Eff Unit := do
  hset w
  expire

/-- `_fail_open`. -/
def failOpen (provider model : String) : BreakerDecision :=
  { allowed := true, provider, model, state := .closed, degraded := true }

/-- The body of `_claim_probe`: `HSETNX` is the exclusion, the write behind it
the lease. -/
def tryClaim (provider model : String) (failures : Int) (cooldownS : Seconds)
    (requestId : String) : Eff BreakerDecision := do
  let probe : BreakerDecision :=
    { allowed := true, provider, model, state := .halfOpen, isProbe := true, failures }
  if ← hsetnxHolder requestId then
    let t ← now
    write (.lease t)
    return probe
  else
    -- Someone holds it. They are either mid-probe or gone.
    let raw ← hgetall
    let t ← now
    let leaseElapsed := t - raw.readOpenedAt
    if leaseElapsed < cooldownS then
      return { probe with
        allowed := false, isProbe := false, retryAfterS := some (cooldownS - leaseElapsed) }
    else
      let t' ← now
      write (.steal t' requestId)
      return probe

/-- `_claim_probe`. -/
def claimProbe (provider model : String) (failures : Int) (cooldownS : Seconds)
    (requestId : String) : Eff BreakerDecision := do
  match ← (tryClaim provider model failures cooldownS requestId).attempt with
  | .ok decision => return decision
  | .error _ => return failOpen provider model

/-- `allows`: is this candidate worth an attempt right now? -/
def allows (cfg : Config) (provider model requestId : String) : Eff BreakerDecision := do
  match ← hgetall.attempt with
  | .error (_ : RedisError) => return failOpen provider model
  | .ok raw =>
    let failures := raw.readFailures
    if raw.readState = .closed then
      return { allowed := true, provider, model, state := .closed, failures }
    else
      let cooldownS := raw.cooldown cfg
      let t ← now
      let elapsed := t - raw.readOpenedAt
      if elapsed < cooldownS then
        return { allowed := false, provider, model, state := raw.readState, failures,
                 retryAfterS := some (cooldownS - elapsed) }
      else claimProbe provider model failures cooldownS requestId

/-- `peek`: what is stored, with no probe claimed. -/
def peek (cfg : Config) (provider model : String) : Eff BreakerDecision := do
  match ← hgetall.attempt with
  | .error (_ : RedisError) => return failOpen provider model
  | .ok raw =>
    if raw.readState = .closed then
      return { allowed := true, provider, model, state := .closed }
    else
      let cooldownS := raw.cooldown cfg
      let t ← now
      let elapsed := t - raw.readOpenedAt
      return { allowed := false, provider, model, state := raw.readState,
               failures := raw.readFailures, retryAfterS := some (max (cooldownS - elapsed) 0) }

/-! ## Recording -/

/-- A block whose Redis failures are logged and swallowed. -/
def swallowing (p : Eff Unit) : Eff Unit := do
  let _ : Except RedisError Unit ← p.attempt
  return

/-- `record_success`. -/
def recordSuccess (d : BreakerDecision) : Eff Unit :=
  if d.degraded then return
  else swallowing do
    if d.isProbe then
      write .close
      hdelHolder
    else if d.failures ≠ 0 then write .wipe
    else return

/-- `_open`. -/
def openBreaker (failures : Int) (previous retryAfterS : Option Seconds) : Eff Unit := do
  let t ← now
  write (.opening t failures previous retryAfterS)

/-- `error.retry_after_s`, which only `RateLimited` declares. -/
def retryAfter (error : ProviderError) : Option Seconds :=
  match error.kind with
  | .rateLimited hint => hint
  | _ => none

/-- `isinstance(error, RateLimited)`. -/
def isRateLimited (error : ProviderError) : Bool :=
  match error.kind with
  | .rateLimited _ => true
  | _ => false

/-- `record_failure`. -/
def recordFailure (cfg : Config) (d : BreakerDecision) (error : ProviderError) : Eff Unit :=
  if d.degraded || !error.breakerEligible then return
  else swallowing do
    if d.isProbe then
      let raw ← hgetCooldown
      openBreaker d.failures (readCooldown raw) (retryAfter error)
      hdelHolder
    else
      let failures ← hincrbyFailures
      expire
      if isRateLimited error ∨ cfg.failureThreshold ≤ failures then
        openBreaker failures none (retryAfter error)
      else return

/-! ## A request -/

/-- One request at the breaker: it asks, and if it was allowed it comes back,
however much later, to report what became of its attempt. -/
def session (cfg : Config) (provider model requestId : String) : Eff Unit := do
  let d ← allows cfg provider model requestId
  returned d
  if d.allowed then
    match ← outcome d with
    | .nothing => return
    | .success => recordSuccess d
    | .failure error => recordFailure cfg d error
  else return

/-! ## Redis -/

/-- The server's side of one breaker: its hash, when it expires, and the time. -/
structure Store where
  hash : Hash := {}
  deadline : Option Seconds := none
  clock : Seconds := 0
  deriving DecidableEq, Repr

/-- What a command does when it is carried out. -/
def Store.exec (cfg : Config) (s : Store) : Ask → Store
  | .hset w => { s with hash := s.hash.write cfg w }
  | .hsetnxHolder requestId =>
    if s.hash.probeHolder.isSome then s
    else { s with hash := { s.hash with probeHolder := some requestId } }
  | .hdelHolder =>
    let hash := { s.hash with probeHolder := none }
    -- A hash whose last field goes is gone, and its TTL with it.
    { s with hash, deadline := if hash = {} then none else s.deadline }
  | .hincrbyFailures => { s with hash := { s.hash with failures := some (s.hash.readFailures + 1) } }
  | .expire => if s.hash = {} then s else { s with deadline := some (s.clock + breakerTtlS) }
  | _ => s

@[simp] theorem Store.exec_clock (cfg : Config) (s : Store) (q : Ask) :
    (s.exec cfg q).clock = s.clock := by
  cases q <;> simp only [Store.exec] <;> split <;> rfl

theorem Store.exec_expire_hash (cfg : Config) (s : Store) : (s.exec cfg .expire).hash = s.hash := by
  simp only [Store.exec]
  split <;> rfl

/-- What a command answers when it is carried out. -/
def Store.reply (s : Store) : (q : Ask) → Ans q
  | .now => s.clock
  | .hgetall => .ok s.hash
  | .hgetCooldown => .ok s.hash.cooldownS
  | .hset _ => .ok ()
  | .hsetnxHolder _ => .ok s.hash.probeHolder.isNone
  | .hdelHolder => .ok ()
  | .hincrbyFailures => .ok (s.hash.readFailures + 1)
  | .expire => .ok ()
  | .returned _ => ()
  | .outcome _ => .nothing

/-- Whether an answer is a command's failure. -/
def failed : (q : Ask) → Ans q → Prop
  | .now, _ | .returned _, _ | .outcome _, _ => False
  | .hgetall, r => ∃ e, r = .error e
  | .hgetCooldown, r => ∃ e, r = .error e
  | .hset _, r => ∃ e, r = .error e
  | .hsetnxHolder _, r => ∃ e, r = .error e
  | .hdelHolder, r => ∃ e, r = .error e
  | .hincrbyFailures, r => ∃ e, r = .error e
  | .expire, r => ∃ e, r = .error e

/-- A server of the breaker's commands, which may tell its callers apart: what
a command does, what it answers, and what goes on beside the callers. -/
structure Server (ι σ : Type) where
  exec : ι → σ → Ask → σ
  reply : σ → (q : Ask) → Ans q
  passes : σ → σ → Prop

namespace Server

variable {ι σ : Type} (S : Server ι σ)

/-- **A server as caller `i` sees it.** A command is carried out and answered,
or it fails, carried out or not; an attempt comes back with whatever it
does. -/
def world (i : ι) : World iface σ := fun s q a s' =>
  match q, a with
  | .outcome _, _ => s' = s
  | q, a => (a = S.reply s q ∧ s' = S.exec i s q) ∨ (failed q a ∧ (s' = s ∨ s' = S.exec i s q))

/-- Whatever it answers, it has done what the question says or nothing. -/
theorem world_cases {S : Server ι σ} {i : ι} {s s' : σ} {q : Ask} {a : Ans q}
    (h : S.world i s q a s') : s' = s ∨ s' = S.exec i s q := by
  cases q with
  | outcome d => exact .inl h
  | _ => exact h.elim (fun h => .inr h.2) fun h => h.2

/-- A turn of caller `i` whose command is carried out; an attempt comes back
with `report`. -/
def turn (i : ι) (report : Report) : Move ι iface σ :=
  .turn i fun s q => match q with
    | .outcome _ => (report, s)
    | q => (S.reply s q, S.exec i s q)

theorem turn_admitted (i : ι) (report : Report) : Pool.Admits S.world S.passes (S.turn i report) := by
  intro s q
  cases q with
  | outcome d => rfl
  | _ => exact .inl ⟨rfl, rfl⟩

end Server

/-- What goes on beside the callers: time passes, and a hash whose TTL has run
out is gone. -/
inductive Passes : Store → Store → Prop
  | tick {s : Store} {t : Seconds} (h : s.clock ≤ t) : Passes s { s with clock := t }
  | expires {s : Store} {t : Seconds} (hd : s.deadline = some t) (h : t ≤ s.clock) :
      Passes s { s with hash := {}, deadline := none }

/-- Time going by. -/
def Store.wait (d : Nat) (s : Store) : Store := { s with clock := s.clock + d }

theorem Store.wait_passes (d : Nat) (s : Store) : Passes s (s.wait d) :=
  .tick (le_add_of_nonneg_right (Nat.cast_nonneg d))

/-- A line of a schedule: some turns of a caller, or some seconds. -/
inductive Line (ι : Type) where
  | turns (i : ι) (n : Nat) (report : Report)
  | wait (seconds : Nat)

/-- The moves of a line, with `wait` for the time going by. -/
def Line.moves {ι σ : Type} (S : Server ι σ) (wait : Nat → σ → σ) : Line ι → List (Move ι iface σ)
  | .turns i n report => List.replicate n (S.turn i report)
  | .wait seconds => [.beside (wait seconds)]

/-- Where a schedule leads. -/
def follow {ι σ : Type} [DecidableEq ι] (S : Server ι σ) (wait : Nat → σ → σ)
    (lines : List (Line ι)) (c₀ : Pool ι iface RedisError Unit σ) :
    Pool ι iface RedisError Unit σ :=
  (lines.flatMap (Line.moves S wait)).foldl Pool.move c₀

theorem follow_reach {ι σ : Type} [DecidableEq ι] (S : Server ι σ) {wait : Nat → σ → σ}
    (hwait : ∀ d s, S.passes s (wait d s)) (lines : List (Line ι))
    (c₀ : Pool ι iface RedisError Unit σ) :
    Pool.Reach S.world S.passes c₀ (follow S wait lines c₀) := by
  refine Pool.reach_of_moves _ (fun m hm => ?_) .start
  obtain ⟨line, -, hm⟩ := List.mem_flatMap.mp hm
  cases line with
  | turns i n report =>
    rw [List.eq_of_mem_replicate hm]
    exact S.turn_admitted i report
  | wait seconds =>
    rw [List.mem_singleton.mp hm]
    exact hwait seconds

/-- A failure of the candidate. -/
def fails (kind : ProviderError.Kind) : Report :=
  .failure { kind, message := "upstream", provider := "groq", model := "llama" }

/-- A rate limit opens the breaker, and its cooldown elapses. -/
def elapsed : List (Line String) := [.turns "opener" 8 (fails (.rateLimited none)), .wait 30]

end Breaker

end LlmGateway
