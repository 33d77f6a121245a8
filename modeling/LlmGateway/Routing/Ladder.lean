import LlmGateway.Routing.CircuitBreaker

/-!
# The cooldown ladder

What an opening stores is computed from what its reporter read, and a report
can be arbitrarily late. The server is watched with a log of the writes it
carried out, each with the hash it met; the ladder is a property of that log.
-/

namespace LlmGateway

namespace Breaker

open Effects

/-! ## The log of writes -/

/-- A write carried out, and the hash it met. -/
structure Met where
  hash : Hash
  write : Write
  deriving DecidableEq, Repr

/-- The server with the log of its writes. -/
structure Logged extends Store where
  writes : List Met := []
  deriving DecidableEq, Repr

/-- A command carried out, and logged if it is a write. -/
def Logged.exec (cfg : Config) (s : Logged) (q : Ask) : Logged :=
  { toStore := s.toStore.exec cfg q
    writes := match q with
      | .hset w => s.writes ++ [⟨s.hash, w⟩]
      | _ => s.writes }

/-- The logging server. What goes on beside its callers leaves the log alone. -/
def logging (cfg : Config) (ι : Type) : Server ι Logged where
  exec _ := Logged.exec cfg
  reply s := s.toStore.reply
  passes s s' := Passes s.toStore s'.toStore ∧ s'.writes = s.writes

/-- **A write climbs** if it does not shorten the cooldown it finds stored. A
write that is no opening, or follows a provider's hint, has nothing to climb. -/
def Met.Climbs (cfg : Config) (m : Met) : Prop :=
  match m.write with
  | .opening _ _ _ none =>
    ∀ c ∈ m.hash.cooldownS, ∃ c' ∈ (m.hash.write cfg m.write).cooldownS, c ≤ c'
  | _ => True

/-- **A write is on time** if it finds the breaker no further up than its
report knew. A report made of no probe, which computes from no previous
cooldown, finds the breaker closed or still on the first rung; a probe's finds
no cooldown past the rung above the one it read. -/
def Met.OnTime (cfg : Config) (m : Met) : Prop :=
  match m.write with
  | .opening _ _ previous none => match previous with
    | none => m.hash.readState = .closed ∨ ∀ c ∈ m.hash.cooldownS, c ≤ cfg.cooldownInitialS
    | some p => ∀ c ∈ m.hash.cooldownS, c ≤ p * cfg.cooldownFactor
  | _ => True

/-! ## What every hash keeps -/

/-- The cooldown a breaker's hash holds: within the ceiling, and on the first
rung whenever the breaker is closed. -/
structure Hash.OnLadder (cfg : Config) (h : Hash) : Prop where
  le_max : ∀ c ∈ h.cooldownS, c ≤ cfg.cooldownMaxS
  closed : h.readState = .closed → ∀ c ∈ h.cooldownS, c ≤ cfg.cooldownInitialS

theorem nextCooldown_le_max (cfg : Config) (previous retryAfterS : Option Seconds) :
    nextCooldown cfg previous retryAfterS ≤ cfg.cooldownMaxS := by
  rcases retryAfterS with _ | hint
  · rcases previous with _ | p
    · exact cfg.initial_le_max
    · exact min_le_right _ _
  · exact min_le_right _ _

/-- The empty hash, of a new breaker or an expired one. -/
theorem onLadder_empty (cfg : Config) : Hash.OnLadder cfg {} where
  le_max := by simp
  closed := by simp

theorem Hash.OnLadder.write {cfg : Config} {h : Hash} (hl : h.OnLadder cfg) (w : Write) :
    (h.write cfg w).OnLadder cfg := by
  cases w with
  | lease t => exact ⟨hl.le_max, by simp [Hash.write, Hash.readState]⟩
  | steal t holder => exact ⟨hl.le_max, by simp [Hash.write, Hash.readState]⟩
  | close => exact ⟨by simp [Hash.write, cfg.initial_le_max], by simp [Hash.write]⟩
  | wipe => exact ⟨hl.le_max, hl.closed⟩
  | opening t failures previous retryAfterS =>
    refine ⟨?_, by simp [Hash.write, Hash.readState]⟩
    simp [Hash.write, nextCooldown_le_max]

/-- Every command keeps the hash on the ladder. -/
theorem Hash.OnLadder.exec {cfg : Config} {s : Store} (hl : s.hash.OnLadder cfg) (q : Ask) :
    (s.exec cfg q).hash.OnLadder cfg := by
  cases q with
  | hset w => exact hl.write w
  | hsetnxHolder requestId =>
    simp only [Store.exec]
    split
    · exact hl
    · exact ⟨hl.le_max, hl.closed⟩
  | hdelHolder => exact ⟨hl.le_max, hl.closed⟩
  | hincrbyFailures => exact ⟨hl.le_max, hl.closed⟩
  | expire =>
    simp only [Store.exec]
    split <;> exact hl
  | _ => exact hl

/-- A hash that is still there, or has expired, is on the ladder. -/
theorem Hash.OnLadder.passes {cfg : Config} {s s' : Store} (hl : s.hash.OnLadder cfg)
    (hp : Passes s s') : s'.hash.OnLadder cfg := by
  cases hp with
  | tick _ => exact hl
  | expires _ _ => exact onLadder_empty cfg

/-- **A write climbs exactly if it is on time**, whenever the hash it meets is
on the ladder. -/
theorem Met.climbs_iff_onTime {cfg : Config} {m : Met} (hl : m.hash.OnLadder cfg) :
    m.Climbs cfg ↔ m.OnTime cfg := by
  obtain ⟨h, w⟩ := m
  rcases w with t | ⟨t, holder⟩ | - | - | ⟨t, failures, _ | p, _ | hint⟩
  case opening.none.none =>
    simp only [Climbs, OnTime, Hash.write, nextCooldown, Option.mem_def, Option.some.injEq,
      exists_eq_left']
    exact ⟨.inr, fun ho => ho.elim hl.closed id⟩
  case opening.some.none =>
    simp only [Climbs, OnTime, Hash.write, nextCooldown, Option.mem_def, Option.some.injEq,
      exists_eq_left', le_min_iff]
    exact ⟨fun hc c h => (hc c h).1, fun ho c h => ⟨ho c h, hl.le_max c h⟩⟩
  all_goals exact Iff.rfl

/-! ## The ladder over runs -/

/-- Every hash the server has held, now and under each write, is on the
ladder. -/
def Logged.OnLadder (cfg : Config) (s : Logged) : Prop :=
  s.hash.OnLadder cfg ∧ ∀ m ∈ s.writes, m.hash.OnLadder cfg

theorem Logged.OnLadder.exec {cfg : Config} {s : Logged} (hl : s.OnLadder cfg) (q : Ask) :
    (s.exec cfg q).OnLadder cfg := by
  refine ⟨hl.1.exec q, ?_⟩
  cases q with
  | hset w =>
    intro m hm
    obtain hm | rfl : m ∈ s.writes ∨ m = ⟨s.hash, w⟩ := by simpa [Logged.exec] using hm
    · exact hl.2 m hm
    · exact hl.1
  | _ => exact hl.2

/-- The breaker of one (provider, model) that nobody has asked yet, with any
number of requests at it. -/
def fresh {ι : Type} (cfg : Config) (provider model : String) (requestId : ι → String)
    (clock : Seconds) : Pool ι iface RedisError Unit Logged :=
  ⟨{ clock }, fun i => session cfg provider model (requestId i)⟩

instance (cfg : Config) : (m : Met) → Decidable (m.Climbs cfg)
  | ⟨h, .opening t failures previous none⟩ => inferInstanceAs (Decidable
      (∀ c ∈ h.cooldownS, ∃ c' ∈ (h.write cfg (.opening t failures previous none)).cooldownS, c ≤ c'))
  | ⟨_, .opening _ _ _ (some _)⟩ | ⟨_, .lease _⟩ | ⟨_, .steal _ _⟩ | ⟨_, .close⟩ | ⟨_, .wipe⟩ =>
    .isTrue trivial

instance (cfg : Config) : (m : Met) → Decidable (m.OnTime cfg)
  | ⟨h, .opening _ _ none none⟩ => inferInstanceAs (Decidable
      (h.readState = .closed ∨ ∀ c ∈ h.cooldownS, c ≤ cfg.cooldownInitialS))
  | ⟨h, .opening _ _ (some previous) none⟩ => inferInstanceAs (Decidable
      (∀ c ∈ h.cooldownS, c ≤ previous * cfg.cooldownFactor))
  | ⟨_, .opening _ _ _ (some _)⟩ | ⟨_, .lease _⟩ | ⟨_, .steal _ _⟩ | ⟨_, .close⟩ | ⟨_, .wipe⟩ =>
    .isTrue trivial

/-- A request opens the breaker, and the probe of the next one fails. -/
def climbing : List (Line String) := elapsed ++ [.turns "prober" 13 (fails .unavailable)]

/-- The same, with a request that was allowed before all of it and reports
after. -/
def belated : List (Line String) :=
  .turns "late" 2 .nothing :: climbing ++ [.turns "late" 6 (fails (.rateLimited none))]

/-- Time going by at a server with a log. -/
def Logged.wait (d : Nat) (s : Logged) : Logged := { s with toStore := s.toStore.wait d }

theorem Logged.wait_passes (cfg : Config) (d : Nat) (s : Logged) :
    (logging cfg String).passes s (s.wait d) :=
  ⟨s.toStore.wait_passes d, rfl⟩

/-- Where a schedule leads a breaker of the default constants. -/
def history (lines : List (Line String)) : Pool String iface RedisError Unit Logged :=
  follow (logging defaults String) Logged.wait lines (fresh defaults "groq" "llama" id 0)

theorem history_reach (lines : List (Line String)) :
    Pool.Reach (logging defaults String).world (logging defaults String).passes
      (fresh defaults "groq" "llama" id 0) (history lines) :=
  follow_reach _ (Logged.wait_passes defaults) lines _

-- so that instants are computed with
unseal Rat.add Rat.sub Rat.mul Rat.inv Rat.ofScientific

end Breaker

end LlmGateway
