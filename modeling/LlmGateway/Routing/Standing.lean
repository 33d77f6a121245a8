import LlmGateway.Routing.CircuitBreaker

/-!
# A breaker in good standing

What the hash of a breaker keeps over any history: its cooldown stays on the
ladder, its expiry lies a whole TTL behind the opening it records, and nobody
but a probe that succeeded closes it.
-/

namespace LlmGateway

namespace Breaker

open Effects

/-! ## The bench -/

/-- The operations of a breaker, each for a caller of its own. -/
inductive Op where
  | allows (requestId : String)
  | peek
  | recordSuccess (decision : BreakerDecision)
  | recordFailure (decision : BreakerDecision) (error : ProviderError)

def Op.run (cfg : Config) (provider model : String) : Op → Eff Unit
  | .allows requestId => do
    let _ ← Breaker.allows cfg provider model requestId
    return
  | .peek => do
    let _ ← Breaker.peek cfg provider model
    return
  | .recordSuccess decision => Breaker.recordSuccess decision
  | .recordFailure decision error => Breaker.recordFailure cfg decision error

/-- The record of a probe's success. -/
def Op.ofProbeSuccess : Op → Prop
  | .recordSuccess decision => decision.isProbe
  | _ => False

/-- A command carried out, an `HSET` in one step with its `EXPIRE`. -/
def Store.commit (cfg : Config) (s : Store) : Ask → Store
  | .hset w => { s with hash := s.hash.write cfg w, deadline := some (s.clock + breakerTtlS) }
  | q => s.exec cfg q

/-- Redis, answering every command. -/
def answering (cfg : Config) : World iface Store := fun s q a s' =>
  a = s.reply q ∧ s' = s.commit cfg q

/-- The breaker of one (provider, model) that nobody has asked yet, with any operations at it. -/
def bench {ι : Type} (cfg : Config) (provider model : String) (ops : ι → Op) (clock : Seconds) :
    Pool ι iface RedisError Unit Store :=
  ⟨{ clock }, fun i => (ops i).run cfg provider model⟩

/-! ## Good standing -/

/-- A cooldown the ladder has. -/
def Config.Rung (cfg : Config) (cooldown : Seconds) : Prop :=
  cfg.cooldownInitialS ≤ cooldown ∧ cooldown ≤ cfg.cooldownMaxS

/-- **Good standing.** The stored cooldown is on the ladder, and a breaker that is not closed
was opened, or its probe claimed, a whole TTL before it expires at the earliest. -/
structure Store.Standing (cfg : Config) (s : Store) : Prop where
  rung : ∀ cooldown ∈ s.hash.cooldownS, cfg.Rung cooldown
  lasts : s.hash.readState ≠ .closed → ∃ openedAt deadline,
    s.hash.openedAt = some openedAt ∧ s.deadline = some deadline ∧ openedAt ≤ s.clock ∧
      openedAt + breakerTtlS ≤ deadline

/-- A write whose instant has come and whose previous cooldown is on the ladder. -/
def Write.Fits (cfg : Config) (clock : Seconds) : Write → Prop
  | .lease t | .steal t _ => t ≤ clock
  | .opening t _ previous _ => t ≤ clock ∧ ∀ p ∈ previous, cfg.Rung p
  | .close | .wipe => True

theorem rung_initial (cfg : Config) : cfg.Rung cfg.cooldownInitialS :=
  ⟨le_refl _, cfg.initial_le_max⟩

/-- **The next cooldown is on the ladder** if the previous one is. -/
theorem rung_nextCooldown {cfg : Config} {previous : Option Seconds}
    (h : ∀ p ∈ previous, cfg.Rung p) (retryAfterS : Option Seconds) :
    cfg.Rung (nextCooldown cfg previous retryAfterS) := by
  have hmax := cfg.initial_le_max
  cases retryAfterS with
  | some hint => exact ⟨le_min (le_max_right _ _) hmax, min_le_right _ _⟩
  | none =>
    cases previous with
    | none => exact rung_initial cfg
    | some p =>
      obtain ⟨hlow, -⟩ := h p rfl
      have hpos : 0 ≤ p := cfg.initial_pos.le.trans hlow
      have hclimbs : p ≤ p * cfg.cooldownFactor := le_mul_of_one_le_right hpos cfg.one_le_factor
      exact ⟨le_min (hlow.trans hclimbs) hmax, min_le_right _ _⟩

theorem standing_empty (cfg : Config) {s : Store} (h : s.hash = {}) : s.Standing cfg := by
  refine ⟨fun cooldown hmem => ?_, fun hstate => ?_⟩
  · rw [h] at hmem
    cases hmem
  · rw [h] at hstate
    exact absurd rfl hstate

namespace Store.Standing

variable {cfg : Config} {s s' : Store}

/-- A step that leaves the cooldown, the opening and its state alone, and brings no expiry
forward. -/
theorem of_eq (h : s.Standing cfg) (hcooldown : s'.hash.cooldownS = s.hash.cooldownS)
    (hstate : s'.hash.state = s.hash.state) (hopened : s'.hash.openedAt = s.hash.openedAt)
    (hclock : s.clock ≤ s'.clock)
    (hdeadline : s'.deadline = s.deadline ∨ s'.deadline = some (s'.clock + breakerTtlS)) :
    s'.Standing cfg := by
  refine ⟨hcooldown ▸ h.rung, fun hopen => ?_⟩
  have hbefore : s.hash.readState ≠ .closed := by
    rw [Hash.readState, hstate] at hopen
    exact hopen
  obtain ⟨openedAt, deadline, hat, hdl, hle, hlasts⟩ := h.lasts hbefore
  rcases hdeadline with hsame | hnew
  · exact ⟨openedAt, deadline, hopened.trans hat, hsame.trans hdl, hle.trans hclock, hlasts⟩
  · refine ⟨openedAt, _, hopened.trans hat, hnew, hle.trans hclock, ?_⟩
    linarith

/-- Every write that fits keeps the standing. -/
theorem write {w : Write} (h : s.Standing cfg) (hw : w.Fits cfg s.clock) :
    (s.commit cfg (.hset w)).Standing cfg := by
  have hopens : ∀ t ≤ s.clock, (s.hash.write cfg w).openedAt = some t →
      ∃ openedAt deadline, (s.hash.write cfg w).openedAt = some openedAt ∧
        (s.commit cfg (.hset w)).deadline = some deadline ∧ openedAt ≤ s.clock ∧
          openedAt + breakerTtlS ≤ deadline := by
    intro t ht hat
    refine ⟨t, _, hat, rfl, ht, ?_⟩
    linarith
  cases w with
  | lease t => exact ⟨h.rung, fun _ => hopens t hw rfl⟩
  | steal t holder => exact ⟨h.rung, fun _ => hopens t hw rfl⟩
  | close =>
    refine ⟨fun cooldown hmem => ?_, fun hopen => absurd rfl hopen⟩
    have hinitial : cfg.cooldownInitialS = cooldown := Option.some.inj hmem
    rw [← hinitial]
    exact rung_initial cfg
  | wipe => exact h.of_eq rfl rfl rfl (le_refl _) (.inr rfl)
  | opening t failures previous retryAfterS =>
    obtain ⟨ht, hprevious⟩ := hw
    refine ⟨fun cooldown hmem => ?_, fun _ => hopens t ht rfl⟩
    have hnext : nextCooldown cfg previous retryAfterS = cooldown := Option.some.inj hmem
    rw [← hnext]
    exact rung_nextCooldown hprevious retryAfterS

/-- Every command keeps the standing, a write if it fits. -/
theorem commit {q : Ask} (h : s.Standing cfg) (hq : ∀ w, q = .hset w → w.Fits cfg s.clock) :
    (s.commit cfg q).Standing cfg := by
  cases q with
  | hset w => exact h.write (hq w rfl)
  | hsetnxHolder requestId =>
    unfold Store.commit Store.exec
    dsimp only
    split
    · exact h
    · exact h.of_eq rfl rfl rfl (le_refl _) (.inl rfl)
  | hdelHolder =>
    by_cases hgone : { s.hash with probeHolder := none } = ({} : Hash)
    · exact standing_empty cfg hgone
    · refine h.of_eq rfl rfl rfl (le_refl _) (.inl ?_)
      exact if_neg hgone
  | hincrbyFailures => exact h.of_eq rfl rfl rfl (le_refl _) (.inl rfl)
  | expire =>
    unfold Store.commit Store.exec
    dsimp only
    split
    · exact h
    · exact h.of_eq rfl rfl rfl (le_refl _) (.inr rfl)
  | _ => exact h

theorem passes (h : s.Standing cfg) (hp : Passes s s') : s'.Standing cfg := by
  cases hp with
  | tick hclock => exact h.of_eq rfl rfl rfl hclock (.inl rfl)
  | expires _ _ => exact standing_empty cfg rfl

end Store.Standing

@[simp] theorem Store.commit_clock (cfg : Config) (s : Store) (q : Ask) :
    (s.commit cfg q).clock = s.clock := by
  cases q with
  | hset w => rfl
  | _ => exact s.exec_clock cfg _

/-- **What closes a breaker** is the write of a success. -/
theorem Store.commit_closes {cfg : Config} {s : Store} {q : Ask} (hopen : s.hash.readState ≠ .closed)
    (hclosed : (s.commit cfg q).hash.readState = .closed) : q = .hset .close := by
  cases q with
  | hset w =>
    cases w with
    | close => rfl
    | wipe => exact absurd hclosed hopen
    | lease t => cases hclosed
    | steal t holder => cases hclosed
    | opening t failures previous retryAfterS => cases hclosed
  | hsetnxHolder requestId =>
    unfold Store.commit Store.exec at hclosed
    dsimp only at hclosed
    split at hclosed
    · exact absurd hclosed hopen
    · exact absurd hclosed hopen
  | expire =>
    have hsame : (s.commit cfg .expire).hash = s.hash := s.exec_expire_hash cfg
    rw [hsame] at hclosed
    exact absurd hclosed hopen
  | _ => exact absurd hclosed hopen

/-! ## The operations -/

section

variable {cfg : Config} {closes : Prop} {t : Seconds} {α β : Type}

/-- What the others leave standing. -/
def relying (cfg : Config) : Rely Store where
  step s s' := (s.Standing cfg → s'.Standing cfg) ∧ s.clock ≤ s'.clock
  refl _ := ⟨id, le_refl _⟩
  trans h h' := ⟨h'.1 ∘ h.1, h.2.trans h'.2⟩

/-- What an operation keeps: it closes an open breaker only if it `closes`. -/
def Keeps (cfg : Config) (closes : Prop) (s s' : Store) : Prop :=
  (relying cfg).step s s' ∧ (s.hash.readState ≠ .closed → s'.hash.readState = .closed → closes)

/-- From `t` on a program keeps the standing, whatever the others do. -/
def Settled (cfg : Config) (closes : Prop) (t : Seconds) (p : Eff α) : Prop :=
  ∀ s : Store, s.Standing cfg → t ≤ s.clock → Settles (answering cfg) (relying cfg)
    (Keeps cfg closes) p (fun _ s' => s'.Standing cfg ∧ t ≤ s'.clock) s

theorem settled_ofExcept (r : Except RedisError α) :
    Settled cfg closes t (Prog.ofExcept r : Eff α) := by
  intro s hs ht
  refine settles_ofExcept fun s' hr => ?_
  exact ⟨hr.1 hs, ht.trans hr.2⟩

theorem settled_pure (a : α) : Settled cfg closes t (pure a : Eff α) :=
  settled_ofExcept (.ok a)

theorem Settled.later {p : Eff α} {u : Seconds} (h : Settled cfg closes u p) (htu : t ≤ u)
    {s : Store} (hs : s.Standing cfg) (hu : u ≤ s.clock) : Settles (answering cfg) (relying cfg)
      (Keeps cfg closes) p (fun _ s' => s'.Standing cfg ∧ t ≤ s'.clock) s :=
  (h s hs hu).mono fun _ _ hpost => ⟨hpost.1, htu.trans hpost.2⟩

theorem Settled.bind {p : Eff α} {f : α → Eff β} (hp : Settled cfg closes t p)
    (hf : ∀ a, Settled cfg closes t (f a)) : Settled cfg closes t (p >>= f) := by
  intro s hs ht
  refine Settles.bind ((hp s hs ht).mono fun r s' hpost => ?_)
  cases r with
  | ok a => exact hf a s' hpost.1 hpost.2
  | error e => exact hpost

theorem Settled.attempt {p : Eff α} (hp : Settled cfg closes t p) :
    Settled cfg closes t (p.attempt : Eff (Except RedisError α)) :=
  fun s hs ht => Settles.attempt (hp s hs ht)

/-- A question that writes no field but the holder and the count. -/
theorem settled_ask {q : Ask} {κ : Ans q → Eff α} (hq : ∀ w, q ≠ .hset w)
    (h : ∀ s : Store, s.Standing cfg → t ≤ s.clock →
      Settled cfg closes s.clock (κ (s.reply q))) : Settled cfg closes t (.ask q κ) := by
  intro s₀ hs₀ ht₀ s hr a s' hw
  obtain ⟨rfl, rfl⟩ := hw
  have hs : s.Standing cfg := hr.1 hs₀
  have ht : t ≤ s.clock := ht₀.trans hr.2
  have hs' : (s.commit cfg q).Standing cfg := hs.commit fun w hw => absurd hw (hq w)
  have hclock : s.clock = (s.commit cfg q).clock := (s.commit_clock cfg q).symm
  refine ⟨⟨⟨fun _ => hs', hclock.le⟩, fun hopen hclosed => ?_⟩, ?_⟩
  · exact absurd (Store.commit_closes hopen hclosed) (hq .close)
  · exact (h s hs ht).later ht hs' hclock.le

theorem settled_now {f : Seconds → Eff α} (h : ∀ u, t ≤ u → Settled cfg closes u (f u)) :
    Settled cfg closes t (now >>= f) :=
  settled_ask (fun _ hw => nomatch hw) fun s _ ht => h s.clock ht

theorem settled_hgetall : Settled cfg closes t hgetall :=
  settled_ask (fun _ hw => nomatch hw) fun _ _ _ => settled_ofExcept _

theorem settled_hsetnxHolder (requestId : String) :
    Settled cfg closes t (hsetnxHolder requestId) :=
  settled_ask (fun _ hw => nomatch hw) fun _ _ _ => settled_ofExcept _

theorem settled_hdelHolder : Settled cfg closes t hdelHolder :=
  settled_ask (fun _ hw => nomatch hw) fun _ _ _ => settled_ofExcept _

theorem settled_hincrbyFailures : Settled cfg closes t hincrbyFailures :=
  settled_ask (fun _ hw => nomatch hw) fun _ _ _ => settled_ofExcept _

theorem settled_expire : Settled cfg closes t expire :=
  settled_ask (fun _ hw => nomatch hw) fun _ _ _ => settled_ofExcept _

/-- A cooldown that is read is on the ladder. -/
theorem settled_hgetCooldown {f : Option Seconds → Eff α}
    (h : ∀ raw, (∀ cooldown ∈ raw, cfg.Rung cooldown) → ∀ u, t ≤ u → Settled cfg closes u (f raw)) :
    Settled cfg closes t (hgetCooldown >>= f) :=
  settled_ask (fun _ hw => nomatch hw) fun s hs ht => h s.hash.cooldownS hs.rung s.clock ht

/-- A write that fits from now on. -/
theorem settled_write {w : Write} (hfits : ∀ u, t ≤ u → w.Fits cfg u) (hclose : w = .close → closes) :
    Settled cfg closes t (write w) := by
  intro s₀ hs₀ ht₀ s hr a s' hw
  obtain ⟨rfl, rfl⟩ := hw
  have ht : t ≤ s.clock := ht₀.trans hr.2
  have hs' : (s.commit cfg (.hset w)).Standing cfg := (hr.1 hs₀).write (hfits s.clock ht)
  refine ⟨⟨⟨fun _ => hs', le_refl _⟩, fun hopen hclosed => ?_⟩, ?_⟩
  · exact hclose (Ask.hset.inj (Store.commit_closes hopen hclosed))
  · exact settled_expire _ hs' ht

theorem settled_tryClaim (provider model : String) (failures : Int) (cooldownS : Seconds)
    (requestId : String) :
    Settled cfg closes t (tryClaim provider model failures cooldownS requestId) := by
  refine Settled.bind (settled_hsetnxHolder requestId) fun claimed => ?_
  split
  · refine settled_now fun u _ => Settled.bind (settled_write ?_ ?_) fun _ => settled_pure _
    · exact fun v hv => hv
    · exact fun hw => nomatch hw
  · refine Settled.bind settled_hgetall fun raw => settled_now fun u _ => ?_
    dsimp only
    split
    · exact settled_pure _
    · refine settled_now fun v _ => Settled.bind (settled_write ?_ ?_) fun _ => settled_pure _
      · exact fun v hv => hv
      · exact fun hw => nomatch hw

theorem settled_allows (provider model requestId : String) :
    Settled cfg closes t (allows cfg provider model requestId) := by
  refine Settled.bind (Settled.attempt settled_hgetall) fun r => ?_
  cases r with
  | error e => exact settled_pure _
  | ok raw =>
    dsimp only
    split
    · exact settled_pure _
    · refine settled_now fun u _ => ?_
      split
      · exact settled_pure _
      · refine Settled.bind (Settled.attempt (settled_tryClaim _ _ _ _ _)) fun r => ?_
        cases r with
        | ok decision => exact settled_pure _
        | error e => exact settled_pure _

theorem settled_peek (provider model : String) :
    Settled cfg closes t (peek cfg provider model) := by
  refine Settled.bind (Settled.attempt settled_hgetall) fun r => ?_
  cases r with
  | error e => exact settled_pure _
  | ok raw =>
    dsimp only
    split
    · exact settled_pure _
    · exact settled_now fun u _ => settled_pure _

theorem settled_swallowing {p : Eff Unit} (hp : Settled cfg closes t p) :
    Settled cfg closes t (swallowing p) :=
  Settled.bind hp.attempt fun _ => settled_pure _

theorem settled_recordSuccess {d : BreakerDecision} (h : d.isProbe → closes) :
    Settled cfg closes t (recordSuccess d) := by
  unfold recordSuccess
  split
  · exact settled_pure _
  · refine settled_swallowing ?_
    split
    next hprobe =>
      refine Settled.bind (settled_write ?_ fun _ => h hprobe) fun _ => settled_hdelHolder
      exact fun _ _ => trivial
    next =>
      split
      · exact settled_write (fun _ _ => trivial) fun hw => nomatch hw
      · exact settled_pure _

theorem settled_openBreaker {failures : Int} {previous : Option Seconds}
    (h : ∀ p ∈ previous, cfg.Rung p) (retryAfterS : Option Seconds) :
    Settled cfg closes t (openBreaker failures previous retryAfterS) := by
  refine settled_now fun u _ => settled_write ?_ ?_
  · exact fun v hv => ⟨hv, h⟩
  · exact fun hw => nomatch hw

theorem settled_recordFailure (d : BreakerDecision) (error : ProviderError) :
    Settled cfg closes t (recordFailure cfg d error) := by
  unfold recordFailure
  split
  · exact settled_pure _
  · refine settled_swallowing ?_
    split
    · refine settled_hgetCooldown fun raw hraw u _ => ?_
      refine Settled.bind (settled_openBreaker (fun p hp => ?_) _) fun _ => settled_hdelHolder
      exact hraw p (Option.filter_eq_some_iff.mp hp).1
    · refine Settled.bind settled_hincrbyFailures fun failures => ?_
      refine Settled.bind settled_expire fun _ => ?_
      split
      · exact settled_openBreaker (fun p hp => absurd hp (Option.not_mem_none p)) _
      · exact settled_pure _

/-- **Every operation keeps the standing**, and none but the record of a probe's success closes
an open breaker. -/
theorem settled_run (provider model : String) (op : Op) :
    Settled cfg op.ofProbeSuccess t (op.run cfg provider model) := by
  cases op with
  | allows requestId => exact Settled.bind (settled_allows _ _ _) fun _ => settled_pure _
  | peek => exact Settled.bind (settled_peek _ _) fun _ => settled_pure _
  | recordSuccess decision => exact settled_recordSuccess id
  | recordFailure decision error => exact settled_recordFailure decision error

end

/-! ## Over runs -/

section

variable {ι : Type} [DecidableEq ι] {cfg : Config} {provider model : String} {ops : ι → Op}
  {clock : Seconds} {c : Pool ι iface RedisError Unit Store}

/-- **What is true of every breaker a run leads to.** -/
structure Upright (cfg : Config) (ops : ι → Op) (c : Pool ι iface RedisError Unit Store) :
    Prop where
  /-- A stored cooldown is on the ladder. -/
  rung : ∀ cooldown ∈ c.store.hash.cooldownS,
    cfg.cooldownInitialS ≤ cooldown ∧ cooldown ≤ cfg.cooldownMaxS
  /-- An `HSET` renews the TTL. -/
  renews : ∀ i w κ a s, c.prog i = .ask (.hset w) κ → answering cfg c.store (.hset w) a s →
    s.deadline = some (s.clock + breakerTtlS)
  /-- A hash that expires has outlasted its cooldown. -/
  outlasts : ∀ s, Passes c.store s → c.store.hash.readState ≠ .closed → s.hash ≠ c.store.hash →
    c.store.hash.readOpenedAt + c.store.hash.cooldown cfg < c.store.clock
  /-- A command that closes is one of a probe's success. -/
  closes : ∀ i q κ a s, c.prog i = .ask q κ → answering cfg c.store q a s →
    c.store.hash.readState ≠ .closed → s.hash.readState = .closed → (ops i).ofProbeSuccess

/-- The cooldown a breaker is held to. -/
theorem Store.Standing.cooldown_le {s : Store} (h : s.Standing cfg) :
    s.hash.cooldown cfg ≤ cfg.cooldownMaxS := by
  unfold Hash.cooldown
  cases hread : readCooldown s.hash.cooldownS with
  | none => exact cfg.initial_le_max
  | some cooldown => exact (h.rung cooldown (Option.filter_eq_some_iff.mp hread).1).2

theorem Store.Standing.outlasts {s s' : Store} (h : s.Standing cfg)
    (hmax : cfg.cooldownMaxS < breakerTtlS) (hp : Passes s s') (hopen : s.hash.readState ≠ .closed)
    (hne : s'.hash ≠ s.hash) : s.hash.readOpenedAt + s.hash.cooldown cfg < s.clock := by
  cases hp with
  | tick _ => exact absurd rfl hne
  | expires hd hclock =>
    obtain ⟨openedAt, deadline, hat, hdl, -, hlasts⟩ := h.lasts hopen
    have hsame := Option.some.inj (hd.symm.trans hdl)
    have hcooldown := h.cooldown_le
    have hread : s.hash.readOpenedAt = openedAt := by rw [Hash.readOpenedAt, hat, Option.getD_some]
    rw [hread]
    linarith

/-- **A breaker stays well formed** in whatever order any number of operations ask, peek and
record, with time passing and the hash expiring. -/
theorem stays_upright (hmax : cfg.cooldownMaxS < breakerTtlS)
    (h : Pool.Reach (fun _ => answering cfg) Passes (bench cfg provider model ops clock) c) :
    Upright cfg ops c := by
  have hothers : ∀ (i j : ι) (s s' : Store), i ≠ j → Keeps cfg (ops i).ofProbeSuccess s s' →
      (relying cfg).step s s' := fun _ _ _ _ _ hkeeps => hkeeps.1
  have hpasses : ∀ s s' : Store, Passes s s' → (relying cfg).step s s' := by
    intro s s' hp
    refine ⟨fun hs => hs.passes hp, ?_⟩
    cases hp with
    | tick hclock => exact hclock
    | expires _ _ => exact le_refl _
  have hempty : Store.Standing cfg (bench cfg provider model ops clock).store :=
    standing_empty cfg rfl
  have hstart : ∀ i, Settles (answering cfg) (relying cfg) (Keeps cfg (ops i).ofProbeSuccess)
      ((bench cfg provider model ops clock).prog i)
      (fun _ s' => s'.Standing cfg ∧ clock ≤ s'.clock)
      (bench cfg provider model ops clock).store := fun i =>
    settled_run provider model (ops i) _ hempty (le_refl clock)
  have hstanding : c.store.Standing cfg := h.kept hothers (fun _ => hpasses) hstart hempty
    (fun _ _ _ hkeeps hs => hkeeps.1.1 hs) (fun s s' hp hs => (hpasses s s' hp).1 hs)
  exact
    { rung := hstanding.rung
      renews := fun i w κ a s _ hw => by rw [hw.2]; rfl
      outlasts := fun s hp hopen hne => hstanding.outlasts hmax hp hopen hne
      closes := fun i q κ a s hp hw hopen hclosed =>
        (h.guarantee hothers (fun _ => hpasses) hstart hp hw).2 hopen hclosed }

end

/-! ## One history -/

/-- A rate limit that opens a breaker, and the request that comes after its cooldown. -/
def opening : Bool → Op
  | true => .recordFailure { allowed := true, provider := "groq", model := "llama", state := .closed }
      { kind := .rateLimited none, message := "upstream", provider := "groq", model := "llama" }
  | false => .allows "req"

/-- A command of a caller, answered. -/
def command (cfg : Config) (i : Bool) : Move Bool iface Store :=
  .turn i fun s q => (s.reply q, s.commit cfg q)

/-- Time going by. -/
def Store.idle (d : Nat) : Move Bool iface Store := .beside (Store.wait d)

/-- Where a schedule leads the two. -/
def drill (moves : List (Move Bool iface Store)) : Pool Bool iface RedisError Unit Store :=
  moves.foldl Pool.move (bench defaults "groq" "llama" opening 0)

theorem drill_reach (moves : List (Move Bool iface Store))
    (h : ∀ m ∈ moves, Pool.Admits (fun _ => answering defaults) Passes m) :
    Pool.Reach (fun _ => answering defaults) Passes (bench defaults "groq" "llama" opening 0)
      (drill moves) :=
  Pool.reach_of_moves moves h .start

/-- The rate limit is recorded, and the cooldown elapses. -/
def cooled : List (Move Bool iface Store) :=
  List.replicate 5 (command defaults true) ++ [Store.idle 30]

/-- The request behind it has claimed the probe and not said so yet. -/
def claimed : List (Move Bool iface Store) :=
  cooled ++ List.replicate 2 (command defaults false)

theorem admits_claimed (n : Nat) : ∀ m ∈ claimed ++ [Store.idle n],
    Pool.Admits (fun _ => answering defaults) Passes m := by
  intro m hm
  have hcommand : ∀ i, Pool.Admits (fun _ => answering defaults) Passes (command defaults i) :=
    fun i s q => ⟨rfl, rfl⟩
  have hidle : ∀ d, Pool.Admits (fun _ : Bool => answering defaults) Passes (Store.idle d) :=
    fun d s => s.wait_passes d
  simp only [claimed, cooled, List.mem_append, List.mem_replicate, List.mem_singleton] at hm
  rcases hm with ((⟨-, rfl⟩ | rfl) | ⟨-, rfl⟩) | rfl
  · exact hcommand true
  · exact hidle 30
  · exact hcommand false
  · exact hidle n

theorem claimed_reach (n : Nat) : Pool.Reach (fun _ => answering defaults) Passes
    (bench defaults "groq" "llama" opening 0) (drill (claimed ++ [Store.idle n])) :=
  drill_reach _ (admits_claimed n)

/-- The breaker is open for its thirty seconds. -/
theorem stays_upright_claimed : Upright defaults opening (drill (claimed ++ [Store.idle 0])) ∧
    (drill (claimed ++ [Store.idle 0])).store.hash.cooldownS = some 30 :=
  ⟨stays_upright (by norm_num [defaults, breakerTtlS]) (claimed_reach 0), by decide⟩

-- so that instants are computed with
unseal Rat.add Rat.sub Rat.mul Rat.inv Rat.ofScientific

/-- Left alone for an hour an open breaker is gone, and closed with it; and the claim of its probe
renews no TTL. -/
theorem not_stays_upright :
    (¬ ∀ (cfg : Config) (provider model : String) (ops : Bool → Op) (clock : Seconds)
        (c : Pool Bool iface RedisError Unit Store), cfg.cooldownMaxS < breakerTtlS →
      Pool.Reach (fun _ => answering cfg) Passes (bench cfg provider model ops clock) c →
        ∀ s, Passes c.store s → c.store.hash.readState ≠ .closed → s.hash.readState ≠ .closed) ∧
    ¬ ∀ (cfg : Config) (provider model : String) (ops : Bool → Op) (clock : Seconds)
        (c : Pool Bool iface RedisError Unit Store), cfg.cooldownMaxS < breakerTtlS →
      Pool.Reach (fun _ => answering cfg) Passes (bench cfg provider model ops clock) c →
        ∀ i q κ a s, c.prog i = .ask q κ → answering cfg c.store q a s → s.hash ≠ c.store.hash →
          s.hash.readState ≠ .closed → s.deadline = some (s.clock + breakerTtlS) := by
  have hmax : defaults.cooldownMaxS < breakerTtlS := by norm_num [defaults, breakerTtlS]
  constructor
  · intro h
    have hdeadline : (drill (claimed ++ [Store.idle 3570])).store.deadline = some 3600 := by
      decide
    have hlapsed : (3600 : Seconds) ≤ (drill (claimed ++ [Store.idle 3570])).store.clock := by
      decide
    exact h defaults "groq" "llama" opening 0 _ hmax (claimed_reach 3570) _
      (.expires hdeadline hlapsed) (by decide) rfl
  · intro h
    have hnext : ((drill (claimed ++ [Store.idle 0])).prog false).question =
        some (.hsetnxHolder "req") := by decide
    obtain ⟨κ, hκ⟩ := Prog.exists_of_question hnext
    have hrenewed := h defaults "groq" "llama" opening 0 _ hmax (claimed_reach 0) false _ κ _ _ hκ
      ⟨rfl, rfl⟩ (by decide) (by decide)
    exact absurd hrenewed (by decide)

end Breaker

end LlmGateway
