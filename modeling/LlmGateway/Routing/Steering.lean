import LlmGateway.Routing.Standing

/-!
# Who steers a breaker

The visits of many users to one candidate, one behind the other. The breaker
answers all of them from one hash, and counts what a private key comes to as it
counts everything else; so what one user's key is answered decides whether the
next user's attempt is made.
-/

namespace LlmGateway

namespace ProviderError

/-- A failure of the credential: `AuthFailed` or `RateLimited`. -/
def ofCredential (e : ProviderError) : Bool :=
  match e.kind with
  | .authFailed | .rateLimited _ => true
  | _ => false

theorem breakerEligible_of_ofCredential {e : ProviderError} (h : e.ofCredential) :
    e.breakerEligible := by
  rcases e with ⟨kind, _, _, _, _⟩
  cases kind <;> simp_all [ofCredential, breakerEligible]

end ProviderError

namespace Breaker

open Effects

/-! ## Visits -/

/-- A visit of a turn to the candidate: it asks the breaker, and if it was allowed it makes its
attempt with what the credentials resolved to and reports what that came to. -/
structure Visit where
  user : String
  resolved : ResolvedKey
  requestId : String
  /-- How long after the visit before it asks, and how long its attempt takes. -/
  waits : Seconds
  lasts : Seconds
  /-- Redis answers when it asks, and when it reports. -/
  heard : Bool
  told : Bool
  outcome : Report
  waits_nonneg : 0 ≤ waits
  lasts_pos : 0 < lasts

/-- What a report runs. -/
def Report.record (cfg : Config) (d : BreakerDecision) : Report → Eff Unit
  | .nothing => return
  | .success => recordSuccess d
  | .failure error => recordFailure cfg d error

/-- Time goes by, and a hash whose TTL has run out is gone. -/
def Store.elapse (s : Store) (d : Seconds) : Store :=
  if s.deadline.any (· ≤ s.clock + d) then { clock := s.clock + d }
  else { s with clock := s.clock + d }

/-- Redis, answering every command of an operation at one instant. -/
def redis (cfg : Config) (s : Store) (q : iface.Ask) : iface.Ans q × Store :=
  (s.reply q, s.commit cfg q)

/-- What an operation comes to there, and what it leaves. -/
def instant {α : Type} (cfg : Config) (p : Eff α) (s : Store) : Except RedisError α × Store :=
  ((p.play (redis cfg) s).2, p.finish (redis cfg) s)

section

variable (cfg : Config) (provider model : String)

/-- The question of a visit: how it is decided, and what that leaves. -/
def Visit.ask (v : Visit) (s : Store) : BreakerDecision × Store :=
  let s := s.elapse v.waits
  if v.heard then
    let (decision, s') := instant cfg (allows cfg provider model v.requestId) s
    (decision.toOption.getD (failOpen provider model), s')
  else (failOpen provider model, s)

/-- The breaker when a visit comes to report. -/
def Visit.met (v : Visit) (s : Store) : Store := (v.ask cfg provider model s).2.elapse v.lasts

/-- What a visit leaves. -/
def Visit.leaves (v : Visit) (s : Store) : Store :=
  let d := (v.ask cfg provider model s).1
  if d.allowed && v.told then
    (instant cfg (v.outcome.record cfg d) (v.met cfg provider model s)).2
  else v.met cfg provider model s

/-- Whether each of the visits is allowed. -/
def allowances : Store → List Visit → List Bool
  | _, [] => []
  | s, v :: vs =>
    (v.ask cfg provider model s).1.allowed :: allowances (v.leaves cfg provider model s) vs

/-- What the visits leave. -/
def behind (s : Store) (vs : List Visit) : Store :=
  vs.foldl (fun s v => v.leaves cfg provider model s) s

end

/-- The visit, its attempt having failed with `e`. -/
def Visit.failing (v : Visit) (e : ProviderError) : Visit := { v with outcome := .failure e }

/-- **Not steered.** Whatever visits come behind it, replacing the outcome of the visit's attempt
by `e` changes the breaker's answer to no attempt that another user makes on the shared pool. -/
def Unsteered (cfg : Config) (provider model : String) (clock : Seconds) (before : List Visit)
    (v : Visit) (e : ProviderError) : Prop :=
  ∀ (after : List Visit) (n : ℕ) (w : Visit), after[n]? = some w → w.resolved.pool = .shared →
    w.user ≠ v.user → (allowances cfg provider model { clock } (before ++ v :: after))[before.length + (n + 1)]? =
      (allowances cfg provider model { clock }
        (before ++ v.failing e :: after))[before.length + (n + 1)]?

/-- What a failure that counts makes of a breaker: how long it opens for, if it opens it. -/
def sentence (cfg : Config) (d : BreakerDecision) (s : Store) (e : ProviderError) : Option Seconds :=
  if d.isProbe then some (nextCooldown cfg (readCooldown s.hash.cooldownS) (retryAfter e))
  else if isRateLimited e ∨ cfg.failureThreshold ≤ s.hash.readFailures + 1 then
    some (nextCooldown cfg none (retryAfter e))
  else none

/-- **Nothing to steer by.** The breaker's hash is not reached, or the attempt is not made, or it
had failed with an error that counts and weighs what `e` does. -/
def Idle (cfg : Config) (provider model : String) (s : Store) (v : Visit) (e : ProviderError) :
    Prop :=
  v.heard = false ∨ v.told = false ∨ (v.ask cfg provider model s).1.allowed = false ∨
    ∃ e₀, v.outcome = .failure e₀ ∧ e₀.breakerEligible ∧
      sentence cfg (v.ask cfg provider model s).1 (v.met cfg provider model s) e₀ =
        sentence cfg (v.ask cfg provider model s).1 (v.met cfg provider model s) e

/-! ## The operations at an instant -/

section

variable {cfg : Config} {provider model requestId : String} {s : Store}

/-- Whom the breaker holds off. -/
def Store.Bars (cfg : Config) (s : Store) : Prop :=
  s.hash.readState ≠ .closed ∧ s.clock - s.hash.readOpenedAt < s.hash.cooldown cfg

/-- The breaker with its probe claimed, or taken over. -/
def Store.claimed (s : Store) (requestId : String) : Store :=
  { s with
    hash := { s.hash with
      state := some .halfOpen, openedAt := some s.clock, probeHolder := some requestId }
    deadline := some (s.clock + breakerTtlS) }

/-- The breaker a failure has been counted against. -/
def Store.sentenced (s : Store) (d : BreakerDecision) : Option Seconds → Store
  | none =>
    { s with
      hash := { s.hash with failures := some (s.hash.readFailures + 1) }
      deadline := some (s.clock + breakerTtlS) }
  | some cooldown =>
    { s with
      hash :=
        { state := some .open, openedAt := some s.clock, cooldownS := some cooldown
          failures := some (if d.isProbe then d.failures else s.hash.readFailures + 1)
          probeHolder := if d.isProbe then none else s.hash.probeHolder }
      deadline := some (s.clock + breakerTtlS) }

/-- A `try` block, and what its handlers make of how it came out. -/
theorem instant_attempt {α β : Type} (p : Eff α) (f : Except RedisError α → Eff β) :
    instant cfg (p.attempt >>= f) s = instant cfg (f (instant cfg p s).1) (instant cfg p s).2 := by
  induction p generalizing s with
  | ret a => rfl
  | raise e => rfl
  | ask q k ih => exact ih _

/-- A block whose failures are swallowed leaves what it leaves. -/
theorem instant_swallowing (p : Eff Unit) :
    (instant cfg (swallowing p) s).2 = (instant cfg p s).2 := by
  unfold swallowing
  rw [instant_attempt]
  rfl

/-- A hash with a field is there. -/
theorem commit_expire {s : Store} (h : s.hash.state.isSome ∨ s.hash.failures.isSome) :
    s.commit cfg .expire = { s with deadline := some (s.clock + breakerTtlS) } := by
  have hne : s.hash ≠ {} := by
    intro heq
    rw [heq] at h
    simp at h
  exact if_neg hne

/-- A hash with a state outlives its probe. -/
theorem commit_hdelHolder {s : Store} (h : s.hash.state.isSome) :
    s.commit cfg .hdelHolder = { s with hash := { s.hash with probeHolder := none } } := by
  have hne : ({ s.hash with probeHolder := none } : Hash) ≠ {} := by
    intro heq
    have hstate := congrArg Hash.state heq
    simp only at hstate
    rw [hstate] at h
    cases h
  simp only [Store.commit, Store.exec, hne, if_false]

theorem instant_write (w : Write) {α : Type} (f : Unit → Eff α)
    (h : (s.hash.write cfg w).state.isSome ∨ (s.hash.write cfg w).failures.isSome) :
    instant cfg (write w >>= f) s = instant cfg (f ())
      { s with hash := s.hash.write cfg w, deadline := some (s.clock + breakerTtlS) } := by
  have hexpire := @commit_expire cfg (s.commit cfg (.hset w)) h
  change instant cfg (f ()) ((s.commit cfg (.hset w)).commit cfg .expire) = _
  rw [hexpire]
  rfl

/-- The probe, free or held past its lease, goes to who asks. -/
theorem instant_tryClaim {failures : Int} {cooldownS : Seconds}
    (hlate : ¬ s.clock - s.hash.readOpenedAt < cooldownS) :
    instant cfg (tryClaim provider model failures cooldownS requestId) s =
      (.ok { allowed := true, provider, model, state := .halfOpen, isProbe := true, failures },
        s.claimed requestId) := by
  change instant cfg (if s.hash.probeHolder.isNone then _ else _)
    (s.commit cfg (.hsetnxHolder requestId)) = _
  cases hholder : s.hash.probeHolder with
  | none =>
    have hcommit : s.commit cfg (.hsetnxHolder requestId) =
        { s with hash := { s.hash with probeHolder := some requestId } } := by
      simp [Store.commit, Store.exec, hholder]
    rw [hcommit]
    change instant cfg (write (.lease s.clock) >>= fun _ => return _) _ = _
    rw [instant_write _ _ (.inl rfl)]
    rfl
  | some holder =>
    have hcommit : s.commit cfg (.hsetnxHolder requestId) = s := by
      simp [Store.commit, Store.exec, hholder]
    rw [hcommit]
    change instant cfg (if s.clock - s.hash.readOpenedAt < cooldownS then _ else _) s = _
    rw [if_neg hlate]
    change instant cfg (write (.steal s.clock requestId) >>= fun _ => return _) s = _
    rw [instant_write _ _ (.inl rfl)]
    rfl

/-- **How a visit is answered**: a closed breaker lets it through, an open one holds it off for its
cooldown, and behind it the visit has the probe. -/
theorem instant_allows : instant cfg (allows cfg provider model requestId) s =
    if s.hash.readState = .closed then
      (.ok { allowed := true, provider, model, state := .closed, failures := s.hash.readFailures },
        s)
    else if s.clock - s.hash.readOpenedAt < s.hash.cooldown cfg then
      (.ok { allowed := false, provider, model, state := s.hash.readState
             failures := s.hash.readFailures
             retryAfterS := some (s.hash.cooldown cfg - (s.clock - s.hash.readOpenedAt)) }, s)
    else
      (.ok { allowed := true, provider, model, state := .halfOpen, isProbe := true
             failures := s.hash.readFailures }, s.claimed requestId) := by
  change instant cfg (if s.hash.readState = .closed then _ else _) s = _
  split
  · rfl
  · change instant cfg (if s.clock - s.hash.readOpenedAt < s.hash.cooldown cfg then _ else _) s = _
    split
    · rfl
    next hlate =>
      rw [claimProbe, instant_attempt, instant_tryClaim hlate]
      rfl

/-- **What a failure that counts leaves.** -/
theorem instant_recordFailure {d : BreakerDecision} {e : ProviderError} (hd : d.degraded = false)
    (he : e.breakerEligible) :
    (instant cfg (recordFailure cfg d e) s).2 = s.sentenced d (sentence cfg d s e) := by
  simp only [recordFailure, hd, he, Bool.not_true, Bool.or_false, Bool.false_eq_true, if_false,
    instant_swallowing, sentence]
  by_cases hp : d.isProbe = true
  · simp only [hp, if_true]
    change (instant cfg (write (.opening s.clock d.failures (readCooldown s.hash.cooldownS)
      (retryAfter e)) >>= fun _ => hdelHolder) s).2 = _
    rw [instant_write _ _ (.inl rfl)]
    change Store.commit cfg _ .hdelHolder = _
    rw [commit_hdelHolder rfl]
    simp [Store.sentenced, hp, Hash.write]
  · rw [if_neg hp, if_neg hp]
    change (instant cfg (if isRateLimited e = true ∨ cfg.failureThreshold ≤ s.hash.readFailures + 1
      then openBreaker (s.hash.readFailures + 1) none (retryAfter e) else return)
        ((s.commit cfg .hincrbyFailures).commit cfg .expire)).2 = _
    rw [commit_expire (.inr rfl)]
    split
    · change (instant cfg (write (.opening s.clock (s.hash.readFailures + 1) none (retryAfter e)) >>=
        fun _ => return) _).2 = _
      rw [instant_write _ _ (.inl rfl)]
      simp only [Store.sentenced, hp, Bool.false_eq_true, if_false]
      rfl
    · rfl

/-- What a success leaves. -/
theorem instant_recordSuccess {d : BreakerDecision} (hd : d.degraded = false) :
    (instant cfg (recordSuccess d) s).2 =
      if d.isProbe then
        { s with
          hash := { s.hash.write cfg .close with probeHolder := none }
          deadline := some (s.clock + breakerTtlS) }
      else if d.failures ≠ 0 then
        { s with hash := s.hash.write cfg .wipe, deadline := some (s.clock + breakerTtlS) }
      else s := by
  simp only [recordSuccess, hd, Bool.false_eq_true, if_false, instant_swallowing]
  split
  · rw [instant_write _ _ (.inl rfl)]
    exact @commit_hdelHolder cfg _ rfl
  · split
    · exact congrArg Prod.snd (instant_write .wipe (fun _ => return) (.inr rfl))
    · rfl

end

/-! ## What the visits keep -/

section

variable {cfg : Config} {provider model : String} {s : Store} {v : Visit}

/-- What is true of a breaker behind any visits. -/
structure Store.Kept (cfg : Config) (s : Store) : Prop where
  standing : s.Standing cfg
  failures : 0 ≤ s.hash.readFailures

theorem Store.Kept.elapse (h : s.Kept cfg) {d : Seconds} (hd : 0 ≤ d) : (s.elapse d).Kept cfg := by
  unfold Store.elapse
  split
  · exact ⟨standing_empty cfg rfl, le_refl 0⟩
  · refine ⟨h.standing.passes (.tick ?_), h.failures⟩
    linarith

/-- An operation that settles whatever the others do settles at an instant. -/
theorem Settled.instant {closes : Prop} {t : Seconds} {α : Type} {p : Eff α}
    (hp : Settled cfg closes t p) (hs : s.Standing cfg) (ht : t ≤ s.clock) :
    (Breaker.instant cfg p s).2.Standing cfg := by
  have hend := (hp s hs ht).finish (E := redis cfg) fun s q => ⟨rfl, rfl⟩
  exact hend.1

/-- How a visit that is heard is answered. -/
theorem Visit.ask_of_heard (hv : v.heard = true) : v.ask cfg provider model s =
    ((instant cfg (allows cfg provider model v.requestId) (s.elapse v.waits)).1.toOption.getD
      (failOpen provider model),
      (instant cfg (allows cfg provider model v.requestId) (s.elapse v.waits)).2) := by
  simp only [Visit.ask, hv, if_true]

theorem Visit.ask_of_unheard (hv : v.heard = false) : v.ask cfg provider model s =
    (failOpen provider model, s.elapse v.waits) := by
  simp only [Visit.ask, hv, Bool.false_eq_true, if_false]

/-- What a visit knows of the breaker that let it through. -/
structure Visit.Admitted (v : Visit) (cfg : Config) (provider model : String) (s : Store) : Prop where
  degraded : (v.ask cfg provider model s).1.degraded = false
  failures : (v.ask cfg provider model s).1.failures = (s.elapse v.waits).hash.readFailures
  /-- Closed, it is left as it is; and otherwise its probe is claimed. -/
  left : (v.ask cfg provider model s).1.isProbe = false ∧
      (s.elapse v.waits).hash.readState = .closed ∧
      (v.ask cfg provider model s).2 = s.elapse v.waits ∨
    (v.ask cfg provider model s).1.isProbe = true ∧
      (v.ask cfg provider model s).2 = (s.elapse v.waits).claimed v.requestId

/-- **Who is let through**: whoever the breaker does not hold off. -/
theorem Visit.ask_heard (hv : v.heard = true) :
    ((v.ask cfg provider model s).1.allowed = true ↔ ¬ (s.elapse v.waits).Bars cfg) ∧
      ((v.ask cfg provider model s).1.allowed = true → v.Admitted cfg provider model s) ∧
      ((v.ask cfg provider model s).2 = s.elapse v.waits ∨
        (v.ask cfg provider model s).2 = (s.elapse v.waits).claimed v.requestId) := by
  have hask : v.ask cfg provider model s = _ := v.ask_of_heard hv
  rw [instant_allows] at hask
  by_cases hclosed : (s.elapse v.waits).hash.readState = .closed
  · rw [if_pos hclosed] at hask
    rw [hask]
    refine ⟨⟨fun _ hbars => hbars.1 hclosed, fun _ => rfl⟩, fun _ => ?_, .inl rfl⟩
    constructor <;> rw [hask]
    · rfl
    · rfl
    · exact .inl ⟨rfl, hclosed, rfl⟩
  rw [if_neg hclosed] at hask
  by_cases hearly : (s.elapse v.waits).clock - (s.elapse v.waits).hash.readOpenedAt <
      (s.elapse v.waits).hash.cooldown cfg
  · rw [if_pos hearly] at hask
    rw [hask]
    refine ⟨⟨fun h => ?_, fun hbars => absurd ⟨hclosed, hearly⟩ hbars⟩, fun h => ?_, .inl rfl⟩
    · cases h
    · cases h
  · rw [if_neg hearly] at hask
    rw [hask]
    refine ⟨⟨fun _ hbars => hearly hbars.2, fun _ => rfl⟩, fun _ => ?_, .inr rfl⟩
    constructor <;> rw [hask]
    · rfl
    · rfl
    · exact .inr ⟨rfl, rfl⟩

theorem Visit.kept_ask (h : s.Kept cfg) : (v.ask cfg provider model s).2.Kept cfg := by
  have hwaited := h.elapse v.waits_nonneg
  cases hv : v.heard with
  | false =>
    rw [v.ask_of_unheard hv]
    exact hwaited
  | true =>
    have hstanding : (v.ask cfg provider model s).2.Standing cfg := by
      have hsettled : Settled cfg True (s.elapse v.waits).clock
          (allows cfg provider model v.requestId) := settled_allows provider model v.requestId
      rw [v.ask_of_heard hv]
      exact hsettled.instant hwaited.standing (le_refl _)
    refine ⟨hstanding, ?_⟩
    obtain ⟨-, -, hsame | hclaimed⟩ := v.ask_heard (s := s) hv
    · rw [hsame]
      exact hwaited.failures
    · rw [hclaimed]
      exact hwaited.failures

theorem Visit.kept_met (h : s.Kept cfg) : (v.met cfg provider model s).Kept cfg :=
  (v.kept_ask h).elapse v.lasts_pos.le

/-- A record that is not of a failure that counts: it leaves the breaker, or closes it, or wipes
its streak. -/
theorem instant_record {d : BreakerDecision} (hdegraded : d.degraded = false) {report : Report}
    (hreport : ∀ e, report = .failure e → e.breakerEligible = false) :
    (instant cfg (report.record cfg d) s).2 = s ∨
      d.isProbe = true ∧ report = .success ∧
        (instant cfg (report.record cfg d) s).2.hash.readState = .closed ∧
        (instant cfg (report.record cfg d) s).2.hash.readFailures = 0 ∨
      d.isProbe = false ∧
        (instant cfg (report.record cfg d) s).2.hash.readState = s.hash.readState ∧
        (instant cfg (report.record cfg d) s).2.hash.readFailures = 0 := by
  cases report with
  | nothing => exact .inl rfl
  | failure e =>
    have he := hreport e rfl
    refine .inl ?_
    simp only [Report.record, recordFailure, he, Bool.not_false, Bool.or_true, if_true]
    rfl
  | success =>
    rw [Report.record, instant_recordSuccess hdegraded]
    cases hp : d.isProbe with
    | true => exact .inr (.inl ⟨rfl, rfl, rfl, rfl⟩)
    | false =>
      by_cases hf : d.failures ≠ 0
      · rw [if_neg Bool.false_ne_true, if_pos hf]
        exact .inr (.inr ⟨rfl, rfl, rfl⟩)
      · rw [if_neg Bool.false_ne_true, if_neg hf]
        exact .inl rfl

/-- What Redis did not decide it is not told of. -/
theorem instant_record_degraded {d : BreakerDecision} (hdegraded : d.degraded = true)
    (report : Report) : instant cfg (report.record cfg d) s = (.ok (), s) := by
  cases report with
  | nothing => rfl
  | success =>
    simp only [Report.record, recordSuccess, hdegraded, if_true]
    rfl
  | failure e =>
    simp only [Report.record, recordFailure, hdegraded, Bool.true_or, if_true]
    rfl

theorem Store.Kept.record (h : s.Kept cfg) {d : BreakerDecision} (hd : 0 ≤ d.failures)
    (report : Report) : (instant cfg (report.record cfg d) s).2.Kept cfg := by
  have hsettled : Settled cfg True s.clock (report.record cfg d) := by
    cases report with
    | nothing => exact settled_pure _
    | success => exact settled_recordSuccess fun _ => trivial
    | failure e => exact settled_recordFailure d e
  refine ⟨hsettled.instant h.standing (le_refl _), ?_⟩
  cases hdegraded : d.degraded with
  | true =>
    rw [instant_record_degraded hdegraded]
    exact h.failures
  | false =>
    by_cases hcounts : ∃ e, report = .failure e ∧ e.breakerEligible
    · obtain ⟨e, rfl, he⟩ := hcounts
      have hcount := h.failures
      rw [Report.record, instant_recordFailure hdegraded he]
      cases sentence cfg d s e with
      | none =>
        change 0 ≤ s.hash.readFailures + 1
        omega
      | some cooldown =>
        change 0 ≤ if d.isProbe then d.failures else s.hash.readFailures + 1
        split
        · exact hd
        · omega
    · have hother : ∀ e, report = .failure e → e.breakerEligible = false := fun e he =>
        Bool.eq_false_iff.mpr fun heligible => hcounts ⟨e, he, heligible⟩
      rcases @instant_record cfg s d hdegraded report hother with
        hsame | ⟨-, -, -, hzero⟩ | ⟨-, -, hzero⟩
      · rw [hsame]
        exact h.failures
      · exact hzero.ge
      · exact hzero.ge

theorem Visit.kept_leaves (h : s.Kept cfg) : (v.leaves cfg provider model s).Kept cfg := by
  have hmet := @Visit.kept_met cfg provider model s v h
  unfold Visit.leaves
  dsimp only
  split
  next hreports =>
    have hallowed := (Bool.and_eq_true_iff.mp hreports).1
    refine hmet.record ?_ v.outcome
    cases hv : v.heard with
    | false =>
      rw [v.ask_of_unheard hv]
      exact le_refl 0
    | true =>
      rw [((v.ask_heard hv).2.1 hallowed).failures]
      exact (h.elapse v.waits_nonneg).failures
  next => exact hmet

theorem kept_behind (h : s.Kept cfg) (vs : List Visit) :
    (behind cfg provider model s vs).Kept cfg := by
  induction vs generalizing s with
  | nil => exact h
  | cons v vs ih => exact ih (v.kept_leaves h)

end

/-! ## Breakers that answer alike -/

/-- From here on the two breakers give every attempt that another user makes on the shared pool the
same answer. -/
def Alike (cfg : Config) (provider model user : String) (s s' : Store) : Prop :=
  ∀ (after : List Visit) (n : ℕ) (w : Visit), after[n]? = some w → w.resolved.pool = .shared →
    w.user ≠ user → (allowances cfg provider model s after)[n]? = (allowances cfg provider model s' after)[n]?

/-- A visit of another user, on the shared pool. -/
def guest (user : String) (waits lasts : Seconds) (hwaits : 0 ≤ waits) (hlasts : 0 < lasts)
    (outcome : Report) : Visit where
  user := user ++ "'"
  resolved := { provider := "", key := "", pool := .shared, scope := "system" }
  requestId := "guest"
  waits := waits
  lasts := lasts
  heard := true
  told := true
  outcome := outcome
  waits_nonneg := hwaits
  lasts_pos := hlasts

section

variable {cfg : Config} {provider model user : String} {s s' : Store}

theorem guest_ne (user : String) : user ++ "'" ≠ user := by
  intro h
  have hlength := congrArg String.length h
  rw [String.length_append] at hlength
  have hone : "'".length = 1 := rfl
  omega

theorem Alike.refl (s : Store) : Alike cfg provider model user s s := fun _ _ _ _ _ _ => rfl

/-- What comes behind a visit of both. -/
theorem Alike.step (h : Alike cfg provider model user s s') (v : Visit) :
    Alike cfg provider model user (v.leaves cfg provider model s) (v.leaves cfg provider model s') :=
  fun after n w hw hpool huser => h (v :: after) (n + 1) w hw hpool huser

/-- At every later instant both hold a guest off, or neither does. -/
theorem Alike.bars (h : Alike cfg provider model user s s') {d : Seconds} (hd : 0 ≤ d) :
    (s.elapse d).Bars cfg ↔ (s'.elapse d).Bars cfg := by
  have hsame := h [guest user d 1 hd one_pos .nothing] 0 _ rfl rfl (guest_ne user)
  have hallowed : ((guest user d 1 hd one_pos .nothing).ask cfg provider model s).1.allowed =
      ((guest user d 1 hd one_pos .nothing).ask cfg provider model s').1.allowed :=
    Option.some.inj hsame
  have hleft := (@Visit.ask_heard cfg provider model s (guest user d 1 hd one_pos .nothing) rfl).1
  have hright := (@Visit.ask_heard cfg provider model s' (guest user d 1 hd one_pos .nothing) rfl).1
  rw [hallowed] at hleft
  exact not_iff_not.mp (hleft.symm.trans hright)

/-- Open or half-open, and holding off whoever comes before `u`. -/
structure Store.Until (cfg : Config) (s : Store) (u : Seconds) : Prop where
  state : s.hash.readState ≠ .closed
  ends : s.hash.readOpenedAt + s.hash.cooldown cfg = u
  lasts : ∀ t ∈ s.deadline, u < t

theorem Store.elapse_of_live {d : Seconds} (h : ∀ t ∈ s.deadline, s.clock + d < t) :
    s.elapse d = { s with clock := s.clock + d } := by
  refine if_neg ?_
  cases hdeadline : s.deadline with
  | none => exact Bool.false_ne_true
  | some t =>
    have hlive := h t hdeadline
    simpa using hlive

theorem Store.elapse_of_gone {d t : Seconds} (h : s.deadline = some t) (ht : t ≤ s.clock + d) :
    s.elapse d = { clock := s.clock + d } := by
  refine if_pos ?_
  rw [h]
  simpa using ht

@[simp] theorem Store.elapse_clock (d : Seconds) : (s.elapse d).clock = s.clock + d := by
  unfold Store.elapse
  split <;> rfl

theorem Store.elapse_closed (h : s.hash.readState = .closed) (d : Seconds) :
    (s.elapse d).hash.readState = .closed := by
  unfold Store.elapse
  split
  · rfl
  · exact h

/-- A breaker that is closed holds nobody off. -/
theorem Store.not_bars_closed (h : s.hash.readState = .closed) (d : Seconds) :
    ¬ (s.elapse d).Bars cfg :=
  fun hbars => hbars.1 (s.elapse_closed h d)

/-- **When a breaker holds off**: up to the end of its cooldown, expired or not behind it. -/
theorem Store.Until.bars {u d : Seconds} (h : s.Until cfg u) :
    (s.elapse d).Bars cfg ↔ s.clock + d < u := by
  by_cases hlive : ∀ t ∈ s.deadline, s.clock + d < t
  · rw [Store.elapse_of_live hlive]
    have hover := h.ends
    constructor
    · rintro ⟨-, hearly⟩
      change s.clock + d - s.hash.readOpenedAt < s.hash.cooldown cfg at hearly
      linarith
    · intro hlt
      refine ⟨h.state, ?_⟩
      change s.clock + d - s.hash.readOpenedAt < s.hash.cooldown cfg
      linarith
  · push Not at hlive
    obtain ⟨t, ht, hle⟩ := hlive
    have hlasts := h.lasts t ht
    rw [Store.elapse_of_gone ht hle]
    constructor
    · rintro ⟨hopen, -⟩
      exact absurd rfl hopen
    · intro hlt
      linarith

/-- A closed breaker is not like one that holds off now. -/
theorem Alike.not_until (h : Alike cfg provider model user s s') (hclosed : s.hash.readState = .closed)
    {u : Seconds} (hu : s'.Until cfg u) (hlt : s'.clock < u) : False := by
  have hbars := (h.bars (le_refl 0)).mpr (hu.bars.mpr (by linarith))
  exact Store.not_bars_closed hclosed 0 hbars

theorem Alike.symm (h : Alike cfg provider model user s s') : Alike cfg provider model user s' s :=
  fun after n w hw hpool huser => (h after n w hw hpool huser).symm

/-- Breakers that hold off alike do so up to one instant. -/
theorem Alike.until_eq (h : Alike cfg provider model user s s') (hclock : s.clock = s'.clock)
    {u u' : Seconds} (hu : s.Until cfg u) (hu' : s'.Until cfg u') (hlt : s.clock < u)
    (hlt' : s'.clock < u') : u = u' := by
  have hsame : ∀ d, 0 ≤ d → (s.clock + d < u ↔ s.clock + d < u') := fun d hd => by
    rw [← hu.bars, h.bars hd, hu'.bars, hclock]
  rcases lt_trichotomy u u' with hless | heq | hmore
  · have hends := (hsame (u - s.clock) (by linarith)).mpr (by linarith)
    linarith
  · exact heq
  · have hends := (hsame (u' - s.clock) (by linarith)).mp (by linarith)
    linarith

/-! ## What tells two breakers apart -/

/-- The cooldown of an opening. -/
theorem Store.cooldown_sentenced (d : BreakerDecision) {cooldown : Seconds} (hpos : 0 < cooldown) :
    (s.sentenced d (some cooldown)).hash.cooldown cfg = cooldown := by
  have hread : readCooldown (some cooldown) = some cooldown := by
    simp [readCooldown, hpos.ne']
  change (readCooldown (some cooldown)).getD cfg.cooldownInitialS = cooldown
  rw [hread]
  rfl

/-- An opening holds off for its cooldown. -/
theorem Store.until_sentenced (d : BreakerDecision) {cooldown : Seconds} (hpos : 0 < cooldown)
    (hlt : cooldown < breakerTtlS) :
    (s.sentenced d (some cooldown)).Until cfg (s.clock + cooldown) := by
  have hopen : (s.sentenced d (some cooldown)).hash.readState = .open := rfl
  refine ⟨by simp [hopen], ?_, ?_⟩
  · rw [Store.cooldown_sentenced d hpos]
    rfl
  · intro t ht
    obtain rfl := Option.some.inj ht
    linarith

/-- A sentence is a rung of the ladder. -/
theorem rung_sentence (h : s.Standing cfg) {d : BreakerDecision} {e : ProviderError}
    {cooldown : Seconds} (hsentence : sentence cfg d s e = some cooldown) : cfg.Rung cooldown := by
  unfold sentence at hsentence
  split at hsentence
  · obtain rfl := Option.some.inj hsentence
    exact rung_nextCooldown (fun p hp => h.rung p (Option.filter_eq_some_iff.mp hp).1) _
  · split at hsentence
    · obtain rfl := Option.some.inj hsentence
      exact rung_nextCooldown (fun p hp => absurd hp (Option.not_mem_none p)) _
    · cases hsentence

/-- A probe's failure opens the breaker. -/
theorem sentence_of_probe {d : BreakerDecision} {e : ProviderError} (hprobe : d.isProbe = true) :
    ∃ cooldown, sentence cfg d s e = some cooldown := by
  unfold sentence
  rw [if_pos hprobe]
  exact ⟨_, rfl⟩

/-- Such an opening holds off from now on. -/
theorem Store.until_sentence (hmax : cfg.cooldownMaxS < breakerTtlS) (h : s.Standing cfg)
    {d : BreakerDecision} {e : ProviderError} {cooldown : Seconds}
    (hsentence : sentence cfg d s e = some cooldown) :
    (s.sentenced d (some cooldown)).Until cfg (s.clock + cooldown) ∧ 0 < cooldown := by
  obtain ⟨hlow, hhigh⟩ := rung_sentence h hsentence
  have hpos : 0 < cooldown := cfg.initial_pos.trans_le hlow
  exact ⟨Store.until_sentenced d hpos (hhigh.trans_lt hmax), hpos⟩

theorem Visit.leaves_of_told {v : Visit} (hallowed : (v.ask cfg provider model s).1.allowed = true)
    (htold : v.told = true) : v.leaves cfg provider model s =
      (instant cfg (v.outcome.record cfg (v.ask cfg provider model s).1)
        (v.met cfg provider model s)).2 := by
  simp only [Visit.leaves, hallowed, htold, Bool.and_self, if_true]

/-- A closed breaker lets a visit through, and is met as it is. -/
theorem Visit.ask_closed {v : Visit} (hv : v.heard = true) (h : s.hash.readState = .closed) :
    (v.ask cfg provider model s).1.allowed = true ∧ (v.ask cfg provider model s).1.isProbe = false ∧
      v.met cfg provider model s = (s.elapse v.waits).elapse v.lasts := by
  have hask : v.ask cfg provider model s = _ := v.ask_of_heard hv
  rw [instant_allows, if_pos (s.elapse_closed h v.waits)] at hask
  refine ⟨?_, ?_, ?_⟩
  · rw [hask]
    rfl
  · rw [hask]
    rfl
  · unfold Visit.met
    rw [hask]

/-- The failure of a credential. -/
def authFailed : ProviderError where
  kind := .authFailed
  message := "401"
  provider := ""
  model := ""

/-- A guest whose attempt fails at once. -/
def knock (user : String) : Visit := guest user 0 1 (le_refl 0) one_pos (.failure authFailed)

/-- What such a guest leaves of a closed breaker. -/
theorem leaves_knock (h : s.hash.readState = .closed) : ∃ d : BreakerDecision,
    (knock user).leaves cfg provider model s =
      ((s.elapse 0).elapse 1).sentenced d
        (if cfg.failureThreshold ≤ ((s.elapse 0).elapse 1).hash.readFailures + 1 then
          some cfg.cooldownInitialS else none) := by
  have hheard : (knock user).heard = true := rfl
  obtain ⟨hallowed, hprobe, hmet⟩ := @Visit.ask_closed cfg provider model s (knock user) hheard h
  have hadmitted := (Visit.ask_heard hheard).2.1 hallowed
  refine ⟨((knock user).ask cfg provider model s).1, ?_⟩
  rw [Visit.leaves_of_told hallowed rfl, hmet]
  refine (instant_recordFailure hadmitted.degraded rfl).trans ?_
  have hsentence : ∀ s' : Store, sentence cfg ((knock user).ask cfg provider model s).1 s' authFailed =
      if cfg.failureThreshold ≤ s'.hash.readFailures + 1 then some cfg.cooldownInitialS
      else none := by
    intro s'
    simp only [sentence, hprobe, Bool.false_eq_true, if_false, isRateLimited, authFailed, false_or]
    rfl
  rw [hsentence]
  rfl

/-- Time takes nothing but the count of a streak. -/
theorem Store.Kept.elapse_failures_le (h : s.Kept cfg) (d : Seconds) :
    (s.elapse d).hash.readFailures ≤ s.hash.readFailures := by
  unfold Store.elapse
  split
  · exact h.failures
  · exact le_refl _

/-- **Closed breakers with different streaks are not alike**: enough failures open the one first. -/
theorem not_alike_counts (hmax : cfg.cooldownMaxS < breakerTtlS) (hkept : s.Kept cfg)
    (h : Alike cfg provider model user s s') (hclosed : s.hash.readState = .closed)
    (hclosed' : s'.hash.readState = .closed) (hlt : s.hash.readFailures < s'.hash.readFailures)
    (hbelow : s'.hash.readFailures < cfg.failureThreshold)
    (hlive : ∀ t ∈ s'.deadline, s'.clock + 1 < t) : False := by
  -- By what the longer streak is short of the threshold: each knock adds one to both.
  induction hn : (cfg.failureThreshold - s'.hash.readFailures).toNat generalizing s s' with
  | zero => omega
  | succ n ih =>
    have hstep := h.step (knock user)
    have hkept' := @Visit.kept_leaves cfg provider model s (knock user) hkept
    obtain ⟨d, hleft⟩ := @leaves_knock cfg provider model user s hclosed
    obtain ⟨d', hleft'⟩ := @leaves_knock cfg provider model user s' hclosed'
    have hcount : ((s.elapse 0).elapse 1).hash.readFailures ≤ s.hash.readFailures :=
      ((hkept.elapse (le_refl 0)).elapse_failures_le 1).trans (hkept.elapse_failures_le 0)
    have hlater : (s'.elapse 0).elapse 1 = { s' with clock := s'.clock + 1 } := by
      have hnow : s'.elapse 0 = { s' with clock := s'.clock + 0 } :=
        Store.elapse_of_live fun t ht => by linarith [hlive t ht]
      rw [hnow, add_zero]
      exact Store.elapse_of_live hlive
    have hnone : ¬ cfg.failureThreshold ≤ ((s.elapse 0).elapse 1).hash.readFailures + 1 := by omega
    rw [if_neg hnone] at hleft
    rw [hlater] at hleft'
    rw [hleft, hleft'] at hstep
    rw [hleft] at hkept'
    have hstill : (((s.elapse 0).elapse 1).sentenced d none).hash.readState = .closed :=
      (s.elapse 0).elapse_closed (s.elapse_closed hclosed 0) 1
    by_cases hthreshold : cfg.failureThreshold ≤ s'.hash.readFailures + 1
    · -- The one behind the longer streak opens, and the other is still closed.
      rw [if_pos hthreshold] at hstep
      have hinitial := cfg.initial_pos
      have hlow : cfg.cooldownInitialS < breakerTtlS := cfg.initial_le_max.trans_lt hmax
      refine hstep.not_until hstill (Store.until_sentenced d' hinitial hlow) ?_
      exact lt_add_of_pos_right _ hinitial
    · rw [if_neg hthreshold] at hstep
      refine ih hkept' hstep hstill hclosed' ?_ ?_ ?_ ?_
      · change ((s.elapse 0).elapse 1).hash.readFailures + 1 < s'.hash.readFailures + 1
        omega
      · change s'.hash.readFailures + 1 < cfg.failureThreshold
        omega
      · intro t ht
        obtain rfl := Option.some.inj ht
        have hone : (1 : Seconds) < breakerTtlS := by norm_num [breakerTtlS]
        exact add_lt_add_right hone _
      · change (cfg.failureThreshold - (s'.hash.readFailures + 1)).toNat = n
        omega

/-- A probe that is out, or was given up, holds off for one cooldown from its claim. -/
theorem Store.until_claimed (requestId : String) (hkept : s.Kept cfg)
    (hmax : cfg.cooldownMaxS < breakerTtlS) {d : Seconds} (hd : d < breakerTtlS) :
    ((s.claimed requestId).elapse d).Until cfg (s.clock + s.hash.cooldown cfg) ∧
      ((s.claimed requestId).elapse d).hash.cooldown cfg = s.hash.cooldown cfg := by
  have hrung : cfg.Rung (s.hash.cooldown cfg) := by
    unfold Hash.cooldown
    cases hread : readCooldown s.hash.cooldownS with
    | none => exact rung_initial cfg
    | some cooldown => exact hkept.standing.rung cooldown (Option.filter_eq_some_iff.mp hread).1
  have hlive : ∀ t ∈ (s.claimed requestId).deadline, (s.claimed requestId).clock + d < t := by
    intro t ht
    obtain rfl := Option.some.inj ht
    exact add_lt_add_right hd _
  rw [Store.elapse_of_live hlive]
  refine ⟨⟨?_, rfl, ?_⟩, rfl⟩
  · have hhalf : (s.claimed requestId).hash.readState = .halfOpen := rfl
    change (s.claimed requestId).hash.readState ≠ .closed
    simp [hhalf]
  · intro t ht
    obtain rfl := Option.some.inj ht
    exact add_lt_add_right (hrung.2.trans_lt hmax) _

/-- What a guest who comes when the breaker no longer holds off, and never reports, leaves: the
probe is his, for one cooldown more. -/
theorem leaves_guest (hkept : s.Kept cfg) (hmax : cfg.cooldownMaxS < breakerTtlS) {u d : Seconds}
    (hu : s.Until cfg u) (hd : 0 ≤ d) (hover : s.clock + d = u) {lasts : Seconds}
    (hlasts : 0 < lasts) (hlt : lasts < breakerTtlS) :
    ((guest user d lasts hd hlasts .nothing).leaves cfg provider model s).Until cfg
        (u + s.hash.cooldown cfg) ∧
      ((guest user d lasts hd hlasts .nothing).leaves cfg provider model s).clock = u + lasts := by
  have hheard : (guest user d lasts hd hlasts .nothing).heard = true := rfl
  have hwaited : s.elapse d = { s with clock := s.clock + d } :=
    Store.elapse_of_live fun t ht => hover ▸ hu.lasts t ht
  have hnot : ¬ (s.elapse d).Bars cfg := fun hbars => by linarith [hu.bars.mp hbars]
  obtain ⟨hallows, hadmits, -⟩ := @Visit.ask_heard cfg provider model s _ hheard
  have hallowed := hallows.mpr hnot
  rcases (hadmits hallowed).left with ⟨-, hclosed, -⟩ | ⟨-, hclaimed⟩
  · change (s.elapse d).hash.readState = .closed at hclosed
    rw [hwaited] at hclosed
    exact absurd hclosed hu.state
  · have hleaves : (guest user d lasts hd hlasts .nothing).leaves cfg provider model s =
        (((s.elapse d).claimed "guest").elapse lasts) := by
      rw [Visit.leaves_of_told hallowed rfl, Visit.met, hclaimed]
      rfl
    have huntil := (Store.until_claimed "guest" (hkept.elapse hd) hmax hlt).1
    rw [hleaves]
    rw [hwaited] at huntil ⊢
    refine ⟨hover ▸ huntil, ?_⟩
    rw [Store.elapse_clock]
    exact congrArg (· + lasts) hover

/-- **A probe that is given up and one that failed are not alike.** Where they hold off up to the
same instant, the next probe's lease tells the one cooldown from the other. -/
theorem not_alike_probe (hmax : cfg.cooldownMaxS < breakerTtlS) (hkept : s.Kept cfg)
    {requestId : String} {lasts : Seconds} (hlasts : 0 < lasts)
    (hmet : ((s.claimed requestId).elapse lasts).Kept cfg) {d : BreakerDecision} {e : ProviderError}
    (hsentenced : (((s.claimed requestId).elapse lasts).sentenced d
      (sentence cfg d ((s.claimed requestId).elapse lasts) e)).Kept cfg) (hprobe : d.isProbe = true)
    (h : Alike cfg provider model user ((s.claimed requestId).elapse lasts)
      (((s.claimed requestId).elapse lasts).sentenced d
        (sentence cfg d ((s.claimed requestId).elapse lasts) e))) : False := by
  obtain ⟨cooldown, hsentence⟩ := @sentence_of_probe cfg ((s.claimed requestId).elapse lasts) d e hprobe
  have hclock : ((s.claimed requestId).elapse lasts).clock = s.clock + lasts :=
    Store.elapse_clock lasts
  obtain ⟨huntil, hpos⟩ := Store.until_sentence hmax hmet.standing hsentence
  rw [hsentence] at h hsentenced
  have hholds : ((s.claimed requestId).elapse lasts).clock <
      ((s.claimed requestId).elapse lasts).clock + cooldown := lt_add_of_pos_right _ hpos
  by_cases hlt : lasts < breakerTtlS
  · obtain ⟨hgiven, hlease⟩ := Store.until_claimed requestId hkept hmax hlt
    by_cases hearly : s.clock + lasts < s.clock + s.hash.cooldown cfg
    · have hsame := h.until_eq rfl hgiven huntil (hclock ▸ hearly) hholds
      have hwaits : 0 ≤ cooldown := hpos.le
      have hhalf : 0 < cooldown / 2 := by linarith
      have hshort : cooldown / 2 < breakerTtlS := by
        have hhigh := (rung_sentence hmet.standing hsentence).2
        linarith
      -- Whoever comes at that instant has the probe of either, for the cooldown of each.
      have hstep := h.step (guest user cooldown (cooldown / 2) hwaits hhalf .nothing)
      obtain ⟨hleft, hat⟩ := @leaves_guest cfg provider model user _ hmet hmax _ _ hgiven hwaits
        hsame.symm _ hhalf hshort
      obtain ⟨hright, hat'⟩ := @leaves_guest cfg provider model user _ hsentenced hmax _ _ huntil
        hwaits rfl _ hhalf hshort
      rw [hlease] at hleft
      rw [Store.cooldown_sentenced d hpos, ← hsame] at hright
      rw [← hsame] at hat'
      have hless : cooldown < s.hash.cooldown cfg := by linarith
      have hends := hstep.until_eq (hat.trans hat'.symm) hleft hright (by linarith) (by linarith)
      linarith
    · have hbars := (h.bars (le_refl 0)).mpr (huntil.bars.mpr ((add_zero _).trans_lt hholds))
      have hless := hgiven.bars.mp hbars
      linarith
  · have hgone : (s.claimed requestId).elapse lasts = { clock := s.clock + lasts } := by
      refine Store.elapse_of_gone (t := s.clock + breakerTtlS) rfl ?_
      change s.clock + breakerTtlS ≤ s.clock + lasts
      linarith
    have hclosed : ((s.claimed requestId).elapse lasts).hash.readState = .closed := by
      rw [hgone]
      rfl
    exact h.not_until hclosed huntil hholds

/-- A closed breaker with no longer a streak is not like one a failure has been counted against. -/
theorem not_alike_counted (hmax : cfg.cooldownMaxS < breakerTtlS) (hkept : s.Kept cfg)
    (hkept' : s'.Kept cfg) {d : BreakerDecision} {e : ProviderError} (hprobe : d.isProbe = false)
    (hclosed : s.hash.readState = .closed) (hclosed' : s'.hash.readState = .closed)
    (hle : s.hash.readFailures ≤ s'.hash.readFailures)
    (h : Alike cfg provider model user s (s'.sentenced d (sentence cfg d s' e))) : False := by
  cases hsentence : sentence cfg d s' e with
  | some cooldown =>
    obtain ⟨huntil, hpos⟩ := Store.until_sentence hmax hkept'.standing hsentence
    rw [hsentence] at h
    exact h.not_until hclosed huntil (lt_add_of_pos_right _ hpos)
  | none =>
    rw [hsentence] at h
    have hbelow : s'.hash.readFailures + 1 < cfg.failureThreshold := by
      simp only [sentence, hprobe, Bool.false_eq_true, if_false] at hsentence
      split at hsentence
      · cases hsentence
      next hunder =>
        push Not at hunder
        exact hunder.2
    refine not_alike_counts hmax hkept h hclosed hclosed' ?_ hbelow ?_
    · change s.hash.readFailures < s'.hash.readFailures + 1
      omega
    · intro t ht
      obtain rfl := Option.some.inj ht
      have hone : (1 : Seconds) < breakerTtlS := by norm_num [breakerTtlS]
      exact add_lt_add_right hone _

/-- Failures that leave breakers alike weigh the same. -/
theorem Alike.sentence_eq (hmax : cfg.cooldownMaxS < breakerTtlS) (hkept : s.Kept cfg)
    {d : BreakerDecision} (hclosed : d.isProbe = false → s.hash.readState = .closed)
    {e e' : ProviderError} (h : Alike cfg provider model user
      (s.sentenced d (sentence cfg d s e)) (s.sentenced d (sentence cfg d s e'))) :
    sentence cfg d s e = sentence cfg d s e' := by
  have hcounted : ∀ e, sentence cfg d s e = none → s.hash.readState = .closed := by
    intro e hnone
    refine hclosed (Bool.eq_false_iff.mpr fun hprobe => ?_)
    simp [sentence, hprobe] at hnone
  cases hleft : sentence cfg d s e with
  | none =>
    cases hright : sentence cfg d s e' with
    | none => rfl
    | some cooldown =>
      obtain ⟨huntil, hpos⟩ := Store.until_sentence hmax hkept.standing hright
      rw [hleft, hright] at h
      exact (h.not_until (hcounted e hleft) huntil (lt_add_of_pos_right _ hpos)).elim
  | some cooldown =>
    obtain ⟨huntil, hpos⟩ := Store.until_sentence hmax hkept.standing hleft
    cases hright : sentence cfg d s e' with
    | none =>
      rw [hleft, hright] at h
      exact (h.symm.not_until (hcounted e' hright) huntil (lt_add_of_pos_right _ hpos)).elim
    | some cooldown' =>
      obtain ⟨huntil', hpos'⟩ := Store.until_sentence hmax hkept.standing hright
      rw [hleft, hright] at h
      have hends := h.until_eq rfl huntil huntil' (lt_add_of_pos_right _ hpos)
        (lt_add_of_pos_right _ hpos')
      exact congrArg some (add_left_cancel hends)

/-! ## The steered breaker -/

/-- What a failure of a credential leaves that the breaker is told of. -/
theorem Visit.leaves_failing {v : Visit} {e : ProviderError} (he : e.breakerEligible)
    (hadmitted : v.Admitted cfg provider model s)
    (hallowed : (v.ask cfg provider model s).1.allowed = true) (htold : v.told = true) :
    (v.failing e).leaves cfg provider model s = (v.met cfg provider model s).sentenced
      (v.ask cfg provider model s).1
      (sentence cfg (v.ask cfg provider model s).1 (v.met cfg provider model s) e) := by
  have hleaves := @Visit.leaves_of_told cfg provider model s (v.failing e) hallowed htold
  exact hleaves.trans (instant_recordFailure hadmitted.degraded he)

/-- A visit the breaker does not hear, or hold to its answer, leaves the same whatever its attempt
comes to. -/
theorem Visit.leaves_unheard {v : Visit} (e : ProviderError)
    (h : v.heard = false ∨ v.told = false ∨ (v.ask cfg provider model s).1.allowed = false) :
    (v.failing e).leaves cfg provider model s = v.leaves cfg provider model s := by
  have hask : (v.failing e).ask cfg provider model s = v.ask cfg provider model s := rfl
  have hmet : (v.failing e).met cfg provider model s = v.met cfg provider model s := rfl
  unfold Visit.leaves
  rw [hask, hmet]
  rcases h with hheard | htold | hallowed
  · have hdegraded : (v.ask cfg provider model s).1.degraded = true := by
      rw [v.ask_of_unheard hheard]
      rfl
    dsimp only
    rw [instant_record_degraded hdegraded, instant_record_degraded hdegraded]
    rfl
  · have htold' : (v.failing e).told = false := htold
    simp only [htold, htold', Bool.and_false, Bool.false_eq_true, if_false]
  · simp only [hallowed, Bool.false_and, Bool.false_eq_true, if_false]

/-- **What leaves the breaker alike.** -/
theorem alike_iff_idle (hmax : cfg.cooldownMaxS < breakerTtlS) (hkept : s.Kept cfg) {v : Visit}
    {e : ProviderError} (he : e.ofCredential) :
    Alike cfg provider model user (v.leaves cfg provider model s)
      ((v.failing e).leaves cfg provider model s) ↔ Idle cfg provider model s v e := by
  have hcounts := ProviderError.breakerEligible_of_ofCredential he
  constructor
  · intro h
    by_contra hidle
    simp only [Idle, not_or, Bool.not_eq_false] at hidle
    obtain ⟨hheard, htold, hallowed, hother⟩ := hidle
    have hadmitted := (Visit.ask_heard hheard).2.1 hallowed
    have hmet := @Visit.kept_met cfg provider model s v hkept
    have hleft := @Visit.kept_leaves cfg provider model s (v.failing e) hkept
    have hleft₀ := @Visit.kept_leaves cfg provider model s v hkept
    have hmeets : (v.ask cfg provider model s).1.isProbe = false →
        (v.met cfg provider model s).hash.readState = .closed := by
      intro hprobe
      rcases hadmitted.left with ⟨-, hclosed, hsame⟩ | ⟨hclaims, -⟩
      · rw [Visit.met, hsame]
        exact (s.elapse v.waits).elapse_closed hclosed v.lasts
      · rw [hprobe] at hclaims
        cases hclaims
    rw [Visit.leaves_failing hcounts hadmitted hallowed htold] at h hleft
    rw [Visit.leaves_of_told hallowed htold] at h hleft₀
    by_cases hfailed : ∃ e₀, v.outcome = .failure e₀ ∧ e₀.breakerEligible
    · obtain ⟨e₀, houtcome, he₀⟩ := hfailed
      rw [houtcome, Report.record, instant_recordFailure hadmitted.degraded he₀] at h
      exact hother ⟨e₀, houtcome, he₀, h.sentence_eq hmax hmet hmeets⟩
    have huncounted : ∀ e₀, v.outcome = .failure e₀ → e₀.breakerEligible = false := fun e₀ h₀ =>
      Bool.eq_false_iff.mpr fun hcount => hfailed ⟨e₀, h₀, hcount⟩
    -- What the attempt came to counted for nothing, and its failure is counted.
    cases hprobe : (v.ask cfg provider model s).1.isProbe with
    | false =>
      have hclosed := hmeets hprobe
      rcases instant_record hadmitted.degraded huncounted with
        hsame | ⟨hclaims, -⟩ | ⟨-, hstate, hzero⟩
      · rw [hsame] at h hleft₀
        exact not_alike_counted hmax hleft₀ hmet hprobe hclosed hclosed (le_refl _) h
      · rw [hprobe] at hclaims
        cases hclaims
      · exact not_alike_counted hmax hleft₀ hmet hprobe (hstate.trans hclosed) hclosed
          (hzero.trans_le hmet.failures) h
    | true =>
      rcases instant_record hadmitted.degraded huncounted with
        hsame | ⟨-, -, hcloses, -⟩ | ⟨hclosed, -⟩
      · rcases hadmitted.left with ⟨hclosed, -⟩ | ⟨-, hclaimed⟩
        · rw [hprobe] at hclosed
          cases hclosed
        · rw [hsame] at h
          rw [Visit.met, hclaimed] at h hleft hmet
          exact not_alike_probe hmax (hkept.elapse v.waits_nonneg) v.lasts_pos hmet hleft hprobe h
      · obtain ⟨cooldown, hsentence⟩ := @sentence_of_probe cfg (v.met cfg provider model s) _ e hprobe
        obtain ⟨huntil, hpos⟩ := Store.until_sentence hmax hmet.standing hsentence
        rw [hsentence] at h
        exact h.not_until hcloses huntil (lt_add_of_pos_right _ hpos)
      · rw [hprobe] at hclosed
        cases hclosed
  · rintro (hheard | htold | hallowed | ⟨e₀, houtcome, he₀, hsame⟩)
    · rw [v.leaves_unheard e (.inl hheard)]
      exact Alike.refl _
    · rw [v.leaves_unheard e (.inr (.inl htold))]
      exact Alike.refl _
    · rw [v.leaves_unheard e (.inr (.inr hallowed))]
      exact Alike.refl _
    · by_cases hreports : v.heard = true ∧ v.told = true ∧
          (v.ask cfg provider model s).1.allowed = true
      · obtain ⟨hheard, htold, hallowed⟩ := hreports
        have hadmitted := (Visit.ask_heard hheard).2.1 hallowed
        have hitself : v.failing e₀ = v := by
          unfold Visit.failing
          rw [← houtcome]
        have hleaves := Visit.leaves_failing he₀ hadmitted hallowed htold
        rw [hitself, hsame] at hleaves
        rw [hleaves, Visit.leaves_failing hcounts hadmitted hallowed htold]
        exact Alike.refl _
      · simp only [not_and_or, Bool.not_eq_true] at hreports
        rw [v.leaves_unheard e hreports]
        exact Alike.refl _

theorem allowances_append (s : Store) (before after : List Visit) :
    allowances cfg provider model s (before ++ after) = allowances cfg provider model s before ++
      allowances cfg provider model (behind cfg provider model s before) after := by
  induction before generalizing s with
  | nil => rfl
  | cons v before ih => exact congrArg _ (ih (v.leaves cfg provider model s))

theorem length_allowances (s : Store) (vs : List Visit) :
    (allowances cfg provider model s vs).length = vs.length := by
  induction vs generalizing s with
  | nil => rfl
  | cons v vs ih => exact congrArg (· + 1) (ih (v.leaves cfg provider model s))

/-- What comes behind a visit in a run. -/
theorem getElem?_allowances (clock : Seconds) (before after : List Visit) (v : Visit) (n : ℕ) :
    (allowances cfg provider model { clock } (before ++ v :: after))[before.length + (n + 1)]? =
      (allowances cfg provider model
        (v.leaves cfg provider model (behind cfg provider model { clock } before)) after)[n]? := by
  have hlength := @length_allowances cfg provider model { clock } before
  rw [allowances_append, List.getElem?_append_right (by omega), hlength, Nat.add_sub_cancel_left]
  rfl

/-- Not steered is alike behind the visit. -/
theorem unsteered_iff_alike {clock : Seconds} {before : List Visit} {v : Visit} {e : ProviderError} :
    Unsteered cfg provider model clock before v e ↔ Alike cfg provider model v.user
      (v.leaves cfg provider model (behind cfg provider model { clock } before))
      ((v.failing e).leaves cfg provider model (behind cfg provider model { clock } before)) := by
  simp only [Unsteered, Alike, getElem?_allowances]

/-- **Who steers a breaker.** In any run of visits, whosever key each is made with: a failure of
the credential in place of what one visit's attempt came to leaves the answers to the other users
as they were exactly where there was nothing to steer by. -/
theorem unsteered_iff (hmax : cfg.cooldownMaxS < breakerTtlS) {clock : Seconds}
    {before : List Visit} {v : Visit} {e : ProviderError} (he : e.ofCredential) :
    Unsteered cfg provider model clock before v e ↔
      Idle cfg provider model (behind cfg provider model { clock } before) v e := by
  have hfresh : Store.Kept cfg { clock } := ⟨standing_empty cfg rfl, le_refl 0⟩
  exact unsteered_iff_alike.trans (alike_iff_idle hmax (kept_behind hfresh before) he)

end

/-! ## One user's limit, another's refusal -/

/-- A visit made with a private key that is served. -/
def served : Visit where
  user := "alice"
  resolved := { provider := "groq", key := "alice-key", pool := .«private», scope := "user:alice" }
  requestId := "first"
  waits := 0
  lasts := 1
  heard := true
  told := true
  outcome := .success
  waits_nonneg := le_refl 0
  lasts_pos := one_pos

/-- A limit on that key. -/
def limited : ProviderError where
  kind := .rateLimited none
  message := "429"
  provider := "groq"
  model := "llama"

theorem unsteered_iff_served :
    Unsteered defaults "groq" "llama" 0 [] served limited ↔
      Idle defaults "groq" "llama" (behind defaults "groq" "llama" { clock := 0 } []) served limited :=
  unsteered_iff (by norm_num [defaults, breakerTtlS]) rfl

-- so that instants are computed with
unseal Rat.add Rat.sub Rat.mul Rat.inv Rat.ofScientific

/-- A limit on the one key holds off the next user, who has the shared one. -/
theorem not_unsteered : ¬ ∀ (provider model : String) (clock : Seconds) (before : List Visit)
    (v : Visit) (e : ProviderError), v.resolved.pool = .«private» → e.ofCredential →
    Unsteered defaults provider model clock before v e := by
  intro h
  have hunsteered := h "groq" "llama" 0 [] served limited rfl rfl
  have hsame := hunsteered [guest "alice" 0 1 (le_refl 0) one_pos .nothing] 0 _ rfl rfl
    (guest_ne "alice")
  revert hsame
  decide

end Breaker

end LlmGateway
