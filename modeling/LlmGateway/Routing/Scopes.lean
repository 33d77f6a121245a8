import LlmGateway.Effects.Triple
import LlmGateway.KeysResolution.Resolver
import LlmGateway.Quota.Hints
import LlmGateway.Routing.Router

/-!
# Every attempt on its own account

An observer of the failover loop that keeps the attempts with what each was
resolved to. Whatever credentials answer, each attempt's calls, its settlement,
its hint and what is reported of it come from its own resolution; and what the
tracker then writes is on that resolution's scope.
-/

namespace LlmGateway

namespace Router

open Effects KeysResolution

/-! ## Attempts -/

/-- An attempt, as its questions show it. -/
structure Attempt where
  provider : String
  model : String
  resolved : ResolvedKey
  reservation : Option Reservation := none
  deriving DecidableEq, Repr

namespace Attempt

/-- The attempt to serve by `spec`. -/
def of (spec : ModelSpec) (resolved : ResolvedKey) (reservation : Option Reservation) : Attempt :=
  { provider := spec.provider, model := spec.model, resolved, reservation }

/-- Whether `spec` is what the attempt was resolved for. -/
def Of (a : Attempt) (spec : ModelSpec) : Prop := spec.provider = a.provider ∧ spec.model = a.model

/-- Whom it was made to, and on which pool. -/
def label (a : Attempt) : String × String × KeyPool := (a.provider, a.model, a.resolved.pool)

/-- It charges the counters of its own scope, and the personal cap its resolution carries. -/
def Charges (a : Attempt) (k : String) : Prop :=
  ∃ spec, a.Of spec ∧
    ((∃ w, k = Quota.quotaKey a.resolved.scope spec.provider spec.model w) ∨
      k ∈ (extraGrants spec a.resolved).map (·.key))

end Attempt

/-- The reservation a decision grants. -/
def granted (d : QuotaDecision) : Option Reservation := if d.allowed then d.reservation else none

/-- **One event, noted.** The latest attempt comes first. -/
def noteAttempt (as : List Attempt) : Event iface → List Attempt
  | ⟨.forProvider provider model, .ok resolved⟩ => { provider, model, resolved } :: as
  | ⟨.reserve _ _ _ _ _, .ok d⟩ =>
    as.modifyHead fun a => { a with reservation := granted d }
  | _ => as

/-- The attempts of a trace. -/
def attempts (tr : List (Event iface)) : List Attempt := tr.foldl noteAttempt []

/-- The attempt a record reports; a candidate the breaker skips was never resolved. -/
def AttemptRecord.label (r : AttemptRecord) : Option (String × String × KeyPool) :=
  r.keyPool.map fun pool => (r.provider, r.model, pool)

/-- A trail reports every attempt, in order, with the pool of its own resolution. -/
def Told (as : List Attempt) (trail : List AttemptRecord) : Prop :=
  trail.filterMap AttemptRecord.label = as.reverse.map Attempt.label

/-- A failure names the candidate of the last attempt that failed, and its pool. -/
def Blames (trail : List AttemptRecord) (spec : Option ModelSpec) (keyPool : Option KeyPool) :
    Prop :=
  (spec.map ModelSpec.key, keyPool) =
    match trail.reverse.find? (·.outcome = .error) with
    | some r => (some (r.provider, r.model), r.keyPool)
    | none => (none, none)

/-- **From its own resolution**: what an event may take of the attempts before it. -/
def Own (as : List Attempt) (e : Event iface) : Prop :=
  match e.ask with
  | .reserve spec scope _ _ extra => ∃ a ∈ as.head?,
      a.Of spec ∧ scope = a.resolved.scope ∧ extra = extraGrants spec a.resolved
  | .complete spec _ key | .stream spec _ key => ∃ a ∈ as.head?, a.Of spec ∧ key = a.resolved.key
  | .commit r _ _ => ∃ a ∈ as.head?, a.reservation = some r
  | .applyHint spec scope _ => ∃ a ∈ as.head?, a.Of spec ∧ scope = a.resolved.scope
  | .recordAuthFailure resolved => ∃ a ∈ as.head?, resolved = a.resolved
  | .yield (.completed c) =>
    (∃ a ∈ as.head?, a.Of c.spec ∧ c.keyPool = a.resolved.pool) ∧ Told as c.trail
  | _ => True

/-- What a run reports of its attempts, given what one that serves does. -/
def Reports {ω : Type} (S : List Attempt → ω → Prop) (as : List Attempt) :
    Except RoutingFailed ω → Prop
  | .ok o => S as o
  | .error f => Told as f.trail ∧ Blames f.trail f.spec f.keyPool

/-- What `route` reports where it serves. -/
def ReportsOutcome (as : List Attempt) (o : RouterOutcome) : Prop :=
  (∃ a ∈ as.head?, a.Of o.spec ∧ o.keyPool = a.resolved.pool) ∧ Told as o.trail

/-! ## Trails and attempts -/

section

variable {as : List Attempt} {trail : List AttemptRecord} {a : Attempt} {r : AttemptRecord}

theorem Told.attempt (h : Told as trail) (hr : AttemptRecord.label r = some a.label) :
    Told (a :: as) (trail ++ [r]) := by
  unfold Told at h ⊢
  rw [List.filterMap_append, h, List.reverse_cons, List.map_append]
  simp [hr]

theorem Told.skip (h : Told as trail) (hr : r.keyPool = none) : Told as (trail ++ [r]) := by
  unfold Told at h ⊢
  rw [List.filterMap_append, h]
  simp [AttemptRecord.label, hr]

theorem Blames.skip {spec : Option ModelSpec} {keyPool : Option KeyPool}
    (h : Blames trail spec keyPool) (hr : r.outcome ≠ .error) :
    Blames (trail ++ [r]) spec keyPool := by
  unfold Blames at h ⊢
  rw [List.reverse_append, List.reverse_singleton, List.singleton_append, List.find?_cons_of_neg]
  · exact h
  · simpa using hr

theorem Blames.error {spec : ModelSpec} (hr : r.outcome = .error)
    (hspec : (r.provider, r.model) = spec.key) : Blames (trail ++ [r]) (some spec) r.keyPool := by
  unfold Blames
  rw [List.reverse_append, List.reverse_singleton, List.singleton_append, List.find?_cons_of_pos]
  · simp [hspec]
  · simpa using hr

end

/-- What a walk has kept of its attempts. -/
structure Walks (as : List Attempt) (w : Walk) : Prop where
  told : Told as w.trail
  blames : Blames w.trail w.lastSpec w.lastKeyPool

/-! ## Blocks -/

/-- A block that makes no attempt: what was seen stays, and what it returns satisfies `E`. -/
abbrev Keeps {ε α : Type} (as : List Attempt) (p : Prog iface ε α) (E : α → Prop) : Prop :=
  Upholds noteAttempt Own (· = as) p fun r s => s = as ∧ ∀ a, r = .ok a → E a

section

variable {ε ε' α β : Type} {as : List Attempt}

theorem Keeps.bind {p : Prog iface ε α} {f : α → Prog iface ε β} {E : α → Prop} {E' : β → Prop}
    (hp : Keeps as p E) (hf : ∀ a, E a → Keeps as (f a) E') : Keeps as (p >>= f) E' := by
  refine Upholds.bind hp (fun a => Upholds.pointwise fun s hs => ?_) fun e s hs => ⟨hs.1, nofun⟩
  obtain ⟨rfl, hE⟩ := hs
  exact hf a (hE a rfl)

theorem Keeps.ret {a : α} {E : α → Prop} (h : E a) :
    Keeps as (.ret a : Prog iface ε α) E :=
  Upholds.ret fun _ hs => ⟨hs, fun _ hb => Except.ok.inj hb ▸ h⟩

/-- A question that is not about an attempt. -/
theorem Keeps.ask {q : Ask} {f : Ans q → Except ε α} (hnote : ∀ a, noteAttempt as ⟨q, a⟩ = as)
    (hown : ∀ a, Own as ⟨q, a⟩) :
    Keeps as (.ask q fun a => .ofExcept (f a)) fun _ => True := by
  refine Upholds.ask fun s a hs => ?_
  subst hs
  exact ⟨hown a, hnote a, fun _ _ => trivial⟩

theorem Keeps.askRet {q : Ask} {f : Ans q → α} (hnote : ∀ a, noteAttempt as ⟨q, a⟩ = as)
    (hown : ∀ a, Own as ⟨q, a⟩) :
    Keeps as (.ask q fun a => .ret (f a) : Prog iface ε α) fun _ => True :=
  Keeps.ask (f := fun a => .ok (f a)) hnote hown

theorem Keeps.mapError {p : Prog iface ε α} {f : ε → ε'} {E : α → Prop} (h : Keeps as p E) :
    Keeps as (p.mapError f) E := by
  refine Upholds.mapError (K := fun r s => s = as ∧ ∀ a, r = .ok a → E a)
    (Upholds.mono h (fun _ hs => hs) ?_)
  rintro (e | a) s ⟨hs, hE⟩
  · exact ⟨hs, nofun⟩
  · exact ⟨hs, fun b hb => hE b (by rw [Except.ok.inj hb])⟩

/-- What a block returns, said of the attempts there then are. -/
theorem Keeps.report {p : Prog iface ε α} {E : List Attempt → α → Prop} (h : Keeps as p (E as)) :
    Upholds noteAttempt Own (· = as) p fun r s => ∀ a, r = .ok a → E s a := by
  refine Upholds.mono h (fun _ hs => hs) ?_
  rintro r s ⟨rfl, hr⟩
  exact hr

end

section

variable {as : List Attempt}

theorem keeps_log (line : LogLine) : Keeps as (log line) fun _ => True :=
  .askRet (fun _ => rfl) fun _ => trivial

theorem keeps_elapsedMs (since : Seconds) : Keeps as (elapsedMs since) fun _ => True :=
  .bind (.askRet (fun _ => rfl) fun _ => trivial) fun _ _ => .ret trivial

theorem keeps_recordFailure (decision : BreakerDecision) (exc : ProviderError) :
    Keeps as (recordFailure decision exc) fun _ => True :=
  .ask (fun _ => rfl) fun _ => trivial

theorem keeps_recordLatency (cfg : Config) (spec : ModelSpec) (series : Series) (ms : Int) :
    Keeps as (recordLatency cfg spec series ms) fun _ => True := by
  unfold recordLatency
  split
  · exact .askRet (fun _ => rfl) fun _ => trivial
  · exact .ret trivial

end

section

variable {rest : List Attempt} {spec : ModelSpec} {resolved : ResolvedKey}
  {reservation : Option Reservation}

/-- A settlement settles what the attempt holds. -/
theorem keeps_settle (cfg : Config) (tokensIn tokensOut : Int) :
    Keeps (.of spec resolved reservation :: rest) (settle cfg reservation tokensIn tokensOut)
      fun _ => True := by
  unfold settle
  split
  next r _ => exact .ask (fun _ => rfl) fun _ => ⟨_, rfl, rfl⟩
  next => exact .ret trivial

/-- A hint goes to the scope of the attempt. -/
theorem keeps_reconcileHint (cfg : Config) :
    Keeps (.of spec resolved reservation :: rest) (reconcileHint cfg spec resolved.scope)
      fun _ => True := by
  refine .bind (.askRet (fun _ => rfl) fun _ => trivial) fun hint _ => ?_
  split
  · split
    · exact .ask (fun _ => rfl) fun _ => ⟨_, rfl, ⟨rfl, rfl⟩, rfl⟩
    · exact .ret trivial
  · exact .ret trivial

theorem keeps_discloseAuthFailure (exc : ProviderError) :
    Keeps (.of spec resolved reservation :: rest) (discloseAuthFailure resolved exc)
      fun _ => True := by
  unfold discloseAuthFailure
  split
  · exact .ask (fun _ => rfl) fun _ => ⟨_, rfl, rfl⟩
  · exact .ret trivial

/-- What a gate leaves in hand. -/
def Gate.held : Gate → Option Reservation
  | .go reservation => reservation
  | .refused _ => none

/-- The reservation is taken on the scope of the attempt, and is the attempt's from there on. -/
theorem takeReservation_upholds (cfg : Config) (report : RenderReport) :
    Upholds noteAttempt Own (· = .of spec resolved none :: rest)
      (takeReservation cfg spec resolved report) fun r s => s = .of spec resolved (match r with
        | .ok gate => gate.held
        | .error _ => none) :: rest := by
  unfold takeReservation
  split
  next =>
    refine Upholds.bind (K := fun _ s => s = .of spec resolved none :: rest)
      (Upholds.ask (f := fun a => .ok a) fun s a hs => ⟨trivial, hs⟩) (fun requestId => ?_)
      fun _ _ hs => hs
    refine Upholds.bind
      (K := fun r s => s = .of spec resolved (r.toOption.bind granted) :: rest) (Upholds.ask ?_)
      (fun d => ?_) fun _ _ hs => hs
    · rintro s (e | d) rfl
      · exact ⟨⟨_, rfl, ⟨rfl, rfl⟩, rfl, rfl⟩, rfl⟩
      · exact ⟨⟨_, rfl, ⟨rfl, rfl⟩, rfl, rfl⟩, rfl⟩
    · change Upholds noteAttempt Own (· = .of spec resolved (granted d) :: rest) _ _
      split
      next ha => exact Upholds.ret fun s hs => by simpa [granted, ha, Gate.held] using hs
      next ha => exact Upholds.ret fun s hs => by simpa [granted, ha, Gate.held] using hs
  next => exact Upholds.ret fun s hs => hs

end

/-- How a pass comes back, with the attempts there were. -/
def PassReports {ω : Type} (S : List Attempt → ω → Prop) {v : Visit} (as : List Attempt) :
    Pass ω v → Prop
  | .inl v' => Walks as v'.1.walk
  | .inr (.next w) | .inr (.stop w) => Walks as w
  | .inr (.done r) => Reports S as r

section

variable {ω : Type} {S : List Attempt → ω → Prop} {rest : List Attempt} {v : Visit}
  {resolved : ResolvedKey} {reservation : Option Reservation}

/-- The record of an attempt. -/
theorem Walks.attempt {as : List Attempt} {w : Walk} {a : Attempt} {record : Nat → AttemptRecord}
    (h : Walks as w) (hlabel : ∀ n, AttemptRecord.label (record n) = some a.label)
    (hok : ∀ n, (record n).outcome ≠ .error) : Walks (a :: as) (w.append record) :=
  ⟨h.told.attempt (hlabel _), h.blames.skip (hok _)⟩

/-- A candidate that quota refuses. -/
theorem skipQuota_keeps (decision : BreakerDecision) (refusal : QuotaDecision)
    (h : Walks rest v.walk) :
    Keeps (.of v.spec resolved none :: rest) (skipQuota (ω := ω) v decision resolved refusal)
      (PassReports S (.of v.spec resolved none :: rest)) :=
  .bind (keeps_log _) fun _ _ => .ret (h.attempt (fun _ => rfl) fun _ => nofun)

/-- The record of an attempt that failed, and whom the walk then blames. -/
theorem Walks.failed {as : List Attempt} {w w' : Walk} {a : Attempt} {spec : ModelSpec}
    {record : AttemptRecord} (h : Walks as w) (htrail : w'.trail = w.trail ++ [record])
    (hspec : w'.lastSpec = some spec) (hpool : w'.lastKeyPool = record.keyPool)
    (hkey : (record.provider, record.model) = spec.key) (herror : record.outcome = .error)
    (hlabel : AttemptRecord.label record = some a.label) : Walks (a :: as) w' := by
  refine ⟨htrail ▸ h.told.attempt hlabel, ?_⟩
  rw [htrail, hspec, hpool]
  exact Blames.error herror hkey

end

/-- How a pass begins: it makes a new attempt, resolved for the candidate. -/
theorem opening_upholds {α : Type} {as : List Attempt} {v : Visit}
    {f : Seconds → ResolvedKey → Eff α} {K : Except Exn α → List Attempt → Prop}
    (he : ∀ e s, K (.error e) s)
    (hf : ∀ t resolved,
      Upholds noteAttempt Own (· = .of v.spec resolved none :: as) (f t resolved) K) :
    Upholds noteAttempt Own (· = as) (do
      let attemptStarted ← now
      adapterForSpec v.spec
      let resolved ← forProvider v.spec.provider v.spec.model
      f attemptStarted resolved) K := by
  refine Upholds.bind (K := fun _ s => s = as) (Upholds.ask (f := fun t => .ok t) fun s t hs => ?_)
    (fun attemptStarted => ?_) fun e s _ => he e s
  · exact ⟨trivial, hs⟩
  refine Upholds.bind (K := fun _ s => s = as) (Upholds.ask fun s r hs => ?_) (fun _ => ?_)
    fun e s _ => he e s
  · exact ⟨trivial, hs⟩
  refine Upholds.bind (K := fun r s => ∀ resolved, r = .ok resolved →
      s = .of v.spec resolved none :: as) (Upholds.ask ?_) (fun resolved => ?_) fun e s _ => he e s
  · rintro s (e | resolved) rfl
    · exact ⟨trivial, nofun⟩
    · exact ⟨trivial, fun _ hr => Except.ok.inj hr ▸ rfl⟩
  exact (hf attemptStarted resolved).mono (fun s hs => hs resolved rfl) fun _ _ hr => hr

/-! ## The non-streaming path -/

namespace Complete

section

variable {S : List Attempt → RouterOutcome → Prop} {rest : List Attempt} {v : Visit}
  {resolved : ResolvedKey} {reservation : Option Reservation}

/-- What the locals of a `try` block that ended hold. -/
def held : Except (Exn × Tried) Tries → Option Reservation
  | .ok (.refused _) => none
  | .ok (.answered tried _ _) => tried.reservation
  | .error (_, tried) => tried.reservation

/-- The call is made with the key of the attempt, and its reservation is in the locals. -/
theorem tryAttempt_upholds (cfg : Config) :
    Upholds noteAttempt Own (· = .of v.spec resolved none :: rest) (tryAttempt cfg v resolved)
      fun r s => s = .of v.spec resolved (held r) :: rest := by
  refine Upholds.bind (K := fun r s => s = .of v.spec resolved (match r with
      | .ok _ => none
      | .error (_, tried) => tried.reservation) :: rest)
    (Upholds.mapError (Upholds.ask fun s r hs => ?_)) (fun rendered => ?_) fun _ _ hs => hs
  · subst hs
    cases r <;> exact ⟨trivial, rfl⟩
  · refine Upholds.bind (K := fun r s => s = .of v.spec resolved (match r with
        | .ok gate => gate.held
        | .error (_, tried) => tried.reservation) :: rest)
      (Upholds.mapError ((takeReservation_upholds cfg _).mono (fun _ hs => hs) ?_))
      (fun gate => ?_) fun _ _ hs => hs
    · rintro (e | gate) s hs <;> exact hs
    · cases gate with
      | refused decision => exact Upholds.ret fun s hs => hs
      | go reservation =>
        refine Upholds.bind (K := fun r s => s = .of v.spec resolved (match r with
            | .ok _ => reservation
            | .error (_, tried) => tried.reservation) :: rest)
          (Upholds.mapError (Upholds.ask fun s r hs => ?_)) (fun completion => ?_)
          fun _ _ hs => hs
        · subst hs
          cases r <;> exact ⟨⟨_, rfl, ⟨rfl, rfl⟩, rfl⟩, rfl⟩
        · exact Upholds.ret fun s hs => hs

/-- The walk once the failure of an attempt is on record. -/
theorem giveUp_keeps (started : Seconds) (decision : BreakerDecision) (walk : Walk)
    (exc : ProviderError) (h : Walks (.of v.spec resolved reservation :: rest) walk)
    (hspec : walk.lastSpec = some v.spec) (hpool : walk.lastKeyPool = some resolved.pool) :
    Keeps (.of v.spec resolved reservation :: rest) (giveUp started decision resolved v walk exc)
      (PassReports S (.of v.spec resolved reservation :: rest)) := by
  refine .bind (keeps_recordFailure _ _) fun _ _ => ?_
  split
  · exact .ret h
  · refine .bind (keeps_log _) fun _ _ => .bind (keeps_elapsedMs _) fun _ _ => .ret ?_
    exact ⟨h.told, hspec ▸ hpool ▸ h.blames⟩

theorem decideNext_keeps (cfg : Config) (started : Seconds) (decision : BreakerDecision)
    (candidatesRemaining : Nat) (walk : Walk) (exc : ProviderError)
    (h : Walks (.of v.spec resolved reservation :: rest) walk)
    (hspec : walk.lastSpec = some v.spec) (hpool : walk.lastKeyPool = some resolved.pool) :
    Keeps (.of v.spec resolved reservation :: rest)
      (decideNext cfg started decision candidatesRemaining resolved v walk exc)
      (PassReports S (.of v.spec resolved reservation :: rest)) := by
  unfold decideNext
  split
  next => exact .bind (keeps_log _) fun _ _ => .ret h
  next =>
    dsimp only
    split
    next =>
      split
      next => exact .bind (keeps_log _) fun _ _ => giveUp_keeps _ _ _ _ h hspec hpool
      next =>
        refine .bind (.askRet (fun _ => rfl) fun _ => trivial) fun delay _ => ?_
        exact .bind (.ask (fun _ => rfl) fun _ => trivial) fun _ _ => .ret h
    next => exact giveUp_keeps _ _ _ _ h hspec hpool

theorem onError_keeps (cfg : Config) (started attemptStarted : Seconds)
    (decision : BreakerDecision) (candidatesRemaining : Nat) (tried : Tried) (exc : ProviderError)
    (h : Walks rest v.walk) :
    Keeps (.of v.spec resolved tried.reservation :: rest)
      (onError cfg started attemptStarted decision candidatesRemaining resolved v tried exc)
      (PassReports S (.of v.spec resolved tried.reservation :: rest)) := by
  refine .bind (keeps_elapsedMs _) fun latencyMs _ => .bind (keeps_settle cfg _ _) fun _ _ =>
    .bind (keeps_reconcileHint cfg) fun _ _ => .bind (keeps_discloseAuthFailure exc) fun _ _ =>
    .bind (keeps_log _) fun _ _ => ?_
  exact decideNext_keeps _ _ _ _ _ _ (h.failed rfl rfl rfl rfl rfl rfl) rfl rfl

theorem onSuccess_keeps (cfg : Config) (started attemptStarted : Seconds)
    (decision : BreakerDecision) (tried : Tried) (report : RenderReport) (completion : Completion)
    (h : Walks rest v.walk) :
    Keeps (.of v.spec resolved tried.reservation :: rest)
      (onSuccess cfg started attemptStarted decision resolved v tried report completion)
      (PassReports ReportsOutcome (.of v.spec resolved tried.reservation :: rest)) := by
  refine .bind (keeps_elapsedMs _) fun latencyMs _ => .bind (keeps_settle cfg _ _) fun _ _ =>
    .bind (keeps_reconcileHint cfg) fun _ _ =>
    .bind (.ask (fun _ => rfl) fun _ => trivial) fun _ _ =>
    .bind (keeps_recordLatency _ _ _ _) fun _ _ => .bind (keeps_log _) fun _ _ =>
    .bind (keeps_elapsedMs _) fun _ _ => .ret ?_
  exact ⟨⟨_, rfl, ⟨rfl, rfl⟩, rfl⟩, h.told.attempt rfl⟩

/-- **A pass of `route`.** -/
theorem pass_upholds (cfg : Config) (started : Seconds) (decision : BreakerDecision)
    (candidatesRemaining : Nat) (v : Visit) :
    Upholds noteAttempt Own (Walks · v.walk) (pass cfg started decision candidatesRemaining v)
      fun r as => ∀ x, r = .ok x → PassReports ReportsOutcome as x := by
  refine Upholds.pointwise fun as h => opening_upholds (fun _ _ _ => nofun) fun t resolved => ?_
  refine Upholds.attempt (tryAttempt_upholds cfg) fun r => ?_
  rcases r with ⟨e, tried⟩ | refusal | ⟨tried, report, completion⟩
  · cases e with
    | provider exc =>
      exact Keeps.report (onError_keeps cfg started t decision candidatesRemaining tried exc h)
    | _ => exact Upholds.raise fun _ _ _ => nofun
  · exact Keeps.report (skipQuota_keeps decision refusal h)
  · exact Keeps.report (onSuccess_keeps cfg started t decision tried report completion h)

end

end Complete

/-! ## The streaming path -/

namespace Stream

section

variable {S : List Attempt → Unit → Prop} {rest : List Attempt} {v : Visit}
  {resolved : ResolvedKey} {reservation : Option Reservation}

/-- What the locals of a `try` block that ended hold. -/
def held : Except (Exn × Tried) Tries → Option Reservation
  | .ok (.refused _) => none
  | .ok (.answered tried _) => tried.reservation
  | .error (_, tried) => tried.reservation

/-- How a block of the stream ends that keeps the reservation in the locals. -/
def Held {α : Type} (as : List Attempt) (reservation : Option Reservation) (E : α → Prop)
    (r : Except (Exn × Tried) α) (s : List Attempt) : Prop :=
  s = as ∧ match r with
    | .ok a => E a
    | .error (_, tried) => tried.reservation = reservation

/-- Such a block. -/
abbrev Holds {α : Type} (as : List Attempt) (reservation : Option Reservation)
    (p : Prog iface (Exn × Tried) α) (E : α → Prop) : Prop :=
  Upholds noteAttempt Own (· = as) p (Held as reservation E)

theorem Holds.bind {α β : Type} {as : List Attempt} {p : Prog iface (Exn × Tried) α}
    {f : α → Prog iface (Exn × Tried) β} {E : α → Prop} {E' : β → Prop}
    (hp : Holds as reservation p E) (hf : ∀ a, E a → Holds as reservation (f a) E') :
    Holds as reservation (p >>= f) E' := by
  refine Upholds.bind hp (fun a => Upholds.pointwise fun s hs => ?_) fun _ _ hs => hs
  obtain ⟨rfl, hE⟩ := hs
  exact hf a hE

theorem Holds.withLocals {α : Type} {as : List Attempt} {p : Eff α} {t : Tried}
    (h : Keeps as p fun _ => True) (ht : t.reservation = reservation) :
    Holds as reservation (p.withLocals t) fun _ => True := by
  refine Upholds.mapError (Upholds.mono h (fun _ hs => hs) ?_)
  rintro (e | a) s ⟨hs, -⟩
  · exact ⟨hs, ht⟩
  · exact ⟨hs, trivial⟩

theorem Holds.ret {α : Type} {as : List Attempt} {a : α} {E : α → Prop} (h : E a) :
    Holds as reservation (.ret a) E :=
  Upholds.ret fun _ hs => ⟨hs, h⟩

theorem Holds.raise {α : Type} {as : List Attempt} {e : Exn} {t : Tried} {E : α → Prop}
    (h : t.reservation = reservation) :
    Holds as reservation (.raise (e, t) : Prog iface (Exn × Tried) α) E :=
  Upholds.raise fun _ hs => ⟨hs, h⟩

theorem keeps_yield {as : List Attempt} {ev : RouteStreamEvent} (h : ∀ c, ev ≠ .completed c) :
    Keeps as (yieldEvent ev) fun _ => True := by
  refine .ask (fun _ => rfl) fun a => ?_
  cases ev with
  | completed c => exact absurd rfl (h c)
  | _ => trivial

theorem pump_holds {as : List Attempt} (attemptStarted : Seconds) (chunks : List StreamChunk)
    (t : Tried) (ht : t.reservation = reservation) :
    Holds as reservation (pump attemptStarted chunks t) (·.reservation = reservation) := by
  induction chunks generalizing t with
  | nil => exact .ret ht
  | cons chunk chunks ih =>
    refine .bind (.withLocals ?_ ht) fun ms _ => ?_
    · unfold firstTokenMs
      split
      · exact .ret trivial
      · exact keeps_elapsedMs _
    · dsimp only
      split
      · exact ih _ ht
      · exact .bind (.withLocals (keeps_yield fun _ => nofun) ht) fun _ _ => ih _ ht

theorem drain_holds {as : List Attempt} (spec : ModelSpec) (attemptStarted : Seconds)
    (chunks : List StreamChunk) (ending : StreamEnd) (t : Tried)
    (ht : t.reservation = reservation) :
    Holds as reservation (drain spec attemptStarted chunks ending t)
      (·.reservation = reservation) := by
  have hbody : Holds as reservation (do atEnd spec ending (← pump attemptStarted chunks t))
      (·.reservation = reservation) := by
    refine .bind (pump_holds _ _ _ ht) fun t ht => ?_
    unfold atEnd
    split
    · exact .ret ht
    · exact .raise ht
  refine Upholds.attempt hbody fun r => ?_
  have hclose : ∀ t : Tried, t.reservation = reservation →
      Holds as reservation (aclose.withLocals t) fun _ => True :=
    fun t ht => .withLocals (.ask (fun _ => rfl) fun _ => trivial) ht
  refine Upholds.pointwise fun s hs => ?_
  rcases r with ⟨e, t⟩ | t
  · obtain ⟨rfl, ht⟩ := hs
    exact Holds.bind (hclose t ht) fun _ _ => Holds.raise ht
  · obtain ⟨rfl, ht⟩ := hs
    exact Holds.bind (hclose t ht) fun _ _ => Holds.ret ht

/-- The stream is opened with the key of the attempt, and its reservation is in the locals. -/
theorem tryAttempt_upholds (cfg : Config) (attemptStarted : Seconds) :
    Upholds noteAttempt Own (· = .of v.spec resolved none :: rest)
      (tryAttempt cfg attemptStarted v resolved)
      fun r s => s = .of v.spec resolved (held r) :: rest := by
  refine Upholds.bind (K := fun r s => s = .of v.spec resolved (match r with
      | .ok _ => none
      | .error (_, tried) => tried.reservation) :: rest)
    (Upholds.mapError (Upholds.ask fun s r hs => ?_)) (fun rendered => ?_) fun _ _ hs => hs
  · subst hs
    cases r <;> exact ⟨trivial, rfl⟩
  · refine Upholds.bind (K := fun r s => s = .of v.spec resolved (match r with
        | .ok gate => gate.held
        | .error (_, tried) => tried.reservation) :: rest)
      (Upholds.mapError ((takeReservation_upholds cfg _).mono (fun _ hs => hs) ?_))
      (fun gate => ?_) fun _ _ hs => hs
    · rintro (e | gate) s hs <;> exact hs
    · cases gate with
      | refused decision => exact Upholds.ret fun s hs => hs
      | go reservation =>
        have hopen : ∀ payload, Holds (.of v.spec resolved reservation :: rest) reservation
            ((stream v.spec payload resolved.key).withLocals
              { attempts := v.walk.attempts + 1, reservation }) fun _ => True :=
          fun _ => .withLocals (.ask (fun _ => rfl) fun _ => ⟨_, rfl, ⟨rfl, rfl⟩, rfl⟩) rfl
        refine Upholds.mono (J := (· = .of v.spec resolved reservation :: rest))
          (K := Held (.of v.spec resolved reservation :: rest) reservation
            fun tries => held (.ok tries) = reservation) ?_ (fun _ hs => hs) ?_
        · refine Holds.bind (.withLocals (keeps_yield fun _ => nofun) rfl) fun _ _ => ?_
          refine Holds.bind (hopen _) fun opened _ => ?_
          refine Holds.bind (drain_holds _ _ _ _ _ rfl) fun tried ht => ?_
          split
          · exact Holds.raise ht
          · exact Holds.ret ht
        · rintro (⟨e, tried⟩ | tries) s ⟨hs, hr⟩
          · rw [hs, ← hr]
            rfl
          · rw [hs, ← hr]

theorem giveUp_keeps (started : Seconds) (decision : BreakerDecision) (walk : Walk)
    (exc : ProviderError) (h : Walks (.of v.spec resolved reservation :: rest) walk)
    (hspec : walk.lastSpec = some v.spec) (hpool : walk.lastKeyPool = some resolved.pool) :
    Keeps (.of v.spec resolved reservation :: rest) (giveUp started decision resolved v walk exc)
      (PassReports S (.of v.spec resolved reservation :: rest)) := by
  refine .bind (keeps_recordFailure _ _) fun _ _ => ?_
  split
  · exact .ret h
  · refine .bind (keeps_log _) fun _ _ => .bind (keeps_elapsedMs _) fun _ _ => .ret ?_
    exact ⟨h.told, hspec ▸ hpool ▸ h.blames⟩

theorem decideNext_keeps (cfg : Config) (started : Seconds) (decision : BreakerDecision)
    (candidatesRemaining : Nat) (walk : Walk) (deliveredChars : Nat) (exc : ProviderError)
    (h : Walks (.of v.spec resolved reservation :: rest) walk)
    (hspec : walk.lastSpec = some v.spec) (hpool : walk.lastKeyPool = some resolved.pool) :
    Keeps (.of v.spec resolved reservation :: rest)
      (decideNext cfg started decision candidatesRemaining resolved v walk deliveredChars exc)
      (PassReports S (.of v.spec resolved reservation :: rest)) := by
  unfold decideNext
  split
  next => exact .bind (keeps_log _) fun _ _ => .ret h
  next =>
    dsimp only
    split
    next =>
      split
      next => exact .bind (keeps_log _) fun _ _ => giveUp_keeps _ _ _ _ h hspec hpool
      next =>
        refine .bind (.askRet (fun _ => rfl) fun _ => trivial) fun delay _ => ?_
        exact .bind (.ask (fun _ => rfl) fun _ => trivial) fun _ _ => .ret h
    next => exact giveUp_keeps _ _ _ _ h hspec hpool

theorem onError_keeps (cfg : Config) (started attemptStarted : Seconds)
    (decision : BreakerDecision) (candidatesRemaining : Nat) (tried : Tried) (exc : ProviderError)
    (h : Walks rest v.walk) :
    Keeps (.of v.spec resolved tried.reservation :: rest)
      (onError cfg started attemptStarted decision candidatesRemaining resolved v tried exc)
      (PassReports S (.of v.spec resolved tried.reservation :: rest)) := by
  refine .bind (keeps_elapsedMs _) fun latencyMs _ => .bind (keeps_settle cfg _ _) fun _ _ =>
    .bind (keeps_reconcileHint cfg) fun _ _ => .bind (keeps_discloseAuthFailure exc) fun _ _ =>
    .bind (keeps_log _) fun _ _ => .bind (keeps_yield fun _ => nofun) fun _ _ => ?_
  exact decideNext_keeps _ _ _ _ _ _ _ (h.failed rfl rfl rfl rfl rfl rfl) rfl rfl

/-- The terminal event reports the attempt that served. -/
theorem onSuccess_keeps (cfg : Config) (started attemptStarted : Seconds)
    (decision : BreakerDecision) (tried : Tried) (report : RenderReport) (h : Walks rest v.walk) :
    Keeps (.of v.spec resolved tried.reservation :: rest)
      (onSuccess cfg started attemptStarted decision resolved v tried report)
      (PassReports (fun _ _ => True) (.of v.spec resolved tried.reservation :: rest)) := by
  refine .bind (keeps_elapsedMs _) fun latencyMs _ => .bind (keeps_settle cfg _ _) fun _ _ =>
    .bind (keeps_reconcileHint cfg) fun _ _ =>
    .bind (.ask (fun _ => rfl) fun _ => trivial) fun _ _ =>
    .bind (keeps_recordLatency _ _ _ _) fun _ _ => .bind (keeps_log _) fun _ _ =>
    .bind (keeps_elapsedMs _) fun _ _ => .bind (E := fun _ => True) (.ask (fun _ => rfl) ?_)
      fun _ _ => .ret trivial
  exact fun _ => ⟨⟨_, rfl, ⟨rfl, rfl⟩, rfl⟩, h.told.attempt rfl⟩

/-- **A pass of `route_stream`.** -/
theorem pass_upholds (cfg : Config) (started : Seconds) (decision : BreakerDecision)
    (candidatesRemaining : Nat) (v : Visit) :
    Upholds noteAttempt Own (Walks · v.walk) (pass cfg started decision candidatesRemaining v)
      fun r as => ∀ x, r = .ok x → PassReports (fun _ _ => True) as x := by
  refine Upholds.pointwise fun as h => opening_upholds (fun _ _ _ => nofun) fun t resolved => ?_
  refine Upholds.attempt (tryAttempt_upholds cfg t) fun r => ?_
  rcases r with ⟨e, tried⟩ | refusal | ⟨tried, report⟩
  · cases e with
    | provider exc =>
      exact Keeps.report (onError_keeps cfg started t decision candidatesRemaining tried exc h)
    | _ => exact Upholds.raise fun _ _ _ => nofun
  · exact Keeps.report (skipQuota_keeps decision refusal h)
  · exact Keeps.report (onSuccess_keeps cfg started t decision tried report h)

end

end Stream

/-! ## The walk -/

section

variable {ω : Type} {S : List Attempt → ω → Prop} {cfg : Config}
  {pass : BreakerDecision → Nat → (v : Visit) → Eff (Pass ω v)}

/-- How a candidate's visit ends. -/
def FlowReports (S : List Attempt → ω → Prop) (as : List Attempt) :
    Flow Walk (Except RoutingFailed ω) → Prop
  | .next w | .stop w => Walks as w
  | .done r => Reports S as r

theorem visitCandidate_upholds (hpass : ∀ decision n v, Upholds noteAttempt Own (Walks · v.walk)
      (pass decision n v) fun r as => ∀ x, r = .ok x → PassReports S as x)
    (candidate : ModelSpec) (rest : List ModelSpec) (w : Walk) :
    Upholds noteAttempt Own (Walks · w) (visitCandidate cfg pass candidate rest w)
      fun r as => ∀ x, r = .ok x → FlowReports S as x := by
  refine Upholds.pointwise fun as h => ?_
  unfold visitCandidate
  split
  next => exact Keeps.report (.ret h)
  next =>
    refine Upholds.bind (K := fun _ s => s = as) (Upholds.ask fun s r hs => ⟨trivial, hs⟩)
      (fun decision => ?_) fun _ _ _ _ => nofun
    split
    next =>
      refine Upholds.mono (Upholds.iterate (t := { spec := candidate, walk := w }) Visit.left
        (fun v as => Walks as v.walk) fun v => ?_) (fun s hs => hs ▸ h) fun _ _ hr => hr
      refine (hpass decision rest.length v).mono (fun _ hs => hs) ?_
      rintro (e | v' | f) s hr
      · exact fun _ => nofun
      · exact hr _ rfl
      · intro x hx
        rw [← Except.ok.inj hx]
        cases f <;> exact hr _ rfl
    next =>
      refine Keeps.report (.bind (keeps_log _) fun _ _ => .ret ?_)
      exact ⟨h.told.skip rfl, h.blames.skip nofun⟩

/-- **The walk over the chain**, whatever the passes are. -/
theorem walkChain_upholds (hpass : ∀ decision n v, Upholds noteAttempt Own (Walks · v.walk)
      (pass decision n v) fun r as => ∀ x, r = .ok x → PassReports S as x)
    (started : Seconds) (chain : List ModelSpec) :
    Upholds noteAttempt Own (· = []) (walkChain cfg started pass chain)
      fun r as => ∀ x, r = .ok x → Reports S as x := by
  refine Upholds.bind (K := fun r as => ∀ x, r = .ok x → FlowReports S as x)
    (Upholds.mono (J := (Walks · {})) (Upholds.forEach (fun w as => Walks as w)
      (fun w as h x hx => Except.ok.inj hx ▸ h) fun candidate rest w =>
        (visitCandidate_upholds hpass candidate rest w).mono (fun _ hs => hs) ?_)
      (fun s hs => hs ▸ ⟨rfl, rfl⟩) fun _ _ hr => hr) (fun flow => ?_) fun _ _ _ _ => nofun
  · rintro (e | f) s hr
    · exact fun _ => nofun
    · have hf := hr f rfl
      cases f with
      | next w => exact hf
      | stop w => exact fun x hx => Except.ok.inj hx ▸ hf
      | done r => exact fun x hx => Except.ok.inj hx ▸ hf
  · refine Upholds.pointwise fun as h => ?_
    have hflow := h flow rfl
    have hends : ∀ w, Walks as w → Upholds noteAttempt Own (· = as)
        (exhausted cfg chain started w) fun r as => ∀ x, r = .ok x → Reports S as x :=
      fun w hw => Keeps.report (.bind (keeps_log _) fun _ _ => .bind (keeps_elapsedMs _)
        fun _ _ => .ret ⟨hw.told, hw.blames⟩)
    cases flow with
    | done r => exact Keeps.report (.ret hflow)
    | next w => exact hends w hflow
    | stop w => exact hends w hflow

end

/-- **A run of `route`**: every event is its own attempt's, and so is every report. -/
theorem route_own {cfg : Config} {chain : List ModelSpec} {tr : List (Event iface)}
    {r : Except Exn (Except RoutingFailed RouterOutcome)} (hr : (route cfg chain).Runs tr r) :
    Heeds noteAttempt Own [] tr ∧ ∀ x, r = .ok x → Reports ReportsOutcome (attempts tr) x := by
  have h : Upholds noteAttempt Own (· = []) (route cfg chain)
      fun r as => ∀ x, r = .ok x → Reports ReportsOutcome as x := by
    refine Upholds.bind (K := fun _ s => s = []) (Upholds.ask (f := fun t => .ok t)
      fun s t hs => ⟨trivial, hs⟩) (fun started => ?_) fun _ _ _ _ => nofun
    exact walkChain_upholds (Complete.pass_upholds cfg started) started chain
  exact h.runs rfl hr

/-- **A run of `route_stream`.** -/
theorem routeStream_own {cfg : Config} {chain : List ModelSpec} {tr : List (Event iface)}
    {r : Except Exn (Except RoutingFailed Unit)} (hr : (routeStream cfg chain).Runs tr r) :
    Heeds noteAttempt Own [] tr ∧
      ∀ x, r = .ok x → Reports (fun _ _ => True) (attempts tr) x := by
  have h : Upholds noteAttempt Own (· = []) (routeStream cfg chain)
      fun r as => ∀ x, r = .ok x → Reports (fun _ _ => True) as x := by
    refine Upholds.bind (K := fun _ s => s = []) (Upholds.ask (f := fun t => .ok t)
      fun s t hs => ⟨trivial, hs⟩) (fun started => ?_) fun _ _ _ _ => nofun
    exact walkChain_upholds (Stream.pass_upholds cfg started) started chain
  exact h.runs rfl hr

end Router

end LlmGateway
