import LlmGateway.Routing.Conduct

/-!
# The laws of the failover loop

The attempt cap, the settlement of reservations and the failover discipline,
each over every run of `route` and of `routeStream`. A run is a complete trace:
whatever the environment answered, however it ended.
-/

namespace LlmGateway

namespace Router

open Effects

/-! ## An obliging environment -/

/-- A key of the shared pool. -/
def sharedKey (provider : String) : ResolvedKey :=
  { provider, key := "sk", pool := .shared, scope := "system" }

/-- Every question answered with success. -/
def oblige : (q : Ask) → Ans q
  | .now => (0 : Seconds)
  | .adapterForSpec _ => .ok ()
  | .forProvider provider _ => .ok (sharedKey provider)
  | .allows provider model => .ok { allowed := true, provider, model, state := .closed }
  | .render _ => .ok ("payload", { estimatedTokens := 7 })
  | .uuid4 => "request"
  | .reserve spec scope tokens requestId _ => .ok
      { allowed := true, reservation := some
          { scope, provider := spec.provider, model := spec.model, requestId, tokens,
            windows := [.rpm] } }
  | .complete _ _ _ => .ok
      { text := "answer", usage := { tokensIn := 7, tokensOut := 1 }, finishReason := "stop" }
  | .stream _ _ _ => .ok ([{ delta := "answer" }], .stopped)
  | .aclose => .ok ()
  | .yield _ => .next
  | .commit _ _ _ => .done
  | .takeHint => none
  | .applyHint _ _ _ => .ok ()
  | .recordAuthFailure _ => .ok ()
  | .uniform lo _ => lo
  | .sleep _ => .ok ()
  | .recordFailure _ _ => .ok ()
  | .recordSuccess _ => .ok ()
  | .metricsRecord _ _ _ _ => ()
  | .log _ => ()

/-- The run of a program against an environment that keeps no state. -/
def against {α : Type} (E : (q : Ask) → Ans q) (p : Eff α) :
    List (Event iface) × Except Exn α :=
  p.play (fun (_ : Unit) q => (E q, ())) ()

theorem against_runs {α : Type} (E : (q : Ask) → Ans q) (p : Eff α) :
    p.Runs (against E p).1 (against E p).2 :=
  p.play_runs _ _

def groq : ModelSpec :=
  { slot := "fast", provider := "groq", model := "llama", contextWindow := 8192 }

def gemini : ModelSpec :=
  { slot := "smart", provider := "gemini", model := "flash", contextWindow := 32768 }

/-- The failure `kind` of a candidate. -/
def failure (kind : ProviderError.Kind) (spec : ModelSpec) : ProviderError :=
  { kind, message := "upstream", provider := spec.provider, model := spec.model }

/-! ## The attempt cap -/

/-- Every retry of a trace is begun while the calls made leave room for it. -/
def RetriesInBudget (maxAttempts : Nat) (tr : List (Event iface)) : Prop :=
  ∀ i (h : i < tr.length), isRetry tr[i] = true → calls (tr.take i) < maxAttempts

instance (maxAttempts : Nat) (tr : List (Event iface)) :
    Decidable (RetriesInBudget maxAttempts tr) :=
  inferInstanceAs (Decidable (∀ i (h : i < tr.length),
    isRetry (tr.get ⟨i, h⟩) = true → calls (tr.take i) < maxAttempts))

/-- A trace whose ledger is overdue holds a retry begun on a spent budget. -/
theorem foldl_overdue (m : Nat) (g : Ledger) (tr : List (Event iface))
    (h : (tr.foldl (Ledger.note m) g).overdue) :
    g.overdue ∨ ∃ i, ∃ hi : i < tr.length, isRetry tr[i] ∧ m ≤ g.calls + calls (tr.take i) := by
  induction tr generalizing g with
  | nil => exact .inl h
  | cons e tr ih =>
    rcases ih _ h with h | ⟨i, hi, hretry, hle⟩
    · rw [(note_counts m g e).2.2.2, Bool.or_eq_true, Bool.and_eq_true, decide_eq_true_eq] at h
      refine h.imp_right fun ⟨hretry, hle⟩ => ?_
      exact ⟨0, Nat.zero_lt_succ _, hretry, by simpa [calls] using hle⟩
    · refine .inr ⟨i + 1, Nat.succ_lt_succ hi, hretry, ?_⟩
      rw [(note_counts m g e).1] at hle
      rw [List.take_succ_cons, calls_cons e]
      omega

/-- **The attempt cap.** A run of `route` makes at most `maxAttempts` provider
calls, and a run of `routeStream` opens at most that many streams, provided
every retry is begun with budget left. -/
theorem calls_le_maxAttempts (cfg : Config) (chain : List ModelSpec) :
    (∀ tr r, (route cfg chain).Runs tr r → RetriesInBudget cfg.maxAttempts tr →
        calls tr ≤ cfg.maxAttempts) ∧
      ∀ tr r, (routeStream cfg chain).Runs tr r → RetriesInBudget cfg.maxAttempts tr →
        calls tr ≤ cfg.maxAttempts := by
  have hcap : ∀ tr, Sound cfg (ledger cfg.maxAttempts tr) →
      RetriesInBudget cfg.maxAttempts tr → calls tr ≤ cfg.maxAttempts := by
    intro tr hs hb
    rw [← (ledger_counts cfg.maxAttempts tr).1]
    refine hs.budget.resolve_right fun ho => ?_
    obtain h | ⟨i, hi, hretry, hle⟩ := foldl_overdue _ _ _ ho
    · exact absurd h (by simp)
    · have := hb i hi hretry
      simp only [Nat.zero_add] at hle
      omega
  exact ⟨fun tr r hr => hcap tr ((route_post hr).owed fun _ h => h.owed_eq).1,
    fun tr r hr => hcap tr ((routeStream_post hr).owed fun _ ⟨_, _, h⟩ => h.owed_eq).1⟩

/-- Every provider call fails with a 503. -/
def flaky : (q : Ask) → Ans q
  | .complete spec _ _ => .error (.provider (failure .unavailable spec))
  | .stream spec _ _ => .error (.provider (failure .unavailable spec))
  | q => oblige q

/-- One candidate, called and retried: two calls, the retry begun with budget
left. -/
theorem calls_le_maxAttempts_flaky :
    calls (against flaky (route {} [groq])).1 ≤ 3 ∧
      calls (against flaky (routeStream {} [groq])).1 ≤ 3 :=
  ⟨(calls_le_maxAttempts {} [groq]).1 _ _ (against_runs ..) (by decide),
    (calls_le_maxAttempts {} [groq]).2 _ _ (against_runs ..) (by decide)⟩

/-- **The cap is not unconditional.** Two candidates under the default budget of
three: the first takes two calls, the second takes the third and is then
retried. -/
theorem not_calls_le_maxAttempts :
    ¬ ∀ (cfg : Config) (chain : List ModelSpec), 1 ≤ cfg.maxAttempts →
      (∀ tr r, (route cfg chain).Runs tr r → calls tr ≤ cfg.maxAttempts) ∧
        ∀ tr r, (routeStream cfg chain).Runs tr r → calls tr ≤ cfg.maxAttempts := by
  intro h
  have hle := (h {} [groq, gemini] (by decide)).1 _ _ (against_runs flaky _)
  have hcalls : calls (against flaky (route {} [groq, gemini])).1 = 4 := by decide
  rw [hcalls] at hle
  exact absurd hle (by decide)

/-! ## The settlement of reservations -/

/-- A run settles, once each and in the order granted, every reservation it was
granted. -/
def SettlesAll (tr : List (Event iface)) : Prop := settlements tr = grants tr

instance (tr : List (Event iface)) : Decidable (SettlesAll tr) :=
  inferInstanceAs (Decidable (_ = _))

/-- Books that balance but for what is owed are settled when nothing is. -/
theorem settlesAll_iff {cfg : Config} {tr : List (Event iface)}
    (h : Sound cfg (ledger cfg.maxAttempts tr) ∧
      (ledger cfg.maxAttempts tr).torn = (ledger cfg.maxAttempts tr).owed.isSome) :
    SettlesAll tr ↔ (ledger cfg.maxAttempts tr).torn = false := by
  obtain ⟨-, hg, hs⟩ := ledger_counts cfg.maxAttempts tr
  have hacc := h.1.accounts
  rw [hg, hs] at hacc
  rw [SettlesAll, hacc, h.2, List.self_eq_append_right, Option.toList_eq_nil_iff]
  cases (ledger cfg.maxAttempts tr).owed <;> simp

/-- **The settlement of reservations.** However a run of `route` or
`routeStream` ends, it has settled every reservation exactly once if and only
if no attempt that owed one was left by an exception that is no provider error,
by the consumer closing the generator, or by a settling call cut off before its
script ran. -/
theorem settlesAll_iff_not_torn (cfg : Config) (chain : List ModelSpec) :
    (∀ tr r, (route cfg chain).Runs tr r →
        (SettlesAll tr ↔ (ledger cfg.maxAttempts tr).torn = false)) ∧
      ∀ tr r, (routeStream cfg chain).Runs tr r →
        (SettlesAll tr ↔ (ledger cfg.maxAttempts tr).torn = false) :=
  ⟨fun _ _ hr => settlesAll_iff ((route_post hr).owed fun _ h => h.owed_eq),
    fun _ _ hr => settlesAll_iff ((routeStream_post hr).owed fun _ ⟨_, _, h⟩ => h.owed_eq)⟩

/-- The adapter raises an exception of some other class. -/
def broken : (q : Ask) → Ans q
  | .complete _ _ _ => .error (.other "KeyError")
  | .stream _ _ _ => .error (.other "KeyError")
  | q => oblige q

/-- A run that settles what it was granted, and one left before it could. -/
theorem settlesAll_iff_not_torn_runs :
    (SettlesAll (against oblige (route {} [groq])).1 ↔
        (ledger 3 (against oblige (route {} [groq])).1).torn = false) ∧
      (SettlesAll (against broken (routeStream {} [groq])).1 ↔
        (ledger 3 (against broken (routeStream {} [groq])).1).torn = false) :=
  ⟨(settlesAll_iff_not_torn {} [groq]).1 _ _ (against_runs ..),
    (settlesAll_iff_not_torn {} [groq]).2 _ _ (against_runs ..)⟩

/-- **Settlement is not unconditional.** An adapter that raises something other
than a provider error leaves its reservation outstanding. -/
theorem not_settlesAll :
    ¬ ∀ (cfg : Config) (chain : List ModelSpec),
      (∀ tr r, (route cfg chain).Runs tr r → SettlesAll tr) ∧
        ∀ tr r, (routeStream cfg chain).Runs tr r → SettlesAll tr := by
  intro h
  have hall := (h {} [groq]).1 _ _ (against_runs broken _)
  exact absurd hall (by decide)

/-! ## The failover discipline -/

/-- What a run shows of its discipline: `served` is the candidate and the trail
it reports as served, `failed` the `RoutingFailed` it raised. -/
structure Disciplined (cfg : Config) (g : Ledger) (served : Option (ModelSpec × List AttemptRecord))
    (failed : Option RoutingFailed) : Prop where
  /-- A failed run raises the last error of the candidate it ended at. -/
  raises : ∀ f, failed = some f → ∀ e, g.visitError = some e → f.error = e
  /-- No candidate is called again once it has delivered text. -/
  recalled : g.recalled = false
  /-- The trail of a run that served is numbered, and its last record, and no
  other, is `ok`. -/
  servedTrail : ∀ spec trail, served = some (spec, trail) → ServedTrail trail
  /-- The trail of a run that failed is numbered, and no record of it is `ok`. -/
  failedTrail : ∀ f, failed = some f → served = none ∧ Unserved f.trail
  /-- No candidate gets a second re-fit or a retry past the limit. -/
  overtried : g.overtried = false
  /-- The latency table is updated for the candidate that served and no other. -/
  metered : g.metered = match served with
    | some (spec, _) => if cfg.metrics then [spec.key] else []
    | none => []

/-- What a run of `route` reports as served. -/
def servedBy : Except Exn (Except RoutingFailed RouterOutcome) →
    Option (ModelSpec × List AttemptRecord)
  | .ok (.ok o) => some (o.spec, o.trail)
  | _ => none

/-- What a run of `routeStream` reports as served: its terminal event. -/
def streamedBy (g : Ledger) : Option (ModelSpec × List AttemptRecord) :=
  g.completed.map fun c => (c.spec, c.trail)

/-- The `RoutingFailed` a run raised. -/
def failedWith {ω : Type} : Except Exn (Except RoutingFailed ω) → Option RoutingFailed
  | .ok (.error f) => some f
  | _ => none

/-- The discipline of a run that ended without serving. -/
theorem disciplined_of_unserved {cfg : Config} {g : Ledger} {failed : Option RoutingFailed}
    (hs : Sound cfg g) (hm : g.metered = [])
    (hf : ∀ f, failed = some f → Failed cfg f g) : Disciplined cfg g none failed where
  raises f h := (hf f h).error
  recalled := hs.recalled
  servedTrail := by simp
  failedTrail f h := ⟨rfl, (hf f h).trail⟩
  overtried := hs.overtried
  metered := hm

/-- The discipline of a run that served. -/
theorem disciplined_of_served {cfg : Config} {g : Ledger} {spec : ModelSpec}
    {trail : List AttemptRecord} (h : Served cfg spec trail g) :
    Disciplined cfg g (some (spec, trail)) none where
  raises := by simp
  recalled := h.recalled
  servedTrail _ _ he := by cases he; exact h.trail
  failedTrail := by simp
  overtried := h.overtried
  metered := h.metered

theorem route_disciplined {cfg : Config} {g : Ledger}
    {r : Except Exn (Except RoutingFailed RouterOutcome)}
    (h : RunPost cfg False (Complete.Post cfg) r g) :
    Disciplined cfg g (servedBy r) (failedWith r) := by
  rcases r with e | f | o
  · exact disciplined_of_unserved h.toSound (h.finished.resolve_right fun hf => hf.1).1
      (by simp [failedWith])
  · exact disciplined_of_unserved h.toSound h.metered (by rintro _ ⟨⟩; exact h)
  · exact disciplined_of_served h

theorem routeStream_disciplined {cfg : Config} {g : Ledger}
    {r : Except Exn (Except RoutingFailed Unit)} (h : RunPost cfg True (Stream.Post cfg) r g) :
    Disciplined cfg g (streamedBy g) (failedWith r) := by
  have hnone : g.completed = none → streamedBy g = none := fun hc => by simp [streamedBy, hc]
  have hsome : ∀ c, g.completed = some c → streamedBy g = some (c.spec, c.trail) :=
    fun c hc => by simp [streamedBy, hc]
  rcases r with e | f | u
  · rcases h.finished with ⟨hm, hc⟩ | ⟨-, c, hc, hserved⟩
    · rw [hnone hc]
      exact disciplined_of_unserved h.toSound hm (by simp [failedWith])
    · rw [hsome c hc]
      exact disciplined_of_served hserved
  · rw [hnone h.completed]
    exact disciplined_of_unserved h.toSound h.metered (by rintro _ ⟨⟩; exact h)
  · obtain ⟨c, hc, hserved⟩ := h
    rw [hsome c hc]
    exact disciplined_of_served hserved

/-- **The failover discipline.** Every run of `route` and of `routeStream` is
disciplined, and where quota never refuses a candidate that was called and has
not failed in a way that lets another be asked, the run never moves on from
such a candidate either. -/
theorem failover_discipline (cfg : Config) (chain : List ModelSpec) :
    (∀ tr r, (route cfg chain).Runs tr r →
        Disciplined cfg (ledger cfg.maxAttempts tr) (servedBy r) (failedWith r) ∧
          ((ledger cfg.maxAttempts tr).refusedAtFault = false →
            (ledger cfg.maxAttempts tr).strayed = false)) ∧
      ∀ tr r, (routeStream cfg chain).Runs tr r →
        Disciplined cfg (ledger cfg.maxAttempts tr) (streamedBy (ledger cfg.maxAttempts tr))
            (failedWith r) ∧
          (r = .ok (.ok ()) → (streamedBy (ledger cfg.maxAttempts tr)).isSome) ∧
          ((ledger cfg.maxAttempts tr).refusedAtFault = false →
            (ledger cfg.maxAttempts tr).strayed = false) := by
  have hstray : ∀ g : Ledger, Sound cfg g → g.refusedAtFault = false → g.strayed = false := by
    intro g hs hf
    rw [← Bool.not_eq_true]
    intro hst
    rw [hs.strayed hst] at hf
    exact absurd hf (by decide)
  refine ⟨fun tr r hr => ⟨route_disciplined (route_post hr), ?_⟩,
    fun tr r hr => ⟨routeStream_disciplined (routeStream_post hr), ?_, ?_⟩⟩
  · exact hstray _ ((route_post hr).owed fun _ h => h.owed_eq).1
  · rintro rfl
    obtain ⟨c, hc, -⟩ := routeStream_post hr
    simp [streamedBy, hc]
  · exact hstray _ ((routeStream_post hr).owed fun _ ⟨_, _, h⟩ => h.owed_eq).1

/-- The model's real window is smaller than the configuration claims: the call
asks for a re-fit. -/
def overflowing : (q : Ask) → Ans q
  | .complete spec _ _ => if spec.contextWindow = 1000 then oblige (.complete spec "" "")
      else .error (.provider (failure (.contextTooLong (some 1000)) spec))
  | q => oblige q

/-- The same, and quota has nothing left for the re-fitted attempt. -/
def overflowingDry : (q : Ask) → Ans q
  | .complete spec _ _ => overflowing (.complete spec "" "")
  | .reserve spec scope tokens requestId extra =>
    if spec.contextWindow = 1000 then .ok { allowed := false, blockedWindow := some .rpm }
    else oblige (.reserve spec scope tokens requestId extra)
  | q => oblige q

/-- A run that re-fits once and is served. -/
theorem failover_discipline_overflowing :
    (Disciplined {} (ledger 3 (against overflowing (route {} [groq, gemini])).1)
        (servedBy (against overflowing (route {} [groq, gemini])).2)
        (failedWith (against overflowing (route {} [groq, gemini])).2) ∧
      (ledger 3 (against overflowing (route {} [groq, gemini])).1).strayed = false) ∧
    (Disciplined {} (ledger 3 (against oblige (routeStream {} [groq, gemini])).1)
        (streamedBy (ledger 3 (against oblige (routeStream {} [groq, gemini])).1))
        (failedWith (against oblige (routeStream {} [groq, gemini])).2) ∧
      (ledger 3 (against oblige (routeStream {} [groq, gemini])).1).strayed = false) :=
  have hroute := (failover_discipline {} [groq, gemini]).1 _ _ (against_runs overflowing _)
  have hstream := (failover_discipline {} [groq, gemini]).2 _ _ (against_runs oblige _)
  ⟨⟨hroute.1, hroute.2 (by decide)⟩, ⟨hstream.1, hstream.2.2 (by decide)⟩⟩

/-- **The discipline is not unconditional.** A re-fit that quota refuses ends the
visit as a skip, and the walk goes on to another candidate with a payload no
other may be asked about. -/
theorem not_failover_discipline :
    ¬ ∀ (cfg : Config) (chain : List ModelSpec) tr r, (route cfg chain).Runs tr r →
      Disciplined cfg (ledger cfg.maxAttempts tr) (servedBy r) (failedWith r) ∧
        (ledger cfg.maxAttempts tr).strayed = false := by
  intro h
  have hstrayed := (h {} [groq, gemini] _ _ (against_runs overflowingDry _)).2
  exact absurd hstrayed (by decide)

end Router

end LlmGateway
