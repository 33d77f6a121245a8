import LlmGateway.Effects.Triple
import LlmGateway.Providers.Deltas
import LlmGateway.Routing.Laws
import LlmGateway.Routing.Twins

/-!
# Errors in the middle of a stream

A provider may say that it has failed when its stream is already under way. What
`route_stream` completes is a stream that was read to where it stops, so an adapter
that raises on the error is enough; an adapter that takes the error for a chunk
without text hands on a truncated answer as a whole one.
-/

namespace LlmGateway

namespace Router

namespace Stream

open Effects Providers Json

/-! ## What is completed -/

/-- The stream last opened, and how it was answered. -/
abbrev Opened : Type := Option (Except Exn (List StreamChunk × StreamEnd))

def noteOpened (opened : Opened) : Event iface → Opened
  | ⟨.stream _ _ _, a⟩ => some a
  | _ => opened

/-- The stream last opened stops. -/
def Stops (opened : Opened) : Prop := ∃ chunks, opened = some (.ok (chunks, .stopped))

/-- The terminal event comes after a stream that stops. -/
def Completes (opened : Opened) : Event iface → Prop
  | ⟨.yield (.completed _), _⟩ => Stops opened
  | _ => True

/-- The questions that open no stream, and do not end one well. -/
def isAside : Ask → Bool
  | .stream _ _ _ | .yield (.completed _) => false
  | _ => true

/-- A program that asks nothing else. -/
abbrev Aside {ε α : Type} (p : Prog iface ε α) : Prop := p.Asks fun q => isAside q

/-- A block that keeps to the standard. -/
abbrev Keeping {ε α : Type} (J : Opened → Prop) (p : Prog iface ε α)
    (K : Except ε α → Opened → Prop) : Prop :=
  Upholds noteOpened Completes J p K

section

variable {ε α : Type} {J : Opened → Prop} {p : Prog iface ε α}

/-- Aside of the stream nothing changes. -/
theorem Aside.keeping (hp : Aside p) : Keeping J p fun _ => J := by
  refine Upholds.of_asks hp (fun s q a hq => ?_) fun s q a hq => ?_
  · cases q with
    | stream spec payload key => cases hq
    | _ => rfl
  · cases q with
    | yield ev =>
      cases ev with
      | completed c => cases hq
      | _ => trivial
    | _ => trivial

theorem keeping_withLocals {p : Eff α} (hp : Aside p) (t : Tried) :
    Keeping J (p.withLocals t) fun _ => J :=
  Aside.keeping (hp.mapError _)

/-- A question whose answer is handed on. -/
theorem aside_ask {q : Ask} {f : Ans q → Except ε α} (hq : isAside q) :
    Aside (.ask q fun a => .ofExcept (f a)) :=
  ⟨hq, fun a => Prog.asks_ofExcept (f a)⟩

theorem aside_of_calls (hp : Calls p) : Aside p := by
  refine hp.mono fun q hq => ?_
  cases q with
  | stream spec payload key => cases hq
  | yield ev => cases hq
  | _ => rfl

end

/-! ## The blocks beside the stream -/

theorem aside_elapsedMs (since : Seconds) : Aside (elapsedMs since) :=
  .bind ⟨rfl, fun _ => trivial⟩ fun _ => trivial

theorem aside_log (line : LogLine) : Aside (log line) := ⟨rfl, fun _ => trivial⟩

theorem aside_yield {ev : RouteStreamEvent} (h : ∀ c, ev ≠ .completed c) :
    Aside (yieldEvent ev) := by
  refine ⟨?_, fun a => Prog.asks_ofExcept a.outcome⟩
  cases ev with
  | completed c => exact absurd rfl (h c)
  | _ => rfl

theorem aside_recordLatency (cfg : Config) (spec : ModelSpec) (series : Series) (ms : Int) :
    Aside (recordLatency cfg spec series ms) := by
  unfold recordLatency
  split
  · exact ⟨rfl, fun _ => trivial⟩
  · trivial

theorem aside_skipQuota {ω : Type} (v : Visit) (decision : BreakerDecision)
    (resolved : ResolvedKey) (refusal : QuotaDecision) :
    Aside (skipQuota (ω := ω) v decision resolved refusal) :=
  .bind (aside_log _) fun _ => trivial

theorem aside_pump (attemptStarted : Seconds) (chunks : List StreamChunk) (t : Tried) :
    Aside (pump attemptStarted chunks t) := by
  induction chunks generalizing t with
  | nil => trivial
  | cons chunk chunks ih =>
    refine .bind (.mapError ?_ _) fun ms => ?_
    · unfold firstTokenMs
      split
      · trivial
      · exact aside_elapsedMs _
    · dsimp only
      split
      · exact ih _
      · refine .bind (.mapError ?_ _) fun _ => ih _
        exact aside_yield fun _ => nofun

theorem aside_aclose (t : Tried) : Aside (aclose.withLocals t) := by
  refine .mapError ?_ _
  exact aside_ask rfl

theorem aside_giveUp (started : Seconds) (decision : BreakerDecision) (resolved : ResolvedKey)
    (v : Visit) (walk : Walk) (exc : ProviderError) :
    Aside (giveUp started decision resolved v walk exc) := by
  refine .bind ⟨rfl, fun _ => Prog.asks_ofExcept _⟩ fun _ => ?_
  split
  · trivial
  · exact .bind (aside_log _) fun _ => .bind (aside_elapsedMs _) fun _ => trivial

theorem aside_decideNext (cfg : Config) (started : Seconds) (decision : BreakerDecision)
    (candidatesRemaining : Nat) (resolved : ResolvedKey) (v : Visit) (walk : Walk)
    (deliveredChars : Nat) (exc : ProviderError) :
    Aside (decideNext cfg started decision candidatesRemaining resolved v walk deliveredChars
      exc) := by
  unfold decideNext
  split
  next => exact .bind (aside_log _) fun _ => trivial
  next =>
    dsimp only
    split
    next =>
      split
      next => exact .bind (aside_log _) fun _ => aside_giveUp ..
      next =>
        refine .bind ⟨rfl, fun _ => trivial⟩ fun delay => ?_
        exact .bind ⟨rfl, fun _ => Prog.asks_ofExcept _⟩ fun _ => trivial
    next => exact aside_giveUp ..

theorem aside_onError (cfg : Config) (started attemptStarted : Seconds)
    (decision : BreakerDecision) (candidatesRemaining : Nat) (resolved : ResolvedKey) (v : Visit)
    (tried : Tried) (exc : ProviderError) :
    Aside (onError cfg started attemptStarted decision candidatesRemaining resolved v tried
      exc) :=
  .bind (aside_elapsedMs _) fun _ => .bind (aside_of_calls (settle_asks ..)) fun _ =>
    .bind (aside_of_calls (reconcileHint_asks ..)) fun _ =>
    .bind (aside_of_calls (discloseAuthFailure_asks ..)) fun _ => .bind (aside_log _) fun _ =>
    .bind (aside_yield fun _ => nofun) fun _ => aside_decideNext ..

/-! ## An attempt -/

/-- What is answered was read to where it stops. -/
def Answers : Except (Exn × Tried) Tries → Opened → Prop
  | .ok (.answered _ _) => Stops
  | _ => fun _ => True

/-- What is left without an exception was read to where it stops. -/
def Drained : Except (Exn × Tried) Tried → Opened → Prop
  | .ok _ => Stops
  | .error _ => fun _ => True

/-- **A stream is left without an exception only where it stops.** -/
theorem keeping_drain (spec : ModelSpec) (attemptStarted : Seconds) (chunks : List StreamChunk)
    (ending : StreamEnd) (t : Tried) :
    Keeping (· = some (.ok (chunks, ending))) (drain spec attemptStarted chunks ending t)
      Drained := by
  refine Upholds.attempt (K := Drained) ?_ fun r => ?_
  · refine Upholds.bind (aside_pump attemptStarted chunks t).keeping (fun t => ?_)
      fun _ _ _ => trivial
    cases ending with
    | stopped => exact Upholds.ret fun opened hopened => ⟨chunks, hopened⟩
    | timedOut => exact Upholds.raise fun _ _ => trivial
    | raised e => exact Upholds.raise fun _ _ => trivial
  · rcases r with ⟨e, t⟩ | t
    · exact Upholds.bind (aside_aclose t).keeping (fun _ => Upholds.raise fun _ _ => trivial)
        fun _ _ _ => trivial
    · exact Upholds.bind (aside_aclose t).keeping (fun _ => Upholds.ret fun _ h => h)
        fun _ _ _ => trivial

theorem keeping_tryAttempt (cfg : Config) (attemptStarted : Seconds) (v : Visit)
    (resolved : ResolvedKey) :
    Keeping (fun _ => True) (tryAttempt cfg attemptStarted v resolved) Answers := by
  have hrender : Aside (render v.spec) := aside_ask rfl
  have hstarted : ∀ n, Aside (yieldEvent (.started n v.spec)) := fun n => aside_yield fun _ => nofun
  refine Upholds.bind (keeping_withLocals hrender _) (fun rendered => ?_) fun _ _ _ => trivial
  refine Upholds.bind (keeping_withLocals (aside_of_calls (takeReservation_asks ..)) _)
    (fun gate => ?_) fun _ _ _ => trivial
  cases gate with
  | refused decision => exact Upholds.ret fun _ _ => trivial
  | go reservation =>
    refine Upholds.bind (keeping_withLocals (hstarted _) _) (fun _ => ?_) fun _ _ _ => trivial
    refine Upholds.bind (K := fun r opened => match r with
      | .ok answer => opened = some (.ok answer)
      | .error _ => True) (Upholds.mapError (Upholds.ask fun _ answer _ => ?_)) (fun answer => ?_)
      fun _ _ _ => trivial
    · refine ⟨trivial, ?_⟩
      cases answer <;> trivial
    · refine Upholds.bind (K := Drained) (keeping_drain _ _ answer.1 answer.2 _) (fun tried => ?_)
        fun _ _ _ => trivial
      split
      · exact Upholds.raise fun _ _ => trivial
      · exact Upholds.ret fun _ h => h

/-- The terminal event, after a stream that stops. -/
theorem keeping_onSuccess (cfg : Config) (started attemptStarted : Seconds)
    (decision : BreakerDecision) (resolved : ResolvedKey) (v : Visit) (tried : Tried)
    (report : RenderReport) :
    Keeping Stops (onSuccess cfg started attemptStarted decision resolved v tried report)
      fun _ _ => True := by
  refine Upholds.bind (aside_elapsedMs _).keeping (fun _ => ?_) fun _ _ _ => trivial
  refine Upholds.bind (aside_of_calls (settle_asks ..)).keeping (fun _ => ?_) fun _ _ _ => trivial
  refine Upholds.bind (aside_of_calls (reconcileHint_asks ..)).keeping (fun _ => ?_)
    fun _ _ _ => trivial
  refine Upholds.bind (Aside.keeping ⟨rfl, fun _ => Prog.asks_ofExcept _⟩) (fun _ => ?_)
    fun _ _ _ => trivial
  refine Upholds.bind (aside_recordLatency ..).keeping (fun _ => ?_) fun _ _ _ => trivial
  refine Upholds.bind (aside_log _).keeping (fun _ => ?_) fun _ _ _ => trivial
  refine Upholds.bind (aside_elapsedMs _).keeping (fun _ => ?_) fun _ _ _ => trivial
  refine Upholds.bind (K := fun _ _ => True) (Upholds.ask fun _ _ h => ⟨h, trivial⟩)
    (fun _ => Upholds.ret fun _ _ => trivial) fun _ _ _ => trivial

theorem keeping_pass (cfg : Config) (started : Seconds) (decision : BreakerDecision)
    (candidatesRemaining : Nat) (v : Visit) :
    Keeping (fun _ => True) (pass cfg started decision candidatesRemaining v)
      fun _ _ => True := by
  refine Upholds.bind (Aside.keeping (p := now) ⟨rfl, fun _ => trivial⟩) (fun attemptStarted => ?_)
    fun _ _ _ => trivial
  refine Upholds.bind (Aside.keeping (p := adapterForSpec v.spec)
    ⟨rfl, fun _ => Prog.asks_ofExcept _⟩) (fun _ => ?_) fun _ _ _ => trivial
  refine Upholds.bind (Aside.keeping (p := forProvider v.spec.provider v.spec.model)
    ⟨rfl, fun _ => Prog.asks_ofExcept _⟩) (fun resolved => ?_) fun _ _ _ => trivial
  refine Upholds.attempt (keeping_tryAttempt cfg attemptStarted v resolved) fun r => ?_
  rcases r with ⟨e, tried⟩ | refusal | ⟨tried, report⟩
  · cases e with
    | provider exc => exact (aside_onError ..).keeping
    | _ => exact Upholds.raise fun _ _ => trivial
  · exact (aside_skipQuota ..).keeping
  · exact keeping_onSuccess _ _ _ _ _ _ _ _

/-! ## The walk -/

theorem keeping_visitCandidate (cfg : Config) (started : Seconds) (candidate : ModelSpec)
    (rest : List ModelSpec) (w : Walk) :
    Keeping (fun _ => True) (visitCandidate cfg (pass cfg started) candidate rest w)
      fun _ _ => True := by
  unfold visitCandidate
  split
  next => exact Upholds.ret fun _ _ => trivial
  next =>
    refine Upholds.bind (Aside.keeping (p := allows candidate.provider candidate.model)
      (aside_ask rfl)) (fun decision => ?_) fun _ _ _ => trivial
    split
    next =>
      refine Upholds.iterate Visit.left (fun _ _ => True) fun v => ?_
      refine (keeping_pass cfg started decision rest.length v).mono (fun _ h => h) ?_
      rintro (e | v' | f) opened -
      · trivial
      · trivial
      · trivial
    next =>
      exact Upholds.bind (aside_log _).keeping (fun _ => Upholds.ret fun _ _ => trivial)
        fun _ _ _ => trivial

theorem aside_exhausted {ω : Type} (cfg : Config) (chain : List ModelSpec) (started : Seconds)
    (w : Walk) : Aside (exhausted (ω := ω) cfg chain started w) :=
  .bind (aside_log _) fun _ => .bind (aside_elapsedMs _) fun _ => trivial

theorem keeping_routeStream (cfg : Config) (chain : List ModelSpec) :
    Keeping (fun _ => True) (routeStream cfg chain) fun _ _ => True := by
  refine Upholds.bind (Aside.keeping (p := now) ⟨rfl, fun _ => trivial⟩) (fun started => ?_)
    fun _ _ _ => trivial
  refine Upholds.bind (K := fun _ _ => True) (Upholds.forEach (fun _ _ => True)
    (fun _ _ _ => trivial) fun candidate rest w => ?_) (fun flow => ?_) fun _ _ _ => trivial
  · refine (keeping_visitCandidate cfg started candidate rest w).mono (fun _ h => h) ?_
    rintro (e | w | w | f) opened -
    · trivial
    · trivial
    · trivial
    · trivial
  · cases flow with
    | done f => exact Upholds.ret fun _ _ => trivial
    | next w => exact (aside_exhausted cfg chain started w).keeping
    | stop w => exact (aside_exhausted cfg chain started w).keeping

/-- **What is completed was read to where it stops**, in every run of `route_stream`. -/
theorem completes_of_run {cfg : Config} {chain : List ModelSpec} {tr : List (Event iface)}
    {r : Except Exn (Except RoutingFailed Unit)} (h : (routeStream cfg chain).Runs tr r) :
    Heeds noteOpened Completes none tr :=
  ((keeping_routeStream cfg chain).runs trivial h).1

/-! ## An error is never a success -/

variable {F : Type}

/-- The terminal event is yielded. -/
def completes : Event iface → Bool
  | ⟨.yield (.completed _), _⟩ => true
  | _ => false

/-- **Never a success**: a stream of these events has raised by then, and no run of `route_stream`
completes it, whatever comes behind them. -/
def NeverASuccess (readings : Readings F) (adapter : Adapter) (model : String)
    (frames : List (Frame F)) : Prop :=
  adapter.RaisesBy readings model frames ∧
    ∀ (cfg : Config) (chain : List ModelSpec) (tr : List (Event iface))
      (r : Except Exn (Except RoutingFailed Unit)), (routeStream cfg chain).Runs tr r →
        ∀ rest ending, Heeds noteOpened (fun opened e => completes e →
          opened ≠ some (.ok (adapter.stream readings model ending (frames ++ rest)))) none tr

/-- A stream that has raised by then is not completed. -/
theorem neverASuccess_of_raisesBy {readings : Readings F} {adapter : Adapter} {model : String}
    {frames : List (Frame F)} (h : adapter.RaisesBy readings model frames) :
    NeverASuccess readings adapter model frames := by
  refine ⟨h, fun cfg chain tr r hruns rest ending before e behind heq hcompletes hopened => ?_⟩
  have hstops := completes_of_run hruns before e behind heq
  obtain ⟨chunks, error, hstream⟩ := h
  rw [hstream] at hopened
  obtain ⟨q, a⟩ := e
  cases q with
  | yield ev =>
    cases ev with
    | completed c =>
      obtain ⟨read, hread⟩ : Stops (before.foldl noteOpened none) := hstops
      rw [hread] at hopened
      cases hopened
    | _ => cases hcompletes
  | _ => cases hcompletes

/-- **An error in the middle of a stream is never a success** exactly when the adapter is
OpenRouter's, or refuses on one of the events up to it. -/
theorem neverASuccess_iff (readings : Readings F) (adapter : Adapter) (model : String)
    (before : List (Frame F)) {event : Frame F} (herror : IsError event) :
    NeverASuccess readings adapter model (before ++ [event]) ↔
      adapter = .openrouter ∨ ∃ frame ∈ before ++ [event], adapter.Refuses readings frame := by
  have hraises : NeverASuccess readings adapter model (before ++ [event]) ↔
      ∃ frame ∈ before ++ [event], adapter.Raises readings model frame :=
    Iff.trans ⟨fun h => h.1, neverASuccess_of_raisesBy⟩ Adapter.raisesBy_iff
  rw [hraises]
  constructor
  · rintro ⟨frame, hframe, h⟩
    rcases Adapter.raises_iff.mp h with hrefuses | ⟨hadapter, -⟩
    · exact .inr ⟨frame, hframe, hrefuses⟩
    · exact .inl hadapter
  · rintro (hadapter | ⟨frame, hframe, hrefuses⟩)
    · have hmem : event ∈ before ++ [event] := List.mem_append_right _ List.mem_cons_self
      exact ⟨event, hmem, Adapter.raises_iff.mpr (.inr ⟨hadapter, herror⟩)⟩
    · exact ⟨frame, hframe, Adapter.raises_iff.mpr (.inl hrefuses)⟩

/-! ## An overloaded provider -/

/-- What is read outside the adapters, where nothing is. -/
def noReadings : Readings Unit where
  isZero := fun _ => true
  str := fun _ => ""
  classify := fun _ _ model =>
    { kind := .unavailable, message := "upstream", provider := "openrouter", model }

/-- A delta in the common dialect. -/
def hello : Frame Unit :=
  some (.obj [("choices", .arr [.obj [("delta", .obj [("content", .str "Hello")])]])])

/-- An error. -/
def overloaded : Frame Unit := some (.obj [("error", .obj [("message", .str "overloaded")])])

/-- OpenRouter's stream raises on it. -/
theorem neverASuccess_openrouter :
    NeverASuccess noReadings .openrouter "llama" ([hello] ++ [overloaded]) :=
  (neverASuccess_iff noReadings .openrouter "llama" [hello] ⟨_, _, rfl, rfl⟩).mpr (.inl rfl)

/-- The obliging environment, with Groq's stream of the two. -/
def truncated : (q : Ask) → Ans q
  | .stream _ _ _ => .ok (Adapter.groq.stream noReadings "llama" .stopped [hello, overloaded])
  | q => oblige q

/-- Groq's stream of the two stops, and the run completes with what came before the error. -/
theorem not_neverASuccess :
    ¬ NeverASuccess noReadings .groq "llama" ([hello] ++ [overloaded]) := by
  rintro ⟨-, h⟩
  have hruns := against_runs truncated (routeStream { quota := false } [groq])
  have hne : (against truncated (routeStream { quota := false } [groq])).1 ≠ [] := nofun
  -- The terminal event is the last one.
  exact h _ _ _ _ hruns [] .stopped _ _ [] (List.dropLast_append_getLast hne).symm rfl rfl

end Stream

end Router

end LlmGateway
