import LlmGateway.Effects.Twin
import LlmGateway.Routing.Laws
import Mathlib.Algebra.Ring.Nat

/-!
# The two loops agree

`route` and `routeStream` run side by side in one environment: whatever the
breaker, the quota tracker, the credentials, the renderer and the jitter answer
is a function of the calls made so far, and so is the outcome of an attempt. The
stream of a failing attempt ends before it hands over any text; that of a
successful one reports the usage of the completion.
-/

namespace LlmGateway

/-- A record without the time it measured. -/
def AttemptRecord.timeless (r : AttemptRecord) : AttemptRecord := { r with latencyMs := 0 }

/-- A failure without the times it measured. -/
def RoutingFailed.timeless (f : RoutingFailed) : RoutingFailed :=
  { f with latencyMs := 0, trail := f.trail.map AttemptRecord.timeless }

namespace Router

open Effects

/-! ## One environment for both -/

/-- The characters of text in a stream's chunks. -/
def delivered (chunks : List StreamChunk) : Nat := (chunks.map (·.delta.length)).sum

/-- The usage a stream's chunks report: the last one that is there. -/
def reported : List StreamChunk → Option Usage
  | [] => none
  | chunk :: chunks => reported chunks <|> chunk.usage

/-- What `route_stream` makes of a stream without text. -/
def noContent (spec : ModelSpec) : ProviderError :=
  { kind := .emptyResponse, message := "stream closed without producing any content"
    provider := spec.provider, model := spec.model }

/-- A stream that has the outcome of an attempt. A failure comes on opening it
or at its end, with no text before; a success delivers text, stops, and reports
the completion's usage. -/
def Realises (spec : ModelSpec) :
    Except Exn Completion → Except Exn (List StreamChunk × StreamEnd) → Prop
  | .error e, .error e' => e' = e
  | .error e, .ok (chunks, ending) =>
    delivered chunks = 0 ∧ (Stream.endExn spec ending).getD (.provider (noContent spec)) = e
  | .ok completion, .ok (chunks, ending) =>
    0 < delivered chunks ∧ ending = .stopped ∧ reported chunks = some completion.usage
  | .ok _, .error _ => False

/-- What a run has done: its calls with their answers, a stream standing for the
completion it realises, and the terminal event it yielded. -/
structure Track where
  history : List (Event iface) := []
  completed : Option StreamCompleted := none

def Track.note (s : Track) (q : Ask) (a : Ans q) : Track :=
  { s with history := s.history ++ [⟨q, a⟩] }

/-- **The common environment.** `O` answers a call by the calls before it. The
clock reads anything, the log and the latency table are not calls, and the
consumer takes every event. -/
def common (O : List (Event iface) → (q : Ask) → Ans q) : World iface Track
  | s, .now, _, s' => s' = s
  | s, .log _, _, s' => s' = s
  | s, .metricsRecord _ _ _ _, _, s' => s' = s
  | s, .aclose, a, s' => a = .ok () ∧ s' = s
  | s, .yield (.completed c), a, s' => a = .next ∧ s' = { s with completed := some c }
  | s, .yield _, a, s' => a = .next ∧ s' = s
  | s, .stream spec payload key, a, s' =>
    Realises spec (O s.history (.complete spec payload key)) a ∧
      s' = s.note (.complete spec payload key) (O s.history (.complete spec payload key))
  | s, q, a, s' => a = O s.history q ∧ s' = s.note q a

/-- The questions both loops ask: the calls, but for the opening of a stream. -/
def Ask.isCall : Ask → Bool
  | .now | .log _ | .metricsRecord _ _ _ _ | .aclose | .yield _ | .stream _ _ _ => false
  | _ => true

theorem common_call {O : List (Event iface) → (q : Ask) → Ans q} {q : Ask} (hq : q.isCall)
    {s s' : Track} {a : Ans q} (h : common O s q a s') :
    a = O s.history q ∧ s' = s.note q a := by
  cases q <;> first | exact h | simp [Ask.isCall] at hq

/-- The call a question makes, if it makes one: the opening of a stream makes the
call of the completion. -/
def Ask.call : Ask → Option Ask
  | .stream spec payload key => some (.complete spec payload key)
  | q => if q.isCall then some q else none

/-- The calls of a trace, with their arguments, in order. -/
def issued (tr : List (Event iface)) : List Ask := tr.filterMap fun e => Ask.call e.ask

theorem common_history {O : List (Event iface) → (q : Ask) → Ans q} {s s' : Track} {q : Ask}
    {a : Ans q} (h : common O s q a s') :
    s'.history.map Event.ask = s.history.map Event.ask ++ q.call.toList := by
  by_cases hq : q.isCall
  · obtain ⟨-, rfl⟩ := common_call hq h
    have hcall : q.call = some q := by cases q <;> first | rfl | simp [Ask.isCall] at hq
    simp [Track.note, hcall]
  · cases q with
    | stream =>
      obtain ⟨-, rfl⟩ := h
      simp [Track.note, Ask.call]
    | now | log | metricsRecord =>
      obtain rfl := h
      simp [Ask.call, Ask.isCall]
    | aclose =>
      obtain ⟨-, rfl⟩ := h
      simp [Ask.call, Ask.isCall]
    | yield ev =>
      cases ev <;> obtain ⟨-, rfl⟩ := h <;> simp [Ask.call, Ask.isCall]
    | _ => simp [Ask.isCall] at hq

/-- The history is the calls of the trace. -/
theorem accepts_history {O : List (Event iface) → (q : Ask) → Ans q} {s s' : Track}
    {tr : List (Event iface)} (h : (common O).Accepts s tr s') :
    s'.history.map Event.ask = s.history.map Event.ask ++ issued tr := by
  induction h with
  | nil s => simp [issued]
  | @cons s s' s'' q a tr hw _ ih =>
    rw [ih, common_history hw, issued, issued, List.filterMap_cons]
    cases q.call <;> simp

/-- A block that asks nothing but calls. -/
abbrev Calls {ε α : Type} (p : Prog iface ε α) : Prop := p.Asks fun q => Ask.isCall q

/-! ## Calls in step -/

/-- The two runs have made the same calls, and the stream is not through. -/
def Abreast (s s' : Track) : Prop := s.history = s'.history ∧ s'.completed = none

/-- So it is, and the two hold related values. -/
def Alongside {α α' : Type} (M : α → α' → Prop) (a : α) (a' : α') (s s' : Track) : Prop :=
  M a a' ∧ Abreast s s'

section

variable {O : List (Event iface) → (q : Ask) → Ans q} {ε ε' α α' β β' : Type}
  {N : β → β' → Track → Track → Prop} {E : ε → ε' → Track → Track → Prop}

/-- What the relation says of the values is at hand in what follows. -/
theorem Alongside.given {M : α → α' → Prop} {a : α} {a' : α'} {p : Prog iface ε β}
    {p' : Prog iface ε' β'} (h : M a a' → Twins (common O) Abreast p p' N E) :
    Twins (common O) (Alongside M a a') p p' N E :=
  fun s s' hs => h hs.1 s s' hs.2

/-- Sequence, where the first halves return the same. -/
theorem Abreast.bind {p : Prog iface ε α} {p' : Prog iface ε' α} {f : α → Prog iface ε β}
    {f' : α → Prog iface ε' β'} (h : Twins (common O) Abreast p p' (Alongside Eq) E)
    (hf : ∀ a, Twins (common O) Abreast (f a) (f' a) N E) :
    Twins (common O) Abreast (p >>= f) (p' >>= f') N E :=
  .bind h fun a _ => Alongside.given fun ha => ha ▸ hf a

/-- A block of calls, which both make: the same answers, as the same calls came
before. -/
theorem Abreast.same {p : Prog iface ε α} (hp : Calls p) :
    Twins (common O) Abreast p p (Alongside Eq) (Alongside Eq) := by
  refine .same (fun q hq s s' a a' t t' hs hw hw' => ?_) hp
  obtain ⟨rfl, rfl⟩ := common_call hq hw
  obtain ⟨rfl, rfl⟩ := common_call hq hw'
  obtain ⟨hhist, hnone⟩ := hs
  exact ⟨⟨by simp [Track.note, hhist], hnone⟩, by rw [hhist]⟩

/-- A question that leaves no trace, on the left. -/
theorem Abreast.left {q : Ask} {k : Ans q → Prog iface ε β} {p' : Prog iface ε' β'}
    (hq : ∀ s a s', common O s q a s' → s' = s)
    (hk : ∀ a, Twins (common O) Abreast (k a) p' N E) :
    Twins (common O) Abreast (.ask q k) p' N E :=
  .left (fun s _ a t hs hw => hq s a t hw ▸ hs) hk

/-- A question that leaves no trace, on the right, with what is known of its
answer. -/
theorem Abreast.right {q : Ask} {p : Prog iface ε β} {k' : Ans q → Prog iface ε' β'}
    (A : Ans q → Prop) (hq : ∀ s a s', common O s q a s' → A a ∧ s' = s)
    (hk : ∀ a, A a → Twins (common O) Abreast p (k' a) N E) :
    Twins (common O) Abreast p (.ask q k') N E :=
  .right A (fun _ s' a t' hs hw => by obtain ⟨ha, rfl⟩ := hq s' a t' hw; exact ⟨hs, ha⟩) hk

/-- An event before the terminal one: the consumer takes it. -/
theorem Abreast.yield {ev : RouteStreamEvent} {p : Prog iface ε β}
    {k' : Consumer → Prog iface ε' β'} (hev : ∀ c, ev ≠ .completed c)
    (h : Twins (common O) Abreast p (k' .next) N E) :
    Twins (common O) Abreast p (.ask (.yield ev) k') N E := by
  refine Abreast.right (· = Consumer.next) (fun s a s' hw => ?_) ?_
  · cases ev with
    | completed c => exact absurd rfl (hev c)
    | started | delta | aborted => exact hw
  · rintro _ rfl
    exact h

end

section

variable {O : List (Event iface) → (q : Ask) → Ans q} {α β β' : Type}
  {N : β → β' → Track → Track → Prop} {E : Exn → Exn → Track → Track → Prop}
  {p : Eff β} {p' : Eff β'}

theorem Abreast.now_both {f : Seconds → Eff β} {f' : Seconds → Eff β'}
    (h : ∀ t t', Twins (common O) Abreast (f t) (f' t') N E) :
    Twins (common O) Abreast (now >>= f) (now >>= f') N E :=
  Abreast.left (fun _ _ _ h => h) fun t =>
    Abreast.right (fun _ => True) (fun _ _ _ h => ⟨trivial, h⟩) fun t' _ => h t t'

theorem Abreast.elapsed_both {since since' : Seconds} {f : Int → Eff β} {f' : Int → Eff β'}
    (h : ∀ ms ms', Twins (common O) Abreast (f ms) (f' ms') N E) :
    Twins (common O) Abreast (elapsedMs since >>= f) (elapsedMs since' >>= f') N E :=
  Abreast.now_both fun _ _ => h _ _

theorem Abreast.log_both {line line' : LogLine} {f : Unit → Eff β} {f' : Unit → Eff β'}
    (h : Twins (common O) Abreast (f ()) (f' ()) N E) :
    Twins (common O) Abreast (log line >>= f) (log line' >>= f') N E :=
  Abreast.left (fun _ _ _ h => h) fun _ =>
    Abreast.right (fun _ => True) (fun _ _ _ h => ⟨trivial, h⟩) fun _ _ => h

/-- The terminal event, with which the stream is through. -/
theorem Abreast.terminal {b : β} {b' : β'} {c : StreamCompleted}
    (h : ∀ s s', s.history = s'.history → s'.completed = some c → N b b' s s') :
    Twins (common O) Abreast (.ret b) (yieldEvent (.completed c) >>= fun _ => .ret b') N E := by
  have hq : ∀ s s' (a : Consumer) t', Abreast s s' → common O s' (.yield (.completed c)) a t' →
      (s.history = t'.history ∧ t'.completed = some c) ∧ a = .next := by
    rintro s s' a t' hs ⟨ha, rfl⟩
    exact ⟨⟨hs.1, rfl⟩, ha⟩
  refine .right _ hq ?_
  rintro _ rfl
  exact .ret fun s s' hs => h s s' hs.1 hs.2

theorem Abreast.latency_both {cfg : Config} {spec spec' : ModelSpec} {series series' : Series}
    {ms ms' : Int} {f : Unit → Eff β} {f' : Unit → Eff β'}
    (h : Twins (common O) Abreast (f ()) (f' ()) N E) :
    Twins (common O) Abreast (recordLatency cfg spec series ms >>= f)
      (recordLatency cfg spec' series' ms' >>= f') N E := by
  unfold recordLatency
  split
  · exact Abreast.left (fun _ _ _ h => h) fun _ =>
      Abreast.right (fun _ => True) (fun _ _ _ h => ⟨trivial, h⟩) fun _ _ => h
  · exact h

end

/-! ## The calls of the shared blocks -/

section

variable (cfg : Config) (spec : ModelSpec) (resolved : ResolvedKey)

theorem takeReservation_asks (report : RenderReport) :
    Calls (takeReservation cfg spec resolved report) := by
  unfold takeReservation
  split
  · refine .bind ⟨rfl, fun _ => trivial⟩ fun requestId => .bind ⟨rfl, Prog.asks_ofExcept⟩ fun decision => ?_
    split <;> trivial
  · trivial

theorem settle_asks (reservation : Option Reservation) (tokensIn tokensOut : Int) :
    Calls (settle cfg reservation tokensIn tokensOut) := by
  unfold settle
  split
  · exact ⟨rfl, fun a => Prog.asks_ofExcept a.outcome⟩
  · trivial

theorem reconcileHint_asks (scope : String) :
    Calls (reconcileHint cfg spec scope) := by
  refine .bind ⟨rfl, fun _ => trivial⟩ fun hint => ?_
  cases hint with
  | none => trivial
  | some hint =>
    dsimp only
    split
    · exact ⟨rfl, Prog.asks_ofExcept⟩
    · trivial

theorem discloseAuthFailure_asks (exc : ProviderError) :
    Calls (discloseAuthFailure resolved exc) := by
  unfold discloseAuthFailure
  split
  · exact ⟨rfl, Prog.asks_ofExcept⟩
  · trivial

end

/-! ## Locals in step -/

/-- Two walks that differ in measured times only, and have wasted nothing. -/
structure Walk.Alike (w w' : Walk) : Prop where
  trail : w.trail.map AttemptRecord.timeless = w'.trail.map AttemptRecord.timeless
  attempts : w.attempts = w'.attempts
  lastError : w.lastError = w'.lastError
  lastSpec : w.lastSpec = w'.lastSpec
  lastKeyPool : w.lastKeyPool = w'.lastKeyPool
  clean : w.wastedTotal = 0
  clean' : w'.wastedTotal = 0

/-- Two visits that differ in their walks only. -/
structure Visit.Alike (v v' : Visit) : Prop where
  spec : v.spec = v'.spec
  refitUsed : v.refitUsed = v'.refitUsed
  retriesUsed : v.retriesUsed = v'.retriesUsed
  walk : v.walk.Alike v'.walk

theorem Walk.Alike.append {w w' : Walk} (h : w.Alike w') {record record' : Nat → AttemptRecord}
    (hr : ∀ n, (record n).timeless = (record' n).timeless) :
    (w.append record).Alike (w'.append record') where
  trail := by
    have hlen : w.trail.length = w'.trail.length := by
      simpa using congrArg List.length h.trail
    simp [Walk.append, h.trail, hlen, hr]
  attempts := h.attempts
  lastError := h.lastError
  lastSpec := h.lastSpec
  lastKeyPool := h.lastKeyPool
  clean := h.clean
  clean' := h.clean'

/-- A failed attempt without text wastes nothing. -/
theorem Walk.Alike.blame {w w' : Walk} (h : w.Alike w') (attempts : Nat) (exc : ProviderError)
    (spec : ModelSpec) (pool : KeyPool) :
    Walk.Alike
      { w with
        attempts, lastError := some exc, lastSpec := some spec, lastKeyPool := some pool }
      { w' with
        attempts, wastedTotal := w'.wastedTotal + estimateDiscardedTokens 0
        lastError := some exc, lastSpec := some spec, lastKeyPool := some pool } where
  trail := h.trail
  attempts := rfl
  lastError := rfl
  lastSpec := rfl
  lastKeyPool := rfl
  clean := h.clean
  clean' := by simp [h.clean', estimateDiscardedTokens]

/-- The error of a run that attempted nothing reads no time. -/
theorem allSkipped_timeless (chain : List ModelSpec) (trail : List AttemptRecord) :
    allSkipped chain (trail.map AttemptRecord.timeless) = allSkipped chain trail := by
  have hfilter : (trail.map AttemptRecord.timeless).filter (·.outcome == .skippedQuota) =
      (trail.filter (·.outcome == .skippedQuota)).map AttemptRecord.timeless := by
    rw [List.filter_map]
    rfl
  unfold allSkipped
  rw [hfilter]
  cases trail.filter (·.outcome == .skippedQuota) with
  | nil => rfl
  | cons first rest => simp [AttemptRecord.timeless, Function.comp_def]

/-- What both loops report of a served turn. -/
structure SameReport (out : RouterOutcome) (c : StreamCompleted) : Prop where
  spec : out.spec = c.spec
  report : out.report = c.report
  trail : out.trail.map AttemptRecord.timeless = c.trail.map AttemptRecord.timeless
  attempts : out.attempts = c.attempts
  keyPool : out.keyPool = c.keyPool
  usage : out.completion.usage = c.usage

/-- Two runs that end alike: both serve, and the terminal event reports what
`route` returns; both raise `RoutingFailed`, the same but for the times it
measured; or both raise the same exception. -/
inductive Agree : Except Exn (Except RoutingFailed RouterOutcome) →
    Except Exn (Except RoutingFailed Unit) → Option StreamCompleted → Prop
  | served {out : RouterOutcome} {c : StreamCompleted} (h : SameReport out c) :
    Agree (.ok (.ok out)) (.ok (.ok ())) (some c)
  | failed {f f' : RoutingFailed} (h : f.timeless = f'.timeless) :
    Agree (.ok (.error f)) (.ok (.error f')) none
  | raised (e : Exn) : Agree (.error e) (.error e) none

/-- The two runs have come to their ends, after the same calls. -/
def Ended (r : Except RoutingFailed RouterOutcome) (r' : Except RoutingFailed Unit)
    (s s' : Track) : Prop :=
  s.history = s'.history ∧ Agree (.ok r) (.ok r') s'.completed

/-- Two passes that end alike. -/
abbrev Passed {v v' : Visit} : Pass RouterOutcome v → Pass Unit v' → Track → Track → Prop :=
  Turned (Alongside Visit.Alike) (Flowed (Alongside Walk.Alike) Ended)

/-! ## The blocks in step -/

section

variable {O : List (Event iface) → (q : Ask) → Ans q} {cfg : Config} {started started' : Seconds}
  {decision : BreakerDecision} {candidatesRemaining : Nat} {resolved : ResolvedKey} {v v' : Visit}
  {walk walk' : Walk} {exc : ProviderError}

theorem skipQuota_twins (hv : v.Alike v') (refusal : QuotaDecision) :
    Twins (common O) Abreast (skipQuota v decision resolved refusal)
      (skipQuota v' decision resolved refusal) Passed (Alongside Eq) := by
  refine Abreast.log_both (.ret fun s s' hs => ⟨hv.walk.append fun n => ?_, hs⟩)
  rw [hv.spec]

theorem giveUp_twins (hv : v.Alike v') (hw : walk.Alike walk') :
    Twins (common O) Abreast (Complete.giveUp started decision resolved v walk exc)
      (Stream.giveUp started' decision resolved v' walk' exc) Passed (Alongside Eq) := by
  refine Abreast.bind (Abreast.same ⟨rfl, Prog.asks_ofExcept⟩) fun _ => ?_
  by_cases he : exc.failoverEligible
  · rw [if_pos he, if_pos he]
    exact .ret fun s s' hs => ⟨hw, hs⟩
  · rw [if_neg he, if_neg he]
    refine Abreast.log_both (Abreast.elapsed_both fun ms ms' => .ret ?_)
    rintro s s' ⟨hhist, hnone⟩
    refine ⟨hhist, hnone ▸ .failed ?_⟩
    simp [RoutingFailed.timeless, hw.trail, hw.attempts, hw.clean', hv.spec]

/-- Without text delivered the decisions are the same. -/
theorem decideNext_twins (hv : v.Alike v') (hw : walk.Alike walk') :
    Twins (common O) Abreast
      (Complete.decideNext cfg started decision candidatesRemaining resolved v walk exc)
      (Stream.decideNext cfg started' decision candidatesRemaining resolved v' walk' 0 exc)
      Passed (Alongside Eq) := by
  unfold Complete.decideNext Stream.decideNext
  by_cases hr : v.refitUsed = false ∧ exc.limitTokens.isSome ∧ walk.attempts < cfg.maxAttempts
  · have hr' : (0 : Nat) = 0 ∧ v'.refitUsed = false ∧ exc.limitTokens.isSome ∧
        walk'.attempts < cfg.maxAttempts :=
      ⟨rfl, hv.refitUsed ▸ hr.1, hr.2.1, hw.attempts ▸ hr.2.2⟩
    rw [dif_pos hr, dif_pos hr']
    refine Abreast.log_both (.ret fun s s' hs => ⟨⟨?_, rfl, hv.retriesUsed, hw⟩, hs⟩)
    simp [hv.spec]
  · have hr' : ¬((0 : Nat) = 0 ∧ v'.refitUsed = false ∧ exc.limitTokens.isSome ∧
        walk'.attempts < cfg.maxAttempts) := by
      rintro ⟨-, hrefit, hlimit, hroom⟩
      exact hr ⟨hv.refitUsed ▸ hrefit, hlimit, hw.attempts ▸ hroom⟩
    rw [dif_neg hr, dif_neg hr']
    have hretryable : (exc.retryableSameProvider && !exc.isContextTooLong && (0 : Nat) == 0) =
        (exc.retryableSameProvider && !exc.isContextTooLong) := by simp
    dsimp only
    by_cases ht : (exc.retryableSameProvider && !exc.isContextTooLong) = true ∧
        v.retriesUsed < maxSameProviderRetries
    · have ht' : (exc.retryableSameProvider && !exc.isContextTooLong && (0 : Nat) == 0) = true ∧
          v'.retriesUsed < maxSameProviderRetries :=
        ⟨hretryable.trans ht.1, hv.retriesUsed ▸ ht.2⟩
      rw [dif_pos ht, dif_pos ht', ← hw.attempts]
      split
      · exact Abreast.log_both (giveUp_twins hv hw)
      · have hdelay : Twins (common O) Abreast (retryDelayS (v.retriesUsed + 1))
            (retryDelayS (v'.retriesUsed + 1)) (Alongside Eq) (Alongside Eq) :=
          hv.retriesUsed ▸ Abreast.same ⟨rfl, fun _ => trivial⟩
        exact Abreast.bind hdelay fun delay =>
          Abreast.bind (Abreast.same ⟨rfl, Prog.asks_ofExcept⟩) fun _ =>
            .ret fun s s' hs => ⟨⟨hv.spec, hv.refitUsed, congrArg (· + 1) hv.retriesUsed, hw⟩, hs⟩
    · have ht' : ¬((exc.retryableSameProvider && !exc.isContextTooLong && (0 : Nat) == 0) = true ∧
          v'.retriesUsed < maxSameProviderRetries) :=
        fun h => ht ⟨hretryable.symm.trans h.1, hv.retriesUsed ▸ h.2⟩
      rw [dif_neg ht, dif_neg ht']
      exact giveUp_twins hv hw

theorem onError_twins (hv : v.Alike v') {tried : Complete.Tried} {tried' : Stream.Tried}
    {attemptStarted attemptStarted' : Seconds} (ht : tried.attempts = tried'.attempts)
    (hr : tried.reservation = tried'.reservation) (hd : tried'.deliveredChars = 0) :
    Twins (common O) Abreast
      (Complete.onError cfg started attemptStarted decision candidatesRemaining resolved v tried exc)
      (Stream.onError cfg started' attemptStarted' decision candidatesRemaining resolved v' tried'
        exc) Passed (Alongside Eq) := by
  unfold Complete.onError Stream.onError
  rw [hd, ht, hr, ← hv.spec]
  refine Abreast.elapsed_both fun ms ms' =>
    Abreast.bind (Abreast.same (settle_asks ..)) fun _ =>
      Abreast.bind (Abreast.same (reconcileHint_asks ..)) fun _ =>
        Abreast.bind (Abreast.same (discloseAuthFailure_asks ..)) fun _ =>
          Abreast.log_both (Abreast.yield (fun _ h => nomatch h) (decideNext_twins hv ?_))
  exact (hv.walk.blame tried'.attempts exc v.spec resolved.pool).append fun n => rfl

theorem onSuccess_twins (hv : v.Alike v') {tried : Complete.Tried} {tried' : Stream.Tried}
    {attemptStarted attemptStarted' : Seconds} {report : RenderReport} {completion : Completion}
    (ht : tried.attempts = tried'.attempts) (hr : tried.reservation = tried'.reservation)
    (hu : tried'.usage = some completion.usage) :
    Twins (common O) Abreast
      (Complete.onSuccess cfg started attemptStarted decision resolved v tried report completion)
      (Stream.onSuccess cfg started' attemptStarted' decision resolved v' tried' report)
      Passed (Alongside Eq) := by
  unfold Complete.onSuccess Stream.onSuccess
  rw [hu, ht, hr, ← hv.spec]
  refine Abreast.elapsed_both fun ms ms' =>
    Abreast.bind (Abreast.same (settle_asks ..)) fun _ =>
      Abreast.bind (Abreast.same (reconcileHint_asks ..)) fun _ =>
        Abreast.bind (Abreast.same ⟨rfl, Prog.asks_ofExcept⟩) fun _ =>
          Abreast.latency_both <| Abreast.log_both <| Abreast.elapsed_both fun ms ms' => ?_
  refine Abreast.terminal fun s s' hhist hc => ⟨hhist, hc ▸ .served ?_⟩
  refine ⟨rfl, rfl, ?_, rfl, rfl, rfl⟩
  dsimp only
  exact (hv.walk.append fun n => by rfl).trail

end

/-! ## One attempt -/

section

variable {O : List (Event iface) → (q : Ask) → Ans q}

/-- The locals after a stream's chunks. -/
structure Taken (t t' : Stream.Tried) (chunks : List StreamChunk) : Prop where
  attempts : t'.attempts = t.attempts
  reservation : t'.reservation = t.reservation
  deliveredChars : t'.deliveredChars = t.deliveredChars + delivered chunks
  usage : t'.usage = (reported chunks <|> t.usage)

theorem firstTokenMs_quiet {s : Track} {attemptStarted : Seconds} {t : Stream.Tried}
    {Q : Except Exn Int → Track → Prop} (h : ∀ ms, Q (.ok ms) s) :
    wp (common O) (Stream.firstTokenMs attemptStarted t) Q s := by
  unfold Stream.firstTokenMs
  split
  · exact h _
  · rintro a s' rfl
    exact h _

theorem Taken.cons {t t' : Stream.Tried} {chunk : StreamChunk} {chunks : List StreamChunk}
    {ms : Int} {n : Nat} (hn : chunk.delta.length = n)
    (h : Taken { t.read chunk ms with deliveredChars := t.deliveredChars + n } t' chunks) :
    Taken t t' (chunk :: chunks) where
  attempts := h.attempts
  reservation := h.reservation
  deliveredChars := by
    have hchars := h.deliveredChars
    simp only [delivered, List.map_cons, List.sum_cons] at hchars ⊢
    omega
  usage := by
    rw [h.usage, reported]
    cases reported chunks <;> rfl

/-- The chunks leave no trace but in the locals. -/
theorem pump_taken {s : Track} {attemptStarted : Seconds} (chunks : List StreamChunk)
    (t : Stream.Tried) :
    wp (common O) (Stream.pump attemptStarted chunks t)
      (fun r s' => s' = s ∧ ∃ t', Taken t t' chunks ∧ r = .ok t') s := by
  induction chunks generalizing t with
  | nil => exact ⟨rfl, t, ⟨rfl, rfl, rfl, by simp [reported]⟩, rfl⟩
  | cons chunk chunks ih =>
    rw [Stream.pump, wp_bind, wp_mapError]
    refine firstTokenMs_quiet fun ms => ?_
    dsimp only
    split
    case isTrue hempty =>
      refine wp_mono _ (ih _) ?_
      rintro r s' ⟨rfl, t', ht, rfl⟩
      exact ⟨rfl, t', ht.cons (n := 0) (by simp [hempty]), rfl⟩
    case isFalse hempty =>
      rintro a s' ⟨rfl, rfl⟩
      refine wp_mono _ (ih _) ?_
      rintro r s' ⟨rfl, t', ht, rfl⟩
      exact ⟨rfl, t', ht.cons rfl, rfl⟩

theorem drain_taken {s : Track} {spec : ModelSpec} {attemptStarted : Seconds}
    {chunks : List StreamChunk} {ending : StreamEnd} {t : Stream.Tried} :
    wp (common O) (Stream.drain spec attemptStarted chunks ending t)
      (fun r s' => s' = s ∧ ∃ t', Taken t t' chunks ∧ r = match Stream.endExn spec ending with
        | none => .ok t'
        | some e => .error (e, t')) s := by
  rw [Stream.drain, wp_bind, wp_attempt, wp_bind]
  refine wp_mono _ (pump_taken chunks t) ?_
  rintro r s' ⟨rfl, t', ht, rfl⟩
  dsimp only
  unfold Stream.atEnd
  cases Stream.endExn spec ending with
  | none =>
    rintro a s'' ⟨rfl, rfl⟩
    exact ⟨rfl, t', ht, rfl⟩
  | some e =>
    rintro a s'' ⟨rfl, rfl⟩
    exact ⟨rfl, t', ht, rfl⟩

/-- How two `try` blocks end without an exception, alike. -/
def Tried.Alike : Complete.Tries → Stream.Tries → Prop
  | .refused decision, .refused decision' => decision = decision'
  | .answered tried report completion, .answered tried' report' =>
    tried.attempts = tried'.attempts ∧ tried.reservation = tried'.reservation ∧
      report = report' ∧ tried'.usage = some completion.usage
  | _, _ => False

/-- The same exception out of two `try` blocks, with no text delivered. -/
def Tried.Failed : Exn × Complete.Tried → Exn × Stream.Tried → Prop
  | (e, tried), (e', tried') =>
    e = e' ∧ tried.attempts = tried'.attempts ∧ tried.reservation = tried'.reservation ∧
      tried'.deliveredChars = 0

/-- A stream that realises an outcome has that outcome. -/
theorem opened_twins {payload : Payload} {key : String} {attemptStarted : Seconds} {n : Nat}
    {reservation : Option Reservation} {report : RenderReport} (spec : ModelSpec) :
    Twins (common O) Abreast
      (do
        let tried : Complete.Tried := { attempts := n, reservation }
        let completion ← (complete spec payload key).withLocals tried
        return .answered tried report completion)
      (do
        let tried : Stream.Tried := { attempts := n, reservation }
        let (chunks, ending) ← (stream spec payload key).withLocals tried
        let tried ← Stream.drain spec attemptStarted chunks ending tried
        if tried.deliveredChars = 0 then .raise (.provider (noContent spec), tried)
        else return Stream.Tries.answered tried report)
      (Alongside Tried.Alike) (Alongside Tried.Failed) := by
  refine .ask (Realises spec) (fun s s' a a' t t' hs hw hw' => ?_) fun a a' ha => ?_
  · obtain ⟨rfl, rfl⟩ := hw
    obtain ⟨hreal, rfl⟩ := hw'
    obtain ⟨hhist, hnone⟩ := hs
    exact ⟨⟨by simp [Track.note, hhist], hnone⟩, hhist ▸ hreal⟩
  rcases a with e | completion <;> rcases a' with e' | ⟨chunks, ending⟩
  · -- The stream could not be opened.
    obtain rfl : e' = e := ha
    exact .raise fun s s' hs => ⟨⟨rfl, rfl, rfl, rfl⟩, hs⟩
  · -- It ended in the failure, or with nothing in it.
    obtain ⟨hempty, he⟩ := ha
    refine Twins.ended (r := .error _) fun s s' hs => ?_
    show wp _ (Stream.drain spec attemptStarted chunks ending _ >>= _) _ _
    rw [wp_bind]
    refine wp_mono _ drain_taken ?_
    rintro r s'' ⟨rfl, t, ht, rfl⟩
    have hchars : t.deliveredChars = 0 := by
      have hd := ht.deliveredChars
      rw [hempty] at hd
      exact hd
    cases hend : Stream.endExn spec ending with
    | none =>
      rw [hend] at he
      dsimp only
      rw [if_pos hchars]
      exact ⟨⟨he.symm, ht.attempts.symm, ht.reservation.symm, hchars⟩, hs⟩
    | some e' =>
      rw [hend] at he
      exact ⟨⟨he.symm, ht.attempts.symm, ht.reservation.symm, hchars⟩, hs⟩
  · exact ha.elim
  · -- It delivered, and stopped.
    obtain ⟨htext, rfl, husage⟩ := ha
    refine .ended (r := .ok _) fun s s' hs => ?_
    show wp _ (Stream.drain spec attemptStarted chunks .stopped _ >>= _) _ _
    rw [wp_bind]
    refine wp_mono _ drain_taken ?_
    rintro r s'' ⟨rfl, t, ht, rfl⟩
    have hchars : t.deliveredChars ≠ 0 := by
      have hd := ht.deliveredChars
      dsimp only at hd
      omega
    have hu : t.usage = some completion.usage := by rw [ht.usage, husage]; rfl
    show wp _ (if t.deliveredChars = 0 then _ else _) _ _
    rw [if_neg hchars]
    exact ⟨⟨ht.attempts.symm, ht.reservation.symm, rfl, hu⟩, hs⟩

/-- The `try` blocks end alike. -/
theorem tryAttempt_twins {cfg : Config} {v v' : Visit} {attemptStarted : Seconds}
    {resolved : ResolvedKey} (hv : v.Alike v') :
    Twins (common O) Abreast (Complete.tryAttempt cfg v resolved)
      (Stream.tryAttempt cfg attemptStarted v' resolved) (Alongside Tried.Alike)
      (Alongside Tried.Failed) := by
  have hfailed : ∀ e s s', Alongside Eq e e s s' → Alongside Tried.Failed
      (e, ({ attempts := v.walk.attempts } : Complete.Tried))
      (e, ({ attempts := v'.walk.attempts } : Stream.Tried)) s s' :=
    fun e s s' hs => ⟨⟨rfl, hv.walk.attempts, rfl, rfl⟩, hs.2⟩
  unfold Complete.tryAttempt Stream.tryAttempt
  rw [← hv.spec]
  refine Abreast.bind (.mapError (.mono (Abreast.same ⟨rfl, Prog.asks_ofExcept⟩)
    (fun _ _ h => h) (fun _ _ _ _ h => h) ?_)) ?_
  · rintro e _ s s' ⟨rfl, hs⟩
    exact hfailed e s s' ⟨rfl, hs⟩
  rintro ⟨payload, report⟩
  refine Abreast.bind (.mapError (.mono (Abreast.same (takeReservation_asks ..))
    (fun _ _ h => h) (fun _ _ _ _ h => h) ?_)) ?_
  · rintro e _ s s' ⟨rfl, hs⟩
    exact hfailed e s s' ⟨rfl, hs⟩
  rintro (reservation | decision)
  · dsimp only
    rw [← hv.walk.attempts]
    exact Abreast.yield (fun _ h => nomatch h) (opened_twins v.spec)
  · exact .ret fun s s' hs => ⟨rfl, hs⟩

end

/-! ## The two loops -/

section

variable {O : List (Event iface) → (q : Ask) → Ans q} {cfg : Config} {started started' : Seconds}

theorem pass_twins {decision : BreakerDecision} {candidatesRemaining : Nat} {v v' : Visit}
    (hv : v.Alike v') :
    Twins (common O) Abreast (Complete.pass cfg started decision candidatesRemaining v)
      (Stream.pass cfg started' decision candidatesRemaining v') Passed (Alongside Eq) := by
  unfold Complete.pass Stream.pass
  rw [← hv.spec]
  refine Abreast.now_both fun t t' =>
    Abreast.bind (Abreast.same ⟨rfl, Prog.asks_ofExcept⟩) fun _ =>
      Abreast.bind (Abreast.same ⟨rfl, Prog.asks_ofExcept⟩) fun resolved =>
        .attempt (tryAttempt_twins hv) (fun a a' => Alongside.given fun ha => ?_)
          fun e e' => Alongside.given fun he => ?_
  · rcases a with refusal | ⟨tried, report, completion⟩ <;>
      rcases a' with refusal' | ⟨tried', report'⟩
    · obtain rfl : refusal = refusal' := ha
      exact skipQuota_twins hv refusal
    · exact ha.elim
    · exact ha.elim
    · obtain ⟨hattempts, hreservation, rfl, husage⟩ := ha
      exact onSuccess_twins hv hattempts hreservation husage
  · obtain ⟨e, tried⟩ := e
    obtain ⟨e', tried'⟩ := e'
    obtain ⟨rfl, hattempts, hreservation, hchars⟩ := he
    cases e with
    | provider exc => exact onError_twins hv hattempts hreservation hchars
    | other | cancelled | generatorExit => exact .raise fun s s' hs => ⟨rfl, hs⟩

theorem visitCandidate_twins (candidate : ModelSpec) (rest : List ModelSpec) {w w' : Walk}
    (hw : w.Alike w') :
    Twins (common O) Abreast (visitCandidate cfg (Complete.pass cfg started) candidate rest w)
      (visitCandidate cfg (Stream.pass cfg started') candidate rest w')
      (Flowed (Alongside Walk.Alike) Ended) (Alongside Eq) := by
  unfold visitCandidate
  rw [← hw.attempts]
  split
  · exact .ret fun s s' hs => ⟨hw, hs⟩
  · refine Abreast.bind (Abreast.same ⟨rfl, Prog.asks_ofExcept⟩) fun decision => ?_
    split
    · have hpass : ∀ v v', Twins (common O) (Alongside Visit.Alike v v')
          (Complete.pass cfg started decision rest.length v)
          (Stream.pass cfg started' decision rest.length v') Passed (Alongside Eq) :=
        fun v v' => Alongside.given pass_twins
      have hloop := Twins.iterate (Alongside Visit.Alike) hpass
        { spec := candidate, walk := w } { spec := candidate, walk := w' }
      exact hloop.mono (fun s s' hs => ⟨⟨rfl, rfl, rfl, hw⟩, hs⟩) (fun _ _ _ _ h => h)
        fun _ _ _ _ h => h
    · exact Abreast.log_both (.ret fun s s' hs => ⟨hw.append fun n => rfl, hs⟩)

theorem exhausted_twins {chain : List ModelSpec} {w w' : Walk} (hw : w.Alike w') :
    Twins (common O) Abreast (exhausted cfg chain started w) (exhausted cfg chain started' w')
      Ended (Alongside Eq) := by
  have hskipped : allSkipped chain w.trail = allSkipped chain w'.trail := by
    rw [← allSkipped_timeless, hw.trail, allSkipped_timeless]
  refine Abreast.log_both (Abreast.elapsed_both fun ms ms' => .ret ?_)
  rintro s s' ⟨hhist, hnone⟩
  refine ⟨hhist, hnone ▸ .failed ?_⟩
  simp [RoutingFailed.timeless, hw.trail, hw.attempts, hw.lastError, hw.lastSpec, hw.lastKeyPool,
    hw.clean, hw.clean', hskipped]

theorem walkChain_twins (chain : List ModelSpec) :
    Twins (common O) Abreast (walkChain cfg started (Complete.pass cfg started) chain)
      (walkChain cfg started' (Stream.pass cfg started') chain) Ended (Alongside Eq) := by
  have hvisit : ∀ candidate rest w w', Twins (common O) (Alongside Walk.Alike w w')
      (visitCandidate cfg (Complete.pass cfg started) candidate rest w)
      (visitCandidate cfg (Stream.pass cfg started') candidate rest w')
      (Flowed (Alongside Walk.Alike) Ended) (Alongside Eq) :=
    fun candidate rest w w' => Alongside.given (visitCandidate_twins candidate rest)
  have hloop := Twins.forEach (Alongside Walk.Alike) hvisit chain {} {}
  refine .bind (hloop.mono (fun s s' hs => ⟨⟨rfl, rfl, rfl, rfl, rfl, rfl, rfl⟩, hs⟩)
    (fun _ _ _ _ h => h) fun _ _ _ _ h => h) fun x x' => ?_
  rcases x with w | w | r <;> rcases x' with w' | w' | r'
  · exact Alongside.given exhausted_twins
  · exact fun _ _ h => h.elim
  · exact fun _ _ h => h.elim
  · exact fun _ _ h => h.elim
  · exact Alongside.given exhausted_twins
  · exact fun _ _ h => h.elim
  · exact fun _ _ h => h.elim
  · exact fun _ _ h => h.elim
  · exact .ret fun _ _ h => h

end

/-- **The two loops agree.** In one environment, whatever it answers, `route` and
`routeStream` make the same calls with the same arguments (attempts, breaker,
quota and hint calls among them), and end alike. -/
theorem route_agrees_routeStream (O : List (Event iface) → (q : Ask) → Ans q) (cfg : Config)
    (chain : List ModelSpec) {tr tr' : List (Event iface)}
    {r : Except Exn (Except RoutingFailed RouterOutcome)}
    {r' : Except Exn (Except RoutingFailed Unit)} {s s' : Track}
    (hr : (route cfg chain).Runs tr r) (ha : (common O).Accepts {} tr s)
    (hr' : (routeStream cfg chain).Runs tr' r') (ha' : (common O).Accepts {} tr' s') :
    issued tr = issued tr' ∧ Agree r r' s'.completed := by
  have htwins : Twins (common O) Abreast (route cfg chain) (routeStream cfg chain) Ended
      (Alongside Eq) := Abreast.now_both fun _ _ => walkChain_twins chain
  have hpair := htwins {} {} ⟨rfl, rfl⟩ r s r' s' ⟨tr, hr, ha⟩ ⟨tr', hr', ha'⟩
  have hends : s.history = s'.history ∧ Agree r r' s'.completed := by
    rcases r with e | r <;> rcases r' with e' | r'
    · obtain ⟨rfl, hhist, hnone⟩ := hpair
      exact ⟨hhist, hnone ▸ .raised e⟩
    · exact hpair.elim
    · exact hpair.elim
    · exact hpair
  refine ⟨?_, hends.2⟩
  simpa [hends.1, accepts_history ha'] using (accepts_history ha).symm

/-- The plainest stream with a given outcome. -/
def realise : Except Exn Completion → Except Exn (List StreamChunk × StreamEnd)
  | .error e => .error e
  | .ok completion => .ok ([{ delta := "answer", usage := some completion.usage }], .stopped)

/-- The common environment, played. -/
def playing (O : List (Event iface) → (q : Ask) → Ans q) (s : Track) : (q : Ask) → Ans q × Track
  | .now => ((0 : Seconds), s)
  | .log _ | .metricsRecord _ _ _ _ => ((), s)
  | .aclose => (.ok (), s)
  | .yield (.completed c) => (.next, { s with completed := some c })
  | .yield _ => (.next, s)
  | .stream spec payload key =>
    (realise (O s.history (.complete spec payload key)),
      s.note (.complete spec payload key) (O s.history (.complete spec payload key)))
  | q => (O s.history q, s.note q (O s.history q))

/-- Every environment of the kind can be played: both loops have a run in it. -/
theorem common_playing (O : List (Event iface) → (q : Ask) → Ans q) (s : Track) (q : Ask) :
    common O s q (playing O s q).1 (playing O s q).2 := by
  cases q with
  | stream spec payload key =>
    refine ⟨?_, rfl⟩
    simp only [playing]
    cases O s.history (.complete spec payload key) with
    | error e => exact rfl
    | ok completion =>
      have htext : 0 < "answer".length + 0 := by decide
      exact ⟨htext, rfl, rfl⟩
  | yield ev => cases ev <;> exact ⟨rfl, rfl⟩
  | now | log | metricsRecord => rfl
  | _ => exact ⟨rfl, rfl⟩

/-- The first provider call fails with a 503, those after it succeed. -/
def recovering (history : List (Event iface)) (q : Ask) : Ans q :=
  if history.any (fun e => match e.ask with | .complete .. => true | _ => false) then oblige q
  else flaky q

/-- Both loops retry the first candidate, and are served at the second attempt. -/
theorem route_agrees_routeStream_recovering :
    (issued ((route {} [groq, gemini]).play (playing recovering) ({} : Track)).1 =
        issued ((routeStream {} [groq, gemini]).play (playing recovering) ({} : Track)).1 ∧
      Agree ((route {} [groq, gemini]).play (playing recovering) ({} : Track)).2
        ((routeStream {} [groq, gemini]).play (playing recovering) ({} : Track)).2
        ((routeStream {} [groq, gemini]).finish (playing recovering) ({} : Track)).completed) ∧
      ((routeStream {} [groq, gemini]).finish (playing recovering)
        ({} : Track)).completed.map (·.attempts) = some 2 :=
  ⟨route_agrees_routeStream recovering {} [groq, gemini] (Prog.play_runs ..)
    (accepts_play (common_playing recovering) _ _) (Prog.play_runs ..)
    (accepts_play (common_playing recovering) _ _), by decide⟩

end Router

end LlmGateway
