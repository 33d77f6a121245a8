import LlmGateway.Perception.Extractors
import LlmGateway.Routing.Duty
import LlmGateway.Routing.Router
import LlmGateway.Routing.Rules

/-!
# Every probe is resolved

What the three callers of `allows` do with a probe: the two failover loops and
the extraction walk. Block by block, a visit that is not cut either goes round
again or owes nothing at its end.
-/

namespace LlmGateway

namespace Router

open Effects Breaker

/-- How a stream comes back: what will end it is part of its answer. -/
def streamed : Except Exn (List StreamChunk × StreamEnd) → Deed
  | .ok (_, .raised e) => .inside (.error e : Except Exn Unit)
  | .ok (_, .stopped) | .ok (_, .timedOut) => .other
  | .error e => .inside (.error e : Except Exn Unit)

/-- What a question of the failover loop comes to for the breaker. -/
def deed : (q : Ask) → Ans q → Deed
  | .allows provider model, r => .asked provider model r
  | .recordSuccess decision, r => .reported decision none r
  | .recordFailure decision exc, r => .reported decision (some exc) r
  | .reserve _ _ _ _ _, r => .reserved r
  | .render _, r => .inside r
  | .complete _ _ _, r => .inside r
  | .stream _ _ _, r => streamed r
  | .aclose, r => .inside r
  | .yield _, r => .inside r.outcome
  | .adapterForSpec _, r => .outside r
  | .forProvider _ _, r => .outside r
  | .commit _ _ _, r => .outside r.outcome
  | .applyHint _ _ _, r => .outside r
  | .recordAuthFailure _, r => .outside r
  | .sleep _, r => .outside r
  | .now, _ | .uuid4, _ | .takeHint, _ | .uniform _ _, _ | .metricsRecord _ _ _ _, _
  | .log _, _ => .other

/-- Only `allows` asks the breaker. -/
theorem deed_asked {q : Ask} {a : Ans q} {provider model : String}
    {r : Except Exn BreakerDecision} (h : deed q a = .asked provider model r) :
    q = .allows provider model := by
  cases q with
  | allows p m => cases h; rfl
  | stream spec payload key =>
    rcases a with e | ⟨chunks, _ | _ | e⟩
    · exact (Deed.inside_ne_asked (.error e : Except Exn Unit) h).elim
    · cases h
    · cases h
    · exact (Deed.inside_ne_asked (.error e : Except Exn Unit) h).elim
  | reserve => exact (Deed.reserved_ne_asked a h).elim
  | render | complete | aclose => exact (Deed.inside_ne_asked a h).elim
  | yield => exact (Deed.inside_ne_asked a.outcome h).elim
  | commit => exact (Deed.outside_ne_asked a.outcome h).elim
  | adapterForSpec | forProvider | applyHint | recordAuthFailure | sleep =>
    exact (Deed.outside_ne_asked a h).elim
  | _ => cases h

section

variable {S : Setting} {d : BreakerDecision}

/-! ## The helpers both paths call -/

theorem log_minds (line : LogLine) : Minds S deed d Raises (log line) :=
  minds_other (fun _ => id) fun _ => by rfl

theorem log_rests (line : LogLine) : Rests S deed (log line) := rests_other fun _ => by rfl

theorem elapsedMs_minds (since : Seconds) : Minds S deed d Raises (elapsedMs since) :=
  .bind (F := Raises) (minds_other (fun _ => id) fun _ => by rfl) (fun _ _ => .ret False.elim)
    fun _ => id

theorem elapsedMs_rests (since : Seconds) : Rests S deed (elapsedMs since) :=
  .bind (rests_other fun _ => by rfl) fun _ => .ret

theorem retryDelayS_minds (attempt : Nat) : Minds S deed d Raises (retryDelayS attempt) :=
  minds_other (fun _ => id) fun _ => by rfl

theorem sleep_minds (delay : Seconds) : Minds S deed d Raises (sleep delay) :=
  minds_outside fun _ => by rfl

theorem adapterForSpec_minds (spec : ModelSpec) : Minds S deed d Raises (adapterForSpec spec) :=
  minds_outside fun _ => by rfl

theorem forProvider_minds (provider model : String) :
    Minds S deed d Raises (forProvider provider model) :=
  minds_outside fun _ => by rfl

theorem settle_minds (cfg : Config) (reservation : Option Reservation) (tokensIn tokensOut : Int) :
    Minds S deed d Raises (settle cfg reservation tokensIn tokensOut) := by
  unfold settle
  split
  · exact minds_outside fun _ => by rfl
  · exact .ret False.elim

theorem reconcileHint_minds (cfg : Config) (spec : ModelSpec) (scope : String) :
    Minds S deed d Raises (reconcileHint cfg spec scope) := by
  refine .bind (F := Raises) (minds_other (fun _ => id) fun _ => by rfl) (fun hint _ => ?_)
    fun _ => id
  split
  · split
    · exact minds_outside fun _ => by rfl
    · exact .ret False.elim
  · exact .ret False.elim

theorem discloseAuthFailure_minds (resolved : ResolvedKey) (exc : ProviderError) :
    Minds S deed d Raises (discloseAuthFailure resolved exc) := by
  unfold discloseAuthFailure
  split
  · exact minds_outside fun _ => by rfl
  · exact .ret False.elim

theorem recordLatency_rests (cfg : Config) (spec : ModelSpec) (series : Series) (ms : Int) :
    Rests S deed (recordLatency cfg spec series ms) := by
  unfold recordLatency
  split
  · exact rests_other fun _ => by rfl
  · exact .ret

theorem yieldEvent_minds (ev : RouteStreamEvent) : Minds S deed d Escapes (yieldEvent ev) :=
  minds_inside fun _ => by rfl

/-- The consumer raises nothing that is handled. -/
theorem yieldEvent_minds_raises (ev : RouteStreamEvent) :
    Minds S deed d Raises (yieldEvent ev) :=
  minds_outside fun a => by cases a <;> rfl

theorem yieldEvent_rests (ev : RouteStreamEvent) : Rests S deed (yieldEvent ev) :=
  rests_ask fun a _ _ _ => Deed.inside_ne_asked a.outcome

/-- What a refused reservation and an exception that is not handled have in
common: no report follows. -/
def Shut : Except Exn Gate → Prop
  | .ok (.go _) => False
  | .ok (.refused _) => True
  | .error e => e.isProvider = false

theorem takeReservation_minds (cfg : Config) (spec : ModelSpec) (resolved : ResolvedKey)
    (report : RenderReport) : Minds S deed d Shut (takeReservation cfg spec resolved report) := by
  unfold takeReservation
  split
  next =>
    refine .bind (F := Escapes) (minds_other (fun _ => id) fun _ => by rfl)
      (fun requestId _ => ?_) fun _ => id
    refine .bind (minds_reserved fun _ => by rfl) (fun decision hd => ?_)
      fun _ => id
    split
    next => exact .ret False.elim
    next hn => exact .ret fun _ => hd (Bool.eq_false_iff.mpr hn)
  next => exact .ret False.elim

/-- The outcomes of a pass that go round again. -/
def Rounds {ω : Type} {v : Visit} : Except Exn (Pass ω v) → Prop
  | .ok (.inl _) => True
  | _ => False

theorem skipQuota_leaves {ω : Type} (v : Visit) (decision : BreakerDecision)
    (resolved : ResolvedKey) (refusal : QuotaDecision) :
    Leaves S deed Rounds (skipQuota (ω := ω) v decision resolved refusal) :=
  .bind (fun _ => id) (log_rests _) fun _ => .ret id

/-! ## The non-streaming path -/

namespace Complete

/-- The `try` block comes to nothing that a report could follow. -/
def Shut : Except (Exn × Tried) Tries → Prop
  | .ok (.refused _) => True
  | .ok (.answered _ _ _) => False
  | .error (e, _) => e.isProvider = false

theorem tryAttempt_minds (cfg : Config) (v : Visit) (resolved : ResolvedKey) :
    Minds S deed d Shut (tryAttempt cfg v resolved) := by
  refine .bind (F := EscapesWith) (.withLocals _ (minds_inside fun _ => by rfl))
    (fun rendered _ => ?_) fun _ => id
  refine .bind (F := fun r => match r with
      | .ok gate => Router.Shut (.ok gate)
      | .error e => e.1.isProvider = false)
    (.mapError ((takeReservation_minds cfg _ _ _).mono ?_)) (fun gate hg => ?_) fun _ => id
  · rintro (e | gate) h <;> exact h
  · cases gate with
    | refused decision => exact .ret hg
    | go reservation =>
      refine .bind (F := EscapesWith) (.withLocals _ (minds_inside fun _ => by rfl))
        (fun completion _ => ?_) fun _ => id
      exact .ret False.elim

theorem giveUp_ends (started : Seconds) (resolved : ResolvedKey) (v : Visit) (walk : Walk)
    (exc : ProviderError) : Ends S deed d Rounds (giveUp started d resolved v walk exc) := by
  refine .report (fun _ => rfl) (fun r => ⟨r, rfl⟩) (fun _ => id) fun _ => ?_
  split
  · exact .ret id
  · exact .bind (fun _ => id) (log_rests _) fun _ =>
      .bind (fun _ => id) (elapsedMs_rests _) fun _ => .ret id

theorem decideNext_ends (cfg : Config) (started : Seconds) (candidatesRemaining : Nat)
    (resolved : ResolvedKey) (v : Visit) (walk : Walk) (exc : ProviderError) :
    Ends S deed d Rounds
      (decideNext cfg started d candidatesRemaining resolved v walk exc) := by
  unfold decideNext
  split
  next => exact .bind (fun _ => id) (log_minds _) fun _ => .round trivial
  next =>
    dsimp only
    split
    next =>
      split
      next => exact .bind (fun _ => id) (log_minds _) fun _ => giveUp_ends _ _ _ _ _
      next =>
        exact .bind (fun _ => id) (retryDelayS_minds _) fun delay =>
          .bind (fun _ => id) (sleep_minds _) fun _ => .round trivial
    next => exact giveUp_ends _ _ _ _ _

theorem onError_ends (cfg : Config) (started attemptStarted : Seconds) (candidatesRemaining : Nat)
    (resolved : ResolvedKey) (v : Visit) (tried : Tried) (exc : ProviderError) :
    Ends S deed d Rounds
      (onError cfg started attemptStarted d candidatesRemaining resolved v tried exc) :=
  .bind (fun _ => id) (elapsedMs_minds _) fun _ =>
    .bind (fun _ => id) (settle_minds _ _ _ _) fun _ =>
    .bind (fun _ => id) (reconcileHint_minds _ _ _) fun _ =>
    .bind (fun _ => id) (discloseAuthFailure_minds _ _) fun _ =>
    .bind (fun _ => id) (log_minds _) fun _ => decideNext_ends _ _ _ _ _ _ _

theorem onSuccess_ends (cfg : Config) (started attemptStarted : Seconds) (resolved : ResolvedKey)
    (v : Visit) (tried : Tried) (report : RenderReport) (completion : Completion) :
    Ends S deed d Rounds
      (onSuccess cfg started attemptStarted d resolved v tried report completion) :=
  .bind (fun _ => id) (elapsedMs_minds _) fun _ =>
    .bind (fun _ => id) (settle_minds _ _ _ _) fun _ =>
    .bind (fun _ => id) (reconcileHint_minds _ _ _) fun _ =>
    .report (fun _ => rfl) (fun r => ⟨r, rfl⟩) (fun _ => id) fun _ =>
    .bind (fun _ => id) (recordLatency_rests _ _ _ _) fun _ =>
    .bind (fun _ => id) (log_rests _) fun _ =>
    .bind (fun _ => id) (elapsedMs_rests _) fun _ => .ret id

/-- A pass of `route`. -/
theorem pass_ends (cfg : Config) (started : Seconds) (candidatesRemaining : Nat) (v : Visit) :
    Ends S deed d Rounds (pass cfg started d candidatesRemaining v) := by
  refine .bind (fun _ => id) (minds_other (fun _ => id) fun _ => by rfl) fun attemptStarted => ?_
  refine .bind (fun _ => id) (adapterForSpec_minds _) fun _ => ?_
  refine .bind (fun _ => id) (forProvider_minds _ _) fun resolved => ?_
  refine .attempt (tryAttempt_minds cfg v resolved) fun r hr => ?_
  rcases r with ⟨e, tried⟩ | refusal | ⟨tried, report, completion⟩
  · cases e with
    | provider exc => exact onError_ends _ _ _ _ _ _ _ _
    | _ => exact .of_leaves (hr rfl) (.raise id)
  · exact .of_leaves (hr trivial) (skipQuota_leaves _ _ _ _)
  · exact onSuccess_ends _ _ _ _ _ _ _ _

end Complete

/-! ## The streaming path -/

namespace Stream

theorem firstTokenMs_minds (attemptStarted : Seconds) (t : Tried) :
    Minds S deed d Escapes (firstTokenMs attemptStarted t) := by
  unfold firstTokenMs
  split
  · exact .ret False.elim
  · exact (elapsedMs_minds _).mono fun r hr => by cases r <;> trivial

theorem pump_minds (attemptStarted : Seconds) (chunks : List StreamChunk) (t : Tried) :
    Minds S deed d EscapesWith (pump attemptStarted chunks t) := by
  induction chunks generalizing t with
  | nil => exact .ret False.elim
  | cons chunk chunks ih =>
    refine .bind (F := EscapesWith) (.withLocals _ (firstTokenMs_minds _ _)) (fun ms _ => ?_)
      fun _ => id
    dsimp only
    split
    · exact ih _
    · exact .bind (F := EscapesWith) (.withLocals _ (yieldEvent_minds _)) (fun _ _ => ih _)
        fun _ => id

/-- The end of the chunks, and the stream closed behind them. What the stream
ends with is known since it was opened. -/
theorem drain_minds (spec : ModelSpec) (attemptStarted : Seconds) (chunks : List StreamChunk)
    (ending : StreamEnd) (t : Tried)
    (hend : ∀ e, endExn spec ending = some e → e.isProvider = false → d.isProbe = false) :
    Minds S deed d EscapesWith (drain spec attemptStarted chunks ending t) := by
  refine .attempt (F := EscapesWith) (.bind (F := EscapesWith) (pump_minds _ _ _) (fun t _ => ?_)
    fun _ => id) fun r hr => ?_
  · unfold atEnd
    split
    next => exact .ret False.elim
    next e he => exact .raise (hend e he)
  · rcases r with ⟨e, t⟩ | t
    · exact .bind (F := EscapesWith) (.withLocals _ (minds_inside fun _ => by rfl))
        (fun _ _ => .raise hr) fun _ => id
    · exact .bind (F := EscapesWith) (.withLocals _ (minds_inside fun _ => by rfl))
        (fun _ _ => .ret False.elim) fun _ => id

/-- A stream that does not open, or will end in an exception that is not
handled. -/
def Fails : Except Exn (List StreamChunk × StreamEnd) → Prop
  | .ok (_, .raised e) => e.isProvider = false
  | .ok (_, .stopped) | .ok (_, .timedOut) => False
  | .error e => e.isProvider = false

theorem stream_minds (spec : ModelSpec) (payload : Payload) (key : String) :
    Minds S deed d Fails (stream spec payload key) := by
  refine .ask (fun _ => rfl) (fun r => ?_) (fun r hr => ?_)
  · rcases r with e | ⟨chunks, _ | _ | e⟩
    · by_cases he : e.isProvider <;> simp [deed, streamed, Deed.inside, he]
    · simp [deed, streamed]
    · simp [deed, streamed]
    · by_cases he : e.isProvider <;> simp [deed, streamed, Deed.inside, he]
  · rcases r with e | ⟨chunks, _ | _ | e⟩
    · replace hr : e.isProvider = false := hr
      simp [deed, streamed, Deed.inside, hr]
    · exact hr.elim
    · exact hr.elim
    · replace hr : e.isProvider = false := hr
      simp [deed, streamed, Deed.inside, hr]

/-- The `try` block comes to nothing that a report could follow. -/
def Shut : Except (Exn × Tried) Tries → Prop
  | .ok (.refused _) => True
  | .ok (.answered _ _) => False
  | .error (e, _) => e.isProvider = false

theorem tryAttempt_minds (cfg : Config) (attemptStarted : Seconds) (v : Visit)
    (resolved : ResolvedKey) : Minds S deed d Shut (tryAttempt cfg attemptStarted v resolved) := by
  refine .bind (F := EscapesWith) (.withLocals _ (minds_inside fun _ => by rfl))
    (fun rendered _ => ?_) fun _ => id
  refine .bind (F := fun r => match r with
      | .ok gate => Router.Shut (.ok gate)
      | .error e => e.1.isProvider = false)
    (.mapError ((takeReservation_minds cfg _ _ _).mono ?_)) (fun gate hg => ?_) fun _ => id
  · rintro (e | gate) h <;> exact h
  · cases gate with
    | refused decision => exact .ret hg
    | go reservation =>
      refine .bind (F := EscapesWith) (.withLocals _ (yieldEvent_minds _)) (fun _ _ => ?_)
        fun _ => id
      refine .bind (F := fun r => match r with
          | .ok opened => Fails (.ok opened)
          | .error e => e.1.isProvider = false)
        (.mapError ((stream_minds _ _ _).mono ?_)) (fun opened hopened => ?_) fun _ => id
      · rintro (e | opened) h <;> exact h
      · obtain ⟨chunks, ending⟩ := opened
        refine .bind (F := EscapesWith) (drain_minds _ _ _ _ _ ?_) (fun t _ => ?_) fun _ => id
        · intro e he hp
          cases ending with
          | stopped => cases he
          | timedOut => cases he; exact absurd hp (by simp)
          | raised e' => cases he; exact hopened hp
        · split
          · exact .raise fun h => nomatch h
          · exact .ret False.elim

theorem giveUp_ends (started : Seconds) (resolved : ResolvedKey) (v : Visit) (walk : Walk)
    (exc : ProviderError) : Ends S deed d Rounds (giveUp started d resolved v walk exc) := by
  refine .report (fun _ => rfl) (fun r => ⟨r, rfl⟩) (fun _ => id) fun _ => ?_
  split
  · exact .ret id
  · exact .bind (fun _ => id) (log_rests _) fun _ =>
      .bind (fun _ => id) (elapsedMs_rests _) fun _ => .ret id

theorem decideNext_ends (cfg : Config) (started : Seconds) (candidatesRemaining : Nat)
    (resolved : ResolvedKey) (v : Visit) (walk : Walk) (deliveredChars : Nat)
    (exc : ProviderError) :
    Ends S deed d Rounds
      (decideNext cfg started d candidatesRemaining resolved v walk deliveredChars exc) := by
  unfold decideNext
  split
  next => exact .bind (fun _ => id) (log_minds _) fun _ => .round trivial
  next =>
    dsimp only
    split
    next =>
      split
      next => exact .bind (fun _ => id) (log_minds _) fun _ => giveUp_ends _ _ _ _ _
      next =>
        exact .bind (fun _ => id) (retryDelayS_minds _) fun delay =>
          .bind (fun _ => id) (sleep_minds _) fun _ => .round trivial
    next => exact giveUp_ends _ _ _ _ _

theorem onError_ends (cfg : Config) (started attemptStarted : Seconds) (candidatesRemaining : Nat)
    (resolved : ResolvedKey) (v : Visit) (tried : Tried) (exc : ProviderError) :
    Ends S deed d Rounds
      (onError cfg started attemptStarted d candidatesRemaining resolved v tried exc) :=
  .bind (fun _ => id) (elapsedMs_minds _) fun _ =>
    .bind (fun _ => id) (settle_minds _ _ _ _) fun _ =>
    .bind (fun _ => id) (reconcileHint_minds _ _ _) fun _ =>
    .bind (fun _ => id) (discloseAuthFailure_minds _ _) fun _ =>
    .bind (fun _ => id) (log_minds _) fun _ =>
    .bind (fun _ => id) (yieldEvent_minds_raises _) fun _ => decideNext_ends _ _ _ _ _ _ _ _

theorem onSuccess_ends (cfg : Config) (started attemptStarted : Seconds) (resolved : ResolvedKey)
    (v : Visit) (tried : Tried) (report : RenderReport) :
    Ends S deed d Rounds (onSuccess cfg started attemptStarted d resolved v tried report) :=
  .bind (fun _ => id) (elapsedMs_minds _) fun _ =>
    .bind (fun _ => id) (settle_minds _ _ _ _) fun _ =>
    .bind (fun _ => id) (reconcileHint_minds _ _ _) fun _ =>
    .report (fun _ => rfl) (fun r => ⟨r, rfl⟩) (fun _ => id) fun _ =>
    .bind (fun _ => id) (recordLatency_rests _ _ _ _) fun _ =>
    .bind (fun _ => id) (log_rests _) fun _ =>
    .bind (fun _ => id) (elapsedMs_rests _) fun _ =>
    .bind (fun _ => id) (yieldEvent_rests _) fun _ => .ret id

/-- A pass of `route_stream`. -/
theorem pass_ends (cfg : Config) (started : Seconds) (candidatesRemaining : Nat) (v : Visit) :
    Ends S deed d Rounds (pass cfg started d candidatesRemaining v) := by
  refine .bind (fun _ => id) (minds_other (fun _ => id) fun _ => by rfl) fun attemptStarted => ?_
  refine .bind (fun _ => id) (adapterForSpec_minds _) fun _ => ?_
  refine .bind (fun _ => id) (forProvider_minds _ _) fun resolved => ?_
  refine .attempt (tryAttempt_minds cfg attemptStarted v resolved) fun r hr => ?_
  rcases r with ⟨e, tried⟩ | refusal | ⟨tried, report⟩
  · cases e with
    | provider exc => exact onError_ends _ _ _ _ _ _ _ _
    | _ => exact .of_leaves (hr rfl) (.raise id)
  · exact .of_leaves (hr trivial) (skipQuota_leaves _ _ _ _)
  · exact onSuccess_ends _ _ _ _ _ _ _

end Stream

/-! ## The walk -/

/-- A whole visit, from a caller that owes nothing to one that owes nothing. -/
theorem visitCandidate_rests {ω : Type} (cfg : Config)
    {pass : BreakerDecision → Nat → (v : Visit) → Eff (Pass ω v)}
    (hpass : ∀ d n v, Ends S deed d Rounds (pass d n v)) (candidate : ModelSpec)
    (rest : List ModelSpec) (w : Walk) :
    Rests S deed (visitCandidate cfg pass candidate rest w) := by
  unfold visitCandidate
  split
  · exact .ret
  · intro s hs
    refine (wp_bind ..).mpr ((wp_allows ..).mpr fun r s' hw => ?_)
    have hasked := hs.asked hw.1
    cases r with
    | error e => exact hasked
    | ok d =>
      dsimp only at hasked ⊢
      split
      next =>
        refine wp_iterate _ _ (fun _ s => s.Visiting d) (fun v s hv => ?_) hasked
        refine wp_mono _ (hpass d _ v s hv) ?_
        rintro (e | v' | f) s'' ⟨hround, hclear⟩
        · exact hclear id
        · exact hround trivial
        · exact hclear id
      next hal =>
        have hprobe : d.isProbe = false := by
          by_contra hp
          exact hal (hasked.allowed (Bool.of_not_eq_false hp))
        exact Rests.bind (log_rests _) (fun _ => .ret) s' (hasked.clear hprobe)

theorem walkChain_rests {ω : Type} (cfg : Config) (started : Seconds)
    {pass : BreakerDecision → Nat → (v : Visit) → Eff (Pass ω v)}
    (hpass : ∀ d n v, Ends S deed d Rounds (pass d n v)) (chain : List ModelSpec) :
    Rests S deed (walkChain cfg started pass chain) := by
  have hexhausted : ∀ w, Rests S deed (exhausted (ω := ω) cfg chain started w) := fun w =>
    .bind (log_rests _) fun _ => .bind (elapsedMs_rests _) fun _ => .ret
  refine .bind (Rests.forEach fun c rest w => visitCandidate_rests cfg hpass c rest w) fun f => ?_
  cases f with
  | done w => exact .ret
  | next w => exact hexhausted w
  | stop w => exact hexhausted w

theorem route_rests (cfg : Config) (chain : List ModelSpec) : Rests S deed (route cfg chain) :=
  .bind (rests_other fun _ => by rfl) fun started =>
    walkChain_rests cfg started (fun _ n v => Complete.pass_ends cfg started n v) chain

theorem routeStream_rests (cfg : Config) (chain : List ModelSpec) :
    Rests S deed (routeStream cfg chain) :=
  .bind (rests_other fun _ => by rfl) fun started =>
    walkChain_rests cfg started (fun _ n v => Stream.pass_ends cfg started n v) chain

end

end Router

namespace Perception

open Effects Breaker

/-- What a question of the extraction walk comes to for the breaker. Only the
provider call is made under a handler. -/
def deed : (q : Ask) → Ans q → Deed
  | .allows provider model, r => .asked provider model r
  | .recordSuccess decision, r => .reported decision none r
  | .recordFailure decision exc, r => .reported decision (some exc) r
  | .reservePerception _ _ _ _, .ok decision => .reserved (.ok decision)
  | .reservePerception _ _ _ _, .error _ => .broken
  | .complete _ _ _, r => .inside r
  | .adapterForSpec _, r => .outside r
  | .buildPayload _, r => .outside r
  | .forProvider _ _, r => .outside r
  | .commitPerception _ _ _, r => .outside r
  | .releasePerception _, r => .outside r
  | .recordAuthFailure _, r => .outside r
  | .persist _, r => .outside r
  | .uuid4, _ | .log _, _ => .other

/-- Only `allows` asks the breaker. -/
theorem deed_asked {q : Ask} {a : Ans q} {provider model : String}
    {r : Except Exn BreakerDecision} (h : deed q a = .asked provider model r) :
    q = .allows provider model := by
  cases q with
  | allows p m => cases h; rfl
  | reservePerception spec scope estimatedTokens requestId =>
    cases a with
    | ok decision => exact (Deed.reserved_ne_asked (.ok decision) h).elim
    | error e => cases h
  | complete => exact (Deed.inside_ne_asked a h).elim
  | adapterForSpec | buildPayload | forProvider | commitPerception | releasePerception
  | recordAuthFailure | persist => exact (Deed.outside_ne_asked a h).elim
  | _ => cases h

section

variable {S : Setting} {d : BreakerDecision}

theorem settle_minds (cfg : Config) (reservation : Option Reservation) {p : Reservation → Eff Unit}
    (hp : ∀ r, Minds S deed d Raises (p r)) :
    Minds S deed d Raises (settle cfg reservation p) := by
  unfold settle
  split
  · exact hp _
  · exact .ret False.elim

/-- No reservation: a refusal, or an exception. -/
def Shut : Except Exn (QuotaDecision ⊕ Option Reservation) → Prop
  | .ok (.inl _) => True
  | .ok (.inr _) => False
  | .error _ => True

theorem takeReservation_minds (cfg : Config) (spec : Candidate) (resolved : ResolvedKey)
    (textTokens : Int) :
    Minds S deed d Shut (takeReservation cfg spec resolved textTokens) := by
  unfold takeReservation
  split
  next =>
    refine .bind (F := Raises) (minds_other (fun _ => id) fun _ => by rfl)
      (fun requestId _ => ?_) fun _ => id
    refine .bind (F := fun r => ∀ granted, r = .ok granted → granted.allowed = false)
      (.ask (fun _ => rfl) (fun r => ?_) fun r hr => ?_) (fun granted hg => ?_)
      fun _ _ _ he => (by cases he)
    · rcases r with e | granted
      · simp [deed]
      · by_cases hal : granted.allowed <;> simp [deed, Deed.reserved, hal]
    · rcases r with e | granted
      · simp [deed]
      · replace hr : granted.allowed = false := hr granted rfl
        simp [deed, Deed.reserved, hr]
    · split
      next => exact .ret False.elim
      next hn =>
        refine .ret fun _ => hg fun decision he => ?_
        obtain rfl := Except.ok.inj he
        exact Bool.eq_false_iff.mpr hn
  next => exact .ret False.elim

theorem settle_rests (cfg : Config) (reservation : Option Reservation) {p : Reservation → Eff Unit}
    (hp : ∀ r, Rests S deed (p r)) : Rests S deed (settle cfg reservation p) := by
  unfold settle
  split
  · exact hp _
  · exact .ret

theorem discloseAuthFailure_rests (resolved : ResolvedKey) (exc : ProviderError) :
    Rests S deed (discloseAuthFailure resolved exc) := by
  unfold discloseAuthFailure
  split
  · exact rests_outside fun _ => by rfl
  · exact .ret

/-- No attempt goes round: a candidate is called once. -/
abbrev Once : Except Exn Step → Prop := fun _ => False

theorem onError_ends (cfg : Config) (resolved : ResolvedKey) (reservation : Option Reservation)
    (exc : ProviderError) : Ends S deed d Once (onError cfg d resolved reservation exc) := by
  refine .bind (fun _ => id)
    (settle_minds cfg reservation fun _ => minds_outside fun _ => by rfl) fun _ => ?_
  refine .report (fun _ => rfl) (fun r => ⟨r, rfl⟩) (fun _ => id) fun _ => ?_
  refine .bind (fun _ => id) (rests_other fun _ => by rfl) fun _ => ?_
  refine .bind (fun _ => id) (discloseAuthFailure_rests resolved exc) fun _ => ?_
  split <;> exact .ret id

theorem onSuccess_ends (cfg : Config) (spec : Candidate) (reservation : Option Reservation)
    (completion : Completion) :
    Ends S deed d Once (onSuccess cfg spec d reservation completion) :=
  .bind (fun _ => id) (settle_minds cfg reservation fun _ => minds_outside fun _ => by rfl) fun _ =>
    .report (fun _ => rfl) (fun r => ⟨r, rfl⟩) (fun _ => id) fun _ =>
    .bind (fun _ => id) (rests_outside fun _ => by rfl) fun _ =>
    .bind (fun _ => id) (rests_other fun _ => by rfl) fun _ => .ret id

theorem attempt_ends (cfg : Config) (spec : Candidate) :
    Ends S deed d Once (attempt cfg spec d) := by
  refine .bind (fun _ => id) (minds_outside fun _ => by rfl) fun _ => ?_
  refine .bind (fun _ => id) (minds_outside fun _ => by rfl) fun built => ?_
  refine .bind (fun _ => id) (minds_outside fun _ => by rfl) fun resolved => ?_
  intro s hs
  refine (wp_bind ..).mpr (wp_mono _ (takeReservation_minds cfg spec resolved built.2 s hs) ?_)
  rintro (e | refusal | reservation) s' ⟨hs', hshut⟩
  · exact ⟨False.elim, fun _ => hs'.clear (hshut trivial)⟩
  · exact Ends.of_leaves (R := Once) (hshut trivial)
      (.bind (fun _ => id) (rests_other fun _ => by rfl) fun _ => .ret id) s' hs'
  · refine Ends.attempt (R := Once) (E := Escapes) (minds_inside fun _ => by rfl)
      (fun r hr => ?_) s' hs'
    rcases r with (exc | cls | _ | _) | completion
    · exact onError_ends cfg resolved reservation exc
    · exact .of_leaves (hr rfl) (.bind (fun _ => id)
        (settle_rests cfg reservation fun _ => rests_outside fun _ => by rfl) fun _ => .raise id)
    · exact .of_leaves (hr rfl) (.raise id)
    · exact .of_leaves (hr rfl) (.raise id)
    · exact onSuccess_ends cfg spec reservation completion

theorem visitCandidate_rests (cfg : Config) (spec : Candidate) (rest : List Candidate) (u : Unit) :
    Rests S deed (visitCandidate cfg spec rest u) := by
  unfold visitCandidate
  split
  · exact .bind (rests_other fun _ => by rfl) fun _ => .ret
  · intro s hs
    refine (wp_bind ..).mpr ((wp_await _ (fun _ => rfl) _ s).mpr fun r s' hw => ?_)
    have hasked := hs.asked hw.1
    cases r with
    | error e => exact hasked
    | ok d =>
      dsimp only at hasked ⊢
      split
      next => exact wp_mono _ (attempt_ends cfg spec s' hasked) fun _ _ h => h.2 id
      next hal =>
        have hprobe : d.isProbe = false := by
          by_contra hp
          exact hal (hasked.allowed (Bool.of_not_eq_false hp))
        exact Rests.bind (rests_other fun _ => by rfl) (fun _ => .ret) s' (hasked.clear hprobe)

theorem walkCandidates_rests (cfg : Config) (chain : List Candidate) :
    Rests S deed (walkCandidates cfg chain) := by
  refine .bind (Rests.forEach fun c rest u => visitCandidate_rests cfg c rest u) fun f => ?_
  cases f with
  | done w => exact .ret
  | next u => exact .bind (rests_other fun _ => by rfl) fun _ => .ret
  | stop u => exact .bind (rests_other fun _ => by rfl) fun _ => .ret

end

end Perception

end LlmGateway
