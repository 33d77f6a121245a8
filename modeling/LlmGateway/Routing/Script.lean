import LlmGateway.Effects.Twin
import LlmGateway.Routing.Router
import LlmGateway.Routing.Rules

/-!
# The order of the router's events

What a consumer of `route_stream` is handed, one event after another: attempts
that start, speak and are aborted or completed.
-/

namespace LlmGateway

namespace Router

open Effects

/-! ## The order -/

/-- Where a stream has got to: no attempt speaking, one that has said so much,
or over. -/
inductive Scene where
  | quiet
  | speaking (spec : ModelSpec) (said : List String)
  | over
  deriving DecidableEq, Repr

/-- The events that may come next. An attempt that failed before it began is
aborted without having been started, and had nothing to withdraw. -/
def Scene.hear : Scene → RouteStreamEvent → Option Scene
  | .quiet, .started _ spec => some (.speaking spec [])
  | .quiet, .aborted _ _ _ discardedChars _ => if discardedChars = 0 then some .quiet else none
  | .speaking spec said, .delta text =>
    if text = "" then none else some (.speaking spec (said ++ [text]))
  | .speaking spec said, .aborted _ spec' _ discardedChars _ =>
    if spec' = spec ∧ discardedChars = (String.join said).length then some .quiet else none
  | .speaking spec said, .completed c => if c.spec = spec ∧ said ≠ [] then some .over else none
  | _, _ => none

/-- The events a trace hands over. -/
def yielded (tr : List (Event iface)) : List RouteStreamEvent :=
  tr.filterMap fun
    | ⟨.yield ev, _⟩ => some ev
    | _ => none

/-- One event of the trace, heard. -/
def Scene.note (scene : Option Scene) : Event iface → Option Scene
  | ⟨.yield ev, _⟩ => scene.bind (·.hear ev)
  | _ => scene

theorem foldl_note (tr : List (Event iface)) (scene : Option Scene) :
    tr.foldl Scene.note scene = scene.bind fun s => (yielded tr).foldlM Scene.hear s := by
  induction tr generalizing scene with
  | nil => cases scene <;> rfl
  | cons e tr ih =>
    obtain ⟨q, a⟩ := e
    rw [List.foldl_cons, ih]
    cases scene with
    | none => cases q <;> rfl
    | some s => cases q <;> rfl

/-- Whether a question hands an event over. -/
def Ask.isYield : Ask → Bool
  | .yield _ => true
  | _ => false

/-- A block that hands nothing over. -/
abbrev Silent {ε α : Type} (p : Prog iface ε α) : Prop := p.Asks fun q => Ask.isYield q = false

theorem wp_of_silent {ε α : Type} {p : Prog iface ε α} (hp : Silent p) {s : Option Scene}
    {Q : Except ε α → Option Scene → Prop} (h : ∀ r, Q r s) : wp (watch Scene.note) p Q s :=
  hp.wp_watch (fun s q _ hq => by cases q <;> first | rfl | cases hq) h

/-- A silent block first: it raises, or the rest goes on where it began. -/
theorem wp_bind_silent {ε α β : Type} {p : Prog iface ε α} (hp : Silent p)
    {f : α → Prog iface ε β} {s : Option Scene} {Q : Except ε β → Option Scene → Prop}
    (herror : ∀ e, Q (.error e) s) (hok : ∀ a, wp (watch Scene.note) (f a) Q s) :
    wp (watch Scene.note) (p >>= f) Q s := by
  rw [wp_bind]
  refine wp_of_silent hp fun r => ?_
  cases r with
  | error e => exact herror e
  | ok a => exact hok a

/-- The same under the locals an exception carries. -/
theorem wp_bind_silent_locals {L α β : Type} {p : Prog iface Exn α} (hp : Silent p) {l : L}
    {f : α → Prog iface (Exn × L) β} {s : Option Scene}
    {Q : Except (Exn × L) β → Option Scene → Prop}
    (herror : ∀ e, Q (.error (e, l)) s) (hok : ∀ a, wp (watch Scene.note) (f a) Q s) :
    wp (watch Scene.note) (p.withLocals l >>= f) Q s := by
  rw [wp_bind, wp_mapError]
  refine wp_of_silent hp fun r => ?_
  cases r with
  | error e => exact herror e
  | ok a => exact hok a

/-- An event is heard, whether or not the consumer comes back. -/
theorem wp_yield_bind {β : Type} {ev : RouteStreamEvent} {f : Unit → Eff β} {s : Option Scene}
    {Q : Except Exn β → Option Scene → Prop}
    (hcloses : Q (.error .generatorExit) (s.bind (·.hear ev)))
    (hnext : wp (watch Scene.note) (f ()) Q (s.bind (·.hear ev))) :
    wp (watch Scene.note) (yieldEvent ev >>= f) Q s := by
  rw [wp_bind, wp_yieldEvent]
  rintro a _ rfl
  cases a with
  | next => exact hnext
  | closes => exact hcloses

theorem wp_yield_bind_locals {L β : Type} {ev : RouteStreamEvent} {l : L}
    {f : Unit → Prog iface (Exn × L) β} {s : Option Scene}
    {Q : Except (Exn × L) β → Option Scene → Prop}
    (hcloses : Q (.error (.generatorExit, l)) (s.bind (·.hear ev)))
    (hnext : wp (watch Scene.note) (f ()) Q (s.bind (·.hear ev))) :
    wp (watch Scene.note) ((yieldEvent ev).withLocals l >>= f) Q s := by
  rw [wp_bind, wp_mapError, wp_yieldEvent]
  rintro a _ rfl
  cases a with
  | next => exact hnext
  | closes => exact hcloses

/-! ## Silent blocks -/

section

variable (cfg : Config)

theorem silent_now : Silent now := ⟨rfl, fun _ => trivial⟩

theorem silent_log (line : LogLine) : Silent (log line) := ⟨rfl, fun _ => trivial⟩

theorem silent_elapsedMs (since : Seconds) : Silent (elapsedMs since) := ⟨rfl, fun _ => trivial⟩

theorem silent_retryDelayS (attempt : Nat) : Silent (retryDelayS attempt) :=
  ⟨rfl, fun _ => trivial⟩

theorem silent_adapterForSpec (spec : ModelSpec) : Silent (adapterForSpec spec) :=
  ⟨rfl, Prog.asks_ofExcept⟩

theorem silent_forProvider (provider model : String) : Silent (forProvider provider model) :=
  ⟨rfl, Prog.asks_ofExcept⟩

theorem silent_allows (provider model : String) : Silent (allows provider model) :=
  ⟨rfl, Prog.asks_ofExcept⟩

theorem silent_render (spec : ModelSpec) : Silent (render spec) := ⟨rfl, Prog.asks_ofExcept⟩

theorem silent_stream (spec : ModelSpec) (payload : Payload) (key : String) :
    Silent (stream spec payload key) :=
  ⟨rfl, Prog.asks_ofExcept⟩

theorem silent_aclose : Silent aclose := ⟨rfl, Prog.asks_ofExcept⟩

theorem silent_sleep (delay : Seconds) : Silent (sleep delay) := ⟨rfl, Prog.asks_ofExcept⟩

theorem silent_recordFailure (decision : BreakerDecision) (exc : ProviderError) :
    Silent (recordFailure decision exc) :=
  ⟨rfl, Prog.asks_ofExcept⟩

theorem silent_recordSuccess (decision : BreakerDecision) : Silent (recordSuccess decision) :=
  ⟨rfl, Prog.asks_ofExcept⟩

theorem silent_reconcileHint (spec : ModelSpec) (scope : String) :
    Silent (reconcileHint cfg spec scope) := by
  refine ⟨rfl, fun hint => ?_⟩
  cases hint with
  | none => trivial
  | some hint =>
    dsimp only [Prog.ret_bind]
    split
    · exact ⟨rfl, Prog.asks_ofExcept⟩
    · trivial

theorem silent_settle (reservation : Option Reservation) (tokensIn tokensOut : Int) :
    Silent (settle cfg reservation tokensIn tokensOut) := by
  unfold settle
  split
  · exact ⟨rfl, fun _ => Prog.asks_ofExcept _⟩
  · trivial

theorem silent_discloseAuthFailure (resolved : ResolvedKey) (exc : ProviderError) :
    Silent (discloseAuthFailure resolved exc) := by
  unfold discloseAuthFailure
  split
  · exact ⟨rfl, Prog.asks_ofExcept⟩
  · trivial

theorem silent_recordLatency (spec : ModelSpec) (series : Series) (ms : Int) :
    Silent (recordLatency cfg spec series ms) := by
  unfold recordLatency
  split
  · exact ⟨rfl, fun _ => trivial⟩
  · trivial

theorem silent_takeReservation (spec : ModelSpec) (resolved : ResolvedKey)
    (report : RenderReport) : Silent (takeReservation cfg spec resolved report) := by
  unfold takeReservation
  split
  · refine ⟨rfl, fun requestId => ⟨rfl, fun r => ?_⟩⟩
    cases r with
    | error e => trivial
    | ok d =>
      change Prog.Asks _ (if d.allowed then (.ret (.go d.reservation) : Eff Gate)
        else .ret (.refused d))
      split <;> trivial
  · trivial

end

/-! ## One attempt -/

/-- An attempt of `spec` is speaking, and has said so many characters. -/
def Speaks (spec : ModelSpec) (deliveredChars : Nat) (s : Option Scene) : Prop :=
  ∃ said, s = some (.speaking spec said) ∧ (String.join said).length = deliveredChars

/-- So it is, or none has started and there is nothing to withdraw. -/
def MaySpeak (spec : ModelSpec) (deliveredChars : Nat) (s : Option Scene) : Prop :=
  s = some .quiet ∧ deliveredChars = 0 ∨ Speaks spec deliveredChars s

section

variable {cfg : Config} {spec : ModelSpec} {attemptStarted started : Seconds}
  {decision : BreakerDecision} {remaining : Nat} {resolved : ResolvedKey} {v : Visit}
  {s : Option Scene}

theorem Speaks.say {deliveredChars : Nat} {text : String} (h : Speaks spec deliveredChars s)
    (htext : text ≠ "") :
    Speaks spec (deliveredChars + text.length) (s.bind (·.hear (.delta text))) := by
  obtain ⟨said, rfl, hlen⟩ := h
  refine ⟨said ++ [text], ?_, ?_⟩
  · rw [Option.bind_some, Scene.hear, if_neg htext]
  · rw [String.join_append, String.length_append, hlen]
    simp

theorem MaySpeak.isSome {deliveredChars : Nat} (h : MaySpeak spec deliveredChars s) :
    s.isSome := by
  rcases h with ⟨rfl, -⟩ | ⟨said, rfl, -⟩ <;> rfl

/-- What was said is withdrawn. -/
theorem MaySpeak.abort {attempt deliveredChars wasted : Nat} {exc : ProviderError}
    (h : MaySpeak spec deliveredChars s) :
    s.bind (·.hear (.aborted attempt spec exc deliveredChars wasted)) = some .quiet := by
  rcases h with ⟨rfl, hzero⟩ | ⟨said, rfl, hlen⟩
  · rw [Option.bind_some, Scene.hear, if_pos hzero]
  · rw [Option.bind_some, Scene.hear, if_pos ⟨rfl, hlen.symm⟩]

namespace Stream

theorem script_pump (chunks : List StreamChunk) (t : Tried) (h : Speaks spec t.deliveredChars s) :
    wp (watch Scene.note) (pump attemptStarted chunks t) (fun r s' => match r with
      | .ok t' => Speaks spec t'.deliveredChars s'
      | .error (_, t') => Speaks spec t'.deliveredChars s') s := by
  induction chunks generalizing t s with
  | nil => exact h
  | cons chunk chunks ih =>
    have hfirst : Silent (firstTokenMs attemptStarted t) := by
      unfold firstTokenMs
      split
      · trivial
      · exact silent_elapsedMs attemptStarted
    rw [pump]
    refine wp_bind_silent_locals hfirst (fun _ => h) fun ttftMs => ?_
    dsimp only
    split
    next => exact ih _ h
    next htext =>
      have hsaid : Speaks spec (t.deliveredChars + chunk.delta.length)
          (s.bind (·.hear (.delta chunk.delta))) := h.say htext
      exact wp_yield_bind_locals hsaid (ih _ hsaid)

theorem script_drain {chunks : List StreamChunk} {ending : StreamEnd} {t : Tried}
    (h : Speaks spec t.deliveredChars s) :
    wp (watch Scene.note) (drain spec attemptStarted chunks ending t) (fun r s' => match r with
      | .ok t' => Speaks spec t'.deliveredChars s'
      | .error (_, t') => Speaks spec t'.deliveredChars s') s := by
  rw [drain, wp_bind, wp_attempt, wp_bind]
  refine wp_mono _ (script_pump chunks t h) ?_
  -- Leaving the chunks and closing the stream hand nothing over.
  rintro (⟨e, t'⟩ | t') s' hs'
  · exact wp_bind_silent_locals silent_aclose (fun _ => hs') fun _ => hs'
  · dsimp only
    unfold atEnd
    cases endExn spec ending with
    | none => exact wp_bind_silent_locals silent_aclose (fun _ => hs') fun _ => hs'
    | some e => exact wp_bind_silent_locals silent_aclose (fun _ => hs') fun _ => hs'

/-- The `try` block: refused before anything was said, answered by an attempt
that spoke, or left with what the locals say was delivered. -/
theorem script_tryAttempt :
    wp (watch Scene.note) (tryAttempt cfg attemptStarted v resolved) (fun r s' => match r with
      | .ok (.refused _) => s' = some .quiet
      | .ok (.answered t _) => Speaks v.spec t.deliveredChars s' ∧ t.deliveredChars ≠ 0
      | .error (_, t) => MaySpeak v.spec t.deliveredChars s') (some .quiet) := by
  have hquiet : MaySpeak v.spec 0 (some .quiet) := .inl ⟨rfl, rfl⟩
  rw [tryAttempt]
  refine wp_bind_silent_locals (silent_render v.spec) (fun _ => hquiet) fun rendered => ?_
  refine wp_bind_silent_locals (silent_takeReservation cfg v.spec resolved _) (fun _ => hquiet)
    fun gate => ?_
  cases gate with
  | refused decision => rfl
  | go reservation =>
    have hstart : Speaks v.spec 0 (some (Scene.speaking v.spec [])) := ⟨[], rfl, rfl⟩
    refine wp_yield_bind_locals (.inr hstart) ?_
    refine wp_bind_silent_locals (silent_stream v.spec _ resolved.key) (fun _ => .inr hstart)
      fun opened => ?_
    rw [wp_bind]
    refine wp_mono _ (script_drain hstart) ?_
    rintro (⟨e, t⟩ | t) s' hs'
    · exact .inr hs'
    · dsimp only
      split
      · exact .inr hs'
      next hne => exact ⟨hs', hne⟩

/-! ## One pass -/

/-- What a pass promises: quiet wherever the loop goes on or gives up, over
where the stream is through. -/
def PassScript (v : Visit) : Except Exn (Pass Unit v) → Option Scene → Prop
  | .ok (.inr (.done (.ok _))), s => s = some .over
  | .ok _, s => s = some .quiet
  | .error _, s => s.isSome

theorem script_giveUp {walk : Walk} {exc : ProviderError} :
    wp (watch Scene.note) (giveUp started decision resolved v walk exc) (PassScript v)
      (some .quiet) := by
  rw [giveUp]
  refine wp_bind_silent (silent_recordFailure decision exc) (fun _ => rfl) fun _ => ?_
  split
  · rfl
  · refine wp_bind_silent (silent_log _) (fun _ => rfl) fun _ => ?_
    exact wp_bind_silent (silent_elapsedMs started) (fun _ => rfl) fun _ => rfl

theorem script_decideNext {walk : Walk} {deliveredChars : Nat} {exc : ProviderError} :
    wp (watch Scene.note)
      (decideNext cfg started decision remaining resolved v walk deliveredChars exc)
      (PassScript v) (some .quiet) := by
  unfold decideNext
  split
  · exact wp_bind_silent (silent_log _) (fun _ => rfl) fun _ => rfl
  · dsimp only
    split
    · split
      · exact wp_bind_silent (silent_log _) (fun _ => rfl) fun _ => script_giveUp
      · refine wp_bind_silent (silent_retryDelayS _) (fun _ => rfl) fun delay => ?_
        exact wp_bind_silent (silent_sleep delay) (fun _ => rfl) fun _ => rfl
    · exact script_giveUp

/-- The handler withdraws what was said. -/
theorem script_onError {tried : Tried} {exc : ProviderError}
    (h : MaySpeak v.spec tried.deliveredChars s) :
    wp (watch Scene.note)
      (onError cfg started attemptStarted decision remaining resolved v tried exc)
      (PassScript v) s := by
  have hsome : ∀ _ : Exn, s.isSome := fun _ => h.isSome
  rw [onError]
  refine wp_bind_silent (silent_elapsedMs attemptStarted) hsome fun latencyMs => ?_
  refine wp_bind_silent (silent_settle cfg tried.reservation 0 _) hsome fun _ => ?_
  refine wp_bind_silent (silent_reconcileHint cfg v.spec resolved.scope) hsome fun _ => ?_
  refine wp_bind_silent (silent_discloseAuthFailure resolved exc) hsome fun _ => ?_
  refine wp_bind_silent (silent_log _) hsome fun _ => ?_
  refine wp_yield_bind ?_ ?_
  · rw [h.abort]
    rfl
  · rw [h.abort]
    exact script_decideNext

/-- The `else` branch ends the stream. -/
theorem script_onSuccess {tried : Tried} {report : RenderReport}
    (h : Speaks v.spec tried.deliveredChars s) (hne : tried.deliveredChars ≠ 0) :
    wp (watch Scene.note) (onSuccess cfg started attemptStarted decision resolved v tried report)
      (PassScript v) s := by
  have hsome : ∀ _ : Exn, s.isSome := fun _ => MaySpeak.isSome (.inr h)
  have hover : ∀ c : StreamCompleted, c.spec = v.spec →
      s.bind (·.hear (.completed c)) = some .over := by
    obtain ⟨said, rfl, hlen⟩ := h
    have hsaid : said ≠ [] := by
      rintro rfl
      exact hne hlen.symm
    exact fun c hc => if_pos ⟨hc, hsaid⟩
  rw [onSuccess]
  refine wp_bind_silent (silent_elapsedMs attemptStarted) hsome fun latencyMs => ?_
  refine wp_bind_silent (silent_settle cfg tried.reservation _ _) hsome fun _ => ?_
  refine wp_bind_silent (silent_reconcileHint cfg v.spec resolved.scope) hsome fun _ => ?_
  refine wp_bind_silent (silent_recordSuccess decision) hsome fun _ => ?_
  refine wp_bind_silent (silent_recordLatency cfg v.spec .stream _) hsome fun _ => ?_
  refine wp_bind_silent (silent_log _) hsome fun _ => ?_
  refine wp_bind_silent (silent_elapsedMs started) hsome fun totalMs => ?_
  refine wp_yield_bind ?_ ?_
  · rw [hover _ rfl]
    rfl
  · rw [hover _ rfl]
    rfl

theorem script_pass :
    wp (watch Scene.note) (pass cfg started decision remaining v) (PassScript v)
      (some .quiet) := by
  rw [pass]
  refine wp_bind_silent silent_now (fun _ => rfl) fun attemptStarted => ?_
  refine wp_bind_silent (silent_adapterForSpec v.spec) (fun _ => rfl) fun _ => ?_
  refine wp_bind_silent (silent_forProvider _ _) (fun _ => rfl) fun resolved => ?_
  rw [wp_bind, wp_attempt]
  refine wp_mono _ script_tryAttempt ?_
  rintro (⟨e, t⟩ | (refusal | ⟨t, report⟩)) s' hs'
  · cases e with
    | provider exc => exact script_onError hs'
    | other cls => exact hs'.isSome
    | cancelled => exact hs'.isSome
    | generatorExit => exact hs'.isSome
  · subst hs'
    exact wp_bind_silent (silent_log _) (fun _ => rfl) fun _ => rfl
  · exact script_onSuccess hs'.1 hs'.2

end Stream

/-! ## The run -/

/-- What a run promises: quiet where it raises `RoutingFailed`, over where it
returns. -/
def RunScript : Except Exn (Except RoutingFailed Unit) → Option Scene → Prop
  | .ok (.ok _), s => s = some .over
  | .ok (.error _), s => s = some .quiet
  | .error _, s => s.isSome

theorem script_exhausted {chain : List ModelSpec} {w : Walk} :
    wp (watch Scene.note) (exhausted cfg chain started w) RunScript (some .quiet) := by
  rw [exhausted]
  refine wp_bind_silent (silent_log _) (fun _ => rfl) fun _ => ?_
  exact wp_bind_silent (silent_elapsedMs started) (fun _ => rfl) fun _ => rfl

theorem script_routeStream (chain : List ModelSpec) :
    wp (watch Scene.note) (routeStream cfg chain) RunScript (some .quiet) := by
  rw [routeStream]
  refine wp_bind_silent silent_now (fun _ => rfl) fun started => ?_
  rw [walkChain, wp_bind]
  refine wp_forEach _ (fun _ _ s => s = some .quiet) ?_ ?_ rfl
  · rintro w _ rfl
    exact script_exhausted
  · rintro candidate rest w _ rfl
    unfold visitCandidate
    split
    · exact script_exhausted
    · refine wp_bind_silent (silent_allows _ _) (fun _ => rfl) fun decision => ?_
      split
      · refine wp_iterate _ Visit.left (fun _ s => s = some .quiet) ?_ rfl
        rintro v _ rfl
        refine wp_mono _ Stream.script_pass ?_
        rintro (e | v' | (w | w | (f | u))) s' hs'
        · exact hs'
        · exact hs'
        · exact hs'
        · subst hs'
          exact script_exhausted
        · exact hs'
        · exact hs'
      · exact wp_bind_silent (silent_log _) (fun _ => rfl) fun _ => rfl

/-- **The order of events.** Whatever a run of `route_stream` meets, its consumer
is handed events in order; they end quiet where it raises `RoutingFailed`, and
over where it returns. -/
theorem routeStream_script {chain : List ModelSpec} {tr : List (Event iface)}
    {r : Except Exn (Except RoutingFailed Unit)} (h : (routeStream cfg chain).Runs tr r) :
    RunScript r ((yielded tr).foldlM Scene.hear .quiet) := by
  have hrun := wp_watch_sound (script_routeStream chain) h
  rwa [foldl_note, Option.bind_some] at hrun

end

end Router

end LlmGateway
