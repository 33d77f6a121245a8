import LlmGateway.Effects.Triple
import LlmGateway.Routing.Laws
import LlmGateway.Routing.Router

/-!
# Whose hint is drained

A hint leaves an adapter through a context variable, which the loop drains when
an attempt is over. The variable is that of the task that runs the loop: an
extraction inside render writes to the same one, and each event of a stream is
waited for in a task of its own, with a copy of the context of a caller that
never writes to it.
-/

namespace LlmGateway

namespace Router

open Effects

/-! ## The sink -/

/-- `publish_hint`: a response without a hint leaves what is there. -/
def publishHint (sink hint : Option QuotaHint) : Option QuotaHint :=
  match hint with
  | some h => some h
  | none => sink

/-- One drain: the attempt it is made for, what its response published, and what was taken and
applied. -/
structure Drain where
  /-- Provider, model and scope of the attempt. -/
  attempt : String × String × String
  /-- The hint of the attempt's own response. -/
  published : Option QuotaHint
  /-- An event has been yielded since that response. -/
  resumed : Bool
  /-- What extractions have left in the sink since it was last drained or left behind. -/
  stray : Option QuotaHint
  taken : Option QuotaHint
  applied : List ((String × String × String) × QuotaHint) := []
  deriving DecidableEq, Repr

/-- The sink of the task that runs the loop, and what has become of it. -/
structure Sink where
  var : Option QuotaHint := none
  stray : Option QuotaHint := none
  attempt : String × String × String := ("", "", "")
  published : Option QuotaHint := none
  resumed : Bool := false
  /-- The latest first. -/
  drains : List Drain := []
  /-- A response has come that is not drained yet. -/
  undrained : Bool := false
  /-- An attempt was begun while the response of another was not drained. -/
  dropped : Bool := false

/-- What a request starts with. -/
def fresh : Sink := {}

/-- The drain a sink is about to be given. -/
def Sink.drain (s : Sink) : Drain :=
  { attempt := s.attempt, published := s.published, resumed := s.resumed, stray := s.stray
    taken := s.var }

/-- The sink behind it. -/
def Sink.drained (s : Sink) (d : Drain) : Sink :=
  { s with var := none, stray := none, drains := d :: s.drains, undrained := false }

/-- **The contexts.** Extractions publish any number of hints while a request is rendered, a
provider's response at most one. Behind a `yield` the loop goes on in another task, where nothing
has been published. -/
def contexts : World iface Sink
  | s, .forProvider provider model, r, s' => match r with
    | .ok resolved => s' = { s with
        attempt := (provider, model, resolved.scope), published := none, resumed := false
        dropped := s.dropped || s.undrained }
    | .error _ => s' = s
  | s, .render _, _, s' => ∃ hints : List (Option QuotaHint), s' = { s with
      var := hints.foldl publishHint s.var, stray := hints.foldl publishHint s.stray }
  | s, .complete _ _ _, _, s' => ∃ hint, s' = { s with
      var := publishHint s.var hint, published := hint, resumed := false, undrained := true }
  | s, .stream _ _ _, _, s' => ∃ hint, s' = { s with
      var := publishHint s.var hint, published := hint, resumed := false, undrained := true }
  | s, .yield _, _, s' => s' = { s with var := none, stray := none, resumed := true }
  | s, .takeHint, hint, s' => hint = s.var ∧ s' = s.drained s.drain
  | s, .applyHint spec scope hint, _, s' => s' = { s with
      drains := s.drains.modifyHead fun d =>
        { d with applied := d.applied ++ [((spec.provider, spec.model, scope), hint)] } }
  | s, _, _, s' => s' = s

/-- **A drain in order**: it takes what the response of its own attempt published. -/
def Drain.Attributed (d : Drain) : Prop := d.taken = d.published

/-- **A drain that can be**: a response that published is drained in its own task, and where it
did not no extraction has. -/
structure Drain.Clean (d : Drain) : Prop where
  same_task : d.published.isSome → d.resumed = false
  no_stray : d.published = none → d.stray = none

/-- What is taken is applied, to the attempt drained, if there is a tracker. -/
def Drain.Applies (cfg : Config) (d : Drain) : Prop :=
  d.applied = if cfg.quota then d.taken.toList.map (d.attempt, ·) else []

/-! ## The states of an attempt -/

/-- The drains so far: one for each response before the last, and each takes its own attempt's
hint if and only if it can. -/
structure Sorted (cfg : Config) (s : Sink) : Prop where
  drains : ∀ d ∈ s.drains, (d.Attributed ↔ d.Clean) ∧ d.Applies cfg
  dropped : s.dropped = false

/-- Between attempts: what the sink holds, no response of an attempt has published. -/
structure Idle (cfg : Config) (s : Sink) : Prop where
  var : s.var = s.stray
  undrained : s.undrained = false
  sorted : Sorted cfg s

/-- Before an attempt's response. -/
structure Awaiting (cfg : Config) (attempt : String × String × String) (s : Sink) : Prop extends
    Idle cfg s where
  attempt : s.attempt = attempt
  published : s.published = none

/-- Behind it: the sink holds what it published, unless the loop has gone on in another task. -/
structure Answered (cfg : Config) (attempt : String × String × String) (s : Sink) : Prop where
  attempt : s.attempt = attempt
  var : s.var = match s.published with
    | some hint => if s.resumed then none else some hint
    | none => s.stray
  sorted : Sorted cfg s

section

variable {cfg : Config} {attempt : String × String × String} {s : Sink}

theorem Awaiting.answered (h : Awaiting cfg attempt s) : Answered cfg attempt s where
  attempt := h.attempt
  var := by rw [h.published]; exact h.var
  sorted := h.sorted

/-- **The drain is in order if and only if it can be**, and the sink is idle behind it. -/
theorem Answered.idle (h : Answered cfg attempt s)
    {applied : List ((String × String × String) × QuotaHint)}
    (happlied : applied = if cfg.quota then s.var.toList.map (attempt, ·) else []) :
    Idle cfg (s.drained { s.drain with applied }) := by
  refine ⟨rfl, rfl, fun d hd => ?_, h.sorted.dropped⟩
  rcases List.mem_cons.mp hd with rfl | hd
  · have hiff : s.var = s.published ↔
        (s.published.isSome → s.resumed = false) ∧ (s.published = none → s.stray = none) := by
      rw [h.var]
      cases s.published with
      | none => simp
      | some hint => cases s.resumed <;> simp
    refine ⟨hiff.trans ⟨fun hc => ⟨hc.1, hc.2⟩, fun hc => ⟨hc.1, hc.2⟩⟩, ?_⟩
    change applied = if cfg.quota then s.var.toList.map (s.attempt, ·) else []
    rw [happlied, h.attempt]
  · exact h.sorted.drains d hd

end

/-! ## Blocks -/

/-- A block that leaves `J` as it is, however it ends. -/
abbrev Stays {ε α : Type} (J : Sink → Prop) (p : Prog iface ε α) : Prop :=
  Triple contexts J p fun _ => J

/-- A block that leads from `J` to `J'`, and leaves the drains sorted where it raises. -/
abbrev Leads {α : Type} (cfg : Config) (J J' : Sink → Prop) (p : Eff α) : Prop :=
  Triple contexts J p fun r s => match r with
    | .ok _ => J' s
    | .error _ => Sorted cfg s

section

variable {ε α β : Type} {cfg : Config} {J J' : Sink → Prop}

/-- A question that has nothing to do with hints. -/
theorem Stays.ask {q : Ask} {f : Ans q → Except ε α}
    (hq : ∀ s a s', contexts s q a s' → s' = s) : Stays J (.ask q fun a => .ofExcept (f a)) :=
  Triple.ask fun s a s' hs hw => (hq s a s' hw) ▸ hs

theorem Stays.askRet {q : Ask} {f : Ans q → α} (hq : ∀ s a s', contexts s q a s' → s' = s) :
    Stays J (.ask q fun a => .ret (f a) : Prog iface ε α) :=
  Stays.ask (f := fun a => .ok (f a)) hq

theorem Stays.ret {a : α} : Stays J (.ret a : Prog iface ε α) := Triple.ret fun _ hs => hs

theorem Stays.bind {p : Prog iface ε α} {f : α → Prog iface ε β} (hp : Stays J p)
    (hf : ∀ a, Stays J (f a)) : Stays J (p >>= f) :=
  Triple.bind hp hf fun _ _ hs => hs

theorem Stays.withLocals {L : Type} {p : Eff α} {l : L} (h : Stays J p) :
    Stays J (p.withLocals l) :=
  Triple.mapError (K := fun _ => J) h

theorem Leads.bind {K : Sink → Prop} {p : Eff α} {f : α → Eff β} (hp : Leads cfg J K p)
    (hf : ∀ a, Leads cfg K J' (f a)) : Leads cfg J J' (p >>= f) :=
  Triple.bind hp hf fun _ _ hs => hs

theorem Stays.leads {p : Eff α} (h : Stays J p) (hJ : ∀ s, J s → Sorted cfg s) :
    Leads cfg J J p := by
  refine Triple.mono h (fun _ hs => hs) ?_
  rintro (e | a) s hs
  · exact hJ s hs
  · exact hs

/-! ### Either path -/

variable {attempt : String × String × String}

theorem stays_log (line : LogLine) : Stays J (log line) := .askRet fun _ _ _ h => h

theorem stays_elapsedMs (since : Seconds) : Stays J (elapsedMs since) :=
  .bind (.askRet fun _ _ _ h => h) fun _ => .ret

theorem stays_settle (reservation : Option Reservation) (tokensIn tokensOut : Int) :
    Stays J (settle cfg reservation tokensIn tokensOut) := by
  unfold settle
  split
  · exact .ask fun _ _ _ h => h
  · exact .ret

theorem stays_discloseAuthFailure (resolved : ResolvedKey) (exc : ProviderError) :
    Stays J (discloseAuthFailure resolved exc) := by
  unfold discloseAuthFailure
  split
  · exact .ask fun _ _ _ h => h
  · exact .ret

theorem stays_recordLatency (spec : ModelSpec) (series : Series) (ms : Int) :
    Stays J (recordLatency cfg spec series ms) := by
  unfold recordLatency
  split
  · exact .askRet fun _ _ _ h => h
  · exact .ret

theorem stays_takeReservation (spec : ModelSpec) (resolved : ResolvedKey)
    (report : RenderReport) : Stays J (takeReservation cfg spec resolved report) := by
  unfold takeReservation
  split
  · refine .bind (.askRet fun _ _ _ h => h) fun _ => .bind (.ask fun _ _ _ h => h) fun d => ?_
    split
    · exact .ret
    · exact .ret
  · exact .ret

/-- Extractions publish to the sink of the attempt. -/
theorem stays_render (spec : ModelSpec) : Stays (Awaiting cfg attempt) (render spec) := by
  refine Triple.ask ?_
  rintro s r s' hs ⟨hints, rfl⟩
  exact
    { hs with
      var := by dsimp only; rw [hs.var]
      sorted := ⟨hs.sorted.drains, hs.sorted.dropped⟩ }

/-- Another task goes on with the loop: what was published is left behind. -/
theorem idle_yield (ev : RouteStreamEvent) : Stays (Idle cfg) (yieldEvent ev) := by
  refine Triple.ask ?_
  rintro s a s' hs rfl
  exact { hs with var := rfl, sorted := ⟨hs.sorted.drains, hs.sorted.dropped⟩ }

theorem awaiting_yield (ev : RouteStreamEvent) :
    Stays (Awaiting cfg attempt) (yieldEvent ev) := by
  refine Triple.ask ?_
  rintro s a s' hs rfl
  exact { hs with var := rfl, sorted := ⟨hs.sorted.drains, hs.sorted.dropped⟩ }

theorem answered_yield (ev : RouteStreamEvent) :
    Stays (Answered cfg attempt) (yieldEvent ev) := by
  refine Triple.ask ?_
  rintro s a s' hs rfl
  exact
    { hs with
      var := by dsimp only; cases s.published <;> rfl
      sorted := ⟨hs.sorted.drains, hs.sorted.dropped⟩ }

/-- The response of the attempt publishes its hint over what is there. -/
theorem answered_of_publish {s : Sink} (hs : Awaiting cfg attempt s) (hint : Option QuotaHint) :
    Answered cfg attempt
      { s with
        var := publishHint s.var hint, published := hint, resumed := false
        undrained := true } where
  attempt := hs.attempt
  var := by
    cases hint with
    | none => exact hs.var
    | some h => rfl
  sorted := ⟨hs.sorted.drains, hs.sorted.dropped⟩

/-- **The drain**, and what is made of the hint taken. -/
theorem leads_reconcileHint (spec : ModelSpec) (scope : String) :
    Leads cfg (Answered cfg (spec.provider, spec.model, scope)) (Idle cfg)
      (reconcileHint cfg spec scope) := by
  refine Triple.pointwise fun s hs => ?_
  refine Triple.bind (K := fun r s' => r = .ok s.var ∧ s' = s.drained s.drain)
    (Triple.ask (f := .ok) ?_) (fun hint => Triple.pointwise fun s' hs' => ?_)
    fun e _ h => nomatch h.1
  · rintro _ hint s' rfl ⟨rfl, rfl⟩
    exact ⟨rfl, rfl⟩
  obtain ⟨hhint, rfl⟩ := hs'
  obtain rfl : hint = s.var := Except.ok.inj hhint
  split
  next h hvar =>
    split
    next hq =>
      refine Triple.ask ?_
      rintro _ r s' rfl rfl
      have hidle : Idle cfg (s.drained
          { s.drain with applied := [((spec.provider, spec.model, scope), h)] }) :=
        hs.idle (by simp [hq, hvar])
      cases r with
      | ok _ => exact hidle
      | error _ => exact hidle.sorted
    next hq =>
      refine Triple.ret ?_
      rintro _ rfl
      exact hs.idle (by simp [hq])
  next hvar =>
    refine Triple.ret ?_
    rintro _ rfl
    exact hs.idle (by simp [hvar])

end

/-! ## A pass -/

section

variable {ω : Type} {cfg : Config} {v : Visit} {resolved : ResolvedKey}

/-- The attempt that a resolution begins. -/
abbrev begun (v : Visit) (resolved : ResolvedKey) : String × String × String :=
  (v.spec.provider, v.spec.model, resolved.scope)

/-- How a `try` block ends that quota did not refuse: the handlers drain. -/
def Attempted {ε α : Type} (cfg : Config) (attempt : String × String × String)
    (refuses : α → Prop) (r : Except ε α) (s : Sink) : Prop :=
  Answered cfg attempt s ∧ ∀ a, r = .ok a → refuses a → Idle cfg s

theorem Answered.raised {ε α : Type} {attempt : String × String × String} {s : Sink}
    (h : Answered cfg attempt s) (refuses : α → Prop) (e : ε) :
    Attempted cfg attempt refuses (.error e : Except ε α) s := by
  refine ⟨h, fun a hok => ?_⟩
  cases hok

theorem stays_recordFailure {J : Sink → Prop} (decision : BreakerDecision) (exc : ProviderError) :
    Stays J (recordFailure decision exc) := .ask fun _ _ _ h => h

theorem stays_recordSuccess {J : Sink → Prop} (decision : BreakerDecision) :
    Stays J (recordSuccess decision) := .ask fun _ _ _ h => h

/-- What is said and done once the sink is drained. -/
theorem Stays.leads_idle {α : Type} {p : Eff α} (h : Stays (Idle cfg) p) :
    Leads cfg (Idle cfg) (Idle cfg) p :=
  h.leads fun _ hs => hs.sorted

theorem Stays.leads_answered {α : Type} {p : Eff α} {attempt : String × String × String}
    (h : Stays (Answered cfg attempt) p) :
    Leads cfg (Answered cfg attempt) (Answered cfg attempt) p :=
  h.leads fun _ hs => hs.sorted

theorem skipQuota_leads (decision : BreakerDecision) (refusal : QuotaDecision) :
    Leads cfg (Idle cfg) (Idle cfg) (skipQuota (ω := ω) v decision resolved refusal) :=
  Stays.leads_idle (.bind (stays_log _) fun _ => .ret)

/-- How a pass begins: the attempt awaits its response. -/
theorem opening_leads {α : Type} {f : Seconds → ResolvedKey → Eff α}
    (hf : ∀ t resolved, Leads cfg (Awaiting cfg (begun v resolved)) (Idle cfg) (f t resolved)) :
    Leads cfg (Idle cfg) (Idle cfg) (do
      let attemptStarted ← now
      adapterForSpec v.spec
      let resolved ← forProvider v.spec.provider v.spec.model
      f attemptStarted resolved) := by
  refine Leads.bind (K := Idle cfg) (Stays.leads_idle (.askRet fun _ _ _ h => h)) fun t => ?_
  refine Leads.bind (K := Idle cfg) (Stays.leads_idle (.ask fun _ _ _ h => h)) fun _ => ?_
  refine Triple.bind (K := fun r s => match r with
    | .ok resolved => Awaiting cfg (begun v resolved) s
    | .error _ => Sorted cfg s) (Triple.ask ?_) (fun resolved => hf t resolved) fun _ _ hs => hs
  rintro s (e | resolved) s' hs rfl
  · exact hs.sorted
  · refine ⟨⟨hs.var, hs.undrained, hs.sorted.drains, ?_⟩, rfl, rfl⟩
    simp [hs.sorted.dropped, hs.undrained]

end

/-! ## The non-streaming path -/

namespace Complete

section

variable {cfg : Config} {v : Visit} {resolved : ResolvedKey}

def Refuses : Tries → Prop
  | .refused _ => True
  | .answered _ _ _ => False

theorem tryAttempt_attempted :
    Triple contexts (Awaiting cfg (begun v resolved)) (tryAttempt cfg v resolved)
      (Attempted cfg (begun v resolved) Refuses) := by
  have hraise : ∀ e s, Awaiting cfg (begun v resolved) s →
      Attempted cfg (begun v resolved) Refuses (.error e : Except (Exn × Tried) Tries) s :=
    fun e _ hs => hs.answered.raised _ e
  refine Triple.bind (K := fun _ => Awaiting cfg (begun v resolved)) (stays_render _).withLocals
    (fun rendered => ?_) hraise
  refine Triple.bind (K := fun _ => Awaiting cfg (begun v resolved))
    (stays_takeReservation _ _ _).withLocals (fun gate => ?_) hraise
  cases gate with
  | refused decision => exact Triple.ret fun s hs => ⟨hs.answered, fun _ _ _ => hs.toIdle⟩
  | go reservation =>
    refine Triple.bind (K := fun _ => Answered cfg (begun v resolved))
      (Triple.mapError (K := fun _ => Answered cfg (begun v resolved)) (Triple.ask ?_))
      (fun completion => ?_) fun e _ hs => hs.raised _ e
    · rintro s r s' hs ⟨hint, rfl⟩
      exact answered_of_publish hs hint
    · refine Triple.ret fun s hs => ⟨hs, fun a ha hr => ?_⟩
      cases ha
      exact hr.elim

theorem giveUp_leads (started : Seconds) (decision : BreakerDecision) (walk : Walk)
    (exc : ProviderError) :
    Leads cfg (Idle cfg) (Idle cfg) (giveUp started decision resolved v walk exc) := by
  refine Stays.leads_idle (.bind (stays_recordFailure _ _) fun _ => ?_)
  split
  · exact .ret
  · exact .bind (stays_log _) fun _ => .bind (stays_elapsedMs _) fun _ => .ret

theorem decideNext_leads (started : Seconds) (decision : BreakerDecision)
    (candidatesRemaining : Nat) (walk : Walk) (exc : ProviderError) :
    Leads cfg (Idle cfg) (Idle cfg)
      (decideNext cfg started decision candidatesRemaining resolved v walk exc) := by
  unfold decideNext
  split
  next => exact Stays.leads_idle (.bind (stays_log _) fun _ => .ret)
  next =>
    dsimp only
    split
    next =>
      split
      next => exact Leads.bind (Stays.leads_idle (stays_log _)) fun _ => giveUp_leads _ _ _ _
      next =>
        refine Stays.leads_idle (.bind (.askRet fun _ _ _ h => h) fun delay => ?_)
        exact .bind (.ask fun _ _ _ h => h) fun _ => .ret
    next => exact giveUp_leads _ _ _ _

theorem onError_leads (started attemptStarted : Seconds) (decision : BreakerDecision)
    (candidatesRemaining : Nat) (tried : Tried) (exc : ProviderError) :
    Leads cfg (Answered cfg (begun v resolved)) (Idle cfg)
      (onError cfg started attemptStarted decision candidatesRemaining resolved v tried exc) := by
  refine Leads.bind (Stays.leads_answered (stays_elapsedMs _)) fun latencyMs => ?_
  refine Leads.bind (Stays.leads_answered (stays_settle _ _ _)) fun _ => ?_
  refine Leads.bind (leads_reconcileHint _ _) fun _ => ?_
  refine Leads.bind (Stays.leads_idle (stays_discloseAuthFailure _ _)) fun _ => ?_
  exact Leads.bind (Stays.leads_idle (stays_log _)) fun _ => decideNext_leads _ _ _ _ _

theorem onSuccess_leads (started attemptStarted : Seconds) (decision : BreakerDecision)
    (tried : Tried) (report : RenderReport) (completion : Completion) :
    Leads cfg (Answered cfg (begun v resolved)) (Idle cfg)
      (onSuccess cfg started attemptStarted decision resolved v tried report completion) := by
  refine Leads.bind (Stays.leads_answered (stays_elapsedMs _)) fun latencyMs => ?_
  refine Leads.bind (Stays.leads_answered (stays_settle _ _ _)) fun _ => ?_
  refine Leads.bind (leads_reconcileHint _ _) fun _ => Stays.leads_idle ?_
  exact .bind (stays_recordSuccess _) fun _ => .bind (stays_recordLatency _ _ _) fun _ =>
    .bind (stays_log _) fun _ => .bind (stays_elapsedMs _) fun _ => .ret

theorem pass_leads (started : Seconds) (decision : BreakerDecision) (candidatesRemaining : Nat)
    (v : Visit) :
    Leads cfg (Idle cfg) (Idle cfg) (pass cfg started decision candidatesRemaining v) := by
  refine opening_leads fun t resolved => Triple.attempt tryAttempt_attempted fun r => ?_
  rcases r with ⟨e, tried⟩ | refusal | ⟨tried, report, completion⟩
  · cases e with
    | provider exc =>
      exact Triple.mono (onError_leads _ _ _ _ _ _) (fun _ hs => hs.1) fun _ _ hr => hr
    | _ => exact Triple.raise fun _ hs => hs.1.sorted
  · exact Triple.mono (skipQuota_leads _ _) (fun _ hs => hs.2 _ rfl trivial) fun _ _ hr => hr
  · exact Triple.mono (onSuccess_leads _ _ _ _ _ _) (fun _ hs => hs.1) fun _ _ hr => hr

end

end Complete

/-! ## The streaming path -/

namespace Stream

section

variable {cfg : Config} {v : Visit} {resolved : ResolvedKey}

def Refuses : Tries → Prop
  | .refused _ => True
  | .answered _ _ => False

theorem pump_stays {attempt : String × String × String} (attemptStarted : Seconds)
    (chunks : List StreamChunk) (t : Tried) :
    Stays (Answered cfg attempt) (pump attemptStarted chunks t) := by
  induction chunks generalizing t with
  | nil => exact .ret
  | cons chunk chunks ih =>
    refine .bind (.withLocals ?_) fun ms => ?_
    · unfold firstTokenMs
      split
      · exact .ret
      · exact stays_elapsedMs _
    · dsimp only
      split
      · exact ih _
      · exact .bind (answered_yield _).withLocals fun _ => ih _

theorem drain_stays {attempt : String × String × String} (spec : ModelSpec)
    (attemptStarted : Seconds) (chunks : List StreamChunk) (ending : StreamEnd) (t : Tried) :
    Stays (Answered cfg attempt) (drain spec attemptStarted chunks ending t) := by
  have hclose : ∀ t : Tried, Stays (Answered cfg attempt) (aclose.withLocals t) :=
    fun _ => .withLocals (.ask fun _ _ _ h => h)
  have hbody : Stays (Answered cfg attempt)
      (do atEnd spec ending (← pump attemptStarted chunks t)) := by
    refine .bind (pump_stays _ _ _) fun t => ?_
    unfold atEnd
    split
    · exact .ret
    · exact Triple.raise fun _ hs => hs
  refine Triple.attempt hbody fun r => ?_
  rcases r with ⟨e, t⟩ | t
  · exact Stays.bind (hclose t) fun _ => Triple.raise fun _ hs => hs
  · exact Stays.bind (hclose t) fun _ => Stays.ret

/-- The stream opens in the task that goes on behind the attempt's start. -/
theorem tryAttempt_attempted (attemptStarted : Seconds) :
    Triple contexts (Awaiting cfg (begun v resolved)) (tryAttempt cfg attemptStarted v resolved)
      (Attempted cfg (begun v resolved) Refuses) := by
  have hraise : ∀ e s, Awaiting cfg (begun v resolved) s →
      Attempted cfg (begun v resolved) Refuses (.error e : Except (Exn × Tried) Tries) s :=
    fun e _ hs => hs.answered.raised _ e
  refine Triple.bind (K := fun _ => Awaiting cfg (begun v resolved)) (stays_render _).withLocals
    (fun rendered => ?_) hraise
  refine Triple.bind (K := fun _ => Awaiting cfg (begun v resolved))
    (stays_takeReservation _ _ _).withLocals (fun gate => ?_) hraise
  cases gate with
  | refused decision => exact Triple.ret fun s hs => ⟨hs.answered, fun _ _ _ => hs.toIdle⟩
  | go reservation =>
    refine Triple.bind (K := fun _ => Awaiting cfg (begun v resolved))
      (awaiting_yield _).withLocals (fun _ => ?_) hraise
    refine Triple.bind (K := fun _ => Answered cfg (begun v resolved))
      (Triple.mapError (K := fun _ => Answered cfg (begun v resolved)) (Triple.ask ?_))
      (fun opened => ?_) fun e _ hs => hs.raised _ e
    · rintro s r s' hs ⟨hint, rfl⟩
      exact answered_of_publish hs hint
    · refine Triple.bind (drain_stays _ _ _ _ _) (fun tried => ?_) fun e _ hs => hs.raised _ e
      split
      · exact Triple.raise fun _ hs => hs.raised _ _
      · refine Triple.ret fun s hs => ⟨hs, fun a ha hr => ?_⟩
        cases ha
        exact hr.elim

theorem giveUp_leads (started : Seconds) (decision : BreakerDecision) (walk : Walk)
    (exc : ProviderError) :
    Leads cfg (Idle cfg) (Idle cfg) (giveUp started decision resolved v walk exc) := by
  refine Stays.leads_idle (.bind (stays_recordFailure _ _) fun _ => ?_)
  split
  · exact .ret
  · exact .bind (stays_log _) fun _ => .bind (stays_elapsedMs _) fun _ => .ret

theorem decideNext_leads (started : Seconds) (decision : BreakerDecision)
    (candidatesRemaining : Nat) (walk : Walk) (deliveredChars : Nat) (exc : ProviderError) :
    Leads cfg (Idle cfg) (Idle cfg)
      (decideNext cfg started decision candidatesRemaining resolved v walk deliveredChars exc) := by
  unfold decideNext
  split
  next => exact Stays.leads_idle (.bind (stays_log _) fun _ => .ret)
  next =>
    dsimp only
    split
    next =>
      split
      next => exact Leads.bind (Stays.leads_idle (stays_log _)) fun _ => giveUp_leads _ _ _ _
      next =>
        refine Stays.leads_idle (.bind (.askRet fun _ _ _ h => h) fun delay => ?_)
        exact .bind (.ask fun _ _ _ h => h) fun _ => .ret
    next => exact giveUp_leads _ _ _ _

theorem onError_leads (started attemptStarted : Seconds) (decision : BreakerDecision)
    (candidatesRemaining : Nat) (tried : Tried) (exc : ProviderError) :
    Leads cfg (Answered cfg (begun v resolved)) (Idle cfg)
      (onError cfg started attemptStarted decision candidatesRemaining resolved v tried exc) := by
  refine Leads.bind (Stays.leads_answered (stays_elapsedMs _)) fun latencyMs => ?_
  refine Leads.bind (Stays.leads_answered (stays_settle _ _ _)) fun _ => ?_
  refine Leads.bind (leads_reconcileHint _ _) fun _ => ?_
  refine Leads.bind (Stays.leads_idle (stays_discloseAuthFailure _ _)) fun _ => ?_
  refine Leads.bind (Stays.leads_idle (stays_log _)) fun _ => ?_
  exact Leads.bind (Stays.leads_idle (idle_yield _)) fun _ => decideNext_leads _ _ _ _ _ _

theorem onSuccess_leads (started attemptStarted : Seconds) (decision : BreakerDecision)
    (tried : Tried) (report : RenderReport) :
    Leads cfg (Answered cfg (begun v resolved)) (Idle cfg)
      (onSuccess cfg started attemptStarted decision resolved v tried report) := by
  refine Leads.bind (Stays.leads_answered (stays_elapsedMs _)) fun latencyMs => ?_
  refine Leads.bind (Stays.leads_answered (stays_settle _ _ _)) fun _ => ?_
  refine Leads.bind (leads_reconcileHint _ _) fun _ => Stays.leads_idle ?_
  exact .bind (stays_recordSuccess _) fun _ => .bind (stays_recordLatency _ _ _) fun _ =>
    .bind (stays_log _) fun _ => .bind (stays_elapsedMs _) fun _ =>
    .bind (idle_yield _) fun _ => .ret

theorem pass_leads (started : Seconds) (decision : BreakerDecision) (candidatesRemaining : Nat)
    (v : Visit) :
    Leads cfg (Idle cfg) (Idle cfg) (pass cfg started decision candidatesRemaining v) := by
  refine opening_leads fun t resolved => Triple.attempt (tryAttempt_attempted t) fun r => ?_
  rcases r with ⟨e, tried⟩ | refusal | ⟨tried, report⟩
  · cases e with
    | provider exc =>
      exact Triple.mono (onError_leads _ _ _ _ _ _) (fun _ hs => hs.1) fun _ _ hr => hr
    | _ => exact Triple.raise fun _ hs => hs.1.sorted
  · exact Triple.mono (skipQuota_leads _ _) (fun _ hs => hs.2 _ rfl trivial) fun _ _ hr => hr
  · exact Triple.mono (onSuccess_leads _ _ _ _ _) (fun _ hs => hs.1) fun _ _ hr => hr

end

end Stream

/-! ## The run -/

/-- A walk of passes that leave the sink idle leaves it idle. -/
theorem walkChain_leads {ω : Type} {cfg : Config}
    {pass : BreakerDecision → Nat → (v : Visit) → Eff (Pass ω v)}
    (hpass : ∀ decision n v, Leads cfg (Idle cfg) (Idle cfg) (pass decision n v))
    (started : Seconds) (chain : List ModelSpec) :
    Leads cfg (Idle cfg) (Idle cfg) (walkChain cfg started pass chain) := by
  have hvisit : ∀ candidate rest w,
      Leads cfg (Idle cfg) (Idle cfg) (visitCandidate cfg pass candidate rest w) := by
    intro candidate rest w
    unfold visitCandidate
    split
    next => exact Stays.leads_idle .ret
    next =>
      refine Leads.bind (Stays.leads_idle (.ask fun _ _ _ h => h)) fun decision => ?_
      split
      next =>
        refine Triple.iterate Visit.left (fun _ => Idle cfg) fun v => ?_
        refine Triple.mono (hpass decision rest.length v) (fun _ hs => hs) ?_
        rintro (e | v' | f) s hs
        · exact hs
        · exact hs
        · exact hs
      next => exact Stays.leads_idle (.bind (stays_log _) fun _ => .ret)
  refine Leads.bind (K := Idle cfg) (Triple.forEach (fun _ => Idle cfg) (fun _ _ h => h) ?_)
    fun flow => ?_
  · intro candidate rest w
    refine Triple.mono (hvisit candidate rest w) (fun _ hs => hs) ?_
    rintro (e | f) s hs
    · exact hs
    · cases f <;> exact hs
  · have hends : ∀ w,
        Leads cfg (Idle cfg) (Idle cfg) (exhausted (ω := ω) cfg chain started w) := fun w =>
      Stays.leads_idle (.bind (stays_log _) fun _ => .bind (stays_elapsedMs _) fun _ => .ret)
    cases flow with
    | done r => exact Stays.leads_idle .ret
    | next w => exact hends w
    | stop w => exact hends w

theorem route_leads (cfg : Config) (chain : List ModelSpec) :
    Leads cfg (Idle cfg) (Idle cfg) (route cfg chain) :=
  Leads.bind (Stays.leads_idle (.askRet fun _ _ _ h => h)) fun started =>
    walkChain_leads (Complete.pass_leads started) started chain

theorem routeStream_leads (cfg : Config) (chain : List ModelSpec) :
    Leads cfg (Idle cfg) (Idle cfg) (routeStream cfg chain) :=
  Leads.bind (Stays.leads_idle (.askRet fun _ _ _ h => h)) fun started =>
    walkChain_leads (Stream.pass_leads started) started chain

/-- **Hints go where they belong.** Every drain takes what the response of its own attempt
published, and that alone is applied, to that attempt; and no response is left undrained, neither
by the next attempt nor, where the run comes back, by its end. -/
structure Faithful (cfg : Config) (s : Sink) (returned : Prop) : Prop where
  attributed : ∀ d ∈ s.drains, d.Attributed
  applies : ∀ d ∈ s.drains, d.Applies cfg
  dropped : s.dropped = false
  undrained : returned → s.undrained = false

theorem Leads.faithful_iff {α : Type} {cfg : Config} {p : Eff α}
    (h : Leads cfg (Idle cfg) (Idle cfg) p) {tr : List (Event iface)} {r : Except Exn α} {s : Sink}
    (hr : p.Runs tr r) (ha : contexts.Accepts fresh tr s) :
    Faithful cfg s r.isOk ↔ ∀ d ∈ s.drains, d.Clean := by
  have hend := wp_sound contexts
    (h fresh ⟨rfl, rfl, fun d hd => absurd hd List.not_mem_nil, rfl⟩) hr ha
  have hsorted : Sorted cfg s := by
    cases r with
    | ok a => exact hend.sorted
    | error e => exact hend
  constructor
  · exact fun hf d hd => (hsorted.drains d hd).1.mp (hf.attributed d hd)
  · intro hclean
    refine ⟨fun d hd => (hsorted.drains d hd).1.mpr (hclean d hd),
      fun d hd => (hsorted.drains d hd).2, hsorted.dropped, fun hok => ?_⟩
    cases r with
    | ok a => exact hend.undrained
    | error e => cases hok

/-- **When hints go where they belong.** In a run of either path they do if and only if every
drain is clean: a response that published is drained before the loop goes on in another task, and
where it did not no extraction has published since the sink was last drained or left behind. -/
theorem faithful_iff_clean (cfg : Config) (chain : List ModelSpec) :
    (∀ tr r s, (route cfg chain).Runs tr r → contexts.Accepts fresh tr s →
      (Faithful cfg s r.isOk ↔ ∀ d ∈ s.drains, d.Clean)) ∧
    (∀ tr r s, (routeStream cfg chain).Runs tr r → contexts.Accepts fresh tr s →
      (Faithful cfg s r.isOk ↔ ∀ d ∈ s.drains, d.Clean)) :=
  ⟨fun _ _ _ hr ha => (route_leads cfg chain).faithful_iff hr ha,
    fun _ _ _ hr ha => (routeStream_leads cfg chain).faithful_iff hr ha⟩

/-- Every question answered with success; an extraction publishes the one hint, the provider's
response the other. -/
def hinted (extracted own : Option QuotaHint) (s : Sink) : (q : Ask) → Ans q × Sink
  | .forProvider provider model => (oblige (.forProvider provider model), { s with
      attempt := (provider, model, (sharedKey provider).scope), published := none, resumed := false
      dropped := s.dropped || s.undrained })
  | .render spec => (oblige (.render spec), { s with
      var := publishHint s.var extracted, stray := publishHint s.stray extracted })
  | .complete spec payload key => (oblige (.complete spec payload key), { s with
      var := publishHint s.var own, published := own, resumed := false, undrained := true })
  | .stream spec payload key => (oblige (.stream spec payload key), { s with
      var := publishHint s.var own, published := own, resumed := false, undrained := true })
  | .yield ev => (oblige (.yield ev), { s with var := none, stray := none, resumed := true })
  | .takeHint => (s.var, s.drained s.drain)
  | .applyHint spec scope hint => (oblige (.applyHint spec scope hint), { s with
      drains := s.drains.modifyHead fun d =>
        { d with applied := d.applied ++ [((spec.provider, spec.model, scope), hint)] } })
  | q => (oblige q, s)

theorem hinted_contexts (extracted own : Option QuotaHint) (s : Sink) (q : Ask) :
    contexts s q (hinted extracted own s q).1 (hinted extracted own s q).2 := by
  cases q with
  | render spec => exact ⟨[extracted], rfl⟩
  | complete spec payload key => exact ⟨own, rfl⟩
  | stream spec payload key => exact ⟨own, rfl⟩
  | takeHint => exact ⟨rfl, rfl⟩
  | _ => rfl

/-- Five requests are left, a provider says. -/
def fiveLeft : QuotaHint := { requestsRemaining := some 5 }

/-- A call whose response publishes: its hint is taken and applied. -/
theorem faithful_iff_clean_answered :
    ∃ tr s, contexts.Accepts fresh tr s ∧ Faithful {} s True ∧
      s.drains.map (·.applied) = [[(("groq", "llama", "system"), fiveLeft)]] := by
  have hruns := Prog.play_runs (hinted none (some fiveLeft)) fresh (route {} [groq])
  have ha := accepts_play (hinted_contexts none (some fiveLeft)) fresh (route {} [groq])
  have hclean : ∀ d ∈ ((route {} [groq]).finish (hinted none (some fiveLeft)) fresh).drains,
      d.Clean := by
    have hdrains : ((route {} [groq]).finish (hinted none (some fiveLeft)) fresh).drains =
        [{ attempt := ("groq", "llama", "system"), published := some fiveLeft, resumed := false
           stray := none, taken := some fiveLeft
           applied := [(("groq", "llama", "system"), fiveLeft)] }] := by decide
    intro d hd
    rw [hdrains, List.mem_singleton] at hd
    subst hd
    exact ⟨fun _ => rfl, nofun⟩
  have hfaithful := ((faithful_iff_clean {} [groq]).1 _ _ _ hruns ha).mpr hclean
  have hok : ((route {} [groq]).play (hinted none (some fiveLeft)) fresh).2.isOk := by
    decide
  exact ⟨_, _, ha, ⟨hfaithful.attributed, hfaithful.applies, hfaithful.dropped,
    fun _ => hfaithful.undrained hok⟩, by decide⟩

/-- **Hints go astray on either path.** An extraction's hint is applied to a provider whose response
published none; and the hint of a stream is lost behind its first chunk. -/
theorem not_faithful :
    (¬ ∀ (cfg : Config) (chain : List ModelSpec) tr r s, (route cfg chain).Runs tr r →
      contexts.Accepts fresh tr s → Faithful cfg s r.isOk) ∧
    ¬ ∀ (cfg : Config) (chain : List ModelSpec) tr r s, (routeStream cfg chain).Runs tr r →
      contexts.Accepts fresh tr s → Faithful cfg s r.isOk := by
  constructor
  · intro h
    have hf := h {} [groq] _ _ _ (Prog.play_runs (hinted (some fiveLeft) none) fresh _)
      (accepts_play (hinted_contexts _ _) fresh _)
    have hdrains : ((route {} [groq]).finish (hinted (some fiveLeft) none) fresh).drains =
        [{ attempt := ("groq", "llama", "system"), published := none, resumed := false
           stray := some fiveLeft, taken := some fiveLeft
           applied := [(("groq", "llama", "system"), fiveLeft)] }] := by decide
    have hattributed := hf.attributed _ (by rw [hdrains]; exact List.mem_singleton_self _)
    exact absurd hattributed (show ¬ some fiveLeft = none from nofun)
  · intro h
    have hf := h {} [groq] _ _ _ (Prog.play_runs (hinted none (some fiveLeft)) fresh _)
      (accepts_play (hinted_contexts _ _) fresh _)
    have hdrains : ((routeStream {} [groq]).finish (hinted none (some fiveLeft)) fresh).drains =
        [{ attempt := ("groq", "llama", "system"), published := some fiveLeft, resumed := true
           stray := none, taken := none }] := by decide
    have hattributed := hf.attributed _ (by rw [hdrains]; exact List.mem_singleton_self _)
    exact absurd hattributed (show ¬ none = some fiveLeft from nofun)

end Router

end LlmGateway
