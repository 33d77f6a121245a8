import LlmGateway.Routing.Ledger
import LlmGateway.Routing.Rules

/-!
# What a pass does to the ledger

The states of a run between the questions that matter, as relations of the
loop's locals and the ledger, and for each block of the loop what it makes of
them.
-/

namespace LlmGateway

namespace Router

open Effects

/-! ## Trails -/

/-- The records are numbered from one, in order. -/
def Numbered (trail : List AttemptRecord) : Prop :=
  ∀ i (h : i < trail.length), trail[i].n = i + 1

/-- A trail no record of which is `ok`. -/
structure Unserved (trail : List AttemptRecord) : Prop where
  numbered : Numbered trail
  none_ok : ∀ r ∈ trail, r.outcome ≠ .ok

/-- A trail whose last record, and no other, is `ok`. -/
structure ServedTrail (trail : List AttemptRecord) : Prop where
  numbered : Numbered trail
  ends_ok : ∃ before last, trail = before ++ [last] ∧ last.outcome = .ok ∧
    ∀ r ∈ before, r.outcome ≠ .ok

section

variable {trail : List AttemptRecord} {w : Walk} {record : Nat → AttemptRecord}

theorem Numbered.append (h : Numbered trail) (hw : w.trail = trail)
    (hn : ∀ n, (record n).n = n) : Numbered (w.append record).trail := by
  subst hw
  intro i hi
  simp only [Walk.append, List.length_append, List.length_singleton] at hi
  rcases Nat.lt_succ_iff_lt_or_eq.mp hi with hlt | rfl
  · simpa [Walk.append, List.getElem_append_left hlt] using h i hlt
  · simp [Walk.append, hn]

theorem Unserved.append (h : Unserved trail) (hw : w.trail = trail)
    (hn : ∀ n, (record n).n = n) (ho : ∀ n, (record n).outcome ≠ .ok) :
    Unserved (w.append record).trail where
  numbered := h.numbered.append hw hn
  none_ok r hr := by
    rcases List.mem_append.mp hr with hr | hr
    · exact h.none_ok r (hw ▸ hr)
    · rw [List.mem_singleton.mp hr]
      exact ho _

theorem Unserved.serve (h : Unserved trail) (hw : w.trail = trail)
    (hn : ∀ n, (record n).n = n) (ho : ∀ n, (record n).outcome = .ok) :
    ServedTrail (w.append record).trail where
  numbered := h.numbered.append hw hn
  ends_ok := ⟨w.trail, _, rfl, ho _, hw ▸ h.none_ok⟩

end

/-! ## The states of a run -/

/-- What holds of the ledger whatever the run is doing. -/
structure Sound (cfg : Config) (g : Ledger) : Prop where
  accounts : g.granted = g.settled ++ g.owed.toList
  budget : g.calls ≤ cfg.maxAttempts ∨ g.overdue
  recalled : g.recalled = false
  overtried : g.overtried = false
  strayed : g.strayed → g.refusedAtFault

/-- Nothing has been served: no latency sample, no terminal event. -/
structure Unfinished (g : Ledger) : Prop where
  torn : g.torn = false
  leaving : g.leaving = none
  metered : g.metered = []
  completed : g.completed = none

/-- Inside a visit, with `reservation` the one still to be settled. -/
structure InHand (cfg : Config) (v : Visit) (attempts : Nat) (reservation : Option Reservation)
    (g : Ledger) : Prop extends Sound cfg g, Unfinished g where
  owed : g.owed = reservation
  quota : reservation.isSome → cfg.quota
  calls : g.calls = attempts
  refits : g.visitRefits = if v.refitUsed then 1 else 0
  retries : g.visitRetries = v.retriesUsed
  trail : Unserved v.walk.trail

/-- At the head of the `while True`. -/
structure AtPass (cfg : Config) (v : Visit) (g : Ledger) : Prop
    extends InHand cfg v v.walk.attempts none g where
  room : g.calls < cfg.maxAttempts ∨ g.overdue
  text : g.visitText = false
  error : ∀ e, g.visitError = some e → v.walk.lastError = some e

/-- In the handler of a provider error: text was delivered only if the locals
say so. -/
structure InHandler (cfg : Config) (v : Visit) (attempts : Nat)
    (reservation : Option Reservation) (deliveredChars : Nat) (g : Ledger) : Prop
    extends InHand cfg v attempts reservation g where
  text : g.visitText → 0 < deliveredChars

/-- Between two candidates, or behind the last. -/
structure Between (cfg : Config) (w : Walk) (g : Ledger) : Prop
    extends Sound cfg g, Unfinished g where
  owed : g.owed = none
  calls : g.calls = w.attempts
  fault : g.atFault → g.refusedAtFault
  error : ∀ e, g.visitError = some e → w.lastError = some e
  trail : Unserved w.trail

/-- The run has raised `RoutingFailed`. -/
structure Failed (cfg : Config) (f : RoutingFailed) (g : Ledger) : Prop
    extends Sound cfg g, Unfinished g where
  owed : g.owed = none
  error : ∀ e, g.visitError = some e → f.error = e
  trail : Unserved f.trail

/-- The candidate `spec` has served, with this trail. -/
structure Served (cfg : Config) (spec : ModelSpec) (trail : List AttemptRecord) (g : Ledger) : Prop
    extends Sound cfg g where
  torn : g.torn = false
  owed : g.owed = none
  metered : g.metered = if cfg.metrics then [spec.key] else []
  trail : ServedTrail trail

/-- The stream has yielded its terminal event. -/
def Completed (cfg : Config) (g : Ledger) : Prop :=
  ∃ c, g.completed = some c ∧ Served cfg c.spec c.trail g

/-- The run was left by an exception the loop does not handle. What it still
owed then stays owed. Only a run that streams can be left when it has served:
at the yield of its terminal event. -/
structure Left (cfg : Config) (streams : Prop) (g : Ledger) : Prop extends Sound cfg g where
  torn : g.torn = g.owed.isSome
  finished : (g.metered = [] ∧ g.completed = none) ∨ streams ∧ Completed cfg g

/-- What a pass promises, given what a served run promises. -/
def PassPost {ω : Type} (cfg : Config) (streams : Prop) (S : ω → Ledger → Prop) (v : Visit) :
    Except Exn (Pass ω v) → Ledger → Prop
  | .ok (.inl v'), g => AtPass cfg v'.1 g
  | .ok (.inr (.next w)), g => Between cfg w g
  | .ok (.inr (.stop _)), _ => False
  | .ok (.inr (.done (.ok o))), g => S o g
  | .ok (.inr (.done (.error f))), g => Failed cfg f g
  | .error _, g => Left cfg streams g

/-- What a run promises, given what a served run promises. -/
def RunPost {ω : Type} (cfg : Config) (streams : Prop) (S : ω → Ledger → Prop) :
    Except Exn (Except RoutingFailed ω) → Ledger → Prop
  | .ok (.ok o), g => S o g
  | .ok (.error f), g => Failed cfg f g
  | .error _, g => Left cfg streams g

/-- The observer of a run under `cfg`. -/
abbrev observer (cfg : Config) : World iface Ledger := watch (Ledger.note cfg.maxAttempts)

/-! ## Blocks that only look -/

section

variable {cfg : Config} {streams : Prop} {g : Ledger}

theorem wp_elapsedMs (since : Seconds) {Q : Except Exn Int → Ledger → Prop}
    (h : ∀ ms, Q (.ok ms) g) : wp (observer cfg) (elapsedMs since) Q g := by
  simp only [elapsedMs, wp_bind, wp_now, watch, forall_eq]
  exact fun t => h _

theorem wp_reconcileHint (spec : ModelSpec) (scope : String) {Q : Except Exn Unit → Ledger → Prop}
    (h : ∀ r, Q r g) : wp (observer cfg) (reconcileHint cfg spec scope) Q g := by
  simp only [reconcileHint, wp_bind, wp_takeHint, watch, forall_eq]
  rintro (_ | hint)
  · exact h _
  · dsimp only
    split
    · simp only [wp_applyHint, watch, forall_eq]
      exact fun r => h r
    · exact h _

theorem wp_discloseAuthFailure (resolved : ResolvedKey) (exc : ProviderError)
    {Q : Except Exn Unit → Ledger → Prop} (h : ∀ r, Q r g) :
    wp (observer cfg) (discloseAuthFailure resolved exc) Q g := by
  unfold discloseAuthFailure
  split
  · simp only [wp_recordAuthFailure, watch, forall_eq]
    exact fun r => h r
  · exact h _

theorem Unfinished.left (hs : Sound cfg g) (hf : Unfinished g) (ho : g.owed = none) :
    Left cfg streams g :=
  { hs with torn := by rw [hf.torn, ho]; rfl, finished := .inl ⟨hf.metered, hf.completed⟩ }

theorem InHand.left {v : Visit} {attempts : Nat} (h : InHand cfg v attempts none g) :
    Left cfg streams g :=
  Unfinished.left h.toSound h.toUnfinished h.owed

/-! ## Blocks both paths share -/

/-- Settling what is owed leaves nothing owed, unless the call is cut off
before its script ran. -/
theorem wp_settle {v : Visit} {attempts : Nat} {reservation : Option Reservation}
    (streams : Prop) (tokensIn tokensOut : Int) (h : InHand cfg v attempts reservation g) :
    wp (observer cfg) (settle cfg reservation tokensIn tokensOut) (fun r g' => match r with
      | .ok _ => InHand cfg v attempts none g' ∧ g'.visitText = g.visitText
      | .error _ => Left cfg streams g') g := by
  cases reservation with
  | none =>
    have hs : settle cfg none tokensIn tokensOut = .ret () := by unfold settle; split <;> simp_all
    rw [hs, wp_ret]
    exact ⟨h, rfl⟩
  | some r =>
    have hs : settle cfg (some r) tokensIn tokensOut = commit r tokensIn tokensOut := by
      simp [settle, h.quota rfl]
    have hacc : g.granted = g.settled ++ [r] := by simpa [h.owed] using h.accounts
    have hpaid : InHand cfg v attempts none (g.settle r) :=
      { h with
        accounts := by simp [Ledger.settle, hacc]
        owed := rfl
        quota := by simp }
    rw [hs, wp_commit]
    simp only [watch, forall_eq]
    rintro (_ | ⟨e, _ | _⟩)
    · exact ⟨hpaid, rfl⟩
    · exact
        { h with
          torn := by simp [Ledger.note, h.owed]
          finished := .inl ⟨h.metered, h.completed⟩ }
    · exact hpaid.left

/-- Quota turns the candidate away: nothing was granted. -/
theorem wp_skipQuota {ω : Type} {S : ω → Ledger → Prop} {v : Visit} (decision : BreakerDecision)
    (resolved : ResolvedKey) (refusal : QuotaDecision) (h : AtPass cfg v g)
    (hf : g.atFault → g.refusedAtFault) :
    wp (observer cfg) (skipQuota v decision resolved refusal) (PassPost cfg streams S v) g := by
  simp only [skipQuota, wp_bind, wp_log, watch, forall_eq]
  intro _
  exact
    { h with
      calls := h.calls
      fault := hf
      error := h.error
      trail := h.trail.append rfl (fun _ => rfl) (fun _ => by simp) }

/-- A grant puts the reservation in hand. -/
theorem AtPass.granted {v : Visit} {d : QuotaDecision} (h : AtPass cfg v g) (hq : cfg.quota)
    (ha : d.allowed) : InHand cfg v v.walk.attempts d.reservation (g.reserved d) ∧
      (g.reserved d).visitText = false ∧
      ((g.reserved d).calls < cfg.maxAttempts ∨ (g.reserved d).overdue) := by
  have hg : g.reserved d =
      { g with granted := g.granted ++ d.reservation.toList, owed := d.reservation } := by
    simp [Ledger.reserved, ha]
  have hacc : g.granted = g.settled := by simpa [h.owed] using h.accounts
  rw [hg]
  exact ⟨{ h with accounts := by simp [hacc], owed := rfl, quota := fun _ => hq }, h.text, h.room⟩

/-- A refusal grants nothing, and is noted when the candidate is at fault. -/
theorem AtPass.refused {v : Visit} {d : QuotaDecision} (h : AtPass cfg v g)
    (ha : d.allowed = false) : AtPass cfg v (g.reserved d) ∧
      ((g.reserved d).atFault → (g.reserved d).refusedAtFault) := by
  have hg : g.reserved d = { g with refusedAtFault := g.refusedAtFault || g.atFault } := by
    simp [Ledger.reserved, ha]
  rw [hg]
  refine ⟨{ h with strayed := fun hs => ?_ }, fun hf => ?_⟩
  · simp [h.strayed hs]
  · have : g.atFault := hf
    simp [this]

/-- The reservation step grants, refuses, or raises. -/
theorem wp_takeReservation {v : Visit} (spec : ModelSpec) (resolved : ResolvedKey)
    (report : RenderReport) (h : AtPass cfg v g) :
    wp (observer cfg) (takeReservation cfg spec resolved report) (fun r g' => match r with
      | .ok (.go reservation) => InHand cfg v v.walk.attempts reservation g' ∧
          g'.visitText = false ∧ (g'.calls < cfg.maxAttempts ∨ g'.overdue)
      | .ok (.refused _) => AtPass cfg v g' ∧ (g'.atFault → g'.refusedAtFault)
      | .error _ => AtPass cfg v g') g := by
  unfold takeReservation
  split
  next hq =>
    simp only [wp_bind, wp_uuid4, wp_reserve, watch, forall_eq]
    rintro _ (e | d)
    · exact h
    · cases ha : d.allowed with
      | true =>
        simp only [ha, if_true, Prog.pure_eq, wp_ret]
        exact h.granted hq ha
      | false =>
        simp only [ha, Bool.false_eq_true, if_false, Prog.pure_eq, wp_ret]
        exact h.refused ha
  next hq =>
    simp only [Prog.pure_eq, wp_ret]
    exact ⟨h.toInHand, h.text, h.room⟩

/-- A call spends one of the budget. -/
theorem InHand.call {v : Visit} {reservation : Option Reservation}
    (h : InHand cfg v v.walk.attempts reservation g) (ht : g.visitText = false)
    (hr : g.calls < cfg.maxAttempts ∨ g.overdue) :
    InHand cfg v (v.walk.attempts + 1) reservation g.call :=
  { h with
    budget := hr.imp_left Nat.succ_le_of_lt
    recalled := by simp [Ledger.call, h.recalled, ht]
    calls := by simp [Ledger.call, h.calls] }

/-- Leaving the `try` block with an exception: a provider error reaches the
handler with everything in hand, any other ends the run. -/
theorem InHand.leave {v : Visit} {attempts : Nat} {reservation : Option Reservation}
    (streams : Prop) (e : Exn) (h : InHand cfg v attempts reservation g) :
    (e.isProvider → InHand cfg v attempts reservation (g.leave e)) ∧
      (e.isProvider = false → Left cfg streams (g.leave e)) := by
  refine ⟨fun he => ?_, fun he => ?_⟩
  · exact { h with torn := by simp [Ledger.leave, he, h.torn], leaving := rfl }
  · exact
      { h with
        torn := by simp [Ledger.leave, he, h.torn]
        finished := .inl ⟨h.metered, h.completed⟩ }

/-- In the handler with the books closed: `exc` is what the candidate failed
with, and the walk knows it. -/
structure Deciding (cfg : Config) (v : Visit) (exc : ProviderError) (deliveredChars : Nat)
    (g : Ledger) : Prop extends InHandler cfg v v.walk.attempts none deliveredChars g where
  visitError : g.visitError = some exc
  lastError : v.walk.lastError = some exc

/-- The failure goes on the books. -/
theorem InHandler.record {v : Visit} {attempts deliveredChars : Nat} {walk : Walk}
    (exc : ProviderError) (h : InHandler cfg v attempts none deliveredChars g)
    (ha : walk.attempts = attempts) (he : walk.lastError = some exc)
    (ht : Unserved walk.trail) :
    Deciding cfg { v with walk } exc deliveredChars { g with visitError := some exc } :=
  { h with calls := h.calls.trans ha.symm, trail := ht, visitError := rfl, lastError := he }

theorem Deciding.text_eq {v : Visit} {exc : ProviderError} (h : Deciding cfg v exc 0 g) :
    g.visitText = false := by
  have := h.text
  simpa using this

theorem Deciding.refit {v : Visit} {exc : ProviderError} (spec : ModelSpec)
    (h : Deciding cfg v exc 0 g) (hu : v.refitUsed = false)
    (hr : v.walk.attempts < cfg.maxAttempts) :
    AtPass cfg { v with spec, refitUsed := true } g.refit := by
  have hrefits : g.visitRefits = 0 := by simpa [hu] using h.refits
  exact
    { h with
      overtried := by simp [Ledger.refit, h.overtried, hrefits]
      refits := by simp [Ledger.refit, hrefits]
      room := .inl (h.calls.symm ▸ hr)
      text := h.text_eq
      error := fun e he => by rw [h.lastError, ← h.visitError]; exact he }

theorem Deciding.retry {v : Visit} {exc : ProviderError} (h : Deciding cfg v exc 0 g)
    (hr : v.retriesUsed < maxSameProviderRetries) :
    AtPass cfg { v with retriesUsed := v.retriesUsed + 1 } (g.retry cfg.maxAttempts) := by
  have hretries : g.visitRetries < maxSameProviderRetries := h.retries.symm ▸ hr
  refine
    { h with
      budget := ?_
      overtried := by simp [Ledger.retry, h.overtried, hretries]
      retries := by simp [Ledger.retry, h.retries]
      room := ?_
      text := h.text_eq
      error := fun e he => by rw [h.lastError, ← h.visitError]; exact he }
  · exact h.budget.imp_right fun ho => by simp [Ledger.retry, ho]
  · -- Either the call in hand still fits, or this retry is the overdue one.
    rcases Nat.lt_or_ge g.calls cfg.maxAttempts with hlt | hge
    · exact .inl hlt
    · exact .inr (by simp [Ledger.retry, hge])

/-- A failure others may be asked after: the walk goes on. -/
theorem Deciding.between {v : Visit} {exc : ProviderError} {deliveredChars : Nat}
    (h : Deciding cfg v exc deliveredChars g) (he : exc.failoverEligible) :
    Between cfg v.walk g :=
  { h with
    fault := by simp [Ledger.atFault, h.visitError, he]
    error := fun e hv => by rw [h.lastError, ← h.visitError]; exact hv }

/-- A failure no other may be asked after: it is what the run raises. -/
theorem Deciding.failed {v : Visit} {exc : ProviderError} {deliveredChars : Nat}
    {f : RoutingFailed} (h : Deciding cfg v exc deliveredChars g) (he : f.error = exc)
    (ht : f.trail = v.walk.trail) : Failed cfg f g :=
  { h with
    error := fun e hv => by rw [he]; simpa [h.visitError] using hv
    trail := ht ▸ h.trail }

/-- A served candidate's latency sample, where there is a table. -/
structure Sampled (cfg : Config) (spec : ModelSpec) (g : Ledger) : Prop extends Sound cfg g where
  torn : g.torn = false
  owed : g.owed = none
  metered : g.metered = if cfg.metrics then [spec.key] else []

theorem wp_recordLatency {v : Visit} {attempts : Nat} (series : Series) (ms : Int)
    {Q : Except Exn Unit → Ledger → Prop} (hin : InHand cfg v attempts none g)
    (h : ∀ g', Sampled cfg v.spec g' → Q (.ok ()) g') :
    wp (observer cfg) (recordLatency cfg v.spec series ms) Q g := by
  unfold recordLatency
  split
  next hm =>
    simp only [wp_metricsRecord, watch, forall_eq]
    intro _
    exact h _ { hin with metered := by simp [Ledger.note, hin.metered, hm, ModelSpec.key] }
  next hm => exact h _ { hin with metered := by simp [hin.metered, hm] }

theorem Sampled.serve {spec : ModelSpec} {trail : List AttemptRecord} (h : Sampled cfg spec g)
    (ht : ServedTrail trail) : Served cfg spec trail g :=
  { h with trail := ht }

/-! ## The non-streaming path -/

namespace Complete

/-- What the `try` block of `route` promises. -/
def TryPost (cfg : Config) (v : Visit) : Except (Exn × Tried) Tries → Ledger → Prop
  | .ok (.refused _), g => AtPass cfg v g ∧ (g.atFault → g.refusedAtFault)
  | .ok (.answered t _ _), g => InHand cfg v t.attempts t.reservation g
  | .error (.provider _, t), g => InHandler cfg v t.attempts t.reservation 0 g
  | .error (_, _), g => Left cfg False g

theorem AtPass.raise {v : Visit} (e : Exn) (h : AtPass cfg v g) :
    TryPost cfg v (.error (e, { attempts := v.walk.attempts })) g := by
  cases e with
  | provider e => exact { h with text := by simp [h.text] }
  | _ => exact h.left

theorem wp_tryAttempt {v : Visit} (resolved : ResolvedKey) (h : AtPass cfg v g) :
    wp (observer cfg) (tryAttempt cfg v resolved) (TryPost cfg v) g := by
  simp only [tryAttempt, wp_bind, wp_mapError, wp_render, watch, forall_eq]
  rintro (e | ⟨payload, report⟩)
  · exact AtPass.raise e h
  · refine wp_mono _ (wp_takeReservation v.spec resolved report h) ?_
    rintro (e | reservation | refusal) g' hg
    · exact AtPass.raise e hg
    · obtain ⟨hin, htext, hroom⟩ := hg
      have hcall := hin.call htext hroom
      simp only [wp_bind, wp_mapError, wp_complete, watch, forall_eq]
      rintro (e | completion)
      · have hleave := hcall.leave False e
        cases e with
        | provider e =>
          exact { hleave.1 rfl with
            text := by simp [Ledger.note, Ledger.call, Ledger.leave, htext] }
        | _ => exact hleave.2 rfl
      · exact hcall
    · exact hg

theorem wp_giveUp {S : RouterOutcome → Ledger → Prop} {v : Visit} {walk : Walk}
    {exc : ProviderError} (started : Seconds) (decision : BreakerDecision)
    (resolved : ResolvedKey) (h : Deciding cfg { v with walk } exc 0 g) :
    wp (observer cfg) (giveUp started decision resolved v walk exc) (PassPost cfg False S v) g := by
  simp only [giveUp, wp_bind, wp_recordFailure, watch, forall_eq]
  rintro (e | _)
  · exact h.left
  · dsimp only
    split
    next he => exact h.between he
    next he =>
      simp only [wp_bind, wp_log, watch, forall_eq]
      intro _
      exact wp_elapsedMs _ fun ms => h.failed rfl rfl

theorem wp_decideNext {S : RouterOutcome → Ledger → Prop} {v : Visit} {walk : Walk}
    {exc : ProviderError} (started : Seconds) (decision : BreakerDecision)
    (candidatesRemaining : Nat) (resolved : ResolvedKey)
    (h : Deciding cfg { v with walk } exc 0 g) :
    wp (observer cfg) (decideNext cfg started decision candidatesRemaining resolved v walk exc)
      (PassPost cfg False S v) g := by
  unfold decideNext
  split
  next hr =>
    simp only [wp_bind, wp_log, watch, forall_eq]
    intro _
    exact h.refit _ hr.1 hr.2.2
  next =>
    dsimp only
    split
    next ht =>
      split
      next =>
        simp only [wp_bind, wp_log, watch, forall_eq]
        intro _
        exact wp_giveUp started decision resolved h
      next =>
        simp only [retryDelayS, wp_bind, wp_uniform, wp_sleep, watch, forall_eq]
        rintro _ (e | _)
        · exact (h.retry ht.2).left
        · exact h.retry ht.2
    next => exact wp_giveUp started decision resolved h

theorem wp_onError {S : RouterOutcome → Ledger → Prop} {v : Visit} {tried : Tried}
    (started attemptStarted : Seconds) (decision : BreakerDecision) (candidatesRemaining : Nat)
    (resolved : ResolvedKey) (exc : ProviderError)
    (h : InHandler cfg v tried.attempts tried.reservation 0 g) :
    wp (observer cfg)
      (onError cfg started attemptStarted decision candidatesRemaining resolved v tried exc)
      (PassPost cfg False S v) g := by
  simp only [onError, wp_bind]
  refine wp_elapsedMs _ fun ms => wp_mono _ (wp_settle False 0 0 h.toInHand) ?_
  rintro (e | _) g' hg
  · exact hg
  · obtain ⟨hin, htext⟩ := hg
    have hh : InHandler cfg v tried.attempts none 0 g' := { hin with text := htext ▸ h.text }
    refine wp_reconcileHint _ _ ?_
    rintro (e | _)
    · exact hin.left
    · refine wp_discloseAuthFailure _ _ ?_
      rintro (e | _)
      · exact hin.left
      · simp only [wp_log, watch, forall_eq]
        intro _
        exact wp_decideNext started decision candidatesRemaining resolved
          (hh.record exc rfl rfl (h.trail.append rfl (fun _ => rfl) (fun _ => by simp)))

/-- What a served run of `route` promises. -/
def Post (cfg : Config) (o : RouterOutcome) (g : Ledger) : Prop := Served cfg o.spec o.trail g

theorem wp_onSuccess {v : Visit} {tried : Tried} (started attemptStarted : Seconds)
    (decision : BreakerDecision) (resolved : ResolvedKey) (report : RenderReport)
    (completion : Completion) (h : InHand cfg v tried.attempts tried.reservation g) :
    wp (observer cfg)
      (onSuccess cfg started attemptStarted decision resolved v tried report completion)
      (PassPost cfg False (Post cfg) v) g := by
  simp only [onSuccess, wp_bind]
  refine wp_elapsedMs _ fun ms => wp_mono _ (wp_settle False _ _ h) ?_
  rintro (e | _) g' hg
  · exact hg
  · obtain ⟨hin, -⟩ := hg
    refine wp_reconcileHint _ _ ?_
    rintro (e | _)
    · exact hin.left
    · simp only [wp_recordSuccess, watch, forall_eq]
      rintro (e | _)
      · exact hin.left
      · refine wp_recordLatency _ _ hin fun g'' hs => ?_
        simp only [wp_log, watch, forall_eq]
        intro _
        refine wp_elapsedMs _ fun total => hs.serve ?_
        dsimp only
        exact h.trail.serve rfl (fun _ => rfl) (fun _ => rfl)

/-- **A pass of `route`.** -/
theorem wp_pass {v : Visit} (started : Seconds) (decision : BreakerDecision)
    (candidatesRemaining : Nat) (h : AtPass cfg v g) :
    wp (observer cfg) (pass cfg started decision candidatesRemaining v)
      (PassPost cfg False (Post cfg) v) g := by
  simp only [pass, wp_bind, wp_now, wp_adapterForSpec, wp_forProvider, wp_attempt, watch, forall_eq]
  rintro attemptStarted (e | _)
  · exact h.left
  · rintro (e | resolved)
    · exact h.left
    · refine wp_mono _ (wp_tryAttempt resolved h) ?_
      rintro (⟨e, tried⟩ | refusal | ⟨tried, report, completion⟩) g' hg
      · cases e with
        | provider exc => exact wp_onError _ _ _ _ _ _ hg
        | _ => exact hg
      · exact wp_skipQuota _ _ _ hg.1 hg.2
      · exact wp_onSuccess _ _ _ _ _ _ hg

end Complete

/-! ## The streaming path -/

namespace Stream

/-- Inside the loop over the chunks, with `pending` what the loop is to be left
with. -/
structure Draining (cfg : Config) (v : Visit) (pending : Option Exn) (t : Tried) (g : Ledger) :
    Prop where
  hand : InHand cfg v t.attempts t.reservation { g with leaving := none }
  leaving : g.leaving = pending
  text : g.visitText → 0 < t.deliveredChars

/-- What a block of the `try` body that hands on its locals promises. -/
def LocalsPost (cfg : Config) (v : Visit) : Except (Exn × Tried) Tried → Ledger → Prop
  | .ok t, g => InHandler cfg v t.attempts t.reservation t.deliveredChars g
  | .error (.provider _, t), g => InHandler cfg v t.attempts t.reservation t.deliveredChars g
  | .error (_, _), g => Left cfg True g

theorem wp_firstTokenMs (attemptStarted : Seconds) (t : Tried) {Q : Except Exn Int → Ledger → Prop}
    (h : ∀ ms, Q (.ok ms) g) : wp (observer cfg) (firstTokenMs attemptStarted t) Q g := by
  unfold firstTokenMs
  split
  · exact h _
  · exact wp_elapsedMs _ h

/-- Text handed on: the locals count it, the consumer may raise at it. -/
theorem Draining.deliver {v : Visit} {pending : Option Exn} {t : Tried} {chars : Nat}
    (h : Draining cfg v pending t g) (hc : 0 < chars) :
    Draining cfg v pending { t with deliveredChars := t.deliveredChars + chars }
        { g with visitText := true } ∧
      Draining cfg v (some .generatorExit) { t with deliveredChars := t.deliveredChars + chars }
        { g with visitText := true, leaving := some .generatorExit } :=
  ⟨⟨{ h.hand with }, h.leaving, fun _ => Nat.add_pos_right _ hc⟩,
    ⟨{ h.hand with }, rfl, fun _ => Nat.add_pos_right _ hc⟩⟩

theorem wp_pump {v : Visit} {pending : Option Exn} (attemptStarted : Seconds)
    (chunks : List StreamChunk) {t : Tried} (h : Draining cfg v pending t g) :
    wp (observer cfg) (pump attemptStarted chunks t) (fun r g' => match r with
      | .ok t' => Draining cfg v pending t' g'
      | .error (e, t') => Draining cfg v (some e) t' g') g := by
  induction chunks generalizing t g with
  | nil => exact h
  | cons chunk chunks ih =>
    simp only [pump, wp_bind, wp_mapError]
    refine wp_firstTokenMs _ _ fun ms => ?_
    have hread : Draining cfg v pending (t.read chunk ms) g := ⟨h.hand, h.leaving, h.text⟩
    dsimp only
    split
    next => exact ih hread
    next hne =>
      have hpos : 0 < chunk.delta.length := by
        rw [Nat.pos_iff_ne_zero, ne_eq, String.length_eq_zero_iff]
        exact hne
      obtain ⟨hnext, hcloses⟩ := hread.deliver hpos
      simp only [wp_bind, wp_mapError, wp_yieldEvent, watch, forall_eq]
      rintro (_ | _)
      · exact ih hnext
      · exact hcloses

/-- Closing the stream: what the loop was left with, or what closing it raises
in its place, leaves the `try` block. -/
theorem Draining.close {v : Visit} {e : Exn} {t : Tried} {pending : Option Exn}
    (h : Draining cfg v pending t g) : LocalsPost cfg v (.error (e, t)) (g.leave e) := by
  have hleave := h.hand.leave True e
  cases e with
  | provider e => exact { hleave.1 rfl with text := h.text }
  | _ => exact hleave.2 rfl

theorem wp_drain {v : Visit} (attemptStarted : Seconds) (chunks : List StreamChunk)
    (ending : StreamEnd) {t : Tried} (h : Draining cfg v (endExn v.spec ending) t g) :
    wp (observer cfg) (drain v.spec attemptStarted chunks ending t) (LocalsPost cfg v) g := by
  simp only [drain, wp_bind, wp_attempt]
  refine wp_mono _ (wp_pump attemptStarted chunks h) ?_
  rintro (⟨e, t'⟩ | t') g' hg
  · simp only [wp_mapError, wp_aclose, watch, forall_eq]
    rintro (e' | _)
    · exact hg.close
    · simp only [Ledger.note, hg.leaving]
      exact hg.close
  · dsimp only [atEnd]
    split
    next hend =>
      simp only [Prog.pure_eq, wp_ret, wp_bind, wp_mapError, wp_aclose, watch, forall_eq]
      rintro (e' | _)
      · exact hg.close
      · have hl : g'.leaving = none := hg.leaving.trans hend
        have hg' : g' = { g' with leaving := none } := by rw [← hl]
        simp only [Ledger.note, hl]
        exact { hg'.symm ▸ hg.hand with text := hg.text }
    next e hend =>
      simp only [wp_raise, wp_bind, wp_mapError, wp_aclose, watch, forall_eq]
      rintro (e' | _)
      · exact hg.close
      · simp only [Ledger.note, hg.leaving, hend]
        exact hg.close

/-- What the `try` block of `route_stream` promises. -/
def TryPost (cfg : Config) (v : Visit) : Except (Exn × Tried) Tries → Ledger → Prop
  | .ok (.refused _), g => AtPass cfg v g ∧ (g.atFault → g.refusedAtFault)
  | .ok (.answered t _), g => InHand cfg v t.attempts t.reservation g
  | .error (.provider _, t), g => InHandler cfg v t.attempts t.reservation t.deliveredChars g
  | .error (_, _), g => Left cfg True g

theorem AtPass.raise {v : Visit} (e : Exn) (h : AtPass cfg v g) :
    TryPost cfg v (.error (e, { attempts := v.walk.attempts })) g := by
  cases e with
  | provider e => exact { h with text := by simp [h.text] }
  | _ => exact h.left

/-- Leaving the `try` block before any text. -/
theorem InHand.raise {v : Visit} {t : Tried} (e : Exn)
    (h : InHand cfg v t.attempts t.reservation g) (ht : g.visitText = false) :
    TryPost cfg v (.error (e, t)) (g.leave e) := by
  have hleave := h.leave True e
  cases e with
  | provider e => exact { hleave.1 rfl with text := by simp [Ledger.leave, ht] }
  | _ => exact hleave.2 rfl

theorem wp_tryAttempt {v : Visit} (attemptStarted : Seconds) (resolved : ResolvedKey)
    (h : AtPass cfg v g) :
    wp (observer cfg) (tryAttempt cfg attemptStarted v resolved) (TryPost cfg v) g := by
  simp only [tryAttempt, wp_bind, wp_mapError, wp_render, watch, forall_eq]
  rintro (e | ⟨payload, report⟩)
  · exact AtPass.raise e h
  · refine wp_mono _ (wp_takeReservation v.spec resolved report h) ?_
    rintro (e | reservation | refusal) g' hg
    · exact AtPass.raise e hg
    · obtain ⟨hin, htext, hroom⟩ := hg
      have hcall := hin.call htext hroom
      simp only [wp_bind, wp_mapError, wp_yieldEvent, wp_stream, watch, forall_eq]
      rintro (_ | _)
      · rintro (e | ⟨chunks, ending⟩)
        · exact InHand.raise e hcall htext
        · have hdrain : Draining cfg v (endExn v.spec ending)
              { attempts := v.walk.attempts + 1, reservation }
              { g'.call with leaving := endExn v.spec ending } :=
            ⟨{ hcall with leaving := rfl }, rfl, fun ht => absurd (htext.symm.trans ht) (by simp)⟩
          refine wp_mono _ (wp_drain attemptStarted chunks ending hdrain) ?_
          rintro (⟨e, t⟩ | t) g'' hg
          · cases e <;> exact hg
          · dsimp only
            split
            next hzero => exact { hg with text := hg.text }
            next => exact hg.toInHand
      · -- The attempt is counted already, but its stream was never opened.
        exact (hin.leave True .generatorExit).2 rfl
    · exact hg

theorem wp_giveUp {S : Unit → Ledger → Prop} {v : Visit} {walk : Walk} {exc : ProviderError}
    {deliveredChars : Nat} (started : Seconds) (decision : BreakerDecision)
    (resolved : ResolvedKey) (h : Deciding cfg { v with walk } exc deliveredChars g) :
    wp (observer cfg) (giveUp started decision resolved v walk exc) (PassPost cfg True S v) g := by
  simp only [giveUp, wp_bind, wp_recordFailure, watch, forall_eq]
  rintro (e | _)
  · exact h.left
  · dsimp only
    split
    next he => exact h.between he
    next he =>
      simp only [wp_bind, wp_log, watch, forall_eq]
      intro _
      exact wp_elapsedMs _ fun ms => h.failed rfl rfl

theorem wp_decideNext {S : Unit → Ledger → Prop} {v : Visit} {walk : Walk} {exc : ProviderError}
    {deliveredChars : Nat} (started : Seconds) (decision : BreakerDecision)
    (candidatesRemaining : Nat) (resolved : ResolvedKey)
    (h : Deciding cfg { v with walk } exc deliveredChars g) :
    wp (observer cfg)
      (decideNext cfg started decision candidatesRemaining resolved v walk deliveredChars exc)
      (PassPost cfg True S v) g := by
  unfold decideNext
  split
  next hr =>
    obtain ⟨rfl, hu, -, ha⟩ := hr
    simp only [wp_bind, wp_log, watch, forall_eq]
    intro _
    exact h.refit _ hu ha
  next =>
    dsimp only
    split
    next ht =>
      split
      next =>
        simp only [wp_bind, wp_log, watch, forall_eq]
        intro _
        exact wp_giveUp started decision resolved h
      next =>
        have hzero : deliveredChars = 0 := by
          have := ht.1
          simp only [Bool.and_eq_true, beq_iff_eq] at this
          exact this.2
        subst hzero
        simp only [retryDelayS, wp_bind, wp_uniform, wp_sleep, watch, forall_eq]
        rintro _ (e | _)
        · exact (h.retry ht.2).left
        · exact h.retry ht.2
    next => exact wp_giveUp started decision resolved h

theorem wp_onError {S : Unit → Ledger → Prop} {v : Visit} {tried : Tried}
    (started attemptStarted : Seconds) (decision : BreakerDecision) (candidatesRemaining : Nat)
    (resolved : ResolvedKey) (exc : ProviderError)
    (h : InHandler cfg v tried.attempts tried.reservation tried.deliveredChars g) :
    wp (observer cfg)
      (onError cfg started attemptStarted decision candidatesRemaining resolved v tried exc)
      (PassPost cfg True S v) g := by
  simp only [onError, wp_bind]
  refine wp_elapsedMs _ fun ms => wp_mono _ (wp_settle True _ _ h.toInHand) ?_
  rintro (e | _) g' hg
  · exact hg
  · obtain ⟨hin, htext⟩ := hg
    have hh : InHandler cfg v tried.attempts none tried.deliveredChars g' :=
      { hin with text := htext ▸ h.text }
    refine wp_reconcileHint _ _ ?_
    rintro (e | _)
    · exact hin.left
    · refine wp_discloseAuthFailure _ _ ?_
      rintro (e | _)
      · exact hin.left
      · have hbooked : InHand cfg v tried.attempts none { g' with visitError := some exc } :=
          { hin with }
        simp only [wp_log, wp_yieldEvent, watch, forall_eq]
        rintro _ (_ | _)
        · exact wp_decideNext started decision candidatesRemaining resolved
            (hh.record exc rfl rfl (h.trail.append rfl (fun _ => rfl) (fun _ => by simp)))
        · exact hbooked.left

/-- What a served run of `route_stream` promises. -/
def Post (cfg : Config) (_ : Unit) (g : Ledger) : Prop := Completed cfg g

theorem wp_onSuccess {v : Visit} {tried : Tried} (started attemptStarted : Seconds)
    (decision : BreakerDecision) (resolved : ResolvedKey) (report : RenderReport)
    (h : InHand cfg v tried.attempts tried.reservation g) :
    wp (observer cfg) (onSuccess cfg started attemptStarted decision resolved v tried report)
      (PassPost cfg True (Post cfg) v) g := by
  simp only [onSuccess, wp_bind]
  refine wp_elapsedMs _ fun ms => wp_mono _ (wp_settle True _ _ h) ?_
  rintro (e | _) g' hg
  · exact hg
  · obtain ⟨hin, -⟩ := hg
    refine wp_reconcileHint _ _ ?_
    rintro (e | _)
    · exact hin.left
    · simp only [wp_recordSuccess, watch, forall_eq]
      rintro (e | _)
      · exact hin.left
      · refine wp_recordLatency _ _ hin fun g'' hs => ?_
        simp only [wp_log, watch, forall_eq]
        intro _
        refine wp_elapsedMs _ fun total => ?_
        have hdone : ∀ c : StreamCompleted, c.spec = v.spec → ServedTrail c.trail →
            Completed cfg { g'' with completed := some c } :=
          fun c hc ht => ⟨c, rfl, { hs with metered := hc ▸ hs.metered, trail := ht }⟩
        have hleft : ∀ c : StreamCompleted, c.spec = v.spec → ServedTrail c.trail →
            Left cfg True { g'' with completed := some c } := fun c hc ht =>
          { hs with
            torn := hs.torn.trans (by simp [hs.owed])
            finished := .inr ⟨trivial, hdone c hc ht⟩ }
        simp only [wp_yieldEvent, watch, forall_eq]
        rintro (_ | _)
        · refine hdone _ rfl ?_
          dsimp only
          exact h.trail.serve rfl (fun _ => rfl) (fun _ => rfl)
        · refine hleft _ rfl ?_
          dsimp only
          exact h.trail.serve rfl (fun _ => rfl) (fun _ => rfl)

/-- **A pass of `route_stream`.** -/
theorem wp_pass {v : Visit} (started : Seconds) (decision : BreakerDecision)
    (candidatesRemaining : Nat) (h : AtPass cfg v g) :
    wp (observer cfg) (pass cfg started decision candidatesRemaining v)
      (PassPost cfg True (Post cfg) v) g := by
  simp only [pass, wp_bind, wp_now, wp_adapterForSpec, wp_forProvider, wp_attempt, watch, forall_eq]
  rintro attemptStarted (e | _)
  · exact h.left
  · rintro (e | resolved)
    · exact h.left
    · refine wp_mono _ (wp_tryAttempt attemptStarted resolved h) ?_
      rintro (⟨e, tried⟩ | refusal | ⟨tried, report⟩) g' hg
      · cases e with
        | provider exc => exact wp_onError _ _ _ _ _ _ hg
        | _ => exact hg
      · exact wp_skipQuota _ _ _ hg.1 hg.2
      · exact wp_onSuccess _ _ _ _ _ hg

end Stream

/-! ## The walk -/

theorem Between.left {w : Walk} (h : Between cfg w g) : Left cfg streams g :=
  Unfinished.left h.toSound h.toUnfinished h.owed

/-- The walk turns to the next candidate: a fault not excused before is excused
by the refusal that ended the visit, or it is the one that strays. -/
theorem Between.newVisit {w : Walk} (h : Between cfg w g) : Between cfg w g.newVisit :=
  { h with
    strayed := fun hs => by
      rcases (Bool.or_eq_true _ _).mp hs with hs | hs
      · exact h.strayed hs
      · exact h.fault hs
    fault := by simp [Ledger.newVisit, Ledger.atFault]
    error := by simp [Ledger.newVisit] }

theorem Between.atPass {w : Walk} (candidate : ModelSpec) (h : Between cfg w g)
    (hr : w.attempts < cfg.maxAttempts) :
    AtPass cfg { spec := candidate, walk := w } g.newVisit :=
  { h.newVisit with
    quota := by simp
    refits := rfl
    retries := rfl
    room := .inl (h.calls.symm ▸ hr)
    text := rfl
    error := by simp [Ledger.newVisit] }

/-- What a visit promises, given what a served run promises. -/
def FlowPost {ω : Type} (cfg : Config) (streams : Prop) (S : ω → Ledger → Prop) :
    Except Exn (Flow Walk (Except RoutingFailed ω)) → Ledger → Prop
  | .ok (.next w), g | .ok (.stop w), g => Between cfg w g
  | .ok (.done (.ok o)), g => S o g
  | .ok (.done (.error f)), g => Failed cfg f g
  | .error _, g => Left cfg streams g

theorem wp_visitCandidate {ω : Type} {S : ω → Ledger → Prop}
    {pass : BreakerDecision → Nat → (v : Visit) → Eff (Pass ω v)}
    (hpass : ∀ decision remaining v g, AtPass cfg v g →
      wp (observer cfg) (pass decision remaining v) (PassPost cfg streams S v) g)
    (candidate : ModelSpec) (rest : List ModelSpec) {w : Walk} (h : Between cfg w g) :
    wp (observer cfg) (visitCandidate cfg pass candidate rest w) (FlowPost cfg streams S) g := by
  unfold visitCandidate
  split
  next => exact h
  next hr =>
    simp only [wp_bind, wp_allows, watch, forall_eq]
    rintro (e | d)
    · exact h.newVisit.left
    · dsimp only
      split
      next =>
        refine wp_iterate _ _ (AtPass cfg) (fun v g' hv => ?_) (h.atPass candidate (by omega))
        refine wp_mono _ (hpass _ _ v g' hv) ?_
        rintro (e | v' | w' | w' | f | o) g'' hg
        · exact hg
        · exact hg
        · exact hg
        · exact absurd hg id
        · exact hg
        · exact hg
      next =>
        simp only [wp_bind, wp_log, watch, forall_eq]
        intro _
        exact { h.newVisit with trail := h.trail.append rfl (fun _ => rfl) (fun _ => by simp) }

theorem wp_exhausted {ω : Type} {S : ω → Ledger → Prop} (chain : List ModelSpec)
    (started : Seconds) {w : Walk} (h : Between cfg w g) :
    wp (observer cfg) (exhausted cfg chain started w) (RunPost cfg streams S) g := by
  simp only [exhausted, wp_bind, wp_log, watch, forall_eq]
  intro _
  exact wp_elapsedMs _ fun ms => { h with error := fun e he => by simp [h.error e he] }

/-- **The run rule.** What a pass promises, the walk over the chain promises. -/
theorem wp_walkChain {ω : Type} {S : ω → Ledger → Prop}
    {pass : BreakerDecision → Nat → (v : Visit) → Eff (Pass ω v)}
    (hpass : ∀ decision remaining v g, AtPass cfg v g →
      wp (observer cfg) (pass decision remaining v) (PassPost cfg streams S v) g)
    (started : Seconds) (chain : List ModelSpec) (h : Between cfg {} g) :
    wp (observer cfg) (walkChain cfg started pass chain) (RunPost cfg streams S) g := by
  simp only [walkChain, wp_bind]
  have hloop : wp (observer cfg) (Prog.forEach (visitCandidate cfg pass) chain {})
      (FlowPost cfg streams S) g := by
    refine wp_forEach _ (fun _ w g' => Between cfg w g') (fun _ _ hw => hw) ?_ h
    intro candidate rest w g' hw
    refine wp_mono _ (wp_visitCandidate hpass candidate rest hw) ?_
    rintro (e | w' | w' | f | o) g'' hg <;> exact hg
  refine wp_mono _ hloop ?_
  rintro (e | w' | w' | f | o) g' hg
  · exact hg
  · exact wp_exhausted chain started hg
  · exact wp_exhausted chain started hg
  · exact hg
  · exact hg

theorem between_start : Between cfg {} {} where
  accounts := rfl
  budget := .inl (Nat.zero_le _)
  recalled := rfl
  overtried := rfl
  strayed := by simp
  torn := rfl
  leaving := rfl
  metered := rfl
  completed := rfl
  owed := rfl
  calls := rfl
  fault := by simp [Ledger.atFault]
  error := by simp
  trail := ⟨fun i hi => absurd hi (Nat.not_lt_zero _), fun r hr => by cases hr⟩

/-- **A run of `route`** leaves the ledger it promises. -/
theorem route_post {chain : List ModelSpec} {tr : List (Event iface)}
    {r : Except Exn (Except RoutingFailed RouterOutcome)} (hr : (route cfg chain).Runs tr r) :
    RunPost cfg False (Complete.Post cfg) r (ledger cfg.maxAttempts tr) := by
  refine wp_watch_sound ?_ hr
  simp only [route, wp_bind, wp_now, watch, forall_eq]
  exact fun started => wp_walkChain (fun d n v g h => Complete.wp_pass started d n h) started chain
    between_start

/-- **A run of `route_stream`** leaves the ledger it promises. -/
theorem routeStream_post {chain : List ModelSpec} {tr : List (Event iface)}
    {r : Except Exn (Except RoutingFailed Unit)} (hr : (routeStream cfg chain).Runs tr r) :
    RunPost cfg True (Stream.Post cfg) r (ledger cfg.maxAttempts tr) := by
  refine wp_watch_sound ?_ hr
  simp only [routeStream, wp_bind, wp_now, watch, forall_eq]
  exact fun started => wp_walkChain (fun d n v g h => Stream.wp_pass started d n h) started chain
    between_start

theorem Failed.owed_eq {f : RoutingFailed} (h : Failed cfg f g) :
    Sound cfg g ∧ g.torn = g.owed.isSome :=
  ⟨h.toSound, by rw [h.torn, h.owed]; rfl⟩

/-- However a run ends, what it owes it has torn. -/
theorem RunPost.owed {ω : Type} {S : ω → Ledger → Prop}
    (hS : ∀ o, S o g → Sound cfg g ∧ g.torn = g.owed.isSome)
    {r : Except Exn (Except RoutingFailed ω)} (h : RunPost cfg streams S r g) :
    Sound cfg g ∧ g.torn = g.owed.isSome := by
  rcases r with e | f | o
  · exact ⟨h.toSound, h.torn⟩
  · exact Failed.owed_eq h
  · exact hS o h

theorem Served.owed_eq {spec : ModelSpec} {trail : List AttemptRecord}
    (h : Served cfg spec trail g) : Sound cfg g ∧ g.torn = g.owed.isSome :=
  ⟨h.toSound, by rw [h.torn, h.owed]; rfl⟩

end

end Router

end LlmGateway
