import LlmGateway.Api.Models
import LlmGateway.Effects.Wp
import LlmGateway.Routing.Duty

/-!
# One candidate's status

The page is built while requests go on: between two of its questions the breakers, the
counters and the clock are whatever others made of them. Every status was so when it was
read: it is what a request asking the same breaker and the same counters at those moments
would have been told.
-/

namespace LlmGateway

namespace Models

open Effects Selection

/-! ## What a request is told -/

/-- Everything the page may be told about, at one moment. -/
structure Moment where
  /-- Redis answers. -/
  up : Bool
  now : Seconds
  breakers : Pair → Breaker.Store
  db : Quota.Db
  resolve : Pair → Except Exn ResolvedKey

section

variable (cfg : Breaker.Config) (T : Quota.Tracker)

/-- A decision of `allows` at a moment. -/
def Admitted (m : Moment) (spec : ModelSpec) (decision : BreakerDecision) : Prop :=
  ∃ requestId s', Breaker.Carried cfg (Breaker.allows cfg spec.provider spec.model requestId)
    (m.breakers spec.key) decision s'

/-- A decision of `reserve` at a moment, whatever the clock of its caller. -/
def Reserved (m : Moment) (spec : ModelSpec) (scope : String) (cap : Option (String × ℤ))
    (estimatedTokens : ℤ) (decision : QuotaDecision) : Prop :=
  ∃ now requestId db', T.reserveWindows m.db now (T.grants (.answer cap) spec scope) scope
    spec.provider spec.model estimatedTokens requestId = .ok (decision, db')

/-- Every request passes the breaker, and none as its probe. -/
def Passable (m : Moment) (spec : ModelSpec) : Prop :=
  m.up = true → ∀ decision, Admitted cfg m spec decision →
    decision.allowed = true ∧ decision.isProbe = false

/-- **What a status says**, of the moments its breaker and its counters were read. -/
def Told (quota : Bool) (spec : ModelSpec) (scope : String) (m m' : Moment)
    (status : CandidateStatus) : Prop :=
  status.key = spec.key ∧
    match status.status with
    | .unavailable => m.up = true ∧ ∀ decision, Admitted cfg m spec decision →
        decision.allowed = true → decision.isProbe = true
    | .rateLimited => Passable cfg m spec ∧ quota = true ∧ m'.up = true ∧
        ∀ cap estimatedTokens decision, 1 ≤ estimatedTokens →
          Reserved T m' spec scope cap estimatedTokens decision → decision.allowed = false
    | .available => Passable cfg m spec ∧ (quota = true → m'.up = true ∧
        ∀ estimatedTokens decision, Reserved T m' spec scope none estimatedTokens decision →
          (decision.allowed = true ↔
            ∀ w ∈ status.windows, w.window.isToken = true → estimatedTokens ≤ w.remaining))
    | .unknown => Passable cfg m spec ∧ quota = true ∧
        (m'.up = false ∨ T.declared spec.provider spec.model = [])

/-! ## What the page is told -/

/-- What Redis has stored for the windows of a candidate. -/
def Moment.stored (m : Moment) (spec : ModelSpec) (scope : String) :
    Option (QuotaWindow → ℤ × ℤ) :=
  if m.up then
    some fun w =>
      let key := Quota.quotaKey scope spec.provider spec.model w
      (m.db.get key, m.db.ttl key)
  else none

/-- An answer of `peek`, from a Redis that may be down. -/
def Peeked (m : Moment) (provider model : String) (decision : BreakerDecision) : Prop :=
  if m.up then
    ∃ s', Breaker.Carried cfg (Breaker.peek cfg provider model) (m.breakers (provider, model))
      decision s'
  else decision = Breaker.failOpen provider model

/-- The answers of a moment. -/
def Answers (m : Moment) : (q : Ask) → Ans q → Prop
  | .forProvider provider model, resolved => resolved = m.resolve (provider, model)
  | .peek provider model, decision => Peeked cfg m provider model decision
  | .remaining spec scope, states => states = Metrics.remaining T spec m.now (m.stored spec scope)
  | .now, now => now = m.now

/-- **The page's world**: each question is answered at a moment of its own, about which
nothing is known but that it comes after the ones before. -/
def world : World iface (List Moment) := fun ms q a ms' =>
  ∃ m, ms' = ms ++ [m] ∧ Answers cfg T m q a

end

/-! ## The breaker -/

section Breakers

variable {cfg : Breaker.Config} {provider model requestId : String} {s s' : Breaker.Store}
  {decision : BreakerDecision}

open Breaker

/-- `peek` leaves the breaker as it is, and lets through what is closed. -/
theorem peek_reads (h : Carried cfg (Breaker.peek cfg provider model) s decision s') :
    s'.hash = s.hash ∧ s'.deadline = s.deadline ∧ decision.provider = provider ∧
      decision.model = model ∧ (decision.allowed = true ↔ s.hash.readState = .closed) := by
  obtain ⟨tr, hruns, haccepts⟩ := h
  have hwp : wp (steady cfg) (Breaker.peek cfg provider model)
      (fun r s' => ∀ decision, r = .ok decision → s'.hash = s.hash ∧ s'.deadline = s.deadline ∧
        decision.provider = provider ∧ decision.model = model ∧
          (decision.allowed = true ↔ s.hash.readState = .closed)) s := by
    simp only [Breaker.peek, wp_bind, wp_attempt, wp_hgetall_steady]
    intro t _
    split
    · rename_i hclosed
      intro decision hdecision
      cases hdecision
      exact ⟨rfl, rfl, rfl, rfl, by simp [hclosed]⟩
    · rename_i hclosed
      simp only [wp_bind, wp_now_steady]
      intro t' _ decision hdecision
      cases hdecision
      exact ⟨rfl, rfl, rfl, rfl, by simp [hclosed]⟩
  exact wp_sound _ hwp hruns haccepts decision rfl

/-- The claim of a probe ends with one, or with a refusal. -/
theorem wp_tryClaim_probe {failures : Int} {cooldownS : Seconds} :
    wp (steady cfg) (tryClaim provider model failures cooldownS requestId)
      (fun r _ => ∃ d, r = .ok d ∧ (d.allowed = true → d.isProbe = true)) s := by
  simp only [tryClaim, wp_bind, wp_hsetnxHolder_steady]
  intro _ _
  split
  · simp only [wp_bind, wp_now_steady]
    exact fun _ _ => wp_write_steady _ _ fun _ _ => ⟨_, rfl, fun _ => rfl⟩
  · simp only [wp_bind, wp_hgetall_steady, wp_now_steady]
    intro _ _ _ _
    split
    · refine ⟨_, rfl, fun hallowed => ?_⟩
      cases hallowed
    · simp only [wp_bind, wp_now_steady]
      exact fun _ _ => wp_write_steady _ _ fun _ _ => ⟨_, rfl, fun _ => rfl⟩

/-- A closed breaker lets every request through, and any other a probe at most. -/
theorem allows_reads (h : Carried cfg (allows cfg provider model requestId) s decision s') :
    (s.hash.readState = .closed → decision.allowed = true ∧ decision.isProbe = false) ∧
      (s.hash.readState ≠ .closed → decision.allowed = true → decision.isProbe = true) := by
  obtain ⟨tr, hruns, haccepts⟩ := h
  have hwp : wp (steady cfg) (allows cfg provider model requestId)
      (fun r _ => ∃ d, r = .ok d ∧
        (s.hash.readState = .closed → d.allowed = true ∧ d.isProbe = false) ∧
        (s.hash.readState ≠ .closed → d.allowed = true → d.isProbe = true)) s := by
    simp only [allows, wp_bind, wp_attempt, wp_hgetall_steady]
    intro _ _
    split
    · rename_i hclosed
      exact ⟨_, rfl, fun _ => ⟨rfl, rfl⟩, fun hne => absurd hclosed hne⟩
    · rename_i hclosed
      simp only [wp_bind, wp_now_steady]
      intro _ _
      split
      · refine ⟨_, rfl, fun hc => absurd hc hclosed, fun _ hallowed => ?_⟩
        cases hallowed
      · simp only [claimProbe, wp_bind, wp_attempt]
        refine wp_mono _ wp_tryClaim_probe ?_
        rintro _ _ ⟨d, rfl, hd⟩
        exact ⟨d, rfl, fun hc => absurd hc hclosed, fun _ => hd⟩
  obtain ⟨d, hd, hlaws⟩ := wp_sound _ hwp hruns haccepts
  cases hd
  exact hlaws

end Breakers

/-! ## The counters -/

section Counters

variable {T : Quota.Tracker} {db db' : Quota.Db} {now : Seconds} {grants : List WindowGrant}
  {scope provider model requestId : String} {estimatedTokens : ℤ} {decision : QuotaDecision}

open Quota

/-- A call is granted as soon as every window can pay for it. -/
theorem allowed_iff
    (hcall : T.reserveWindows db now grants scope provider model estimatedTokens requestId =
      .ok (decision, db')) :
    0 ≤ estimatedTokens ∧ (decision.allowed = true ↔
      ∀ g ∈ grants, used (db.counters g.key) + cost estimatedTokens g ≤ g.limit) := by
  unfold Tracker.reserveWindows at hcall
  dsimp only at hcall
  split_ifs at hcall with hneg hempty
  · cases hcall
    refine ⟨not_lt.mp hneg, iff_of_true rfl ?_⟩
    simp [hempty]
  · refine ⟨not_lt.mp hneg, ?_⟩
    unfold reserveLua at hcall
    cases hfind : (grants.map (T.block now estimatedTokens)).find?
        fun b => b.limit < db.get b.key + b.cost with
    | some b =>
      rw [hfind] at hcall
      cases hcall
      refine iff_of_false Bool.false_ne_true fun hall => ?_
      -- The block that was found is a grant's, and that grant cannot pay.
      obtain ⟨g, hg, hb⟩ := List.mem_map.mp (List.mem_of_find?_eq_some hfind)
      have hover := List.find?_some hfind
      rw [decide_eq_true_eq, ← hb] at hover
      exact absurd (hall g hg) (not_le.mpr hover)
    | none =>
      rw [hfind] at hcall
      cases hcall
      refine iff_of_true rfl fun g hg => ?_
      have hblock := List.find?_eq_none.mp hfind _ (List.mem_map.mpr ⟨g, hg, rfl⟩)
      rw [decide_eq_true_eq] at hblock
      exact not_lt.mp hblock

variable {m : Moment} {spec : ModelSpec} {states : List Metrics.WindowState}

/-- What is reported of a declared window. -/
def stateOf (T : Quota.Tracker) (m : Moment) (spec : ModelSpec) (scope : String)
    (w : WindowSpec) : Metrics.WindowState :=
  let key := quotaKey scope spec.provider spec.model w.window
  { window := w.window, limit := T.effectiveLimit spec w.limit, used := m.db.get key
    resetsAt := if 0 < m.db.ttl key then m.now + m.db.ttl key
      else Quota.resetsAt T.pacific w.reset m.now }

theorem remaining_up (h : m.up = true) :
    Metrics.remaining T spec m.now (m.stored spec scope) =
      (T.declared spec.provider spec.model).map (stateOf T m spec scope) := by
  simp only [Metrics.remaining, Moment.stored, h, if_true]
  rfl

theorem remaining_eq_nil :
    Metrics.remaining T spec m.now (m.stored spec scope) = [] ↔
      m.up = false ∨ T.declared spec.provider spec.model = [] := by
  cases h : m.up with
  | false => simp [Metrics.remaining, Moment.stored, h]
  | true => simp [remaining_up h]

/-- An exhausted window pays for no call that asks for anything. -/
theorem refused_of_exhausted (h : m.up = true) {state : Metrics.WindowState}
    (hstate : state ∈ Metrics.remaining T spec m.now (m.stored spec scope))
    (hover : exhausted state = true) {cap : Option (String × ℤ)} (hpos : 1 ≤ estimatedTokens)
    (hreserved : Reserved T m spec scope cap estimatedTokens decision) :
    decision.allowed = false := by
  obtain ⟨now, requestId, db', hcall⟩ := hreserved
  rw [remaining_up h] at hstate
  obtain ⟨w, hw, rfl⟩ := List.mem_map.mp hstate
  rw [← Bool.not_eq_true, (allowed_iff hcall).2]
  intro hall
  -- The grant of that window is among those of the call, with or without a cap.
  have hmem : ∀ extra, { window := w.window, limit := T.effectiveLimit spec w.limit
                         reset := w.reset, costIsTokens := w.costIsTokens
                         key := quotaKey scope spec.provider spec.model w.window } ∈
      T.answerGrants spec scope extra :=
    fun extra => List.mem_append_left _ (List.mem_map.mpr ⟨w, hw, rfl⟩)
  have hfits : m.db.get (quotaKey scope spec.provider spec.model w.window) +
      (if w.costIsTokens then estimatedTokens else 1) ≤ T.effectiveLimit spec w.limit := by
    cases cap with
    | none => exact hall _ (hmem [])
    | some cap => exact hall _ (hmem _)
  have hexhausted : T.effectiveLimit spec w.limit ≤
      m.db.get (quotaKey scope spec.provider spec.model w.window) := of_decide_eq_true hover
  split at hfits
  · omega
  · omega

/-- Where no window is exhausted, a call is granted if its tokens fit what is left of each. -/
theorem granted_iff_fits (h : m.up = true)
    (hopen : ∀ state ∈ Metrics.remaining T spec m.now (m.stored spec scope),
      exhausted state = false)
    (hreserved : Reserved T m spec scope none estimatedTokens decision) :
    decision.allowed = true ↔
      ∀ w ∈ (Metrics.remaining T spec m.now (m.stored spec scope)).map windowStatus,
        w.window.isToken = true → estimatedTokens ≤ w.remaining := by
  obtain ⟨now, requestId, db', hcall⟩ := hreserved
  rw [(allowed_iff hcall).2]
  rw [remaining_up h] at hopen ⊢
  simp only [Tracker.grants, Tracker.answerGrants, List.append_nil, List.map_map,
    List.forall_mem_map, Function.comp_apply]
  refine forall₂_congr fun w hw => ?_
  have hroom : m.db.get (quotaKey scope spec.provider spec.model w.window) <
      T.effectiveLimit spec w.limit := by
    have := of_decide_eq_false (hopen _ (List.mem_map_of_mem hw))
    exact not_le.mp this
  have htokens : w.costIsTokens = w.window.isToken := Tracker.costIsTokens_of_declared hw
  simp only [cost, windowStatus, stateOf, htokens]
  cases w.window.isToken with
  | true =>
    simp only [if_true, forall_const]
    change m.db.get _ + estimatedTokens ≤ _ ↔ _
    omega
  | false =>
    simp only [Bool.false_eq_true, if_false, false_implies, iff_true]
    exact hroom

end Counters

/-! ## One candidate -/

section

variable {cfg : Breaker.Config} {T : Quota.Tracker} {quota : Bool} {spec : ModelSpec}
  {scope : String} {m m' : Moment} {ms : List Moment}

/-- What is read of a breaker that Redis does not answer for, or that is closed. -/
theorem passable_of_peeked {decision : BreakerDecision}
    (h : Peeked cfg m spec.provider spec.model decision) (hallowed : decision.allowed = true) :
    Passable cfg m spec := by
  rintro hup other ⟨requestId, s', hcarried⟩
  rw [Peeked, if_pos hup] at h
  obtain ⟨s'', hpeek⟩ := h
  obtain ⟨-, -, -, -, hclosed⟩ := peek_reads hpeek
  exact (allows_reads hcarried).1 (hclosed.mp hallowed)

theorem barred_of_peeked {decision : BreakerDecision}
    (h : Peeked cfg m spec.provider spec.model decision) (hallowed : decision.allowed = false) :
    m.up = true ∧ ∀ other, Admitted cfg m spec other → other.allowed = true →
      other.isProbe = true := by
  cases hup : m.up with
  | false =>
    rw [Peeked, hup] at h
    rw [h] at hallowed
    cases hallowed
  | true =>
    refine ⟨rfl, ?_⟩
    rintro other ⟨requestId, s', hcarried⟩
    rw [Peeked, if_pos hup] at h
    obtain ⟨s'', hpeek⟩ := h
    obtain ⟨-, -, -, -, hclosed⟩ := peek_reads hpeek
    refine (allows_reads hcarried).2 fun hc => ?_
    rw [hclosed.mpr hc] at hallowed
    cases hallowed

/-- What the counters add to a closed breaker is true of them. -/
theorem quotaStatus_told (hpass : Passable cfg m spec) (hquota : quota = true)
    (state : BreakerState) :
    Told cfg T quota spec scope m m'
      (quotaStatus spec state (Metrics.remaining T spec m'.now (m'.stored spec scope))) := by
  unfold quotaStatus
  split
  · rename_i hempty
    exact ⟨rfl, hpass, hquota, remaining_eq_nil.mp hempty⟩
  · rename_i hempty
    have hup : m'.up = true := by
      have := mt remaining_eq_nil.mpr hempty
      rw [not_or, Bool.not_eq_false] at this
      exact this.1
    split
    · rename_i earliest hearliest
      have hmem := List.mem_filter.mp (List.argmin_mem hearliest)
      exact ⟨rfl, hpass, hquota, hup, fun _ _ _ hpos hreserved =>
        refused_of_exhausted hup hmem.1 hmem.2 hpos hreserved⟩
    · rename_i hnone
      rw [List.argmin_eq_none, List.filter_eq_nil_iff] at hnone
      exact ⟨rfl, hpass, fun _ => ⟨hup, fun _ _ hreserved =>
        granted_iff_fits hup (fun w hw => Bool.not_eq_true _ ▸ hnone w hw) hreserved⟩⟩

/-- A status holds of two of the moments that have been. -/
def Recent (cfg : Breaker.Config) (T : Quota.Tracker) (quota : Bool) (ms : List Moment)
    (spec : ModelSpec) (scope : String) (status : CandidateStatus) : Prop :=
  ∃ m ∈ ms, ∃ m' ∈ ms, Told cfg T quota spec scope m m' status

/-- One answer. -/
theorem wp_answer {α : Type} {q : Ask} {f : Ans q → Except Exn α}
    {Q : Except Exn α → List Moment → Prop} (h : ∀ m a, Answers cfg T m q a → Q (f a) (ms ++ [m])) :
    wp (world cfg T) (.ask q fun a => .ofExcept (f a)) Q ms := by
  rintro a ms' ⟨m, rfl, ha⟩
  rw [wp_ofExcept]
  exact h m a ha

theorem wp_candidateStatus {Q : Except Exn CandidateStatus → List Moment → Prop}
    (h : ∀ seen status, Recent cfg T quota (ms ++ seen) spec scope status →
      Q (.ok status) (ms ++ seen)) :
    wp (world cfg T) (candidateStatus quota spec scope) Q ms := by
  unfold candidateStatus peek
  rw [wp_bind]
  refine wp_answer (q := .peek _ _) (f := .ok) fun m decision hpeeked => ?_
  have hkey : decision.allowed = false → ∀ resetsAt, Told cfg T quota spec scope m m
      { provider := spec.provider, model := spec.model, status := .unavailable
        breakerState := decision.state, resetsAt } :=
    fun hallowed _ => ⟨rfl, barred_of_peeked hpeeked hallowed⟩
  dsimp only
  split
  · rename_i hallowed
    cases decision.retryAfterS with
    | none => exact h [m] _ ⟨m, by simp, m, by simp, hkey hallowed _⟩
    | some retryAfterS =>
      dsimp only
      rw [wp_bind, wp_map]
      refine wp_answer (q := .now) (f := .ok) fun m' now _ => ?_
      rw [List.append_assoc]
      exact h [m, m'] _ ⟨m, by simp, m, by simp, hkey hallowed _⟩
  · rename_i hallowed
    have hpass : Passable cfg m spec := passable_of_peeked hpeeked (by simpa using hallowed)
    split
    · rename_i hquota
      exact h [m] _ ⟨m, by simp, m, by simp, rfl, hpass, fun hq => by simp [hquota] at hq⟩
    · rename_i hquota
      rw [wp_bind]
      refine wp_answer (q := .remaining _ _) (f := .ok) fun m' states hstates => ?_
      cases hstates
      rw [List.append_assoc]
      exact h [m, m'] _ ⟨m, by simp, m', by simp, quotaStatus_told hpass (by simpa using hquota) _⟩

end

end Models

end LlmGateway
