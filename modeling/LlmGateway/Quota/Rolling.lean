import LlmGateway.Quota.Lifetimes
import LlmGateway.Quota.Refund
import Mathlib.Data.List.Infix

/-!
# The expiry of a rolling window

A counter whose reset is rolling is given its expiry by the call that makes it
positive, and keeps it for as long as it is: no later call puts it off.
-/

namespace LlmGateway

namespace Quota

open Tracker

/-- The width of a rolling window, in seconds. -/
def width : ResetKind → ℤ
  | .rollingDaily => 86400
  | .rolling60s | .fixedDailyUtc | .fixedDailyPt => 60

/-- Whatever charges the counter charges it with one rolling reset. -/
structure Rolling (T : Tracker) (k : String) (reset : ResetKind) : Prop where
  rolls : reset.converging = false
  charges : ∀ lane spec scope, ∀ g ∈ T.grants lane spec scope, g.key = k → g.reset = reset

theorem ttlS_rolling {reset : ResetKind} (h : reset.converging = false) (pacific : Calendar)
    (now : Seconds) : ttlS pacific reset now = width reset := by
  cases reset with
  | rolling60s =>
    have hsixty : resetsAt pacific .rolling60s now - now = ((60 : ℤ) : ℚ) := by
      simp [resetsAt]
    rw [ttlS, hsixty, roundHalfEven_intCast]
    rfl
  | rollingDaily =>
    have hday : resetsAt pacific .rollingDaily now - now = ((86400 : ℤ) : ℚ) := by
      simp [resetsAt, dayS]
    rw [ttlS, hday, roundHalfEven_intCast]
    rfl
  | fixedDailyUtc => cases h
  | fixedDailyPt => cases h

/-! ## One call at a rolling counter -/

/-- Positive, and to expire then. -/
def Expires (deadline : Seconds) (slot : Option Counter) : Prop :=
  ∃ c, slot = some c ∧ 0 < c.value ∧ c.deadline = some deadline

/-- There, and to expire then. -/
def Dated (deadline : Seconds) (slot : Option Counter) : Prop :=
  ∃ c, slot = some c ∧ c.deadline = some deadline

/-- Not there, or to expire within a width. -/
def Within (limit : Seconds) (slot : Option Counter) : Prop :=
  ∀ c, slot = some c → ∃ deadline, c.deadline = some deadline ∧ deadline ≤ limit

section

variable {clock deadline limit : Seconds} {slot : Option Counter} {b : Block} {c : Correction}
  {reserved amount : ℤ}

theorem Expires.dated (h : Expires deadline slot) : Dated deadline slot := by
  obtain ⟨x, hx, -, hdeadline⟩ := h
  exact ⟨x, hx, hdeadline⟩

/-- A charge of a positive counter leaves its expiry. -/
theorem Expires.spent (h : Expires deadline slot) (hb : b.refresh = false) (hcost : 0 ≤ b.cost) :
    Expires deadline (some (Quota.spent clock slot b)) := by
  obtain ⟨x, rfl, hpos, hdeadline⟩ := h
  refine ⟨_, rfl, ?_, ?_⟩
  · change 0 < x.value + b.cost
    omega
  · have hne : ¬ x.value + b.cost = b.cost := by omega
    simp [Quota.spent, used, hb, hne, hdeadline]

/-- A charge that makes it positive sets it. -/
theorem Expires.spent_of_zero (h : used slot = 0) (hcost : 0 < b.cost) :
    Expires (clock + b.ttl) (some (Quota.spent clock slot b)) := by
  refine ⟨_, rfl, ?_, ?_⟩
  · change 0 < used slot + b.cost
    omega
  · simp [Quota.spent, h]

theorem Dated.expires (h : Dated deadline slot) (hpos : 0 < used slot) :
    Expires deadline slot := by
  obtain ⟨x, rfl, hdeadline⟩ := h
  exact ⟨x, rfl, hpos, hdeadline⟩

theorem Dated.corrected (h : Dated deadline slot) (hc : c.refresh = false) :
    Dated deadline (Quota.corrected clock reserved slot c) := by
  obtain ⟨x, rfl, hdeadline⟩ := h
  unfold Quota.corrected
  dsimp only
  split
  · exact ⟨_, rfl, by simp [hc, hdeadline]⟩
  · split
    · exact ⟨_, rfl, hdeadline⟩
    · exact ⟨x, rfl, hdeadline⟩

theorem Dated.returned (h : Dated deadline slot) : Dated deadline (Quota.returned amount slot) := by
  obtain ⟨x, rfl, hdeadline⟩ := h
  unfold Quota.returned
  split
  · exact ⟨_, rfl, hdeadline⟩
  · exact ⟨x, rfl, hdeadline⟩

theorem Within.spent (h : Within limit slot) (hb : clock + b.ttl ≤ limit) :
    Within limit (some (Quota.spent clock slot b)) := by
  rintro _ ⟨⟩
  unfold Quota.spent
  dsimp only
  split
  · exact ⟨_, rfl, hb⟩
  next hkeep =>
    cases slot with
    | none => simp at hkeep
    | some x => exact h x rfl

theorem Within.corrected (h : Within limit slot) (hc : clock + c.ttl ≤ limit) :
    Within limit (Quota.corrected clock reserved slot c) := by
  unfold Quota.corrected
  dsimp only
  split
  · rintro _ ⟨⟩
    dsimp only
    split
    · exact ⟨_, rfl, hc⟩
    next hkeep =>
      cases slot with
      | none => simp at hkeep
      | some x => exact h x rfl
  · split
    · intro y hy
      obtain ⟨x, rfl, rfl⟩ := Option.map_eq_some_iff.mp hy
      exact h x rfl
    · exact h

theorem Within.returned (h : Within limit slot) : Within limit (Quota.returned amount slot) := by
  unfold Quota.returned
  split
  · intro y hy
    obtain ⟨x, rfl, rfl⟩ := Option.map_eq_some_iff.mp hy
    exact h x rfl
  · exact h

theorem Within.mono {limit limit' : Seconds} {slot : Option Counter} (h : Within limit slot)
    (hle : limit ≤ limit') : Within limit' slot := by
  intro c hc
  obtain ⟨deadline, hdeadline, hlimit⟩ := h c hc
  exact ⟨deadline, hdeadline, hlimit.trans hle⟩

/-- An upward correction that creates a counter sets its expiry too. -/
theorem Dated.corrected_of_none (hpos : (Quota.corrected clock reserved none c).isSome) :
    Dated (clock + c.ttl) (Quota.corrected clock reserved none c) := by
  unfold Quota.corrected at hpos ⊢
  dsimp only at hpos ⊢
  split
  · exact ⟨_, rfl, by simp⟩
  next hup =>
    rw [if_neg hup] at hpos
    simp at hpos

end

/-! ## One step -/

namespace Desk

variable {T : Tracker} {k : String} {reset : ResetKind} {d : Desk}

/-- What holds of every state: the counter reads nothing negative, is to expire within a width
of now, and reservations are receipts of calls. -/
structure Timed (k : String) (reset : ResetKind) (T : Tracker) (d : Desk) : Prop where
  nonneg : 0 ≤ used (d.db.counters k)
  within : Within (d.db.clock + width reset) (d.db.counters k)
  made : ∀ g ∈ d.granted, ∃ lane spec scope estimatedTokens requestId,
    g.reservation = receipt (T.grants lane spec scope) scope spec.provider spec.model
      estimatedTokens requestId

/-- The blocks of a call at the counter. -/
theorem block_rolling (hroll : Rolling T k reset) {lane : Lane} {spec : ModelSpec}
    {scope : String} {g : WindowGrant} (hg : g ∈ T.grants lane spec scope) (hk : g.key = k)
    (now : Seconds) (estimatedTokens : ℤ) :
    (T.block now estimatedTokens g).refresh = false ∧
      (T.block now estimatedTokens g).ttl = width reset := by
  dsimp only [Tracker.block]
  rw [hroll.charges lane spec scope g hg hk]
  exact ⟨hroll.rolls, ttlS_rolling hroll.rolls T.pacific now⟩

/-- The corrections of a commit at the counter. -/
theorem correction_rolling (hroll : Rolling T k reset) {r : Reservation} {now : Seconds} {actual : ℤ}
    (hmade : ∃ lane spec scope estimatedTokens requestId,
      r = receipt (T.grants lane spec scope) scope spec.provider spec.model estimatedTokens requestId)
    {c : Correction} (hc : c ∈ T.corrections now r actual) (hk : c.key = k) :
    c.refresh = false ∧ c.ttl = width reset := by
  obtain ⟨lane, spec, scope, estimatedTokens, requestId, rfl⟩ := hmade
  obtain ⟨s, hs, rfl⟩ := List.mem_map.mp hc
  obtain ⟨hdeclared, hs⟩ := List.mem_filter.mp hs
  simp only [Bool.decide_and, Bool.and_eq_true, decide_eq_true_eq] at hs
  obtain ⟨g, hg, hwindow, hkey⟩ := Plain.keyFor_receipt scope spec.provider spec.model
    estimatedTokens requestId hs.2
  have htoken : s.window.isToken = true := (costIsTokens_of_declared hdeclared).symm.trans hs.1
  -- a token window's grant is that of the declared window, reset and all
  have hreset : g.reset = s.reset := by
    have hdeclaredOf : ∀ s' ∈ T.declared spec.provider spec.model, s'.window = s.window →
        s'.reset = s.reset := by
      intro s' hs' hsw
      have hinj := List.inj_on_of_nodup_map (declared_nodup (T := T)) hs' hdeclared hsw
      rw [hinj]
    cases lane with
    | perception =>
      obtain ⟨s', hs', rfl⟩ := List.mem_map.mp hg
      exact hdeclaredOf s' hs' hwindow
    | answer cap =>
      have hanswer : ∀ extra, g ∈ T.answerGrants spec scope extra →
          (∀ g' ∈ extra, g'.window = .rpd) → g.reset = s.reset := by
        intro extra hg hextra
        rcases List.mem_append.mp hg with hg | hg
        · obtain ⟨s', hs', rfl⟩ := List.mem_map.mp hg
          exact hdeclaredOf s' hs' hwindow
        · rw [← hwindow, hextra g hg] at htoken
          cases htoken
      cases cap with
      | none => exact hanswer [] hg (by simp)
      | some cap =>
        refine hanswer _ hg fun g' hg' => ?_
        rw [Router.sharedPoolGrants, List.mem_singleton] at hg'
        rw [hg']
  have hroll' := hroll.charges lane spec scope g hg (hkey.symm.trans hk)
  dsimp only
  rw [← hreset, hroll']
  exact ⟨hroll.rolls, ttlS_rolling hroll.rolls T.pacific now⟩

section

variable {P : Option Counter → Prop}

/-- What the charges of a call keep. -/
theorem kept_reserve (hroll : Rolling T k reset) {now : Seconds} {lane : Lane} {spec : ModelSpec}
    {scope requestId : String} {estimatedTokens : ℤ}
    (hspend : ∀ slot b, b.refresh = false → b.ttl = width reset → 0 ≤ b.cost → P slot →
      P (some (spent d.db.clock slot b))) (h : P (d.db.counters k)) :
    P ((d.step T k (.reserve now lane spec scope estimatedTokens requestId)).db.counters k) := by
  dsimp only [Desk.step]
  split
  next => exact h
  next decision db hcall =>
    have hdb : P (db.counters k) := by
      rcases reserve_cases hcall with ⟨-, rfl⟩ | ⟨-, hnonneg, hcharged⟩
      · exact h
      · refine hcharged.kept (fun slot g hg hk hslot => ?_) h
        obtain ⟨hrefresh, httl⟩ := block_rolling hroll hg hk now estimatedTokens
        exact hspend slot _ hrefresh httl (cost_nonneg hnonneg g) hslot
    split
    · exact hdb
    · exact hdb

/-- What the corrections of a commit keep. -/
theorem Timed.kept_commit (htimed : Timed k reset T d) (hroll : Rolling T k reset) {now : Seconds}
    {n : ℕ} {tokensIn tokensOut : ℤ}
    (hcorrect : ∀ reserved slot c, c.refresh = false → c.ttl = width reset → P slot →
      P (corrected d.db.clock reserved slot c)) (h : P (d.db.counters k)) :
    P ((d.step T k (.commit now n tokensIn tokensOut)).db.counters k) := by
  dsimp only [Desk.step]
  split
  next => exact h
  next g hg =>
    refine commit_kept (fun reserved slot c hc hk hslot => ?_) h
    obtain ⟨hrefresh, httl⟩ := correction_rolling hroll
      (htimed.made g (List.mem_of_getElem? hg)) hc hk
    exact hcorrect reserved slot c hrefresh httl hslot

/-- What the refunds of a release keep. -/
theorem kept_release {n : ℕ} (hreturn : ∀ amount slot, P slot → P (returned amount slot))
    (h : P (d.db.counters k)) : P ((d.step T k (.release n)).db.counters k) := by
  dsimp only [Desk.step]
  split
  next => exact h
  next g hg => exact release_kept hreturn h

/-- **The step rule.** A step takes the counter through charges, corrections and refunds of the
window's own width; only time takes it away. -/
theorem Timed.kept_step (htimed : Timed k reset T d) (hroll : Rolling T k reset) (op : Op)
    (hspend : ∀ slot b, b.refresh = false → b.ttl = width reset → 0 ≤ b.cost → P slot →
      P (some (spent d.db.clock slot b)))
    (hcorrect : ∀ reserved slot c, c.refresh = false → c.ttl = width reset → P slot →
      P (corrected d.db.clock reserved slot c))
    (hreturn : ∀ amount slot, P slot → P (returned amount slot)) (hnone : P none)
    (h : P (d.db.counters k)) : P ((d.step T k op).db.counters k) := by
  cases op with
  | reserve now lane spec scope estimatedTokens requestId => exact kept_reserve hroll hspend h
  | commit now n tokensIn tokensOut => exact htimed.kept_commit hroll hcorrect h
  | release n => exact kept_release hreturn h
  | waitUntil t =>
    rcases waitUntil_counters d.db t k with heq | heq
    · exact heq ▸ h
    · exact heq ▸ hnone

end

theorem Timed.made_step (htimed : Timed k reset T d) (op : Op) : ∀ g ∈ (d.step T k op).granted,
    ∃ lane spec scope estimatedTokens requestId,
      g.reservation = receipt (T.grants lane spec scope) scope spec.provider spec.model
        estimatedTokens requestId := by
  intro g hg
  cases op with
  | reserve now lane spec scope estimatedTokens requestId =>
    dsimp only [Desk.step] at hg
    split at hg
    next => exact htimed.made g hg
    next decision db hcall =>
      rcases reserve_cases hcall with ⟨hnone, -⟩ | ⟨hsome, -⟩
      · rw [hnone] at hg
        exact htimed.made g hg
      · rw [hsome] at hg
        rcases List.mem_append.mp hg with hg | hg
        · exact htimed.made g hg
        · rw [List.mem_singleton.mp hg]
          exact ⟨lane, spec, scope, estimatedTokens, requestId, rfl⟩
  | commit now n tokensIn tokensOut =>
    dsimp only [Desk.step] at hg
    split at hg
    next => exact htimed.made g hg
    next g₀ hg₀ =>
      obtain ⟨g₁, hg₁, hres, -⟩ := mem_settle hg₀ hg
      rw [hres]
      exact htimed.made g₁ hg₁
  | release n =>
    dsimp only [Desk.step] at hg
    split at hg
    next => exact htimed.made g hg
    next g₀ hg₀ =>
      obtain ⟨g₁, hg₁, hres, -⟩ := mem_settle hg₀ hg
      rw [hres]
      exact htimed.made g₁ hg₁
  | waitUntil t => exact htimed.made g hg

/-- Time never runs back. -/
theorem clock_step (op : Op) : d.db.clock ≤ (d.step T k op).db.clock := by
  cases op with
  | reserve now lane spec scope estimatedTokens requestId =>
    dsimp only [Desk.step]
    split
    next => exact le_refl _
    next decision db hcall =>
      have hclock : db.clock = d.db.clock := by
        rcases reserve_cases hcall with ⟨-, rfl⟩ | ⟨-, -, ⟨-, rfl⟩ | ⟨-, -, rfl⟩⟩
        · rfl
        · rfl
        · exact foldl_clock (fun _ _ => spend_clock) _ _
      split
      · exact hclock.ge
      · exact hclock.ge
  | commit now n tokensIn tokensOut =>
    dsimp only [Desk.step]
    split
    next => exact le_refl _
    next g hg =>
      dsimp only [Desk.settle]
      unfold Tracker.commit commitLua
      split
      · exact le_refl _
      · split
        · exact le_refl _
        · exact (foldl_clock (fun _ _ => correct_clock) _ _).ge
  | release n =>
    dsimp only [Desk.step]
    split
    next => exact le_refl _
    next g hg =>
      dsimp only [Desk.settle]
      unfold Tracker.release releaseLua
      split
      · exact le_refl _
      · split
        · exact le_refl _
        · exact (foldl_clock (fun _ _ => giveBack_clock) _ _).ge
  | waitUntil t => exact le_max_left _ _

theorem timed_start : Timed k reset T {} where
  nonneg := le_refl 0
  within _ hc := nomatch hc
  made _ hg := nomatch hg

theorem Timed.step (htimed : Timed k reset T d) (hroll : Rolling T k reset) (op : Op) :
    Timed k reset T (d.step T k op) where
  nonneg := htimed.kept_step (P := fun slot => 0 ≤ used slot) hroll op
    (fun _ _ _ _ => used_spent) (fun _ _ _ _ _ => used_corrected) (fun _ _ => used_returned)
    (le_refl 0) htimed.nonneg
  within := by
    have hstep : Within (d.db.clock + width reset) ((d.step T k op).db.counters k) :=
      htimed.kept_step hroll op
        (fun _ b _ httl _ h => h.spent (by rw [httl]))
        (fun _ _ c _ httl h => h.corrected (by rw [httl]))
        (fun _ _ h => h.returned) (fun _ hc => nomatch hc) htimed.within
    have hclock : d.db.clock ≤ (d.step T k op).db.clock := clock_step op
    exact Within.mono hstep (by linarith)
  made := htimed.made_step op

theorem Timed.run (hroll : Rolling T k reset) (ops : List Op) {d : Desk}
    (htimed : Timed k reset T d) : Timed k reset T (ops.foldl (Desk.step T k) d) := by
  induction ops generalizing d with
  | nil => exact htimed
  | cons op ops ih => exact ih (htimed.step hroll op)

/-- A call that charges the counter. -/
def reserves : Op → Bool
  | .reserve _ _ _ _ _ _ => true
  | .commit _ _ _ _ | .release _ | .waitUntil _ => false

/-- A settlement leaves the expiry of a counter, and time takes it away with the counter. -/
theorem Timed.dated_step (htimed : Timed k reset T d) (hroll : Rolling T k reset) {op : Op}
    (hop : reserves op = false) {deadline : Seconds} (h : Dated deadline (d.db.counters k)) :
    (d.step T k op).db.counters k = none ∨ Dated deadline ((d.step T k op).db.counters k) := by
  cases op with
  | reserve now lane spec scope estimatedTokens requestId => cases hop
  | commit now n tokensIn tokensOut =>
    exact .inr (htimed.kept_commit hroll (fun _ _ c hrefresh _ hslot => hslot.corrected hrefresh) h)
  | release n => exact .inr (kept_release (fun _ _ hslot => hslot.returned) h)
  | waitUntil t =>
    rcases waitUntil_counters d.db t k with heq | heq
    · exact .inr (heq ▸ h)
    · exact .inl heq

/-- **No call puts it off.** A counter that stays positive expires when it was to expire. -/
theorem Timed.expires_step (htimed : Timed k reset T d) (hroll : Rolling T k reset) (op : Op)
    {deadline : Seconds} (h : Expires deadline (d.db.counters k))
    (hpos : 0 < used ((d.step T k op).db.counters k)) :
    Expires deadline ((d.step T k op).db.counters k) := by
  cases hop : reserves op with
  | true =>
    cases op with
    | reserve now lane spec scope estimatedTokens requestId =>
      exact kept_reserve hroll (fun _ b hrefresh _ hcost hslot => hslot.spent hrefresh hcost) h
    | commit _ _ _ _ | release _ | waitUntil _ => cases hop
  | false =>
    rcases htimed.dated_step hroll hop h.dated with hgone | hdated
    · rw [hgone] at hpos
      exact absurd hpos (lt_irrefl 0)
    · exact hdated.expires hpos

/-- A call that makes it positive sets it. -/
theorem rise_reserve (hroll : Rolling T k reset) {now : Seconds} {lane : Lane} {spec : ModelSpec}
    {scope requestId : String} {estimatedTokens : ℤ} {d' : Desk}
    (hd' : d' = d.step T k (.reserve now lane spec scope estimatedTokens requestId))
    (hzero : used (d.db.counters k) = 0) (hpos : 0 < used (d'.db.counters k)) :
    Expires (d.db.clock + width reset) (d'.db.counters k) := by
  subst hd'
  have hkept : used ((d.step T k (.reserve now lane spec scope estimatedTokens
      requestId)).db.counters k) = 0 ∨ Expires (d.db.clock + width reset) ((d.step T k
        (.reserve now lane spec scope estimatedTokens requestId)).db.counters k) := by
    refine kept_reserve (P := fun slot => used slot = 0 ∨
      Expires (d.db.clock + width reset) slot) hroll (fun slot b hrefresh httl hcost hslot => ?_)
      (.inl hzero)
    rcases hslot with hslot | hslot
    · by_cases hfree : b.cost = 0
      · exact .inl (by change used slot + b.cost = 0; omega)
      · rw [← httl]
        exact .inr (Expires.spent_of_zero hslot (by omega))
    · exact .inr (hslot.spent hrefresh hcost)
  exact hkept.resolve_left (by omega)

/-- So does a step that creates it. -/
theorem Timed.rise_none (htimed : Timed k reset T d) (hroll : Rolling T k reset) {op : Op}
    (hnone : d.db.counters k = none) (hpos : 0 < used ((d.step T k op).db.counters k)) :
    Expires (d.db.clock + width reset) ((d.step T k op).db.counters k) := by
  have hzero : used (d.db.counters k) = 0 := by rw [hnone]; rfl
  cases op with
  | reserve now lane spec scope estimatedTokens requestId =>
    exact rise_reserve hroll rfl hzero hpos
  | commit now n tokensIn tokensOut =>
    have hkept : (d.step T k (.commit now n tokensIn tokensOut)).db.counters k = none ∨
        Dated (d.db.clock + width reset)
          ((d.step T k (.commit now n tokensIn tokensOut)).db.counters k) := by
      refine htimed.kept_commit (P := fun slot => slot = none ∨
        Dated (d.db.clock + width reset) slot) hroll (fun reserved slot c hrefresh httl hslot => ?_)
        (.inl hnone)
      rcases hslot with rfl | hslot
      · cases hx : corrected d.db.clock reserved none c with
        | none => exact .inl rfl
        | some x =>
          rw [← httl, ← hx]
          exact .inr (Dated.corrected_of_none (by rw [hx]; rfl))
      · exact .inr (hslot.corrected hrefresh)
    rcases hkept with hgone | hdated
    · rw [hgone] at hpos
      exact absurd hpos (lt_irrefl 0)
    · exact hdated.expires hpos
  | release n =>
    have hkept : (d.step T k (.release n)).db.counters k = none := by
      refine kept_release (P := fun slot => slot = none) (fun amount slot hslot => ?_) hnone
      rw [hslot]
      unfold returned
      split <;> rfl
    rw [hkept] at hpos
    exact absurd hpos (lt_irrefl 0)
  | waitUntil t =>
    have hgone : (d.db.waitUntil t).counters k = none := by
      rcases waitUntil_counters d.db t k with heq | heq
      · exact heq.trans hnone
      · exact heq
    rw [show (d.step T k (.waitUntil t)).db.counters k = none from hgone] at hpos
    exact absurd hpos (lt_irrefl 0)

/-- A run through which the counter stays positive leaves its expiry. -/
theorem Timed.dated_run (hroll : Rolling T k reset) {deadline : Seconds} (ops : List Op) {d : Desk}
    (htimed : Timed k reset T d) (h : Expires deadline (d.db.counters k))
    (hpos : ∀ pre, pre <+: ops → 0 < used ((pre.foldl (Desk.step T k) d).db.counters k)) :
    Expires deadline ((ops.foldl (Desk.step T k) d).db.counters k) := by
  induction ops generalizing d with
  | nil => exact h
  | cons op ops ih =>
    have hstep : 0 < used ((d.step T k op).db.counters k) :=
      hpos [op] (List.prefix_append [op] ops)
    refine ih (htimed.step hroll op) ?_ fun pre hpre => hpos (op :: pre) ?_
    · exact htimed.expires_step hroll op h hstep
    · exact List.cons_prefix_cons.mpr ⟨rfl, hpre⟩

/-- **A rolling window is never put off.** However long a run keeps the counter positive, the
counter expires when it was to expire as it became positive: within a width of that, and exactly
a width after it if a reservation made it so, or created it. -/
theorem rolling_expiry (T : Tracker) (k : String) (reset : ResetKind) (hroll : Rolling T k reset)
    (before : List Op) (op : Op) (after : List Op)
    (hzero : used ((run T k before).db.counters k) = 0)
    (hpos : ∀ pre, pre <+: after →
      0 < used ((run T k (before ++ op :: pre)).db.counters k)) :
    ∃ deadline ≤ (run T k before).db.clock + width reset,
      (∀ pre, pre <+: after → Expires deadline ((run T k (before ++ op :: pre)).db.counters k)) ∧
      (reserves op ∨ (run T k before).db.counters k = none →
        deadline = (run T k before).db.clock + width reset) := by
  have htimed : Timed k reset T (run T k before) := timed_start.run hroll before
  have hrun : ∀ pre, run T k (before ++ op :: pre) =
      pre.foldl (Desk.step T k) ((run T k before).step T k op) := by
    intro pre
    rw [run, List.foldl_append]
    rfl
  have hstep : 0 < used (((run T k before).step T k op).db.counters k) := by
    have h := hpos [] List.nil_prefix
    rwa [hrun] at h
  obtain ⟨deadline, hlimit, hexpires, hexact⟩ : ∃ deadline ≤ (run T k before).db.clock + width reset,
      Expires deadline (((run T k before).step T k op).db.counters k) ∧
      (reserves op ∨ (run T k before).db.counters k = none →
        deadline = (run T k before).db.clock + width reset) := by
    cases hop : reserves op with
    | true =>
      refine ⟨_, le_refl _, ?_, fun _ => rfl⟩
      cases op with
      | reserve now lane spec scope estimatedTokens requestId =>
        exact rise_reserve hroll rfl hzero hstep
      | commit _ _ _ _ | release _ | waitUntil _ => cases hop
    | false =>
      cases hx : (run T k before).db.counters k with
      | none => exact ⟨_, le_refl _, htimed.rise_none hroll hx hstep, fun _ => rfl⟩
      | some x =>
        -- a counter that is there at zero keeps the expiry it has
        obtain ⟨deadline, hdeadline, hlimit⟩ := htimed.within x hx
        refine ⟨deadline, hlimit, ?_, fun h => by simp at h⟩
        rcases htimed.dated_step hroll hop ⟨x, hx, hdeadline⟩ with hgone | hdated
        · rw [hgone] at hstep
          exact absurd hstep (lt_irrefl 0)
        · exact hdated.expires hstep
  refine ⟨deadline, hlimit, fun pre hpre => ?_, hexact⟩
  rw [hrun]
  refine Timed.dated_run hroll pre (htimed.step hroll op) hexpires fun pre' hpre' => ?_
  have h := hpos pre' (hpre'.trans hpre)
  rwa [hrun] at h

theorem rolling_perMinute :
    Rolling perMinute (quotaKey "shared" "p" "m" .tpm) .rolling60s where
  rolls := rfl
  charges := by
    intro lane spec scope g hg hk
    have hdeclared : ∀ s ∈ perMinute.declared spec.provider spec.model,
        s.reset = .rolling60s := by
      intro s hs
      rw [show perMinute.declared spec.provider spec.model =
        [{ window := .tpm, limit := 1000, reset := .rolling60s, costIsTokens := true }] from rfl,
        List.mem_singleton] at hs
      rw [hs]
    have hgw : g.window = .tpm := window_of_grant hg hk
    rcases grant_cases hg with ⟨s, hs, -, -, hreset, -⟩ | ⟨userId, cap, hcap⟩
    · exact hreset.trans (hdeclared s hs)
    · rw [Router.sharedPoolGrants, List.mem_singleton] at hcap
      rw [hcap] at hgw
      cases hgw

/-- Half a minute of traffic of both lanes behind the first reservation. -/
def traffic : List Op :=
  [.waitUntil 30, .reserve 30 .perception ⟨"s", "p", "m", 8192⟩ "shared" 50 "b",
    .commit 40 0 70 80]

-- so that instants are computed with
unseal Rat.add Rat.sub Rat.mul Rat.inv Rat.ofScientific

theorem rolling_expiry_traffic : ∃ deadline ≤ 60,
    (∀ pre, pre <+: traffic → Expires deadline
      ((run perMinute (quotaKey "shared" "p" "m" .tpm)
        ([] ++ .reserve 0 (.answer none) ⟨"s", "p", "m", 8192⟩ "shared" 100 "a" :: pre)).db.counters
          (quotaKey "shared" "p" "m" .tpm))) ∧ deadline = 60 := by
  have hpos : ∀ pre, pre <+: traffic → 0 < used
      ((run perMinute (quotaKey "shared" "p" "m" .tpm)
        ([] ++ .reserve 0 (.answer none) ⟨"s", "p", "m", 8192⟩ "shared" 100 "a" :: pre)).db.counters
          (quotaKey "shared" "p" "m" .tpm)) := by
    intro pre hpre
    rw [← List.mem_inits] at hpre
    revert pre
    simp only [traffic, List.inits, List.mem_cons, List.not_mem_nil, or_false, forall_eq_or_imp,
      forall_eq, List.map_cons, List.map_nil]
    refine ⟨?_, ?_, ?_, ?_⟩ <;> decide
  obtain ⟨deadline, hlimit, hexpires, hexact⟩ := rolling_expiry perMinute
    (quotaKey "shared" "p" "m" .tpm) .rolling60s rolling_perMinute [] _ traffic (by decide)
    hpos
  have hdeadline : deadline = 60 := by
    rw [hexact (.inl rfl)]
    decide
  exact ⟨deadline, hdeadline.le, hexpires, hdeadline⟩

/-- An attempt spends more than it took, in the next minute, whose only reservation has just been
given back. -/
def lateRise : List Op :=
  [.reserve 0 (.answer none) ⟨"s", "p", "m", 8192⟩ "shared" 5 "b", .waitUntil 61,
    .reserve 61 (.answer none) ⟨"s", "p", "m", 8192⟩ "shared" 10 "a", .commit 62 1 0 0,
    .waitUntil 80]

/-- The spend is gone at 121, a minute after the reservation that was given back and 41 seconds
after the correction that made the counter positive. -/
theorem not_rolling_expiry :
    ¬ ∀ (T : Tracker) (k : String) (reset : ResetKind), Rolling T k reset →
      ∀ (before : List Op) (op : Op), used ((run T k before).db.counters k) = 0 →
        0 < used ((run T k (before ++ [op])).db.counters k) →
        Expires ((run T k before).db.clock + width reset)
          ((run T k (before ++ [op])).db.counters k) := by
  intro h
  obtain ⟨c, hc, -, hdeadline⟩ := h perMinute (quotaKey "shared" "p" "m" .tpm) .rolling60s
    rolling_perMinute lateRise (.commit 80 0 5 7) (by decide) (by decide)
  have hread : ((run perMinute (quotaKey "shared" "p" "m" .tpm)
      (lateRise ++ [.commit 80 0 5 7])).db.counters (quotaKey "shared" "p" "m" .tpm)).bind
        (·.deadline) = some 121 := by decide
  rw [hc, Option.bind_some, hdeadline] at hread
  revert hread
  decide

end Desk

end Quota

end LlmGateway
