import LlmGateway.Quota.Settlement

/-!
# The days of a daily counter

Calls are granted at a counter whose reset is a midnight, and time goes by. The
expiry is set again by every granted call, to the whole seconds its caller reads
to the next midnight.
-/

namespace LlmGateway

namespace Quota

open Tracker

/-! ## What a call does to a daily counter -/

/-- The days of a provider whose reset converges. -/
def providerDay (pacific : Calendar) (reset : ResetKind) : Calendar :=
  if reset = .fixedDailyPt then pacific else utc

theorem resetsAt_of_converging {reset : ResetKind} (hreset : reset.converging)
    (pacific : Calendar) (now : Seconds) :
    resetsAt pacific reset now = (providerDay pacific reset).next now := by
  cases reset with
  | fixedDailyUtc => rfl
  | fixedDailyPt => rfl
  | rolling60s => cases hreset
  | rollingDaily => cases hreset

/-- What a call's grants cost at one counter. -/
def charges (k : String) (estimatedTokens : ℤ) (grants : List WindowGrant) : List ℤ :=
  (grants.filter (·.key = k)).map fun g => if g.costIsTokens then estimatedTokens else 1

section

variable {T : Tracker} {k : String} {reset : ResetKind} {grants : List WindowGrant}
  {estimatedTokens : ℤ} {now clock : Seconds}

/-- Blocks that refresh leave the sum of their costs and their common expiry. -/
theorem foldl_spent {ttl : ℤ} (bs : List Block) (x : Counter)
    (hx : x.deadline = some (clock + ttl)) (hbs : ∀ b ∈ bs, b.refresh = true ∧ b.ttl = ttl) :
    ∃ y, bs.foldl (fun slot b => some (spent clock slot b)) (some x) = some y ∧
      y.value = x.value + (bs.map (·.cost)).sum ∧ y.deadline = some (clock + ttl) := by
  induction bs generalizing x with
  | nil => exact ⟨x, rfl, by simp, hx⟩
  | cons b bs ih =>
    obtain ⟨hrefresh, httl⟩ := hbs b List.mem_cons_self
    have hspent : (spent clock (some x) b).deadline = some (clock + ttl) := by
      rw [spent, if_pos (.inl hrefresh), httl]
    obtain ⟨y, hy, hvalue, hdeadline⟩ :=
      ih (spent clock (some x) b) hspent fun b' hb' => hbs b' (List.mem_cons_of_mem b hb')
    refine ⟨y, hy, ?_, hdeadline⟩
    have hcost : (spent clock (some x) b).value = x.value + b.cost := rfl
    rw [hvalue, hcost, List.map_cons, List.sum_cons]
    omega

/-- A granted call charges the counter what its grants cost there, and sets its
expiry from the caller's clock. -/
theorem reserve_daily (hreset : reset.converging)
    (hon : ∀ g ∈ grants, g.key = k → g.reset = reset) {db db' : Db}
    {scope provider model requestId : String} {decision : QuotaDecision} {r : Reservation}
    (hcall : T.reserveWindows db now grants scope provider model estimatedTokens requestId =
      .ok (decision, db')) (hr : decision.reservation = some r) :
    db'.clock = db.clock ∧
      (charges k estimatedTokens grants = [] ∧ db'.counters k = db.counters k ∨
        charges k estimatedTokens grants ≠ [] ∧ ∃ c, db'.counters k = some c ∧
          c.value = used (db.counters k) + (charges k estimatedTokens grants).sum ∧
          c.deadline = some (db.clock + ttlS T.pacific reset now)) := by
  rcases reserve_cases hcall with ⟨hnone, -⟩ | ⟨-, -, hcharged⟩
  · rw [hr] at hnone
    cases hnone
  · refine ⟨hcharged.clock, ?_⟩
    rw [hcharged.counters]
    have hcharges : charges k estimatedTokens grants =
        ((grants.filter (·.key = k)).map (T.block now estimatedTokens)).map (·.cost) := by
      rw [charges, List.map_map]
      rfl
    have hblock : ∀ b ∈ (grants.filter (·.key = k)).map (T.block now estimatedTokens),
        b.refresh = true ∧ b.ttl = ttlS T.pacific reset now := by
      intro b hb
      obtain ⟨g, hg, rfl⟩ := List.mem_map.mp hb
      obtain ⟨hmem, hkey⟩ := List.mem_filter.mp hg
      have heq := hon g hmem (of_decide_eq_true hkey)
      dsimp only [block]
      rw [heq]
      exact ⟨hreset, rfl⟩
    rw [hcharges]
    generalize (grants.filter (·.key = k)).map (T.block now estimatedTokens) = bs at hblock
    cases bs with
    | nil => exact .inl ⟨rfl, rfl⟩
    | cons b bs =>
      obtain ⟨hrefresh, httl⟩ := hblock b List.mem_cons_self
      refine .inr ⟨List.cons_ne_nil _ _, ?_⟩
      obtain ⟨y, hy, hvalue, hdeadline⟩ := foldl_spent bs (spent db.clock (db.counters k) b)
        (by rw [spent, if_pos (.inl hrefresh), httl])
        fun b' hb' => hblock b' (List.mem_cons_of_mem b hb')
      refine ⟨y, hy, ?_, hdeadline⟩
      have hcost : (spent db.clock (db.counters k) b).value =
          used (db.counters k) + b.cost := rfl
      rw [hvalue, hcost, List.map_cons, List.sum_cons]
      omega

end

/-! ## The run -/

/-- The database, with the history of one daily counter: the costs it was charged
since it was last created, each with the instant of its grant, and the last
grant, with what its caller's clock read. -/
structure Daybook where
  db : Db := {}
  paid : List (Seconds × ℤ) := []
  last : Option (Seconds × Seconds) := none

/-- What happens next. -/
inductive Daybook.Op where
  | reserve (now : Seconds) (grants : List WindowGrant) (scope provider model : String)
      (estimatedTokens : ℤ) (requestId : String)
  | waitUntil (t : Seconds)

namespace Daybook

/-- Whatever charges the counter charges it with its reset. -/
def Op.On (k : String) (reset : ResetKind) : Op → Prop
  | .reserve _ grants _ _ _ _ _ => ∀ g ∈ grants, g.key = k → g.reset = reset
  | .waitUntil _ => True

/-- What the counter counts: a new one counts nothing yet. -/
def counted (k : String) (d : Daybook) : List (Seconds × ℤ) :=
  if (d.db.counters k).isNone then [] else d.paid

/-- One step. -/
def step (T : Tracker) (k : String) (d : Daybook) : Op → Daybook
  | .reserve now grants scope provider model estimatedTokens requestId =>
    match T.reserveWindows d.db now grants scope provider model estimatedTokens requestId with
    | .error _ => d
    | .ok (decision, db) =>
      let costs := charges k estimatedTokens grants
      if decision.reservation.isNone ∨ costs = [] then { d with db }
      else
        { db
          paid := d.counted k ++ costs.map (d.db.clock, ·)
          last := some (d.db.clock, now) }
  | .waitUntil t => { d with db := d.db.waitUntil t }

/-- The state a run leads to. -/
def run (T : Tracker) (k : String) (ops : List Op) : Daybook := ops.foldl (step T k) {}

/-- **The counter is of today**: it counts what it was charged, and all of that
was granted since the last reset. -/
def OfToday (day : Calendar) (k : String) (d : Daybook) : Prop :=
  ∀ c, d.db.counters k = some c →
    c.value = (d.paid.map (·.2)).sum ∧ ∀ p ∈ d.paid, d.db.clock < day.next p.1

/-- A step in time: it does not come to an instant from the reset after the last
grant through the expiry that grant has set. -/
def InTime (T : Tracker) (reset : ResetKind) (d : Daybook) : Op → Prop
  | .reserve .. => True
  | .waitUntil t => ∀ g ∈ d.last,
    max d.db.clock t < (providerDay T.pacific reset).next g.1 ∨
      g.1 + ttlS T.pacific reset g.2 < max d.db.clock t

/-- Every step of a run is. -/
def Timely (T : Tracker) (k : String) (reset : ResetKind) (d : Daybook) : List Op → Prop
  | [] => True
  | op :: ops => d.InTime T reset op ∧ (d.step T k op).Timely T k reset ops

instance (k : String) (reset : ResetKind) : (op : Op) → Decidable (op.On k reset)
  | .reserve _ grants _ _ _ _ _ =>
    inferInstanceAs (Decidable (∀ g ∈ grants, g.key = k → g.reset = reset))
  | .waitUntil _ => inferInstanceAs (Decidable True)

instance (T : Tracker) (reset : ResetKind) (d : Daybook) :
    (op : Op) → Decidable (d.InTime T reset op)
  | .reserve .. => inferInstanceAs (Decidable True)
  | .waitUntil _ => inferInstanceAs (Decidable (∀ g ∈ d.last, _ ∨ _))

instance decidableTimely (T : Tracker) (k : String) (reset : ResetKind) (d : Daybook) :
    (ops : List Op) → Decidable (d.Timely T k reset ops)
  | [] => inferInstanceAs (Decidable True)
  | op :: ops =>
    have := decidableTimely T k reset (d.step T k op) ops
    inferInstanceAs (Decidable (d.InTime T reset op ∧ (d.step T k op).Timely T k reset ops))

/-- What holds while the counter is of today: it was last charged by the last
grant and expires when that has said, and it is gone only when that has passed. -/
structure Kept (T : Tracker) (k : String) (reset : ResetKind) (d : Daybook) : Prop where
  today : d.OfToday (providerDay T.pacific reset) k
  live : ∀ c, d.db.counters k = some c → ∃ e now, d.last = some (e, now) ∧
    c.deadline = some (e + ttlS T.pacific reset now) ∧ e ≤ d.db.clock ∧
      (∃ cost, (e, cost) ∈ d.paid) ∧ ∀ p ∈ d.paid, p.1 ≤ e
  gone : d.db.counters k = none → ∀ g ∈ d.last, g.1 + ttlS T.pacific reset g.2 < d.db.clock

variable {T : Tracker} {k : String} {reset : ResetKind} {d : Daybook}

theorem kept_start : Kept T k reset {} where
  today _ hc := nomatch hc
  live _ hc := nomatch hc
  gone _ _ hg := nomatch hg

/-- What it counts adds up, and was granted since the last reset. -/
theorem Kept.counted (hkept : Kept T k reset d) :
    used (d.db.counters k) = ((d.counted k).map (·.2)).sum ∧ ∀ p ∈ d.counted k,
      p.1 ≤ d.db.clock ∧ d.db.clock < (providerDay T.pacific reset).next p.1 := by
  unfold Daybook.counted
  cases hx : d.db.counters k with
  | none => exact ⟨rfl, fun p hp => nomatch hp⟩
  | some x =>
    obtain ⟨hsum, htoday⟩ := hkept.today x hx
    obtain ⟨e, -, -, -, hle, -, hpaid⟩ := hkept.live x hx
    exact ⟨hsum, fun p hp => ⟨le_trans (hpaid p hp) hle, htoday p hp⟩⟩

theorem Kept.reserve (hreset : reset.converging) {now : Seconds} {grants : List WindowGrant}
    {scope provider model requestId : String} {estimatedTokens : ℤ} (hkept : Kept T k reset d)
    (hon : ∀ g ∈ grants, g.key = k → g.reset = reset) :
    Kept T k reset
      (d.step T k (.reserve now grants scope provider model estimatedTokens requestId)) := by
  dsimp only [step]
  split
  next => exact hkept
  next decision db hcall =>
    cases hr : decision.reservation with
    | none =>
      rw [if_pos (.inl rfl), reserve_refused hcall hr]
      exact hkept
    | some r =>
      obtain ⟨hclock, hcase⟩ := reserve_daily hreset hon hcall hr
      rcases hcase with ⟨hnil, heq⟩ | ⟨hne, c, hc, hvalue, hdeadline⟩
      · rw [if_pos (.inr hnil)]
        refine { today := ?_, live := ?_, gone := ?_ }
        · intro c hc
          have htoday := hkept.today c (heq.symm.trans hc)
          dsimp only
          rw [hclock]
          exact htoday
        · intro c hc
          dsimp only
          rw [hclock]
          exact hkept.live c (heq.symm.trans hc)
        · intro hc
          dsimp only
          rw [hclock]
          exact hkept.gone (heq.symm.trans hc)
      · rw [if_neg (by simp [hne])]
        obtain ⟨hused, hcounted⟩ := hkept.counted
        have hmem : ∀ p ∈ d.counted k ++ (charges k estimatedTokens grants).map (d.db.clock, ·),
            p.1 ≤ d.db.clock ∧ d.db.clock < (providerDay T.pacific reset).next p.1 := by
          intro p hp
          rcases List.mem_append.mp hp with hp | hp
          · exact hcounted p hp
          · obtain ⟨cost, -, rfl⟩ := List.mem_map.mp hp
            exact ⟨le_refl _, (providerDay T.pacific reset).lt_next d.db.clock⟩
        refine { today := ?_, live := ?_, gone := ?_ }
        · intro c' hc'
          have hcc : c = c' := Option.some.inj (hc.symm.trans hc')
          subst hcc
          have hcosts : (((charges k estimatedTokens grants).map (d.db.clock, ·)).map (·.2)).sum =
              (charges k estimatedTokens grants).sum := by
            rw [List.map_map]
            exact congrArg List.sum (List.map_id _)
          refine ⟨?_, fun p hp => ?_⟩
          · rw [hvalue, hused, List.map_append, List.sum_append, hcosts]
          · rw [hclock]
            exact (hmem p hp).2
        · intro c' hc'
          have hcc : c = c' := Option.some.inj (hc.symm.trans hc')
          subst hcc
          obtain ⟨cost, hcost⟩ := List.exists_mem_of_ne_nil _ hne
          refine ⟨d.db.clock, now, rfl, hdeadline, le_of_eq hclock.symm, ⟨cost, ?_⟩, ?_⟩
          · exact List.mem_append_right _ (List.mem_map.mpr ⟨cost, hcost, rfl⟩)
          · exact fun p hp => (hmem p hp).1
        · intro hnone
          exact absurd (hc.symm.trans hnone) (by simp)

/-- Waiting in time keeps the counter of today, and only that does. -/
theorem Kept.waitUntil {t : Seconds} (hkept : Kept T k reset d) :
    (d.InTime T reset (.waitUntil t) → Kept T k reset (d.step T k (.waitUntil t))) ∧
      ((d.step T k (.waitUntil t)).OfToday (providerDay T.pacific reset) k →
        d.InTime T reset (.waitUntil t)) := by
  have hle : d.db.clock ≤ max d.db.clock t := le_max_left _ _
  constructor
  · intro htime
    have hold : ∀ c, (d.db.waitUntil t).counters k = some c → d.db.counters k = some c ∧
        ∀ p ∈ d.paid, max d.db.clock t < (providerDay T.pacific reset).next p.1 := by
      intro c hc
      obtain ⟨hx, halive⟩ := Option.filter_eq_some_iff.mp hc
      obtain ⟨e, now, hlast, hdeadline, hclock, -, hpaid⟩ := hkept.live c hx
      obtain ⟨-, htoday⟩ := hkept.today c hx
      have hend : max d.db.clock t ≤ e + ttlS T.pacific reset now := by
        rw [hdeadline] at halive
        exact of_decide_eq_true halive
      have hnext := (htime (e, now) hlast).resolve_right (not_lt.mpr hend)
      refine ⟨hx, fun p hp => ?_⟩
      -- Every charge is of the last grant's day.
      have heq := (providerDay T.pacific reset).next_eq (hpaid p hp)
        (lt_of_le_of_lt hclock (htoday p hp))
      rw [← heq]
      exact hnext
    refine { today := ?_, live := ?_, gone := ?_ }
    · intro c hc
      obtain ⟨hx, hpaid⟩ := hold c hc
      exact ⟨(hkept.today c hx).1, hpaid⟩
    · intro c hc
      obtain ⟨e, now, hlast, hdeadline, hclock, hpaid⟩ := hkept.live c (hold c hc).1
      exact ⟨e, now, hlast, hdeadline, le_trans hclock hle, hpaid⟩
    · intro hnone g hg
      cases hx : d.db.counters k with
      | none => exact lt_of_lt_of_le (hkept.gone hx g hg) hle
      | some x =>
        obtain ⟨e, now, hlast, hdeadline, -⟩ := hkept.live x hx
        have hgone : ¬ alive x.deadline (max d.db.clock t) = true := by
          intro halive
          have hsome : (d.db.waitUntil t).counters k = some x :=
            Option.filter_eq_some_iff.mpr ⟨hx, halive⟩
          exact absurd (hnone.symm.trans hsome) (by simp)
        rw [hdeadline, alive, decide_eq_true_iff, not_le] at hgone
        have hge : (e, now) = g := Option.some.inj (hlast.symm.trans hg)
        subst hge
        exact hgone
  · intro htoday g hg
    cases hx : d.db.counters k with
    | none => exact .inr (lt_of_lt_of_le (hkept.gone hx g hg) hle)
    | some x =>
      obtain ⟨e, now, hlast, hdeadline, -, ⟨cost, hcost⟩, -⟩ := hkept.live x hx
      have hge : (e, now) = g := Option.some.inj (hlast.symm.trans hg)
      subst hge
      by_cases hend : max d.db.clock t ≤ e + ttlS T.pacific reset now
      · have hsome : (d.db.waitUntil t).counters k = some x := by
          refine Option.filter_eq_some_iff.mpr ⟨hx, ?_⟩
          rw [hdeadline]
          exact decide_eq_true hend
        exact .inl ((htoday x hsome).2 (e, cost) hcost)
      · exact .inr (not_le.mp hend)

/-- One step, both ways. -/
theorem Kept.step (hreset : reset.converging) {op : Op} (hkept : Kept T k reset d)
    (hon : op.On k reset) :
    (d.InTime T reset op → Kept T k reset (d.step T k op)) ∧
      ((d.step T k op).OfToday (providerDay T.pacific reset) k → d.InTime T reset op) := by
  cases op with
  | reserve now grants scope provider model estimatedTokens requestId =>
    exact ⟨fun _ => hkept.reserve hreset hon, fun _ => trivial⟩
  | waitUntil t => exact hkept.waitUntil

theorem Kept.run (hreset : reset.converging) {ops : List Op} (hkept : Kept T k reset d)
    (hon : ∀ op ∈ ops, op.On k reset) :
    (∀ ops', ops' <+: ops → (ops'.foldl (Daybook.step T k) d).OfToday (providerDay T.pacific reset) k) ↔
      d.Timely T k reset ops := by
  induction ops generalizing d with
  | nil =>
    refine ⟨fun _ => trivial, fun _ ops' hops => ?_⟩
    rw [List.prefix_nil.mp hops]
    exact hkept.today
  | cons op ops ih =>
    obtain ⟨hkeep, hneed⟩ := hkept.step hreset (hon op List.mem_cons_self)
    have hrest : ∀ op' ∈ ops, op'.On k reset := fun op' hop => hon op' (List.mem_cons_of_mem op hop)
    constructor
    · intro hall
      have htime := hneed (hall [op] (List.prefix_append [op] ops))
      refine ⟨htime, (ih (hkeep htime) hrest).mp fun ops' hops => ?_⟩
      exact hall (op :: ops') ((List.prefix_cons_inj op).mpr hops)
    · rintro ⟨htime, htimely⟩ ops' hops
      cases ops' with
      | nil => exact hkept.today
      | cons op' ops' =>
        obtain ⟨rfl, hprefix⟩ := List.cons_prefix_cons.mp hops
        exact (ih (hkeep htime) hrest).mpr htimely ops' hprefix

/-- **A daily counter starts every day at zero**, in a run of calls at a counter
with a converging reset, throughout if and only if every step of it is in time. -/
theorem ofToday_iff_timely (T : Tracker) (k : String) (reset : ResetKind)
    (hreset : reset.converging) (ops : List Op) (hon : ∀ op ∈ ops, op.On k reset) :
    (∀ ops', ops' <+: ops → (run T k ops').OfToday (providerDay T.pacific reset) k) ↔
      Timely T k reset {} ops :=
  kept_start.run hreset hon

/-- A tracker whose daily windows reset at midnight UTC. -/
def perDay : Tracker where
  limits _ _ := none
  effectiveLimit _ limit := limit
  perceptionLimit _ _ limit := limit
  pacific := utc

/-- A request against a limit of ten a day. -/
def request (now : Seconds) (requestId : String) : Op :=
  .reserve now [⟨.rpd, 10, .fixedDailyUtc, false, "k"⟩] "shared" "p" "m" 0 requestId

/-- One request half a second after noon, one on the next day. -/
def twoDays : List Op :=
  [.waitUntil 43200.5, request 43200.5 "a", .waitUntil 86401, request 86401 "b", .waitUntil 90000]

-- so that instants are computed with
unseal Rat.add Rat.sub Rat.mul Rat.inv Rat.ofScientific

theorem ofToday_iff_timely_twoDays : (run perDay "k" twoDays).OfToday utc "k" :=
  (ofToday_iff_timely perDay "k" .fixedDailyUtc rfl twoDays (by decide)).mpr (by decide)
    twoDays (List.prefix_refl twoDays)

/-- One request 0.6 s before midnight, whose expiry is rounded to a whole second,
and one 0.2 s after. -/
def aroundMidnight : List Op :=
  [.waitUntil 86399.4, request 86399.4 "a", .waitUntil 86400.2, request 86400.2 "b",
    .waitUntil 90000]

/-- The second request keeps the day before alive for a day. -/
theorem not_ofToday :
    ¬ ∀ (T : Tracker) (k : String) (reset : ResetKind), reset.converging → ∀ ops,
      (∀ op ∈ ops, Op.On k reset op) →
        (run T k ops).OfToday (providerDay T.pacific reset) k := by
  intro h
  have htoday := h perDay "k" .fixedDailyUtc rfl aroundMidnight (by decide)
  have hread : ((run perDay "k" aroundMidnight).db.counters "k").map (·.value) = some 2 := by
    decide
  have hpaid : (86399.4, 1) ∈ (run perDay "k" aroundMidnight).paid := by decide
  have hclock : (run perDay "k" aroundMidnight).db.clock = 90000 := by decide
  obtain ⟨c, hc, -⟩ := Option.map_eq_some_iff.mp hread
  have hlt := (htoday c hc).2 (86399.4, 1) hpaid
  rw [hclock] at hlt
  exact absurd hlt (by decide)

end Daybook

end Quota

end LlmGateway
