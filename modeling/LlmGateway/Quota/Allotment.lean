import LlmGateway.Quota.Calls

/-!
# What the calls may take

A call charges all of its windows or none, and none beyond its limit. A counter
of requests is then never charged by more calls than its largest limit, but for
those that gave their request back.
-/

namespace LlmGateway

namespace Quota

open Tracker

/-! ## One call -/

/-- No two grants of a call have a key or a window in common. -/
structure Distinct (grants : List WindowGrant) : Prop where
  windows : (grants.map (·.window)).Nodup
  keys : (grants.map (·.key)).Nodup

/-- Whatever charges the counter counts requests. -/
def Requests (k : String) (grants : List WindowGrant) : Prop :=
  ∀ g ∈ grants, g.key = k → g.costIsTokens = false ∧ g.window.isToken = false

instance (grants : List WindowGrant) : Decidable (Distinct grants) :=
  decidable_of_iff ((grants.map (·.window)).Nodup ∧ (grants.map (·.key)).Nodup)
    ⟨fun h => ⟨h.1, h.2⟩, fun h => ⟨h.1, h.2⟩⟩

instance (k : String) (grants : List WindowGrant) : Decidable (Requests k grants) :=
  inferInstanceAs (Decidable (∀ g ∈ grants, _))

/-- **One call, all or nothing.** A refused call writes nothing. A granted one charges each of
its counters its cost, within the limit, and no other counter. -/
theorem reserve_atomic {T : Tracker} {db db' : Db} {now : Seconds} {grants : List WindowGrant}
    {scope provider model requestId : String} {estimatedTokens : ℤ} {decision : QuotaDecision}
    (hdistinct : Distinct grants)
    (hcall : T.reserveWindows db now grants scope provider model estimatedTokens requestId =
      .ok (decision, db')) :
    (decision.reservation = none → db' = db) ∧ (decision.reservation.isSome →
      (∀ g ∈ grants, ∃ c, db'.counters g.key = some c ∧
        c.value = used (db.counters g.key) + cost estimatedTokens g ∧ c.value ≤ g.limit) ∧
      ∀ k, k ∉ grants.map (·.key) → db'.counters k = db.counters k) := by
  rcases reserve_cases hcall with ⟨hnone, heq⟩ | ⟨hsome, -, hcharged⟩
  · exact ⟨fun _ => heq, fun h => by simp [hnone] at h⟩
  · refine ⟨fun h => by simp [hsome] at h, fun _ => ⟨fun g hg => ?_, fun k hk => ?_⟩⟩
    · obtain ⟨c, hc, hvalue⟩ := hcharged.counter_of_mem hdistinct.keys hg
      exact ⟨c, hc, hvalue, hvalue ▸ hcharged.room hg⟩
    · exact hcharged.counter_of_not_mem hk

/-- **Both lanes charge a counter of requests for requests.** -/
theorem requests_grants (T : Tracker) {w : QuotaWindow} (hw : w.isToken = false)
    (scope provider model : String) (lane : Lane) (spec : ModelSpec) (scope' : String) :
    Requests (quotaKey scope provider model w) (T.grants lane spec scope') := by
  intro g hg hk
  have hgw : g.window = w := window_of_grant hg hk
  rcases grant_cases hg with ⟨s, hs, hwindow, htokens, -⟩ | ⟨userId, cap, hcap⟩
  · have hsw : s.window = w := hwindow.symm.trans hgw
    constructor
    · rw [htokens, costIsTokens_of_declared hs, hsw, hw]
    · rw [hgw, hw]
  · rw [Router.sharedPoolGrants, List.mem_singleton] at hcap
    rw [hcap]
    exact ⟨rfl, rfl⟩

/-! ## The run -/

/-- The database, with the history of one counter: the reservations granted, the
limits of the grants that charged it in its lifetime, and the releases that gave
a charge back in it. -/
structure Tally where
  db : Db := {}
  granted : List Reservation := []
  limits : List ℤ := []
  releases : ℕ := 0

namespace Tally

/-- What happens next; a settlement is of the `n`th reservation granted. -/
inductive Op where
  | reserve (now : Seconds) (grants : List WindowGrant) (scope provider model : String)
      (estimatedTokens : ℤ) (requestId : String)
  | commit (now : Seconds) (n : ℕ) (tokensIn tokensOut : ℤ)
  | release (n : ℕ)
  | waitUntil (t : Seconds)

/-- One step. -/
def step (T : Tracker) (k : String) (d : Tally) : Op → Tally
  | .reserve now grants scope provider model estimatedTokens requestId =>
    match T.reserveWindows d.db now grants scope provider model estimatedTokens requestId with
    | .error _ => d
    | .ok (decision, db) =>
      match decision.reservation with
      | none => { d with db }
      | some r =>
        { d with
          db
          granted := d.granted ++ [r]
          limits := (grants.filter (·.key = k)).map (·.limit) ++ d.limits }
  | .commit now n tokensIn tokensOut =>
    match d.granted[n]? with
    | none => d
    | some r => { d with db := T.commit d.db now r tokensIn tokensOut }
  | .release n =>
    match d.granted[n]? with
    | none => d
    | some r =>
      { d with
        db := Tracker.release d.db r
        releases := if (d.db.held (reservationKey r)).isSome ∧ (d.db.counters k).isSome ∧
          k ∈ r.counterKeys then d.releases + 1 else d.releases }
  | .waitUntil t =>
    let db := d.db.waitUntil t
    -- a lifetime ends when the counter expires
    if (db.counters k).isNone then { d with db, limits := [], releases := 0 } else { d with db }

/-- The calls of a run: no grant repeated in one, the counter charged for requests only, and
every request id fresh. -/
def Sound (k : String) (d : Tally) : Op → Prop
  | .reserve _ grants scope provider model _ requestId =>
    Distinct grants ∧ Requests k grants ∧
      quotaReservation scope provider model requestId ∉ d.granted.map reservationKey
  | .commit _ _ _ _ | .release _ | .waitUntil _ => True

/-- Every step of a run is. -/
def Steady (T : Tracker) (k : String) (d : Tally) : List Op → Prop
  | [] => True
  | op :: ops => d.Sound k op ∧ (d.step T k op).Steady T k ops

instance (k : String) (d : Tally) : (op : Op) → Decidable (d.Sound k op)
  | .reserve _ _ _ _ _ _ _ => inferInstanceAs (Decidable (_ ∧ _))
  | .commit _ _ _ _ | .release _ | .waitUntil _ => inferInstanceAs (Decidable True)

instance decidableSteady (T : Tracker) (k : String) (d : Tally) :
    (ops : List Op) → Decidable (d.Steady T k ops)
  | [] => inferInstanceAs (Decidable True)
  | op :: ops =>
    have := decidableSteady T k (d.step T k op) ops
    inferInstanceAs (Decidable (d.Sound k op ∧ (d.step T k op).Steady T k ops))

/-- The state a run leads to. -/
def run (T : Tracker) (k : String) (ops : List Op) : Tally := ops.foldl (step T k) {}

/-- Grants less releases, in the counter's lifetime. -/
def taken (d : Tally) : ℤ := d.limits.length - d.releases

/-! ## The invariant -/

/-- A receipt of a call that charged the counter for a request at most, and what is left of it. -/
structure Made (k : String) (db : Db) (r : Reservation) : Prop where
  receipt : ∃ grants scope provider model estimatedTokens requestId, Distinct grants ∧
    Requests k grants ∧
    r = Tracker.receipt grants scope provider model estimatedTokens requestId ∧
    ∀ h, db.held (reservationKey r) = some h → ∀ g ∈ grants, g.key = k → h.amounts g.window = 1

/-- What holds of every state: the counter is at least what its lifetime has taken, that is
within one of its limits, and the hashes are those of reservations granted. -/
structure Kept (k : String) (d : Tally) : Prop where
  counts : ∀ c, d.db.counters k = some c → d.taken ≤ c.value
  fresh : d.db.counters k = none → d.limits = [] ∧ d.releases = 0
  within : d.limits ≠ [] → ∃ limit ∈ d.limits, d.taken ≤ limit
  made : ∀ r ∈ d.granted, Made k d.db r
  owned : ∀ key, (d.db.held key).isSome → key ∈ d.granted.map reservationKey

variable {T : Tracker} {k : String} {d : Tally}

theorem kept_start : Kept k {} where
  counts _ hc := nomatch hc
  fresh _ := ⟨rfl, rfl⟩
  within h := absurd rfl h
  made _ hr := nomatch hr
  owned _ h := nomatch h

theorem Made.mono {db db' : Db} {r : Reservation} (hmade : Made k db r)
    (hheld : ∀ h, db'.held (reservationKey r) = some h → db.held (reservationKey r) = some h) :
    Made k db' r := by
  obtain ⟨grants, scope, provider, model, tokens, id, hdistinct, hrequests, hrec, hamounts⟩ :=
    hmade.receipt
  exact ⟨grants, scope, provider, model, tokens, id, hdistinct, hrequests, hrec,
    fun h hh => hamounts h (hheld h hh)⟩

/-- A step that takes nothing and gives nothing back, and adds no hash. -/
theorem Kept.frame {db : Db} (hkept : Kept k d) (hcounter : db.counters k = d.db.counters k)
    (hheld : ∀ key h, db.held key = some h → d.db.held key = some h) :
    Kept k { d with db } where
  counts c hc := hkept.counts c (hcounter.symm.trans hc)
  fresh h := hkept.fresh (hcounter.symm.trans h)
  within := hkept.within
  made r hr := (hkept.made r hr).mono (hheld _)
  owned key h := by
    obtain ⟨x, hx⟩ := Option.isSome_iff_exists.mp h
    exact hkept.owned key (Option.isSome_iff_exists.mpr ⟨x, hheld key x hx⟩)

/-- A commit corrects token windows only. -/
theorem commit_requests {db : Db} {now : Seconds} {r : Reservation} {tokensIn tokensOut : ℤ}
    (hmade : Made k db r) : (T.commit db now r tokensIn tokensOut).counters k = db.counters k := by
  obtain ⟨grants, scope, provider, model, tokens, id, hdistinct, hrequests, rfl, -⟩ := hmade.receipt
  unfold Tracker.commit
  split
  · rfl
  unfold commitLua
  cases db.held (reservationKey (receipt grants scope provider model tokens id)) with
  | none => rfl
  | some h =>
    dsimp only [Db.del]
    rw [foldl_counters (·.key) (fun clock slot c => corrected clock (h.amounts c.name) slot c)
      (fun _ _ => correct_counters) (fun _ _ => correct_clock)]
    suffices hnil : (T.corrections now (receipt grants scope provider model tokens id)
        (tokensIn + tokensOut)).filter (·.key = k) = [] by
      rw [hnil]
      rfl
    unfold corrections
    rw [List.filter_map, List.map_eq_nil_iff, List.filter_eq_nil_iff]
    intro s hs hkey
    obtain ⟨hdeclared, hs⟩ := List.mem_filter.mp hs
    simp only [Function.comp_apply, decide_eq_true_eq, Bool.decide_and, Bool.and_eq_true] at hs hkey
    -- the grant of that window would be a token window's
    obtain ⟨g, hg, hwindow, hgkey⟩ := Plain.keyFor_receipt scope provider model tokens id hs.2
    obtain ⟨-, hrequest⟩ := hrequests g hg (hgkey.symm.trans hkey)
    have htoken := costIsTokens_of_declared hdeclared
    rw [hs.1, ← hwindow, hrequest] at htoken
    cases htoken

theorem commit_held_of {db : Db} {now : Seconds} {r : Reservation} {tokensIn tokensOut : ℤ}
    {key : String} {h : Held} (hh : (T.commit db now r tokensIn tokensOut).held key = some h) :
    db.held key = some h := by
  by_cases hwin : r.windows = []
  · rwa [Tracker.commit, if_pos hwin] at hh
  · cases hown : db.held (reservationKey r) with
    | none => rwa [commit_of_none hown] at hh
    | some x =>
      rw [commit_held hwin hown, Function.update_apply] at hh
      split at hh
      · cases hh
      · exact hh

theorem release_held_of {db : Db} {r : Reservation} {key : String} {h : Held}
    (hh : (Tracker.release db r).held key = some h) : db.held key = some h := by
  by_cases hwin : r.windows = []
  · rwa [Tracker.release, if_pos hwin] at hh
  · cases hown : db.held (reservationKey r) with
    | none => rwa [release_of_none hown] at hh
    | some x =>
      rw [release_held hwin hown, Function.update_apply] at hh
      split at hh
      · cases hh
      · exact hh

theorem Kept.commit {now : Seconds} {n : ℕ} {tokensIn tokensOut : ℤ} (hkept : Kept k d) :
    Kept k (d.step T k (.commit now n tokensIn tokensOut)) := by
  dsimp only [step]
  split
  next => exact hkept
  next r hr =>
    refine hkept.frame (commit_requests (hkept.made r (List.mem_of_getElem? hr))) ?_
    exact fun key h => commit_held_of

/-- A release gives back one request where it finds its hash and the counter, and nothing
elsewhere. -/
theorem release_requests {db : Db} {r : Reservation} (hmade : Made k db r) :
    if (db.held (reservationKey r)).isSome ∧ (db.counters k).isSome ∧ k ∈ r.counterKeys then
      ∃ x, db.counters k = some x ∧ (Tracker.release db r).counters k =
        some { x with value := max 0 (x.value - 1) }
    else (Tracker.release db r).counters k = db.counters k := by
  obtain ⟨grants, scope, provider, model, tokens, id, hdistinct, -, hr, hamounts⟩ := hmade.receipt
  have hkeys : r.counterKeys = grants.map (·.key) := by
    rw [hr]
    rfl
  cases hown : db.held (reservationKey r) with
  | none =>
    rw [release_of_none hown, if_neg (by simp)]
  | some h =>
    rw [released_counters hdistinct.windows hr hown, hkeys]
    by_cases hk : k ∈ grants.map (·.key)
    · obtain ⟨g, hg, rfl⟩ := List.mem_map.mp hk
      rw [filter_key hdistinct.keys hg, List.foldl_cons, List.foldl_nil,
        hamounts h hown g hg rfl]
      cases hx : db.counters g.key with
      | none =>
        rw [if_neg (by simp)]
        rfl
      | some x =>
        rw [if_pos ⟨rfl, rfl, hk⟩]
        exact ⟨x, rfl, rfl⟩
    · rw [if_neg (fun hc => hk hc.2.2), filter_absent hk]
      rfl

theorem Kept.release {n : ℕ} (hkept : Kept k d) : Kept k (d.step T k (.release n)) := by
  dsimp only [step]
  split
  next => exact hkept
  next r hr =>
    have hrelease := release_requests (hkept.made r (List.mem_of_getElem? hr))
    split at hrelease
    next hcond =>
      rw [if_pos hcond]
      obtain ⟨x, hx, hafter⟩ := hrelease
      have htaken : ∀ db : Db, Tally.taken { d with db, releases := d.releases + 1 } = d.taken - 1 := by
        intro db
        simp only [taken, Nat.cast_add, Nat.cast_one]
        omega
      have hcounts := hkept.counts x hx
      refine { counts := fun c hc => ?_, fresh := fun h => ?_, within := fun hne => ?_
               made := fun r' hr' => (hkept.made r' hr').mono fun h => release_held_of
               owned := fun key h => ?_ }
      · rw [htaken]
        have hcx := hafter.symm.trans hc
        cases hcx
        dsimp only
        omega
      · simp [hafter] at h
      · obtain ⟨limit, hlimit, hle⟩ := hkept.within hne
        refine ⟨limit, hlimit, ?_⟩
        rw [htaken]
        omega
      · obtain ⟨y, hy⟩ := Option.isSome_iff_exists.mp h
        exact hkept.owned key (Option.isSome_iff_exists.mpr ⟨y, release_held_of hy⟩)
    next hcond =>
      rw [if_neg hcond]
      exact hkept.frame hrelease fun key h => release_held_of

/-- A granted call takes one request more from a counter it charges. -/
theorem Kept.charge {db : Db} {g : WindowGrant} {rs : List Reservation} (hkept : Kept k d)
    (hafter : ∃ c, db.counters k = some c ∧ c.value = used (d.db.counters k) + 1)
    (hroom : used (d.db.counters k) + 1 ≤ g.limit) (hmade : ∀ r ∈ rs, Made k db r)
    (howned : ∀ key, (db.held key).isSome → key ∈ rs.map reservationKey) :
    Kept k { d with db, granted := rs, limits := [g.limit] ++ d.limits } := by
  have htaken : Tally.taken { d with db, granted := rs, limits := [g.limit] ++ d.limits } =
      d.taken + 1 := by
    simp only [taken, List.singleton_append, List.length_cons, Nat.cast_add, Nat.cast_one]
    omega
  have hused : d.taken ≤ used (d.db.counters k) := by
    cases hx : d.db.counters k with
    | none =>
      obtain ⟨hlimits, hreleases⟩ := hkept.fresh hx
      simp [taken, hlimits, hreleases, used]
    | some x => exact hkept.counts x hx
  obtain ⟨c, hc, hvalue⟩ := hafter
  refine { counts := fun c' hc' => ?_, fresh := fun h => ?_, within := fun _ => ?_
           made := hmade, owned := howned }
  · have hcc := hc.symm.trans hc'
    cases hcc
    rw [htaken]
    omega
  · simp [hc] at h
  · refine ⟨g.limit, List.mem_cons_self, ?_⟩
    rw [htaken]
    omega

/-- The hashes after a granted call: the old ones, and that of the new reservation. -/
theorem Kept.hashes {db : Db} {now : Seconds} {grants : List WindowGrant}
    {scope provider model requestId : String} {estimatedTokens : ℤ} (hkept : Kept k d)
    (hsound : d.Sound k (.reserve now grants scope provider model estimatedTokens requestId))
    (hcharged : Charged T d.db now grants (quotaReservation scope provider model requestId)
      estimatedTokens requestId db) {rs : List Reservation}
    (hrs : rs = d.granted ++
      [receipt grants scope provider model estimatedTokens requestId]) :
    (∀ r ∈ rs, Made k db r) ∧ ∀ key, (db.held key).isSome → key ∈ rs.map reservationKey := by
  obtain ⟨hdistinct, hrequests, hfresh⟩ := hsound
  have hnone : d.db.held (quotaReservation scope provider model requestId) = none := by
    rw [← Option.not_isSome_iff_eq_none]
    exact fun h => hfresh (hkept.owned _ h)
  subst hrs
  constructor
  · intro r hr
    rcases List.mem_append.mp hr with hr | hr
    · refine (hkept.made r hr).mono fun h hh => ?_
      rwa [hcharged.held] at hh
      exact fun heq => hfresh (List.mem_map.mpr ⟨r, hr, heq⟩)
    · rw [List.mem_singleton.mp hr]
      refine ⟨grants, scope, provider, model, estimatedTokens, requestId, hdistinct, hrequests,
        rfl, fun h hh g hg hk => ?_⟩
      have hamount := hcharged.amount_of_mem hnone hdistinct.windows hg
      have hkey : db.held (quotaReservation scope provider model requestId) = some h := hh
      rw [Db.amounts, hkey, cost, (hrequests g hg hk).1] at hamount
      exact hamount
  · intro key hkey
    rw [List.map_append, List.mem_append]
    by_cases heq : key = quotaReservation scope provider model requestId
    · exact .inr (List.mem_singleton.mpr heq)
    · rw [hcharged.held heq] at hkey
      exact .inl (hkept.owned key hkey)

theorem Kept.reserve {now : Seconds} {grants : List WindowGrant}
    {scope provider model requestId : String} {estimatedTokens : ℤ} (hkept : Kept k d)
    (hsound : d.Sound k
      (.reserve now grants scope provider model estimatedTokens requestId)) :
    Kept k (d.step T k (.reserve now grants scope provider model estimatedTokens requestId)) := by
  dsimp only [step]
  split
  next => exact hkept
  next decision db hcall =>
    rcases reserve_cases hcall with ⟨hrefused, rfl⟩ | ⟨hgranted, -, hcharged⟩
    · rw [hrefused]
      exact hkept
    · rw [hgranted]
      obtain ⟨hmade, howned⟩ := hkept.hashes hsound hcharged rfl
      obtain ⟨hdistinct, hrequests, -⟩ := hsound
      by_cases hk : k ∈ grants.map (·.key)
      · obtain ⟨g, hg, rfl⟩ := List.mem_map.mp hk
        have hcost : cost estimatedTokens g = 1 := by
          rw [cost, (hrequests g hg rfl).1]
          rfl
        have hafter := hcharged.counter_of_mem hdistinct.keys hg
        have hroom := hcharged.room hg
        rw [hcost] at hafter hroom
        dsimp only
        rw [filter_key hdistinct.keys hg]
        exact hkept.charge hafter hroom hmade howned
      · have hcounter : db.counters k = d.db.counters k := hcharged.counter_of_not_mem hk
        dsimp only
        rw [filter_absent hk]
        exact
          { counts := fun c hc => hkept.counts c (hcounter.symm.trans hc)
            fresh := fun h => hkept.fresh (hcounter.symm.trans h)
            within := hkept.within
            made := hmade
            owned := howned }

/-- Time ends a lifetime, and takes hashes away. -/
theorem Kept.waitUntil {t : Seconds} (hkept : Kept k d) : Kept k (d.step T k (.waitUntil t)) := by
  have hheld : ∀ key h, (d.db.waitUntil t).held key = some h → d.db.held key = some h :=
    fun key h hh => (Option.filter_eq_some_iff.mp hh).1
  dsimp only [step]
  split
  next hgone =>
    rw [Option.isNone_iff_eq_none] at hgone
    refine { counts := fun c hc => ?_, fresh := fun _ => ⟨rfl, rfl⟩
             within := fun h => absurd rfl h
             made := fun r hr => (hkept.made r hr).mono (hheld _)
             owned := fun key h => ?_ }
    · simp [hgone] at hc
    · obtain ⟨x, hx⟩ := Option.isSome_iff_exists.mp h
      exact hkept.owned key (Option.isSome_iff_exists.mpr ⟨x, hheld key x hx⟩)
  next hlive =>
    refine hkept.frame ?_ hheld
    rw [Option.isNone_iff_eq_none] at hlive
    obtain ⟨x, hx⟩ := Option.ne_none_iff_exists'.mp hlive
    rw [hx]
    exact ((Option.filter_eq_some_iff.mp hx).1).symm

/-- A sound step keeps the invariant. -/
theorem Kept.step {op : Op} (hkept : Kept k d) (hsound : d.Sound k op) :
    Kept k (d.step T k op) := by
  cases op with
  | reserve now grants scope provider model estimatedTokens requestId => exact hkept.reserve hsound
  | commit now n tokensIn tokensOut => exact hkept.commit
  | release n => exact hkept.release
  | waitUntil t => exact hkept.waitUntil

theorem Kept.run {ops : List Op} (hkept : Kept k d) (hsteady : d.Steady T k ops) :
    Kept k (ops.foldl (Tally.step T k) d) := by
  induction ops generalizing d with
  | nil => exact hkept
  | cons op ops ih => exact ih (hkept.step hsteady.1) hsteady.2

/-- One model with two requests a minute. -/
def twoRequests : Tracker where
  limits _ _ := some
    { limit := fun w => if w = .rpm then some 2 else none
      reset := fun w => if w = .rpm then some .rolling60s else none
      reset_declared := by
        intro w hw
        revert hw
        cases w <;> decide }
  effectiveLimit _ limit := limit
  perceptionLimit _ _ limit := limit
  pacific := utc

def spec : ModelSpec := ⟨"s", "p", "m", 8192⟩

/-- Both lanes at one counter: the third call is refused, and the fourth has the request the
second gave back. -/
def sharedMinute : List Op :=
  [.reserve 0 (twoRequests.grants (.answer none) spec "shared") "shared" "p" "m" 7 "a",
    .reserve 1 (twoRequests.grants .perception spec "shared") "shared" "p" "m" 9 "b",
    .reserve 2 (twoRequests.grants (.answer none) spec "shared") "shared" "p" "m" 7 "c",
    .commit 3 0 4 5, .release 1,
    .reserve 4 (twoRequests.grants .perception spec "shared") "shared" "p" "m" 9 "d"]

-- so that instants are computed with
unseal Rat.add Rat.sub Rat.mul Rat.inv Rat.ofScientific

end Tally

end Quota

end LlmGateway
