import LlmGateway.Quota.Scripts
import LlmGateway.Routing.Router
import Mathlib.Data.List.Nodup

/-!
# The quota tracker

`QuotaTracker` and the perception lane's entry to it: which keys a call hands a
script, and with which numbers. A call reads its own clock, `now`, before the
script runs at the server's.
-/

namespace LlmGateway

/-- The name of a window, as keys and scripts spell it. -/
def QuotaWindow.name : QuotaWindow → String
  | .rpm => "rpm"
  | .rpd => "rpd"
  | .tpm => "tpm"
  | .tpd => "tpd"

namespace Quota

/-! ## Keys -/

/-- `_model_scoped`. -/
def modelScoped (scope provider model : String) : String :=
  "q:" ++ scope ++ ":" ++ provider ++ ":" ++ model

/-- `keys.quota`. -/
def quotaKey (scope provider model : String) (w : QuotaWindow) : String :=
  modelScoped scope provider model ++ ":" ++ w.name

/-- `keys.quota_reservation`. -/
def quotaReservation (scope provider model requestId : String) : String :=
  modelScoped scope provider model ++ ":res:" ++ requestId

/-- `keys.quota_perception_lane`. -/
def quotaPerceptionLane (scope provider model : String) : String :=
  modelScoped scope provider model ++ ":lane:perception"

/-- `RESERVATION_TTL_S`. -/
def reservationTtlS : ℤ := 120

/-! ## The tracker -/

/-- What a tracker is built with. The two reductions of a published limit, by
headroom and by the lane split, are arithmetic on it alone. -/
structure Tracker where
  limits : (provider model : String) → Option ModelLimits
  /-- `_effective_limit`, of the answer lane. -/
  effectiveLimit : ModelSpec → ℤ → ℤ
  /-- The perception lane's own reduction, by window. -/
  perceptionLimit : ModelSpec → QuotaWindow → ℤ → ℤ
  /-- The reset instants of `fixed_daily_pt`. -/
  pacific : Calendar

namespace Tracker

variable (T : Tracker)

/-- `_declared`. -/
def declared (provider model : String) : List WindowSpec :=
  match T.limits provider model with
  | none => []
  | some limits => limits.declared

/-- The grants of `reserve`: the declared windows, then the extra ones. -/
def answerGrants (spec : ModelSpec) (scope : String) (extra : List WindowGrant) :
    List WindowGrant :=
  (T.declared spec.provider spec.model).map (fun w =>
    { window := w.window, limit := T.effectiveLimit spec w.limit, reset := w.reset
      costIsTokens := w.costIsTokens, key := quotaKey scope spec.provider spec.model w.window }) ++
    extra

/-- The grants of `reserve_perception`: a daily window charges the lane's key. -/
def perceptionGrants (spec : ModelSpec) (scope : String) : List WindowGrant :=
  (T.declared spec.provider spec.model).map fun w =>
    { window := w.window, limit := T.perceptionLimit spec w.window w.limit, reset := w.reset
      costIsTokens := w.costIsTokens
      key := match w.window with
        | .rpd | .tpd => quotaPerceptionLane scope spec.provider spec.model
        | .rpm | .tpm => quotaKey scope spec.provider spec.model w.window }

/-- The arguments of `reserve.lua` for one grant. -/
def block (now : Seconds) (estimatedTokens : ℤ) (g : WindowGrant) : Block :=
  { name := g.window, limit := g.limit, cost := if g.costIsTokens then estimatedTokens else 1
    ttl := ttlS T.pacific g.reset now, refresh := g.reset.converging, key := g.key }

/-- The receipt of a call's grants. -/
def receipt (grants : List WindowGrant) (scope provider model : String) (estimatedTokens : ℤ)
    (requestId : String) : Reservation :=
  { scope, provider, model, requestId, tokens := estimatedTokens
    windows := grants.map (·.window), counterKeys := grants.map (·.key) }

/-- `reserve_windows`, for a call that Redis answers. -/
def reserveWindows (db : Db) (now : Seconds) (grants : List WindowGrant)
    (scope provider model : String) (estimatedTokens : ℤ) (requestId : String) :
    Except String (QuotaDecision × Db) :=
  let reservation := receipt grants scope provider model estimatedTokens requestId
  if estimatedTokens < 0 then
    .error ("estimated_tokens must be non-negative, got " ++ toString estimatedTokens)
  else if grants = [] then .ok ({ allowed := true, reservation := some reservation }, db)
  else
    match reserveLua db (quotaReservation scope provider model requestId)
      (grants.map (T.block now estimatedTokens)) reservationTtlS requestId with
    | (.reserved, db) => .ok ({ allowed := true, reservation := some reservation }, db)
    | (.blocked window ttl, db) =>
      let ttl := if 0 < ttl then ttl
        else match grants.find? (·.window = window) with
          | some g => ttlS T.pacific g.reset now
          | none => ttl
      .ok ({ allowed := false, blockedWindow := some window, retryAfterS := some (max ttl 0 : ℤ) },
        db)

/-- `_keys_for`: the key a reservation touched for a window; of two entries for
one window the later counts. -/
def keyFor (reservation : Reservation) (w : QuotaWindow) : String :=
  if reservation.counterKeys = [] then
    quotaKey reservation.scope reservation.provider reservation.model w
  else
    (((reservation.windows.zip reservation.counterKeys).reverse.find? (·.1 = w)).map (·.2)).getD ""

/-- The arguments of `commit.lua`: the declared token windows that were taken. -/
def corrections (now : Seconds) (reservation : Reservation) (actual : ℤ) : List Correction :=
  ((T.declared reservation.provider reservation.model).filter fun w =>
      w.costIsTokens ∧ w.window ∈ reservation.windows).map fun w =>
    { name := w.window, actual, ttl := ttlS T.pacific w.reset now, refresh := w.reset.converging
      key := keyFor reservation w.window }

/-- The hash of a reservation. -/
def reservationKey (reservation : Reservation) : String :=
  quotaReservation reservation.scope reservation.provider reservation.model reservation.requestId

/-- `commit`, for a call that Redis answers. -/
def commit (db : Db) (now : Seconds) (reservation : Reservation) (tokensIn tokensOut : ℤ) : Db :=
  if reservation.windows = [] then db
  else (commitLua db (reservationKey reservation)
    (T.corrections now reservation (tokensIn + tokensOut))).2

/-- `release`, for a call that Redis answers. -/
def release (db : Db) (reservation : Reservation) : Db :=
  if reservation.windows = [] then db
  else (releaseLua db (reservationKey reservation)
    (reservation.windows.map fun w => (w, keyFor reservation w))).2

/-- The two ways a caller builds its grants; the answer lane's may carry a
personal daily cap. -/
inductive Lane where
  | answer (cap : Option (String × ℤ))
  | perception
  deriving DecidableEq, Repr

/-- The grants of a call in a lane. -/
def grants (lane : Lane) (spec : ModelSpec) (scope : String) : List WindowGrant :=
  match lane with
  | .answer none => T.answerGrants spec scope []
  | .answer (some (userId, cap)) =>
    T.answerGrants spec scope (Router.sharedPoolGrants spec userId cap)
  | .perception => T.perceptionGrants spec scope

/-! ## Where a token window's spend goes -/

/-- The last three letters of a key. -/
def ending (key : String) : List Char := key.toList.reverse.take 3

theorem ending_append (a b : String) (h : 3 ≤ b.length) : ending (a ++ b) = ending b := by
  unfold ending
  rw [String.toList_append, List.reverse_append, List.take_append_of_le_length]
  rwa [List.length_reverse, String.length_toList]

theorem ending_quotaKey (scope provider model : String) (w : QuotaWindow) :
    ending (quotaKey scope provider model w) = ending w.name := by
  unfold quotaKey
  rw [ending_append _ _ (by cases w <;> decide)]

/-- A key names its window. -/
theorem window_of_quotaKey {scope provider model scope' provider' model' : String}
    {w w' : QuotaWindow} (h : quotaKey scope provider model w = quotaKey scope' provider' model' w') :
    w = w' := by
  have hend := congrArg ending h
  rw [ending_quotaKey, ending_quotaKey] at hend
  revert hend
  cases w <;> cases w' <;> decide

/-- The one entry a filter keeps. -/
theorem filter_eq_singleton {α : Type} {p : α → Bool} {l : List α} {a : α} (ha : a ∈ l)
    (hp : p a) (hone : (l.filter p).length ≤ 1) : l.filter p = [a] := by
  have hmem : a ∈ l.filter p := List.mem_filter.mpr ⟨ha, hp⟩
  cases hl : l.filter p with
  | nil => simp [hl] at hmem
  | cons b bs =>
    rw [hl] at hone hmem
    have hnil : bs = [] := List.eq_nil_of_length_eq_zero (by simpa using hone)
    subst hnil
    rw [List.mem_singleton.mp hmem]

/-- **One window, one counter.** Of a call's grants only that of window `w` can
charge the counter `k`, it is a declared token window, and no other grant is of
that window. -/
structure Plain (provider model : String) (w : QuotaWindow) (k : String)
    (grants : List WindowGrant) : Prop where
  window : ∀ g ∈ grants, g.key = k → g.window = w
  tokens : ∀ g ∈ grants, g.key = k → g.costIsTokens = true
  declared : ∀ g ∈ grants, g.key = k → ∃ s ∈ T.declared provider model,
    s.window = w ∧ s.costIsTokens = true
  once : (grants.map (·.window)).count w ≤ 1

section

variable {T} {provider model : String} {spec : ModelSpec} {scope : String} {w : QuotaWindow}
  {k : String}

theorem declared_nodup : ((T.declared provider model).map (·.window)).Nodup := by
  unfold declared
  split
  · exact List.nodup_nil
  · exact ModelLimits.declared_nodup _

theorem costIsTokens_of_declared {s : WindowSpec} (h : s ∈ T.declared provider model) :
    s.costIsTokens = s.window.isToken := by
  unfold declared at h
  split at h
  · cases h
  · exact (ModelLimits.mem_declared h).2

/-- A lane's daily key is no window's. -/
theorem laneKey_ne {scope₀ provider₀ model₀ : String} :
    quotaPerceptionLane scope provider model ≠ quotaKey scope₀ provider₀ model₀ w := by
  intro heq
  have hend := congrArg ending heq
  rw [ending_quotaKey, quotaPerceptionLane, ending_append _ _ (by decide)] at hend
  revert hend
  cases w <;> decide

/-- **What a grant is**: that of a declared window, at the window's key or the lane's, or the
personal cap's. -/
theorem grant_cases {lane : Lane} {g : WindowGrant} (hg : g ∈ T.grants lane spec scope) :
    (∃ s ∈ T.declared spec.provider spec.model,
        g.window = s.window ∧ g.costIsTokens = s.costIsTokens ∧ g.reset = s.reset ∧
          (g.key = quotaKey scope spec.provider spec.model s.window ∨
            g.key = quotaPerceptionLane scope spec.provider spec.model)) ∨
      ∃ userId cap, g ∈ Router.sharedPoolGrants spec userId cap := by
  cases lane with
  | perception =>
    obtain ⟨s, hs, rfl⟩ := List.mem_map.mp hg
    refine .inl ⟨s, hs, rfl, rfl, rfl, ?_⟩
    dsimp only
    split
    · exact .inr rfl
    · exact .inr rfl
    · exact .inl rfl
    · exact .inl rfl
  | answer cap =>
    have hanswer : ∀ extra, g ∈ T.answerGrants spec scope extra →
        (∃ s ∈ T.declared spec.provider spec.model,
          g.window = s.window ∧ g.costIsTokens = s.costIsTokens ∧ g.reset = s.reset ∧
            (g.key = quotaKey scope spec.provider spec.model s.window ∨
              g.key = quotaPerceptionLane scope spec.provider spec.model)) ∨ g ∈ extra := by
      intro extra hg
      rcases List.mem_append.mp hg with hg | hg
      · obtain ⟨s, hs, rfl⟩ := List.mem_map.mp hg
        exact .inl ⟨s, hs, rfl, rfl, rfl, .inl rfl⟩
      · exact .inr hg
    cases cap with
    | none => exact .inl ((hanswer [] hg).resolve_right List.not_mem_nil)
    | some cap => exact (hanswer _ hg).imp_right fun hg => ⟨_, _, hg⟩

/-- A window's key is charged by grants of that window only. -/
theorem window_of_grant {scope₀ provider₀ model₀ : String} {lane : Lane} {g : WindowGrant}
    (hg : g ∈ T.grants lane spec scope) (hk : g.key = quotaKey scope₀ provider₀ model₀ w) :
    g.window = w := by
  rcases grant_cases hg with ⟨s, -, hwindow, -, -, hkey | hkey⟩ | ⟨userId, cap, hcap⟩
  · rw [hwindow]
    exact window_of_quotaKey (hkey.symm.trans hk)
  · exact absurd (hkey.symm.trans hk) laneKey_ne
  · -- The personal cap's key ends like a daily one of requests, and the cap is one.
    rw [Router.sharedPoolGrants, List.mem_singleton] at hcap
    subst hcap
    have hend := congrArg ending hk
    rw [ending_quotaKey, ending_append _ _ (by decide)] at hend
    show QuotaWindow.rpd = w
    revert hend
    cases w <;> decide

/-- A grant that charges a token counter is that of a declared window. -/
theorem declared_of_grant (hw : w.isToken) {scope₀ provider₀ model₀ : String} {lane : Lane}
    {g : WindowGrant} (hg : g ∈ T.grants lane spec scope)
    (hk : g.key = quotaKey scope₀ provider₀ model₀ w) :
    ∃ s ∈ T.declared spec.provider spec.model,
      s.window = w ∧ s.costIsTokens = true ∧ g.window = w ∧ g.costIsTokens = true := by
  have hgw : g.window = w := window_of_grant hg hk
  rcases grant_cases hg with ⟨s, hs, hwindow, htokens, -⟩ | ⟨userId, cap, hcap⟩
  · have hsw : s.window = w := hwindow.symm.trans hgw
    have hst : s.costIsTokens = true := by rw [costIsTokens_of_declared hs, hsw, hw]
    exact ⟨s, hs, hsw, hst, hgw, htokens.trans hst⟩
  · rw [Router.sharedPoolGrants, List.mem_singleton] at hcap
    rw [← hgw, hcap] at hw
    cases hw

/-- The windows a call takes of a model are the declared ones, each once, but
for the personal cap's. -/
theorem count_window_le_one (hw : w.isToken) {lane : Lane} :
    ((T.grants lane spec scope).map (·.window)).count w ≤ 1 := by
  have hnodup : ((T.declared spec.provider spec.model).map (·.window)).Nodup := declared_nodup
  have hdeclared := List.nodup_iff_count_le_one.mp hnodup w
  have hmap : ∀ f : WindowSpec → WindowGrant, (∀ s, (f s).window = s.window) →
      ((T.declared spec.provider spec.model).map f).map (·.window) =
        (T.declared spec.provider spec.model).map (·.window) := by
    intro f hf
    rw [List.map_map]
    exact List.map_congr_left fun s _ => hf s
  cases lane with
  | answer cap =>
    cases cap with
    | none =>
      rw [grants, answerGrants, List.append_nil, hmap _ fun _ => rfl]
      exact hdeclared
    | some cap =>
      have hcap : ((Router.sharedPoolGrants spec cap.1 cap.2).map (·.window)).count w = 0 := by
        have hne : ¬ QuotaWindow.rpd = w := by rintro rfl; cases hw
        simp [Router.sharedPoolGrants, hne]
      rw [grants, answerGrants, List.map_append, List.count_append, hmap _ fun _ => rfl, hcap]
      exact hdeclared
  | perception =>
    rw [grants, perceptionGrants, hmap _ fun _ => rfl]
    exact hdeclared

/-- The calls of both lanes are plain at every token counter. -/
theorem plain_grants (hw : w.isToken) (scope₀ provider₀ model₀ : String) (lane : Lane) :
    T.Plain spec.provider spec.model w (quotaKey scope₀ provider₀ model₀ w)
      (T.grants lane spec scope) where
  window g hg hk := by
    obtain ⟨-, -, -, -, hgw, -⟩ := declared_of_grant hw hg hk
    exact hgw
  tokens g hg hk := by
    obtain ⟨-, -, -, -, -, hgt⟩ := declared_of_grant hw hg hk
    exact hgt
  declared g hg hk := by
    obtain ⟨s, hs, hsw, hst, -, -⟩ := declared_of_grant hw hg hk
    exact ⟨s, hs, hsw, hst⟩
  once := count_window_le_one hw

end

end Tracker

/-! ## What a call can do -/

open Tracker

/-- What a call pays for a grant. -/
def cost (estimatedTokens : ℤ) (g : WindowGrant) : ℤ :=
  if g.costIsTokens then estimatedTokens else 1

/-- What is left of the database once every grant is charged. -/
def Charged (T : Tracker) (db : Db) (now : Seconds) (grants : List WindowGrant)
    (reservationKey : String) (estimatedTokens : ℤ) (requestId : String) (db' : Db) : Prop :=
  grants = [] ∧ db' = db ∨ grants ≠ [] ∧
    (∀ g ∈ grants, used (db.counters g.key) + cost estimatedTokens g ≤ g.limit) ∧
    db' = ((grants.map (T.block now estimatedTokens)).foldl (spend reservationKey) db).sealHeld
      reservationKey requestId reservationTtlS

section

variable {T : Tracker} {db db' : Db} {now : Seconds} {grants : List WindowGrant}
  {scope provider model requestId resKey : String} {estimatedTokens : ℤ}
  {decision : QuotaDecision}

/-- **What a call can do**: nothing, or charge every grant that can afford it. -/
theorem reserve_cases
    (hcall : T.reserveWindows db now grants scope provider model estimatedTokens requestId =
      .ok (decision, db')) :
    decision.reservation = none ∧ db' = db ∨
      decision.reservation =
          some (receipt grants scope provider model estimatedTokens requestId) ∧
        0 ≤ estimatedTokens ∧ Charged T db now grants
          (quotaReservation scope provider model requestId) estimatedTokens requestId db' := by
  unfold reserveWindows at hcall
  dsimp only at hcall
  split_ifs at hcall with hneg hempty
  · cases hcall
    exact .inr ⟨rfl, not_lt.mp hneg, .inl ⟨hempty, rfl⟩⟩
  · unfold reserveLua at hcall
    cases hfind : (grants.map (T.block now estimatedTokens)).find?
        fun b => b.limit < db.get b.key + b.cost with
    | some b =>
      rw [hfind] at hcall
      cases hcall
      exact .inl ⟨rfl, rfl⟩
    | none =>
      rw [hfind] at hcall
      cases hcall
      refine .inr ⟨rfl, not_lt.mp hneg, .inr ⟨hempty, fun g hg => ?_, rfl⟩⟩
      have hblock := List.find?_eq_none.mp hfind _ (List.mem_map.mpr ⟨g, hg, rfl⟩)
      rw [decide_eq_true_eq] at hblock
      exact not_lt.mp hblock

/-- What a granted call leaves at a counter. -/
theorem Charged.counters (h : Charged T db now grants resKey estimatedTokens requestId db')
    (k : String) : db'.counters k = ((grants.filter (·.key = k)).map
      (T.block now estimatedTokens)).foldl (fun slot b => some (spent db.clock slot b))
        (db.counters k) := by
  rcases h with ⟨rfl, rfl⟩ | ⟨-, -, rfl⟩
  · rfl
  · dsimp only [Db.sealHeld]
    rw [foldl_counters (·.key) (fun clock slot b => some (spent clock slot b))
      (fun _ _ => spend_counters) (fun _ _ => spend_clock), List.filter_map]
    rfl

/-- In its hash. -/
theorem Charged.amounts (h : Charged T db now grants resKey estimatedTokens requestId db')
    (hfresh : db.held resKey = none) (w : QuotaWindow) :
    db'.amounts resKey w = ((grants.filter (·.window = w)).map (cost estimatedTokens)).sum := by
  have hbefore : db.amounts resKey w = 0 := by simp [Db.amounts, hfresh]
  rcases h with ⟨rfl, rfl⟩ | ⟨-, -, rfl⟩
  · exact hbefore
  · have hamounts := foldl_spend_amounts resKey (grants.map (T.block now estimatedTokens)) db w
    rw [hbefore, zero_add, List.filter_map, List.map_map] at hamounts
    refine Eq.trans ?_ hamounts
    simp [Db.amounts, Db.sealHeld]

/-- And in the others. -/
theorem Charged.held (h : Charged T db now grants resKey estimatedTokens requestId db')
    {key : String} (hne : key ≠ resKey) : db'.held key = db.held key := by
  rcases h with ⟨-, rfl⟩ | ⟨-, -, rfl⟩
  · rfl
  · exact (Function.update_of_ne hne _ _).trans (foldl_spend_held_of_ne hne _ _)

/-- A granted call leaves a hash. -/
theorem Charged.isSome_held (h : Charged T db now grants resKey estimatedTokens requestId db')
    (hne : grants ≠ []) : (db'.held resKey).isSome := by
  rcases h with ⟨hempty, -⟩ | ⟨-, -, rfl⟩
  · exact absurd hempty hne
  · simp [Db.sealHeld]

theorem Charged.clock (h : Charged T db now grants resKey estimatedTokens requestId db') :
    db'.clock = db.clock := by
  rcases h with ⟨-, rfl⟩ | ⟨-, -, rfl⟩
  · rfl
  · exact foldl_clock (fun _ _ => spend_clock) _ _

end

end Quota

end LlmGateway
