import LlmGateway.Quota.Calls
import Mathlib.Algebra.Order.BigOperators.Group.List
import LlmGateway.Quota.Lifetimes

/-!
# What a release undoes

A release gives back, window by window, what the hash of its reservation holds,
to the key its receipt names. Where a call has two keys under one window, the
hash has one amount for both and the receipt names one key twice.
-/

namespace LlmGateway

namespace Quota

open Tracker

/-! ## No counter is ever negative -/

variable {T : Tracker} {db db' : Db} {now : Seconds} {grants : List WindowGrant}
  {scope provider model requestId resKey : String} {estimatedTokens : ℤ}

theorem used_corrected {clock : Seconds} {reserved : ℤ} {slot : Option Counter} {c : Correction}
    (h : 0 ≤ used slot) : 0 ≤ used (corrected clock reserved slot c) := by
  unfold corrected
  dsimp only
  split
  · simp only [used, Option.map_some, Option.getD_some] at h ⊢
    omega
  · split
    · cases slot with
      | none => exact le_refl 0
      | some x =>
        simp only [used, Option.map_some, Option.getD_some]
        omega
    · exact h

theorem used_returned {amount : ℤ} {slot : Option Counter} (h : 0 ≤ used slot) :
    0 ≤ used (returned amount slot) := by
  unfold returned
  split_ifs
  · cases slot with
    | none => exact le_refl 0
    | some x =>
      simp only [used, Option.map_some, Option.getD_some]
      omega
  · exact h

theorem used_spent {clock : Seconds} {slot : Option Counter} {b : Block} (hb : 0 ≤ b.cost)
    (h : 0 ≤ used slot) : 0 ≤ used (some (spent clock slot b)) := by
  change 0 ≤ used slot + b.cost
  omega

theorem Reached.nonneg {T : Tracker} {db : Db} (h : Reached T db) (k : String) :
    0 ≤ used (db.counters k) :=
  h.counter (P := fun slot => 0 ≤ used slot) (le_refl 0) (fun _ _ _ => used_spent)
    (fun _ _ _ _ => used_corrected) (fun _ _ => used_returned) k

/-! ## Windows and keys of a call -/

variable {lane : Lane} {spec : ModelSpec}

/-- The windows a call takes of a model are the declared ones, and the personal cap's. -/
theorem windows_grants (T : Tracker) (lane : Lane) (spec : ModelSpec) (scope : String) :
    (T.grants lane spec scope).map (·.window) =
      (T.declared spec.provider spec.model).map (·.window) ++
        match lane with
        | .answer (some _) => [.rpd]
        | .answer none | .perception => [] := by
  cases lane with
  | perception => simp [Tracker.grants, perceptionGrants, Function.comp_def]
  | answer cap =>
    cases cap with
    | none => simp [Tracker.grants, answerGrants, Function.comp_def]
    | some cap => simp [Tracker.grants, answerGrants, Router.sharedPoolGrants, Function.comp_def]

/-- A personal cap beside a daily window of requests. -/
def Doubled (T : Tracker) (lane : Lane) (spec : ModelSpec) : Prop :=
  (∃ userCap, lane = .answer (some userCap)) ∧
    QuotaWindow.rpd ∈ (T.declared spec.provider spec.model).map (·.window)

/-- Then, and only then, a window is taken twice. -/
theorem windows_nodup_iff :
    ((T.grants lane spec scope).map (·.window)).Nodup ↔ ¬ Doubled T lane spec := by
  have hdeclared : ((T.declared spec.provider spec.model).map (·.window)).Nodup := declared_nodup
  rw [windows_grants]
  unfold Doubled
  cases lane with
  | perception => simp [hdeclared]
  | answer cap =>
    cases cap with
    | none => simp [hdeclared]
    | some cap => simp [List.nodup_append, hdeclared]

/-- A personal cap is taken on the shared pool, for a user. -/
def Shared (lane : Lane) (scope : String) : Prop :=
  ∀ userId cap, lane = .answer (some (userId, cap)) → scope = "system" ∧ userId ≠ ""

/-- Its key is then no daily window's. -/
theorem allocKey_ne_rpd {userId : String} (huser : userId ≠ "") :
    "q:" ++ userId ++ ":" ++ spec.provider ++ ":" ++ spec.model ++ ":alloc:rpd" ≠
      quotaKey "system" spec.provider spec.model .rpd := by
  intro heq
  have hlength := congrArg (fun key => key.toList.length) heq
  have hpos : 0 < userId.toList.length := by
    rw [List.length_pos_iff]
    exact fun h => huser (String.toList_inj.mp h)
  simp only [quotaKey, modelScoped, QuotaWindow.name, String.toList_append, List.length_append,
    show "q:".toList.length = 2 by rfl, show ":".toList.length = 1 by rfl,
    show ":alloc:rpd".toList.length = 10 by rfl, show "system".toList.length = 6 by rfl,
    show "rpd".toList.length = 3 by rfl] at hlength
  omega

/-- The receipt of a doubled call names the daily window's key for no window. -/
theorem keyFor_ne_rpd (hdoubled : Doubled T lane spec) (hshared : Shared lane scope)
    {w : QuotaWindow} (hw : w ∈ (T.grants lane spec scope).map (·.window)) :
    keyFor (receipt (T.grants lane spec scope) scope spec.provider spec.model estimatedTokens
      requestId) w ≠ quotaKey scope spec.provider spec.model .rpd := by
  obtain ⟨⟨⟨userId, cap⟩, rfl⟩, hrpd⟩ := hdoubled
  obtain ⟨rfl, huser⟩ := hshared userId cap rfl
  by_cases hwrpd : w = .rpd
  · -- of the two keys of the window the cap's is the later
    subst hwrpd
    have hlast : keyFor (receipt (T.grants (.answer (some (userId, cap))) spec "system") "system"
        spec.provider spec.model estimatedTokens requestId) .rpd =
        "q:" ++ userId ++ ":" ++ spec.provider ++ ":" ++ spec.model ++ ":alloc:rpd" := by
      simp [keyFor, receipt, Tracker.grants, answerGrants, Router.sharedPoolGrants,
        List.zip_map', List.zip_append]
    rw [hlast]
    exact allocKey_ne_rpd huser
  · obtain ⟨g, hg, hwindow, hkey⟩ := Plain.keyFor_receipt "system" spec.provider spec.model
      estimatedTokens requestId hw
    rw [hkey]
    rcases List.mem_append.mp hg with hg | hg
    · obtain ⟨s, hs, rfl⟩ := List.mem_map.mp hg
      intro heq
      exact hwrpd (hwindow.symm.trans (window_of_quotaKey heq))
    · rw [Router.sharedPoolGrants, List.mem_singleton] at hg
      rw [hg]
      exact allocKey_ne_rpd huser

/-! ## A release after its call -/

/-- Giving back, grant by grant, what the grants cost. -/
theorem used_foldl_returned {amounts : QuotaWindow → ℤ} {base : ℤ} (hbase : 0 ≤ base)
    (gs : List WindowGrant) (hcost : ∀ g ∈ gs, 0 ≤ amounts g.window) {slot : Option Counter}
    (hslot : slot.isSome ∨ gs = [])
    (hused : used slot = base + (gs.map fun g => amounts g.window).sum) :
    used (gs.foldl (fun slot g => returned (amounts g.window) slot) slot) = base := by
  induction gs generalizing slot with
  | nil => simpa using hused
  | cons g gs ih =>
    obtain ⟨x, rfl⟩ := Option.isSome_iff_exists.mp (hslot.resolve_right (List.cons_ne_nil g gs))
    have hnonneg := hcost g List.mem_cons_self
    have hrest : 0 ≤ (gs.map fun g => amounts g.window).sum := by
      refine List.sum_nonneg fun a ha => ?_
      obtain ⟨g', hg', rfl⟩ := List.mem_map.mp ha
      exact hcost g' (List.mem_cons_of_mem g hg')
    rw [List.map_cons, List.sum_cons] at hused
    have hvalue : used (some x) = x.value := rfl
    rw [List.foldl_cons]
    refine ih (fun g' hg' => hcost g' (List.mem_cons_of_mem g hg')) ?_ ?_
    · unfold returned
      split <;> exact .inl rfl
    · unfold returned
      split
      · change max 0 (x.value - amounts g.window) = _
        omega
      · omega

/-- Every counter of a call reads again what it read before it, and its hash is gone. -/
def Undone (before after : Db) (grants : List WindowGrant) (reservationKey : String) : Prop :=
  (∀ g ∈ grants, used (after.counters g.key) = used (before.counters g.key)) ∧
    after.held reservationKey = none

/-- What the call wrote has not expired. -/
def Live (db : Db) (t : Seconds) (grants : List WindowGrant) (reservationKey : String) : Prop :=
  (∀ g ∈ grants, (db.waitUntil t).counters g.key = db.counters g.key) ∧
    (db.waitUntil t).held reservationKey = db.held reservationKey

section

variable {t : Seconds} {r : Reservation}

/-- A hash that is found is deleted. -/
theorem release_gone (hr : r = receipt grants scope provider model estimatedTokens requestId)
    (hempty : grants = [] → db.held (reservationKey r) = none) :
    (release db r).held (reservationKey r) = none := by
  by_cases hwin : r.windows = []
  · have hnil : grants = [] := by
      rw [hr] at hwin
      exact List.map_eq_nil_iff.mp hwin
    rw [release, if_pos hwin]
    exact hempty hnil
  · cases hh : db.held (reservationKey r) with
    | none => rwa [release_of_none hh]
    | some h =>
      rw [release_held hwin hh]
      exact Function.update_self _ _ _

/-- **Where no window is taken twice**, a release undoes its call. -/
theorem undone_of_nodup (hnonneg : ∀ k, 0 ≤ used (db.counters k)) (htokens : 0 ≤ estimatedTokens)
    (hfresh : db.held (reservationKey r) = none)
    (hr : r = receipt grants scope provider model estimatedTokens requestId)
    (hcharged : Charged T db now grants (reservationKey r) estimatedTokens requestId db')
    (hlive : Live db' t grants (reservationKey r))
    (hnodup : (grants.map (·.window)).Nodup) :
    Undone db (release (db'.waitUntil t) r) grants (reservationKey r) := by
  obtain ⟨hcounters, hhash⟩ := hlive
  constructor
  · intro g₀ hg₀
    have hne : grants ≠ [] := by
      rintro rfl
      nomatch hg₀
    obtain ⟨h, hh⟩ := Option.isSome_iff_exists.mp (hcharged.isSome_held hne)
    have hamount : ∀ g ∈ grants, h.amounts g.window = cost estimatedTokens g := by
      intro g hg
      have hg' := hcharged.amount_of_mem hfresh hnodup hg
      rwa [Db.amounts, hh] at hg'
    rw [released_counters hnodup hr (hhash.trans hh), hcounters g₀ hg₀]
    have hmem : ∀ g ∈ grants.filter (·.key = g₀.key), g ∈ grants :=
      fun g hg => (List.mem_filter.mp hg).1
    refine used_foldl_returned (hnonneg g₀.key) _ (fun g hg => ?_) (.inl ?_) ?_
    · rw [hamount g (hmem g hg)]
      exact cost_nonneg htokens g
    · rw [hcharged.counters, List.foldl_map]
      have hself : g₀ ∈ grants.filter (·.key = g₀.key) := List.mem_filter.mpr ⟨hg₀, by simp⟩
      generalize grants.filter (·.key = g₀.key) = gs at hself
      cases gs with
      | nil => nomatch hself
      | cons g gs => exact foldl_kept (P := fun slot => slot.isSome) gs (fun _ _ _ _ => rfl) rfl
    · rw [hcharged.used]
      congr 2
      exact List.map_congr_left fun g hg => (hamount g (hmem g hg)).symm
  · refine release_gone hr fun hempty => ?_
    rw [hhash]
    rcases hcharged with ⟨-, rfl⟩ | ⟨hne, -⟩
    · exact hfresh
    · exact absurd hempty hne

/-- **Where one is**, the daily counter keeps the request. -/
theorem not_undone_of_doubled (htokens : 0 ≤ estimatedTokens) (hdoubled : Doubled T lane spec)
    (hshared : Shared lane scope)
    (hr : r = receipt (T.grants lane spec scope) scope spec.provider spec.model estimatedTokens
      requestId)
    (hcharged : Charged T db now (T.grants lane spec scope) resKey estimatedTokens requestId db')
    (hlive : Live db' t (T.grants lane spec scope) resKey) :
    ¬ Undone db (release (db'.waitUntil t) r) (T.grants lane spec scope) resKey := by
  rintro ⟨hundone, -⟩
  obtain ⟨⟨⟨userId, cap⟩, hlane⟩, hrpd⟩ := id hdoubled
  obtain ⟨s, hs, hsw⟩ := List.mem_map.mp hrpd
  -- the grant of the declared daily window
  obtain ⟨g, hg, hkey, hcost⟩ : ∃ g ∈ T.grants lane spec scope,
      g.key = quotaKey scope spec.provider spec.model .rpd ∧ g.costIsTokens = false := by
    have htoken : s.costIsTokens = false := by
      rw [costIsTokens_of_declared hs, hsw]
      rfl
    rw [hlane]
    exact ⟨_, List.mem_append_left _ (List.mem_map.mpr ⟨s, hs, rfl⟩), by rw [hsw], htoken⟩
  have hafter : (release (db'.waitUntil t) r).counters g.key = (db'.waitUntil t).counters g.key := by
    unfold release releaseLua
    split
    · rfl
    · cases (db'.waitUntil t).held (reservationKey r) with
      | none => rfl
      | some h =>
        dsimp only [Db.del]
        rw [foldl_counters (·.2) (fun _ slot w => returned (h.amounts w.1) slot)
          (fun _ _ => giveBack_counters) (fun _ _ => giveBack_clock)]
        suffices hnil : (r.windows.map fun w => (w, keyFor r w)).filter (·.2 = g.key) = [] by
          rw [hnil]
          rfl
        rw [List.filter_eq_nil_iff]
        intro p hp heq
        obtain ⟨w, hw, rfl⟩ := List.mem_map.mp hp
        subst hr
        exact keyFor_ne_rpd hdoubled hshared hw ((of_decide_eq_true heq).trans hkey)
  have hused := hundone g hg
  rw [hafter, hlive.1 g hg, hcharged.used] at hused
  have hone : (1 : ℤ) ≤ (((T.grants lane spec scope).filter (·.key = g.key)).map
      (cost estimatedTokens)).sum := by
    have hmem : cost estimatedTokens g ∈ ((T.grants lane spec scope).filter (·.key = g.key)).map
        (cost estimatedTokens) :=
      List.mem_map_of_mem (List.mem_filter.mpr ⟨hg, by simp⟩)
    have hle := List.single_le_sum (fun a ha => ?_) _ hmem
    · rwa [cost, hcost] at hle
    · obtain ⟨g', -, rfl⟩ := List.mem_map.mp ha
      exact cost_nonneg htokens g'
  omega

end

/-- **A release undoes its call** exactly where the call takes no personal cap beside a daily
window of requests. -/
theorem undone_iff (T : Tracker) {db db' : Db} (hreached : Reached T db) {now t : Seconds}
    {lane : Lane} {spec : ModelSpec} {scope requestId : String} {estimatedTokens : ℤ}
    {decision : QuotaDecision} {r : Reservation} (hshared : Shared lane scope)
    (hfresh : db.held (quotaReservation scope spec.provider spec.model requestId) = none)
    (hcall : T.reserveWindows db now (T.grants lane spec scope) scope spec.provider spec.model
      estimatedTokens requestId = .ok (decision, db'))
    (hr : decision.reservation = some r)
    (hlive : Live db' t (T.grants lane spec scope) (reservationKey r)) :
    Undone db (release (db'.waitUntil t) r) (T.grants lane spec scope) (reservationKey r) ↔
      ¬ Doubled T lane spec := by
  rcases reserve_cases hcall with ⟨hnone, -⟩ | ⟨hsome, htokens, hcharged⟩
  · rw [hr] at hnone
    cases hnone
  · have hrec := Option.some.inj (hr.symm.trans hsome)
    have hkey : reservationKey r =
        quotaReservation scope spec.provider spec.model requestId := by
      rw [hrec]
      rfl
    rw [← hkey] at hcharged hfresh
    constructor
    · intro hundone hdoubled
      exact not_undone_of_doubled htokens hdoubled hshared hrec hcharged hlive hundone
    · intro hsingle
      exact undone_of_nodup hreached.nonneg htokens hfresh hrec hcharged hlive
        (windows_nodup_iff.mpr hsingle)

/-- A hash that does not expire stays. -/
theorem waitUntil_held {t : Seconds} {key : String}
    (h : (db.held key).all (fun x => alive x.deadline (max db.clock t)) = true) :
    (db.waitUntil t).held key = db.held key := by
  unfold Db.waitUntil
  dsimp only
  cases hx : db.held key with
  | none => rfl
  | some x =>
    rw [hx, Option.all_some] at h
    exact Option.filter_some_pos h

/-- One model with two requests a minute and five a day. -/
def fiveADay : Tracker where
  limits _ _ := some
    { limit := fun w => if w = .rpm then some 2 else if w = .rpd then some 5 else none
      reset := fun w => if w = .rpm then some .rolling60s else if w = .rpd then some .rollingDaily
        else none
      reset_declared := by
        intro w hw
        revert hw
        cases w <;> decide }
  effectiveLimit _ limit := limit
  perceptionLimit _ _ limit := limit
  pacific := utc

def oneModel : ModelSpec := ⟨"s", "p", "m", 8192⟩

/-- What the first call of all leaves, in a lane. -/
def firstCall (lane : Lane) : Db :=
  match fiveADay.reserveWindows {} 0 (fiveADay.grants lane oneModel "system") "system" "p" "m" 9
    "a" with
  | .ok (_, db) => db
  | .error _ => {}

def firstReceipt (lane : Lane) : Reservation :=
  receipt (fiveADay.grants lane oneModel "system") "system" "p" "m" 9 "a"

-- so that instants are computed with
unseal Rat.add Rat.sub Rat.mul Rat.inv Rat.ofScientific

theorem undone_firstCall :
    Undone {} (release ((firstCall (.answer none)).waitUntil 1) (firstReceipt (.answer none)))
      (fiveADay.grants (.answer none) oneModel "system")
      (reservationKey (firstReceipt (.answer none))) := by
  have hcall : fiveADay.reserveWindows {} 0 (fiveADay.grants (.answer none) oneModel "system")
      "system" "p" "m" 9 "a" = .ok ({ allowed := true
                                      reservation := some (firstReceipt (.answer none)) },
        firstCall (.answer none)) := rfl
  have hshared : Shared (.answer none) "system" := by
    intro userId cap heq
    cases heq
  refine (undone_iff fiveADay .start hshared rfl hcall rfl ⟨?_, waitUntil_held ?_⟩).mpr ?_
  · decide
  · decide
  · rintro ⟨⟨_, h⟩, -⟩
    cases h

/-- With a personal cap of three the day keeps the request. -/
theorem not_undone : ¬ ∀ (T : Tracker) (db db' : Db), Reached T db → ∀ (now t : Seconds)
    (lane : Lane) (spec : ModelSpec) (scope requestId : String) (estimatedTokens : ℤ)
    (decision : QuotaDecision) (r : Reservation), Shared lane scope →
    db.held (quotaReservation scope spec.provider spec.model requestId) = none →
    T.reserveWindows db now (T.grants lane spec scope) scope spec.provider spec.model
      estimatedTokens requestId = .ok (decision, db') →
    decision.reservation = some r → Live db' t (T.grants lane spec scope) (reservationKey r) →
    Undone db (release (db'.waitUntil t) r) (T.grants lane spec scope) (reservationKey r) := by
  intro h
  have hcall : fiveADay.reserveWindows {} 0
      (fiveADay.grants (.answer (some ("u", 3))) oneModel "system") "system" "p" "m" 9 "a" =
        .ok ({ allowed := true, reservation := some (firstReceipt (.answer (some ("u", 3)))) },
          firstCall (.answer (some ("u", 3)))) := rfl
  have hshared : Shared (.answer (some ("u", 3))) "system" := by
    intro userId cap heq
    cases heq
    exact ⟨rfl, by decide⟩
  have hundone := h fiveADay {} _ .start 0 1 _ oneModel "system" "a" 9 _ _ hshared rfl hcall rfl
    ⟨by decide, waitUntil_held (by decide)⟩
  have hday := hundone.1 { window := .rpd, limit := 5, reset := .rollingDaily
                           costIsTokens := false, key := quotaKey "system" "p" "m" .rpd }
    (by decide)
  revert hday
  decide

end Quota

end LlmGateway
