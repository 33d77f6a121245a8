import LlmGateway.Quota.Tracker

/-!
# Calls at one token counter

What a call of the tracker does to one token counter and to the reservation
hashes, whatever the lane, the model and the other windows it takes.
-/

namespace LlmGateway

namespace Quota

open Tracker

namespace Tracker.Plain

variable {T : Tracker} {provider model scope : String} {w : QuotaWindow} {k : String}
  {grants : List WindowGrant} {estimatedTokens : ℤ} {requestId : String}

theorem length_filter_le_one (hp : T.Plain provider model w k grants) :
    (grants.filter (·.window = w)).length ≤ 1 := by
  have hcount := hp.once
  rw [List.count, List.countP_map, List.countP_eq_length_filter] at hcount
  exact hcount

/-- The grant that charges the counter is the only one of its window. -/
theorem unique (hp : T.Plain provider model w k grants) {g g' : WindowGrant} (hg : g ∈ grants)
    (hk : g.key = k) (hg' : g' ∈ grants) (hw' : g'.window = w) : g' = g := by
  have hfilter := filter_eq_singleton hg (by simpa using hp.window g hg hk) hp.length_filter_le_one
  have hmem : g' ∈ grants.filter (·.window = w) := List.mem_filter.mpr ⟨hg', by simpa using hw'⟩
  rw [hfilter] at hmem
  exact List.mem_singleton.mp hmem

/-- The key a receipt names for a window it took is that of a grant of it. -/
theorem keyFor_receipt (scope provider model : String) (estimatedTokens : ℤ) (requestId : String)
    {w' : QuotaWindow} (hw' : w' ∈ grants.map (·.window)) :
    ∃ g ∈ grants, g.window = w' ∧
      keyFor (receipt grants scope provider model estimatedTokens requestId) w' = g.key := by
  have hne : grants.map (·.key) ≠ [] := by
    rintro heq
    rw [List.map_eq_nil_iff] at heq
    simp [heq] at hw'
  have hzip : (grants.map (·.window)).zip (grants.map (·.key)) =
      grants.map fun g => (g.window, g.key) := List.zip_map'
  obtain ⟨g₀, hg₀, hw₀⟩ := List.mem_map.mp hw'
  unfold keyFor receipt
  rw [if_neg hne, hzip]
  cases hfind : (grants.map fun g => (g.window, g.key)).reverse.find? (·.1 = w') with
  | none =>
    have hall := List.find?_eq_none.mp hfind (g₀.window, g₀.key)
      (List.mem_reverse.mpr (List.mem_map.mpr ⟨g₀, hg₀, rfl⟩))
    exact absurd hw₀ (by simpa using hall)
  | some p =>
    have hmem := List.mem_of_find?_eq_some hfind
    obtain ⟨g, hg, rfl⟩ := List.mem_map.mp (List.mem_reverse.mp hmem)
    exact ⟨g, hg, by simpa using List.find?_some hfind, rfl⟩

/-- A receipt names the counter for its own window only. -/
theorem window_of_keyFor (hp : T.Plain provider model w k grants) {w' : QuotaWindow}
    (hw' : w' ∈ grants.map (·.window))
    (hk : keyFor (receipt grants scope provider model estimatedTokens requestId) w' = k) :
    w' = w := by
  obtain ⟨g, hg, hgw, hkey⟩ := keyFor_receipt scope provider model estimatedTokens
    requestId hw'
  rw [← hgw]
  exact hp.window g hg (hkey.symm.trans hk)

/-- And names it, if it took it. -/
theorem keyFor_window (hp : T.Plain provider model w k grants) (scope : String)
    (estimatedTokens : ℤ) (requestId : String) (htouch : k ∈ grants.map (·.key)) :
    w ∈ grants.map (·.window) ∧
      keyFor (receipt grants scope provider model estimatedTokens requestId) w = k := by
  obtain ⟨g, hg, hk⟩ := List.mem_map.mp htouch
  have hw : w ∈ grants.map (·.window) := List.mem_map.mpr ⟨g, hg, hp.window g hg hk⟩
  obtain ⟨g', hg', hgw', hkey⟩ := keyFor_receipt scope provider model estimatedTokens requestId hw
  rw [hp.unique hg hk hg' hgw'] at hkey
  exact ⟨hw, hkey.trans hk⟩

/-- The grants of a call that charge the counter. -/
theorem grants_at (hp : T.Plain provider model w k grants) :
    (k ∉ grants.map (·.key) ∧ grants.filter (·.key = k) = []) ∨
      k ∈ grants.map (·.key) ∧ ∃ g, g.costIsTokens = true ∧
        grants.filter (·.key = k) = [g] ∧ grants.filter (·.window = w) = [g] := by
  by_cases htouch : k ∈ grants.map (·.key)
  · obtain ⟨g, hg, hk⟩ := List.mem_map.mp htouch
    refine .inr ⟨htouch, g, hp.tokens g hg hk, ?_, ?_⟩
    · refine filter_eq_singleton hg (by simpa using hk) (le_trans ?_ hp.length_filter_le_one)
      rw [← List.countP_eq_length_filter, ← List.countP_eq_length_filter]
      exact List.countP_mono_left fun g' hg' hk' => by
        simpa using hp.window g' hg' (by simpa using hk')
    · exact filter_eq_singleton hg (by simpa using hp.window g hg hk) hp.length_filter_le_one
  · refine .inl ⟨htouch, ?_⟩
    rw [List.filter_eq_nil_iff]
    intro g hg heq
    exact htouch (List.mem_map.mpr ⟨g, hg, of_decide_eq_true heq⟩)

/-- The corrections of a commit that reach the counter. -/
theorem corrections_at (hp : T.Plain provider model w k grants) (now : Seconds) (actual : ℤ)
    {r : Reservation} (hr : r = receipt grants scope provider model estimatedTokens requestId) :
    (k ∉ grants.map (·.key) ∧ (T.corrections now r actual).filter (·.key = k) = []) ∨
      k ∈ grants.map (·.key) ∧ ∃ c, c.name = w ∧ c.actual = actual ∧
        (T.corrections now r actual).filter (·.key = k) = [c] := by
  subst hr
  unfold corrections
  rw [List.filter_map]
  -- A declared window whose correction goes to the counter is the counter's.
  have hwindow : ∀ s : WindowSpec, s.window ∈ grants.map (·.window) →
      keyFor (receipt grants scope provider model estimatedTokens requestId) s.window = k →
        s.window = w := fun s hs hk => hp.window_of_keyFor hs hk
  by_cases htouch : k ∈ grants.map (·.key)
  · refine .inr ⟨htouch, ?_⟩
    obtain ⟨hmem, hkey⟩ := hp.keyFor_window scope estimatedTokens requestId htouch
    obtain ⟨g, hg, hgk⟩ := List.mem_map.mp htouch
    obtain ⟨s, hs, hsw, hst⟩ := hp.declared g hg hgk
    have hone : ((T.declared provider model).filter (·.window = w)).length ≤ 1 := by
      have hnodup : ((T.declared provider model).map (·.window)).Nodup := declared_nodup
      have hcount := List.nodup_iff_count_le_one.mp hnodup w
      rw [List.count, List.countP_map, List.countP_eq_length_filter] at hcount
      exact hcount
    refine ⟨_, hsw, rfl, congrArg (List.map _) (filter_eq_singleton (a := s) ?_ ?_ ?_)⟩
    · exact List.mem_filter.mpr ⟨hs, decide_eq_true ⟨hst, hsw ▸ hmem⟩⟩
    · simpa [hsw] using hkey
    · refine le_trans ?_ hone
      rw [List.filter_filter, ← List.countP_eq_length_filter, ← List.countP_eq_length_filter]
      refine List.countP_mono_left fun s' hs' hk' => ?_
      simp only [Function.comp_apply, Bool.and_eq_true, decide_eq_true_eq] at hk' ⊢
      exact hwindow s' hk'.2.2 hk'.1
  · refine .inl ⟨htouch, ?_⟩
    rw [List.map_eq_nil_iff, List.filter_eq_nil_iff]
    intro s hs hk
    obtain ⟨-, hs⟩ := List.mem_filter.mp hs
    simp only [Function.comp_apply, decide_eq_true_eq, Bool.decide_and, Bool.and_eq_true] at hs hk
    obtain ⟨g, hg, -, hkey⟩ := keyFor_receipt scope provider model estimatedTokens
      requestId hs.2
    exact htouch (List.mem_map.mpr ⟨g, hg, hkey.symm.trans hk⟩)

/-- What a release gives back to the counter. -/
theorem releases_at (hp : T.Plain provider model w k grants) {r : Reservation}
    (hr : r = receipt grants scope provider model estimatedTokens requestId) :
    (k ∉ grants.map (·.key) ∧
        (r.windows.map fun w' => (w', keyFor r w')).filter (·.2 = k) = []) ∨
      k ∈ grants.map (·.key) ∧
        (r.windows.map fun w' => (w', keyFor r w')).filter (·.2 = k) = [(w, k)] := by
  subst hr
  rw [List.filter_map]
  by_cases htouch : k ∈ grants.map (·.key)
  · obtain ⟨hmem, hkey⟩ := hp.keyFor_window scope estimatedTokens requestId htouch
    refine .inr ⟨htouch, ?_⟩
    have hfilter := filter_eq_singleton (l := grants.map (·.window)) (a := w)
      (p := fun w' => keyFor (receipt grants scope provider model estimatedTokens requestId) w' = k)
      hmem (by simpa using hkey) (le_trans ?_ hp.once)
    · refine (congrArg (List.map _) hfilter).trans ?_
      rw [List.map_singleton, hkey]
    · rw [← List.countP_eq_length_filter]
      refine List.countP_mono_left fun w' hw' hk' => ?_
      exact beq_iff_eq.mpr (hp.window_of_keyFor hw' (by simpa using hk'))
  · refine .inl ⟨htouch, ?_⟩
    rw [List.map_eq_nil_iff, List.filter_eq_nil_iff]
    intro w' hw' hk
    obtain ⟨g, hg, -, hkey⟩ := keyFor_receipt scope provider model estimatedTokens
      requestId hw'
    exact htouch (List.mem_map.mpr ⟨g, hg, hkey.symm.trans (by simpa using hk)⟩)

/-- The counter after a commit that finds a hash. -/
theorem commit_counter (hp : T.Plain provider model w k grants) {db : Db} {now : Seconds}
    {tokensIn tokensOut : ℤ} {r : Reservation} {h : Held}
    (hr : r = receipt grants scope provider model estimatedTokens requestId)
    (hne : r.windows ≠ []) (hh : db.held (reservationKey r) = some h) :
    (k ∉ r.counterKeys ∧ (T.commit db now r tokensIn tokensOut).counters k = db.counters k) ∨
      k ∈ r.counterKeys ∧ ∃ c, c.actual = tokensIn + tokensOut ∧
        (T.commit db now r tokensIn tokensOut).counters k =
          corrected db.clock (h.amounts w) (db.counters k) c := by
  unfold commit commitLua
  rw [if_neg hne, hh]
  dsimp only [Db.del]
  rw [foldl_counters (·.key)
    (fun clock slot c => corrected clock (h.amounts c.name) slot c) (fun _ _ => correct_counters)
    (fun _ _ => correct_clock)]
  rcases hp.corrections_at now (tokensIn + tokensOut) hr with
    ⟨hno, hfilter⟩ | ⟨htouch, c, hname, hactual, hfilter⟩
  · subst hr
    exact .inl ⟨hno, by rw [hfilter, List.foldl_nil]⟩
  · subst hr
    rw [hfilter, List.foldl_cons, List.foldl_nil, hname]
    exact .inr ⟨htouch, c, hactual, rfl⟩

/-- The counter after a release that finds a hash. -/
theorem release_counter (hp : T.Plain provider model w k grants) {db : Db} {r : Reservation}
    {h : Held} (hr : r = receipt grants scope provider model estimatedTokens requestId)
    (hne : r.windows ≠ []) (hh : db.held (reservationKey r) = some h) :
    (k ∉ r.counterKeys ∧ (release db r).counters k = db.counters k) ∨
      k ∈ r.counterKeys ∧
        (release db r).counters k = returned (h.amounts w) (db.counters k) := by
  unfold release releaseLua
  rw [if_neg hne, hh]
  dsimp only [Db.del]
  rw [foldl_counters (·.2) (fun _ slot w' => returned (h.amounts w'.1) slot)
    (fun _ _ => giveBack_counters) (fun _ _ => giveBack_clock)]
  rcases hp.releases_at hr with ⟨hno, hfilter⟩ | ⟨htouch, hfilter⟩
  · subst hr
    exact .inl ⟨hno, by rw [hfilter, List.foldl_nil]⟩
  · subst hr
    rw [hfilter, List.foldl_cons, List.foldl_nil]
    exact .inr ⟨htouch, rfl⟩

/-- The counter and the hash after a granted call. -/
theorem reserve_counter (hp : T.Plain provider model w k grants) {db db' : Db} {now : Seconds}
    {decision : QuotaDecision} {r : Reservation}
    (hcall : T.reserveWindows db now grants scope provider model estimatedTokens requestId =
      .ok (decision, db')) (hr : decision.reservation = some r)
    (hfresh : db.held (quotaReservation scope provider model requestId) = none) :
    r = receipt grants scope provider model estimatedTokens requestId ∧ 0 ≤ estimatedTokens ∧
      (r.windows = [] ∧ db' = db ∨
        r.windows ≠ [] ∧ (∃ h, db'.held (reservationKey r) = some h ∧
            (k ∈ r.counterKeys → h.amounts w = estimatedTokens)) ∧
          (∀ key, key ≠ reservationKey r → db'.held key = db.held key) ∧
          (k ∉ r.counterKeys ∧ db'.counters k = db.counters k ∨
            k ∈ r.counterKeys ∧ ∃ c, db'.counters k = some c ∧
              c.value = used (db.counters k) + estimatedTokens)) := by
  rcases reserve_cases hcall with ⟨hnone, -⟩ | ⟨hsome, htokens, hcharged⟩
  · rw [hr] at hnone
    cases hnone
  · obtain rfl := Option.some.inj (hr.symm.trans hsome)
    refine ⟨rfl, htokens, ?_⟩
    by_cases hempty : grants = []
    · rcases hcharged with ⟨-, hsame⟩ | ⟨hne, -⟩
      · exact .inl ⟨List.map_eq_nil_iff.mpr hempty, hsame⟩
      · exact absurd hempty hne
    · obtain ⟨h, hh⟩ := Option.isSome_iff_exists.mp (hcharged.isSome_held hempty)
      refine .inr ⟨mt List.map_eq_nil_iff.mp hempty, ⟨h, hh, fun htouch => ?_⟩,
        fun key hkey => hcharged.held hkey, ?_⟩
      · have hamounts := hcharged.amounts hfresh w
        rcases hp.grants_at with ⟨hno, -⟩ | ⟨-, g, htoken, -, hfilter⟩
        · exact absurd htouch hno
        · rw [hfilter, Db.amounts, hh, List.map_singleton, List.sum_singleton, cost,
            if_pos htoken] at hamounts
          exact hamounts
      · rw [hcharged.counters]
        rcases hp.grants_at with ⟨hno, hfilter⟩ | ⟨htouch, g, htoken, hfilter, -⟩
        · exact .inl ⟨hno, by rw [hfilter]; rfl⟩
        · rw [hfilter]
          refine .inr ⟨htouch, _, rfl, ?_⟩
          dsimp only [spent, block]
          rw [if_pos htoken]

end Tracker.Plain

namespace Tracker

variable {T : Tracker} {db : Db} {now : Seconds} {r : Reservation} {tokensIn tokensOut : ℤ}

/-- A refused call writes nothing. -/
theorem reserve_refused {db' : Db} {grants : List WindowGrant} {scope provider model : String}
    {estimatedTokens : ℤ} {requestId : String} {decision : QuotaDecision}
    (hcall : T.reserveWindows db now grants scope provider model estimatedTokens requestId =
      .ok (decision, db')) (hr : decision.reservation = none) : db' = db := by
  rcases reserve_cases hcall with ⟨-, hsame⟩ | ⟨hsome, -⟩
  · exact hsame
  · rw [hr] at hsome
    cases hsome

/-- A settlement that finds no hash does nothing. -/
theorem commit_of_none (hh : db.held (reservationKey r) = none) :
    T.commit db now r tokensIn tokensOut = db := by
  unfold commit commitLua
  rw [hh]
  exact ite_self db

theorem release_of_none (hh : db.held (reservationKey r) = none) : release db r = db := by
  unfold release releaseLua
  rw [hh]
  exact ite_self db

/-- One that finds its hash deletes it, and no other. -/
theorem commit_held {h : Held} (hne : r.windows ≠ []) (hh : db.held (reservationKey r) = some h) :
    (T.commit db now r tokensIn tokensOut).held =
      Function.update db.held (reservationKey r) none := by
  unfold commit commitLua
  rw [if_neg hne, hh]
  dsimp only [Db.del]
  rw [foldl_held fun _ _ => correct_held]

theorem release_held {h : Held} (hne : r.windows ≠ []) (hh : db.held (reservationKey r) = some h) :
    (release db r).held = Function.update db.held (reservationKey r) none := by
  unfold release releaseLua
  rw [if_neg hne, hh]
  dsimp only [Db.del]
  rw [foldl_held fun _ _ => giveBack_held]

/-- No settlement writes a hash. -/
theorem commit_held_none {key : String} (hnone : db.held key = none) :
    (T.commit db now r tokensIn tokensOut).held key = none := by
  by_cases hwin : r.windows = []
  · rwa [Tracker.commit, if_pos hwin]
  · cases hh : db.held (reservationKey r) with
    | none => rwa [commit_of_none hh]
    | some h => rw [commit_held hwin hh, Function.update_apply, hnone, ite_self]

theorem release_held_none {key : String} (hnone : db.held key = none) :
    (release db r).held key = none := by
  by_cases hwin : r.windows = []
  · rwa [release, if_pos hwin]
  · cases hh : db.held (reservationKey r) with
    | none => rwa [release_of_none hh]
    | some h => rw [release_held hwin hh, Function.update_apply, hnone, ite_self]

end Tracker

end Quota

end LlmGateway
