import LlmGateway.Quota.Settlement

/-!
# One call

What one call of the tracker does to the database, whatever its grants: the
counters it charges, the hash it writes, and what a settlement makes of both.
-/

namespace LlmGateway

namespace Quota

open Tracker

section

variable {T : Tracker} {db db' : Db} {now : Seconds} {grants : List WindowGrant}
  {scope provider model requestId resKey : String} {estimatedTokens : ℤ}

/-- No grant goes beyond its limit. -/
theorem Charged.room (h : Charged T db now grants resKey estimatedTokens requestId db')
    {g : WindowGrant} (hg : g ∈ grants) :
    used (db.counters g.key) + cost estimatedTokens g ≤ g.limit := by
  rcases h with ⟨rfl, -⟩ | ⟨-, hroom, -⟩
  · nomatch hg
  · exact hroom g hg

/-- The one grant of a key, or of a window, where none is repeated. -/
theorem filter_key (hdistinct : (grants.map (·.key)).Nodup) {g : WindowGrant} (hg : g ∈ grants) :
    grants.filter (·.key = g.key) = [g] := by
  refine filter_eq_singleton hg (by simp) ?_
  have hcount := List.nodup_iff_count_le_one.mp hdistinct g.key
  rw [List.count, List.countP_map, List.countP_eq_length_filter] at hcount
  exact hcount

theorem filter_window (hdistinct : (grants.map (·.window)).Nodup) {g : WindowGrant}
    (hg : g ∈ grants) : grants.filter (·.window = g.window) = [g] := by
  refine filter_eq_singleton hg (by simp) ?_
  have hcount := List.nodup_iff_count_le_one.mp hdistinct g.window
  rw [List.count, List.countP_map, List.countP_eq_length_filter] at hcount
  exact hcount

theorem filter_absent {k : String} (hk : k ∉ grants.map (·.key)) :
    grants.filter (·.key = k) = [] := by
  rw [List.filter_eq_nil_iff]
  intro g hg heq
  exact hk (List.mem_map.mpr ⟨g, hg, of_decide_eq_true heq⟩)

/-- A charged counter, where no key is repeated. -/
theorem Charged.counter_of_mem
    (h : Charged T db now grants resKey estimatedTokens requestId db')
    (hdistinct : (grants.map (·.key)).Nodup) {g : WindowGrant} (hg : g ∈ grants) :
    ∃ c, db'.counters g.key = some c ∧
      c.value = used (db.counters g.key) + cost estimatedTokens g := by
  rw [h.counters, filter_key hdistinct hg]
  exact ⟨_, rfl, rfl⟩

theorem Charged.counter_of_not_mem
    (h : Charged T db now grants resKey estimatedTokens requestId db') {k : String}
    (hk : k ∉ grants.map (·.key)) : db'.counters k = db.counters k := by
  rw [h.counters, filter_absent hk]
  rfl

/-- What its hash holds for a grant, where no window is repeated. -/
theorem Charged.amount_of_mem (h : Charged T db now grants resKey estimatedTokens requestId db')
    (hfresh : db.held resKey = none) (hdistinct : (grants.map (·.window)).Nodup)
    {g : WindowGrant} (hg : g ∈ grants) :
    db'.amounts resKey g.window = cost estimatedTokens g := by
  rw [h.amounts hfresh, filter_window hdistinct hg]
  exact List.sum_singleton

/-- Its receipt names the key of each grant, where no window is repeated. -/
theorem keyFor_grant (hdistinct : (grants.map (·.window)).Nodup) {g : WindowGrant}
    (hg : g ∈ grants) :
    keyFor (receipt grants scope provider model estimatedTokens requestId) g.window = g.key := by
  obtain ⟨g', hg', hwindow, hkey⟩ := Plain.keyFor_receipt scope provider model estimatedTokens
    requestId (List.mem_map_of_mem hg : g.window ∈ grants.map (·.window))
  have hmem : g' ∈ grants.filter (·.window = g.window) :=
    List.mem_filter.mpr ⟨hg', by simpa using hwindow⟩
  rw [filter_window hdistinct hg, List.mem_singleton] at hmem
  rw [hkey, hmem]

/-- What a release gives back, window by window. -/
theorem releases_eq (hdistinct : (grants.map (·.window)).Nodup) :
    (receipt grants scope provider model estimatedTokens requestId).windows.map
        (fun w => (w, keyFor (receipt grants scope provider model estimatedTokens requestId) w)) =
      grants.map fun g => (g.window, g.key) := by
  rw [show (receipt grants scope provider model estimatedTokens requestId).windows =
    grants.map (·.window) from rfl, List.map_map]
  refine List.map_congr_left fun g hg => ?_
  exact congrArg (Prod.mk g.window) (keyFor_grant hdistinct hg)

/-- The counter after a release that finds its hash. -/
theorem released_counters (hdistinct : (grants.map (·.window)).Nodup) {r : Reservation} {h : Held}
    (hr : r = receipt grants scope provider model estimatedTokens requestId)
    (hh : db.held (reservationKey r) = some h) (k : String) :
    (release db r).counters k = (grants.filter (·.key = k)).foldl
      (fun slot g => returned (h.amounts g.window) slot) (db.counters k) := by
  subst hr
  unfold release
  split
  next hempty =>
    have hnil : grants = [] := List.map_eq_nil_iff.mp hempty
    rw [hnil]
    rfl
  · unfold releaseLua
    rw [hh, releases_eq hdistinct]
    dsimp only [Db.del]
    rw [foldl_counters (·.2) (fun _ slot w => returned (h.amounts w.1) slot)
      (fun _ _ => giveBack_counters) (fun _ _ => giveBack_clock), List.filter_map, List.foldl_map]
    rfl

/-! ## What a call keeps -/

/-- What a fold of steps keeps of a counter. -/
theorem foldl_kept {β : Type} {P : Option Counter → Prop} {f : Option Counter → β → Option Counter}
    (bs : List β) (hf : ∀ slot, ∀ b ∈ bs, P slot → P (f slot b)) {slot : Option Counter}
    (h : P slot) : P (bs.foldl f slot) := by
  induction bs generalizing slot with
  | nil => exact h
  | cons b bs ih =>
    refine ih (fun slot' b' hb' => hf slot' b' (List.mem_cons_of_mem b hb')) ?_
    exact hf slot b List.mem_cons_self h

/-- The counters after a commit are corrected, one after another. -/
theorem commit_kept {P : Option Counter → Prop} {r : Reservation} {tokensIn tokensOut : ℤ} {k : String}
    (hstep : ∀ reserved slot, ∀ c ∈ T.corrections now r (tokensIn + tokensOut), c.key = k →
      P slot → P (corrected db.clock reserved slot c))
    (h : P (db.counters k)) : P ((T.commit db now r tokensIn tokensOut).counters k) := by
  unfold Tracker.commit commitLua
  split
  · exact h
  · cases db.held (reservationKey r) with
    | none => exact h
    | some x =>
      dsimp only [Db.del]
      rw [foldl_counters (·.key) (fun clock slot c => corrected clock (x.amounts c.name) slot c)
        (fun _ _ => correct_counters) (fun _ _ => correct_clock)]
      refine foldl_kept _ (fun slot c hc hslot => ?_) h
      obtain ⟨hmem, hkey⟩ := List.mem_filter.mp hc
      exact hstep _ slot c hmem (of_decide_eq_true hkey) hslot

/-- And after a release they are returned to. -/
theorem release_kept {P : Option Counter → Prop} {r : Reservation} {k : String}
    (hstep : ∀ amount slot, P slot → P (returned amount slot)) (h : P (db.counters k)) :
    P ((release db r).counters k) := by
  unfold release releaseLua
  split
  · exact h
  · cases db.held (reservationKey r) with
    | none => exact h
    | some x =>
      dsimp only [Db.del]
      rw [foldl_counters (·.2) (fun _ slot w => returned (x.amounts w.1) slot)
        (fun _ _ => giveBack_counters) (fun _ _ => giveBack_clock)]
      exact foldl_kept _ (fun slot w _ => hstep _ slot) h

/-- A granted call spends at its counters, one block after another. -/
theorem Charged.kept {P : Option Counter → Prop} {k : String}
    (hcharged : Charged T db now grants resKey estimatedTokens requestId db')
    (hstep : ∀ slot, ∀ g ∈ grants, g.key = k → P slot →
      P (some (spent db.clock slot (T.block now estimatedTokens g))))
    (h : P (db.counters k)) : P (db'.counters k) := by
  rw [hcharged.counters, List.foldl_map]
  refine foldl_kept _ (fun slot g hg hslot => ?_) h
  obtain ⟨hmem, hkey⟩ := List.mem_filter.mp hg
  exact hstep slot g hmem (of_decide_eq_true hkey) hslot

/-- It adds its costs to what a counter reads. -/
theorem Charged.used (h : Charged T db now grants resKey estimatedTokens requestId db')
    (k : String) : used (db'.counters k) =
      used (db.counters k) + ((grants.filter (·.key = k)).map (cost estimatedTokens)).sum := by
  rw [h.counters, List.foldl_map]
  generalize grants.filter (·.key = k) = gs
  generalize db.counters k = slot
  induction gs generalizing slot with
  | nil => simp
  | cons g gs ih =>
    rw [List.foldl_cons, ih, List.map_cons, List.sum_cons]
    have hspent : Quota.used (some (spent db.clock slot (T.block now estimatedTokens g))) =
        Quota.used slot + cost estimatedTokens g := rfl
    omega

theorem cost_nonneg (h : 0 ≤ estimatedTokens) (g : WindowGrant) : 0 ≤ cost estimatedTokens g := by
  unfold cost
  split <;> omega

end

/-! ## The databases calls leave -/

/-- What any calls, on any grants and with any receipts, may leave in any order. -/
inductive Reached (T : Tracker) : Db → Prop
  | start : Reached T {}
  | reserve {db db' : Db} {now : Seconds} {grants : List WindowGrant}
      {scope provider model requestId : String} {estimatedTokens : ℤ} {decision : QuotaDecision}
      (h : Reached T db)
      (hcall : T.reserveWindows db now grants scope provider model estimatedTokens requestId =
        .ok (decision, db')) : Reached T db'
  | commit {db : Db} (h : Reached T db) (now : Seconds) (r : Reservation)
      (tokensIn tokensOut : ℤ) : Reached T (T.commit db now r tokensIn tokensOut)
  | release {db : Db} (h : Reached T db) (r : Reservation) : Reached T (Tracker.release db r)
  | waitUntil {db : Db} (h : Reached T db) (t : Seconds) : Reached T (db.waitUntil t)

/-- Time leaves a counter as it is, or takes it away. -/
theorem waitUntil_counters (db : Db) (t : Seconds) (k : String) :
    (db.waitUntil t).counters k = db.counters k ∨ (db.waitUntil t).counters k = none := by
  cases hx : (db.waitUntil t).counters k with
  | none => exact .inr rfl
  | some x => exact .inl (Option.filter_eq_some_iff.mp hx).1.symm

/-- **The run rule.** What every call keeps of a counter, and its absence has, holds of it
wherever calls lead. -/
theorem Reached.counter {T : Tracker} {P : Option Counter → Prop} {db : Db} (h : Reached T db)
    (hnone : P none)
    (hspend : ∀ clock slot b, 0 ≤ b.cost → P slot → P (some (spent clock slot b)))
    (hcorrect : ∀ clock reserved slot c, P slot → P (corrected clock reserved slot c))
    (hreturn : ∀ amount slot, P slot → P (returned amount slot)) (k : String) :
    P (db.counters k) := by
  induction h with
  | start => exact hnone
  | @reserve db db' now grants scope provider model requestId estimatedTokens decision _ hcall ih =>
    rcases reserve_cases hcall with ⟨-, rfl⟩ | ⟨-, hnonneg, hcharged⟩
    · exact ih
    · exact hcharged.kept (fun slot g _ _ => hspend _ slot _ (cost_nonneg hnonneg g)) ih
  | commit _ now r tokensIn tokensOut ih =>
    exact commit_kept (fun reserved slot c _ _ => hcorrect _ reserved slot c) ih
  | release _ r ih => exact release_kept hreturn ih
  | @waitUntil db _ t ih =>
    rcases waitUntil_counters db t k with heq | heq
    · exact heq ▸ ih
    · exact heq ▸ hnone

end Quota

end LlmGateway
