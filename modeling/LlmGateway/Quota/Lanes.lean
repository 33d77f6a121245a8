import LlmGateway.Lists.Seats
import LlmGateway.Quota.Tracker

/-!
# The split of a published limit

What the answer lane and the perception lane may each spend of a limit, once
headroom is held back: the arithmetic a tracker reduces its limits by.
-/

namespace LlmGateway

/-- `_DAILY_WINDOWS`. -/
def QuotaWindow.isDaily : QuotaWindow → Bool
  | .rpd | .tpd => true
  | .rpm | .tpm => false

namespace Quota

/-- A share of a budget: at least nothing, less than all of it. -/
structure Fraction where
  val : ℚ
  nonneg : 0 ≤ val
  lt_one : val < 1

namespace Lanes

/-! ## The shares -/

/-- `answer_share`. -/
def answerShare (reserved : Fraction) : ℚ := 1 - reserved.val

/-- `perception_budget`. -/
def perceptionBudget (reserved : Fraction) (limits : ModelLimits) : List (QuotaWindow × ℤ) :=
  limits.declared.map fun w => (w.window, ⌊w.limit * reserved.val⌋)

/-- `_effective_limit`. -/
def effectiveLimit (headroom reserved : Fraction) (published : ℤ) : ℤ :=
  max 1 ⌊published * (1 - headroom.val) * answerShare reserved⌋

/-- The limit of a window in `reserve_perception`. -/
def perceptionLimit (headroom reserved : Fraction) (limits : Option ModelLimits) (w : QuotaWindow)
    (published : ℤ) : ℤ :=
  let dailyBudget := match limits with
    | some limits => perceptionBudget reserved limits
    | none => []
  if w.isDaily then max 1 ⌊(dailyBudget.lookup w).getD 0 * (1 - headroom.val)⌋
  else max 1 ⌊published * (1 - headroom.val)⌋

/-- The tracker of a configuration: its limits, its headroom, and what each candidate reserves for
the perception lane. -/
def tracker (limits : (provider model : String) → Option ModelLimits) (headroom : Fraction)
    (reserved : ModelSpec → Fraction) (pacific : Calendar) : Tracker where
  limits
  effectiveLimit spec := effectiveLimit headroom (reserved spec)
  perceptionLimit spec :=
    perceptionLimit headroom (reserved spec) (limits spec.provider spec.model)
  pacific

/-! ## What the two lanes may spend of a day -/

section

variable {h r : Fraction} {p : ℤ}

/-- The perception lane's limit of a published daily limit. -/
def dailyLimit (h r : Fraction) (p : ℤ) : ℤ := max 1 ⌊(⌊p * r.val⌋ : ℚ) * (1 - h.val)⌋

/-- A budget is looked up under its own window. -/
theorem lookup_perceptionBudget {limits : ModelLimits} {w : WindowSpec}
    (hw : w ∈ limits.declared) :
    (perceptionBudget r limits).lookup w.window = some ⌊w.limit * r.val⌋ := by
  have hnodup : ((perceptionBudget r limits).map (·.1)).Nodup := by
    rw [perceptionBudget, List.map_map]
    exact limits.declared_nodup
  rw [Lists.lookup_eq_some_iff_mem hnodup]
  exact List.mem_map_of_mem hw

theorem perceptionLimit_of_daily {limits : ModelLimits} {w : WindowSpec}
    (hw : w ∈ limits.declared) (hdaily : w.window.isDaily = true) :
    perceptionLimit h r (some limits) w.window w.limit = dailyLimit h r w.limit := by
  simp only [perceptionLimit, hdaily, if_true, lookup_perceptionBudget hw, Option.getD_some,
    dailyLimit]

/-- Neither lane is reduced to more than is published. -/
theorem effectiveLimit_le (hp : 1 ≤ p) : effectiveLimit h r p ≤ p := by
  have hp' : (0 : ℚ) ≤ p := by exact_mod_cast (by omega : 0 ≤ p)
  have hle : (p : ℚ) * (1 - h.val) * (1 - r.val) ≤ p := by
    have h1 : (p : ℚ) * (1 - h.val) ≤ p := mul_le_of_le_one_right hp' (by linarith [h.nonneg])
    have h0 : 0 ≤ (p : ℚ) * (1 - h.val) := mul_nonneg hp' (by linarith [h.lt_one])
    exact (mul_le_of_le_one_right h0 (by linarith [r.nonneg])).trans h1
  have hfloor : ⌊(p : ℚ) * (1 - h.val) * (1 - r.val)⌋ ≤ p := by
    have := Int.floor_le_floor hle
    rwa [Int.floor_intCast] at this
  rw [effectiveLimit, answerShare]
  omega

/-- As soon as anything is held back, the answer lane has less than is published. -/
theorem effectiveLimit_lt (hp : 2 ≤ p) (hheld : 0 < h.val ∨ 0 < r.val) :
    effectiveLimit h r p < p := by
  have hp' : (0 : ℚ) < p := by exact_mod_cast (by omega : 0 < p)
  have hlt : (p : ℚ) * (1 - h.val) * (1 - r.val) < p := by
    have hprod : (1 - h.val) * (1 - r.val) < 1 := by
      rcases hheld with hh | hr
      · nlinarith [h.lt_one, r.nonneg]
      · nlinarith [h.nonneg, h.lt_one, r.lt_one]
    have := mul_lt_mul_of_pos_left hprod hp'
    rw [mul_one, ← mul_assoc] at this
    exact this
  have hfloor : ⌊(p : ℚ) * (1 - h.val) * (1 - r.val)⌋ < p := Int.floor_lt.mpr hlt
  rw [effectiveLimit, answerShare]
  omega

/-- The perception lane's part is less than all of it. -/
theorem floor_daily_lt (hp : 1 ≤ p) : ⌊(⌊p * r.val⌋ : ℚ) * (1 - h.val)⌋ < p := by
  have hp' : (0 : ℚ) < p := by exact_mod_cast (by omega : 0 < p)
  have hfloor : (⌊p * r.val⌋ : ℚ) ≤ p * r.val := Int.floor_le _
  have hnonneg : (0 : ℚ) ≤ ⌊p * r.val⌋ := by
    exact_mod_cast Int.floor_nonneg.mpr (mul_nonneg hp'.le r.nonneg)
  have hle : (⌊p * r.val⌋ : ℚ) * (1 - h.val) ≤ ⌊p * r.val⌋ :=
    mul_le_of_le_one_right hnonneg (by linarith [h.nonneg])
  have hlt : (p : ℚ) * r.val < p := mul_lt_of_lt_one_right hp' r.lt_one
  exact Int.floor_lt.mpr (by linarith)

/-- Without the floors at one the two parts are those of what headroom leaves. -/
theorem floor_add_floor_le (hp : 1 ≤ p) :
    ⌊(p : ℚ) * (1 - h.val) * (1 - r.val)⌋ + ⌊(⌊p * r.val⌋ : ℚ) * (1 - h.val)⌋ ≤ p := by
  have hp' : (0 : ℚ) ≤ p := by exact_mod_cast (by omega : 0 ≤ p)
  have hfloor : (⌊p * r.val⌋ : ℚ) ≤ p * r.val := Int.floor_le _
  have hh : 0 ≤ 1 - h.val := by linarith [h.lt_one]
  have hsum : (p : ℚ) * (1 - h.val) * (1 - r.val) + (⌊p * r.val⌋ : ℚ) * (1 - h.val) ≤ p := by
    calc (p : ℚ) * (1 - h.val) * (1 - r.val) + (⌊p * r.val⌋ : ℚ) * (1 - h.val)
        ≤ (p : ℚ) * (1 - h.val) * (1 - r.val) + p * r.val * (1 - h.val) := by
          gcongr
      _ = p * (1 - h.val) := by ring
      _ ≤ p := mul_le_of_le_one_right hp' (by linarith [h.nonneg])
  have hadd := Int.le_floor_add ((p : ℚ) * (1 - h.val) * (1 - r.val))
    ((⌊p * r.val⌋ : ℚ) * (1 - h.val))
  have hmono := Int.floor_le_floor hsum
  rw [Int.floor_intCast] at hmono
  omega

theorem effectiveLimit_add_le (hp : 2 ≤ p) (hheld : 0 < h.val ∨ 0 < r.val) :
    effectiveLimit h r p + dailyLimit h r p ≤ p := by
  have hlt := effectiveLimit_lt (h := h) (r := r) hp hheld
  have hdaily := floor_daily_lt (h := h) (r := r) (p := p) (by omega)
  have hsum := floor_add_floor_le (h := h) (r := r) (p := p) (by omega)
  rw [effectiveLimit, answerShare] at *
  rw [dailyLimit]
  omega

/-- With nothing held back, and of a limit of one, the floors at one give one more. -/
theorem effectiveLimit_add_eq (hp : 1 ≤ p) (hfloor : p = 1 ∨ (h.val = 0 ∧ r.val = 0)) :
    effectiveLimit h r p + dailyLimit h r p = p + 1 := by
  rcases hfloor with rfl | ⟨hh, hr⟩
  · have hanswer := effectiveLimit_le (h := h) (r := r) (p := 1) (by omega)
    have hdaily := floor_daily_lt (h := h) (r := r) (p := 1) (by omega)
    rw [effectiveLimit] at *
    rw [dailyLimit]
    omega
  · rw [effectiveLimit, dailyLimit, answerShare, hh, hr]
    simp
    omega

end

section

variable {limits : (provider model : String) → Option ModelLimits} {headroom : Fraction}
  {reserved : ModelSpec → Fraction} {pacific : Calendar} {spec : ModelSpec} {scope : String}
  {w : WindowSpec} {g : WindowGrant}

/-- A model declares a window once. -/
theorem eq_of_declared {T : Tracker} {provider model : String} {w w' : WindowSpec}
    (hw : w ∈ T.declared provider model) (hw' : w' ∈ T.declared provider model)
    (h : w'.window = w.window) : w' = w :=
  List.inj_on_of_nodup_map Tracker.declared_nodup hw' hw h

theorem limit_of_answer
    (hw : w ∈ (tracker limits headroom reserved pacific).declared spec.provider spec.model)
    (hg : g ∈ (tracker limits headroom reserved pacific).answerGrants spec scope [])
    (hgw : g.window = w.window) : g.limit = effectiveLimit headroom (reserved spec) w.limit := by
  rw [Tracker.answerGrants, List.append_nil] at hg
  obtain ⟨w', hw', rfl⟩ := List.mem_map.mp hg
  rw [eq_of_declared hw hw' hgw]
  rfl

theorem limit_of_perception
    (hw : w ∈ (tracker limits headroom reserved pacific).declared spec.provider spec.model)
    (hdaily : w.window.isDaily = true)
    (hg : g ∈ (tracker limits headroom reserved pacific).perceptionGrants spec scope)
    (hgw : g.window = w.window) : g.limit = dailyLimit headroom (reserved spec) w.limit := by
  obtain ⟨w', hw', rfl⟩ := List.mem_map.mp hg
  rw [eq_of_declared hw hw' hgw]
  have hlimits : ∃ ls, limits spec.provider spec.model = some ls ∧ w ∈ ls.declared := by
    rw [Tracker.declared] at hw
    cases hls : (tracker limits headroom reserved pacific).limits spec.provider spec.model with
    | none => rw [hls] at hw; cases hw
    | some ls => rw [hls] at hw; exact ⟨ls, hls, hw⟩
  obtain ⟨ls, hls, hmem⟩ := hlimits
  show perceptionLimit headroom (reserved spec) (limits spec.provider spec.model) w.window w.limit =
    _
  rw [hls, perceptionLimit_of_daily hmem hdaily]

end

/-- Two specs of one model, the one of the answer lane and the one of the perception lane, reserve
the same fraction; what the lanes may spend of its day is then within the published limit, or one
over it where the floors at one bind. -/
theorem daily_limits_sum (limits : (provider model : String) → Option ModelLimits)
    (headroom : Fraction) (reserved : ModelSpec → Fraction) (pacific : Calendar)
    {answer perception : ModelSpec} (hkey : answer.key = perception.key)
    (hreserved : reserved answer = reserved perception) {scope scope' : String} {w : WindowSpec}
    (hw : w ∈ (tracker limits headroom reserved pacific).declared answer.provider answer.model)
    (hdaily : w.window.isDaily = true) (hpos : 1 ≤ w.limit) {g g' : WindowGrant}
    (hg : g ∈ (tracker limits headroom reserved pacific).answerGrants answer scope [])
    (hgw : g.window = w.window)
    (hg' : g' ∈ (tracker limits headroom reserved pacific).perceptionGrants perception scope')
    (hgw' : g'.window = w.window) :
    (2 ≤ w.limit ∧ (0 < headroom.val ∨ 0 < (reserved answer).val) → g.limit + g'.limit ≤ w.limit) ∧
    (w.limit = 1 ∨ (headroom.val = 0 ∧ (reserved answer).val = 0) →
      g.limit + g'.limit = w.limit + 1) := by
  have hprovider : answer.provider = perception.provider := congrArg Prod.fst hkey
  have hmodel : answer.model = perception.model := congrArg Prod.snd hkey
  have hlimit := limit_of_answer hw hg hgw
  rw [hprovider, hmodel] at hw
  have hlimit' := limit_of_perception hw hdaily hg' hgw'
  rw [hlimit, hlimit', ← hreserved]
  constructor
  · rintro ⟨htwo, hheld⟩
    exact effectiveLimit_add_le htwo hheld
  · intro hfloor
    exact effectiveLimit_add_eq hpos hfloor

section

/-- A model with a published limit of requests a day, and no other. -/
def perDay (p : ℤ) : ModelLimits where
  limit w := match w with
    | .rpd => some p
    | _ => none
  reset _ := some .fixedDailyUtc
  reset_declared _ _ := rfl

/-- A tenth. -/
def tenth : Fraction := ⟨1 / 10, by norm_num, by norm_num⟩

/-- A half. -/
def half : Fraction := ⟨1 / 2, by norm_num, by norm_num⟩

def flash : ModelSpec :=
  { slot := "general", provider := "gemini", model := "flash", contextWindow := 8 }

/-- Its window, and what the two lanes ask of it. -/
def dayOf (p : ℤ) : WindowSpec :=
  { window := .rpd, limit := p, reset := .fixedDailyUtc, costIsTokens := false }

def answerDay (p : ℤ) : WindowGrant :=
  { window := .rpd, limit := effectiveLimit tenth half p, reset := .fixedDailyUtc
    costIsTokens := false, key := quotaKey "system" "gemini" "flash" .rpd }

def perceptionDay (p : ℤ) : WindowGrant :=
  { window := .rpd, limit := perceptionLimit tenth half (some (perDay p)) .rpd p
    reset := .fixedDailyUtc, costIsTokens := false
    key := quotaPerceptionLane "system" "gemini" "flash" }

/-- Of one request a day, each lane may make one. -/
theorem not_daily_limits_sum :
    ¬ ∀ (limits : (provider model : String) → Option ModelLimits) (headroom : Fraction)
      (reserved : ModelSpec → Fraction) (pacific : Calendar) (answer perception : ModelSpec)
      (scope : String) (w : WindowSpec) (g g' : WindowGrant),
      answer.key = perception.key → reserved answer = reserved perception →
      w ∈ (tracker limits headroom reserved pacific).declared answer.provider answer.model →
      w.window.isDaily = true → 1 ≤ w.limit →
      g ∈ (tracker limits headroom reserved pacific).answerGrants answer scope [] →
      g.window = w.window →
      g' ∈ (tracker limits headroom reserved pacific).perceptionGrants perception scope →
      g'.window = w.window → g.limit + g'.limit ≤ w.limit := by
  intro h
  have hsum := h (fun _ _ => some (perDay 1)) tenth (fun _ => half) utc flash flash "system"
    (dayOf 1) (answerDay 1) (perceptionDay 1) rfl rfl (List.mem_singleton.mpr rfl) rfl
    (Int.le_refl 1) (List.mem_singleton.mpr rfl) rfl (List.mem_singleton.mpr rfl) rfl
  have hanswer : 1 ≤ (answerDay 1).limit := le_max_left _ _
  have hperception : 1 ≤ (perceptionDay 1).limit := le_max_left _ _
  have hone : (dayOf 1).limit = 1 := rfl
  omega

theorem daily_limits_sum_reading :
    (2 ≤ (250 : ℤ) ∧ (0 < tenth.val ∨ 0 < half.val) →
      (answerDay 250).limit + (perceptionDay 250).limit ≤ 250) ∧
    ((250 : ℤ) = 1 ∨ (tenth.val = 0 ∧ half.val = 0) →
      (answerDay 250).limit + (perceptionDay 250).limit = 250 + 1) :=
  have hday : dayOf 250 ∈ (tracker (fun _ _ => some (perDay 250)) tenth (fun _ => half) utc).declared
      flash.provider flash.model := List.mem_singleton.mpr rfl
  daily_limits_sum (fun _ _ => some (perDay 250)) tenth (fun _ => half) utc
    (show flash.key = flash.key from rfl) rfl hday rfl (by decide)
    (show answerDay 250 ∈ _ from List.mem_singleton.mpr rfl) rfl
    (show perceptionDay 250 ∈ _ from List.mem_singleton.mpr rfl) rfl

end

end Lanes

end Quota

end LlmGateway
