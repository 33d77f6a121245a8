import LlmGateway.Providers.Types
import Mathlib.Data.Rat.Floor
import Mathlib.Algebra.Order.Ring.Rat
import Mathlib.Tactic.Linarith
import Mathlib.Tactic.Ring
import Mathlib.Tactic.NormNum

/-!
# Windows and their resets

When a window's counter comes back to zero, and the whole seconds its key is
given to live until then. A provider's day is a calendar of reset instants; the
one of UTC is computed, the one of California is the time zone database's.
-/

namespace LlmGateway

/-- `_TOKEN_WINDOWS`. -/
def QuotaWindow.isToken : QuotaWindow → Bool
  | .tpm | .tpd => true
  | .rpm | .rpd => false

/-- `_CONVERGING_RESETS`: the resets whose expiry is set again on every
increment. -/
def ResetKind.converging : ResetKind → Bool
  | .fixedDailyUtc | .fixedDailyPt => true
  | .rolling60s | .rollingDaily => false

namespace Quota

/-! ## Reset instants -/

/-- The reset instants of a provider's day. -/
structure Calendar where
  /-- `_next_midnight`: the next one, strictly after an instant. -/
  next : Seconds → Seconds
  lt_next (t : Seconds) : t < next t
  /-- Up to that instant it stays the next one. -/
  next_eq {t u : Seconds} (htu : t ≤ u) (hu : u < next t) : next u = next t

/-- The seconds of a day. -/
def dayS : Seconds := 86400

/-- The midnights of UTC. -/
def utc : Calendar where
  next t := (⌊t / dayS⌋ + 1 : ℤ) * dayS
  lt_next t := by
    have hfloor := Int.lt_floor_add_one (t / dayS)
    rw [div_lt_iff₀ (by norm_num [dayS])] at hfloor
    push_cast
    exact hfloor
  next_eq := by
    intro t u htu hu
    have hpos : (0 : ℚ) < dayS := by norm_num [dayS]
    have hle : ⌊t / dayS⌋ ≤ ⌊u / dayS⌋ := Int.floor_le_floor (by gcongr)
    have hlt : ⌊u / dayS⌋ < ⌊t / dayS⌋ + 1 := by
      rw [Int.floor_lt, div_lt_iff₀ hpos]
      exact hu
    have heq : ⌊u / dayS⌋ = ⌊t / dayS⌋ := by omega
    rw [heq]

/-! ## Time to live -/

/-- The built-in `round`: to the nearest integer, halves to the even one. -/
def roundHalfEven (x : ℚ) : ℤ :=
  let f := ⌊x⌋
  if x - f < 1 / 2 then f
  else if 1 / 2 < x - f then f + 1
  else if f % 2 = 0 then f else f + 1

@[simp] theorem roundHalfEven_intCast (n : ℤ) : roundHalfEven n = n := by
  simp [roundHalfEven]

/-- `resets_at`: the next instant a counter with this reset reaches zero. -/
def resetsAt (pacific : Calendar) (reset : ResetKind) (now : Seconds) : Seconds :=
  match reset with
  | .rolling60s => now + 60
  | .rollingDaily => now + dayS
  | .fixedDailyUtc => utc.next now
  | .fixedDailyPt => pacific.next now

/-- `ttl_s`: whole seconds until then, one at the least. -/
def ttlS (pacific : Calendar) (reset : ResetKind) (now : Seconds) : ℤ :=
  max 1 (roundHalfEven (resetsAt pacific reset now - now))

theorem one_le_ttlS (pacific : Calendar) (reset : ResetKind) (now : Seconds) :
    1 ≤ ttlS pacific reset now :=
  le_max_left _ _

/-! ## Declared windows -/

/-- What `limits.yaml` publishes for a model; a window with a limit has a reset. -/
structure ModelLimits where
  limit : QuotaWindow → Option ℤ
  reset : QuotaWindow → Option ResetKind
  reset_declared (w : QuotaWindow) : (limit w).isSome → (reset w).isSome

/-- What one window is allowed to spend. -/
structure WindowSpec where
  window : QuotaWindow
  limit : ℤ
  reset : ResetKind
  costIsTokens : Bool
  deriving DecidableEq, Repr

/-- `_ALL_WINDOWS`. -/
def allWindows : List QuotaWindow := [.rpm, .rpd, .tpm, .tpd]

/-- `declared`: the windows with a limit, in their order. -/
def ModelLimits.declared (limits : ModelLimits) : List WindowSpec :=
  allWindows.filterMap fun w => match h : limits.limit w with
    | none => none
    | some limit => some
        { window := w, limit, costIsTokens := w.isToken
          reset := (limits.reset w).get (limits.reset_declared w (by rw [h]; rfl)) }

theorem ModelLimits.mem_declared {limits : ModelLimits} {spec : WindowSpec}
    (h : spec ∈ limits.declared) :
    limits.reset spec.window = some spec.reset ∧ spec.costIsTokens = spec.window.isToken := by
  obtain ⟨w, -, hw⟩ := List.mem_filterMap.mp h
  split at hw
  · cases hw
  · cases hw
    exact ⟨(Option.some_get _).symm, rfl⟩

/-- No window is declared twice. -/
theorem ModelLimits.declared_nodup (limits : ModelLimits) :
    (limits.declared.map (·.window)).Nodup := by
  have hsub : (limits.declared.map (·.window)).Sublist allWindows := by
    rw [ModelLimits.declared, List.map_filterMap]
    refine List.Sublist.trans ?_ (List.filter_sublist (p := fun w => (limits.limit w).isSome))
    rw [← List.filterMap_eq_filter]
    refine (congrArg (fun f => (List.filterMap f allWindows).Sublist _) ?_).mpr (List.Sublist.refl _)
    funext w
    split
    next hw => simp [Option.guard, hw]
    next limit hw => simp [Option.guard, hw]
  exact hsub.nodup (by decide)

end Quota

end LlmGateway
