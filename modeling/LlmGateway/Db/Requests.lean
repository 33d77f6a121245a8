import LlmGateway.Codec.Rounding
import LlmGateway.Effects.Checked
import LlmGateway.Lists.Groups

/-!
# The numbers of the dashboard

One request of the dashboard reads the log of requests twice: by buckets of a fixed
width, from a first one to the one the present falls into, and in one count of all
that is not older than the first bucket. A row is asked for its owner, for when it was
written, and for its status, which may be any text.
-/

namespace LlmGateway

namespace Requests

open Rounding

/-! ## Datetimes -/

/-- What the arithmetic of datetimes raises. -/
inductive DatetimeError where
  | valueError
  | overflowError
  deriving DecidableEq, Repr

/-- The first instant of the year 1. -/
def minMicros : ℤ := -62135596800 * 10 ^ 6

/-- The last microsecond of the year 9999. -/
def maxMicros : ℤ := 253402300800 * 10 ^ 6 - 1

/-- A datetime, in microseconds since the epoch. -/
structure Datetime where
  micros : ℤ
  min_le : minMicros ≤ micros
  le_max : micros ≤ maxMicros

/-- The datetime at an instant, if there is one. -/
def Datetime.at (micros : ℤ) (raises : DatetimeError) : Except DatetimeError Datetime :=
  if h : minMicros ≤ micros ∧ micros ≤ maxMicros then return ⟨micros, h.1, h.2⟩ else throw raises

/-- `timestamp()`, a float. -/
def Datetime.timestamp (now : Datetime) : ℚ := double (now.micros / 10 ^ 6)

/-! ## Windows -/

inductive Window where
  | «1h»
  | «24h»
  | «7d»
  deriving DecidableEq, Repr

/-- `_WINDOWS`: the width of a bucket in seconds, and how many there are. -/
def windows : Window → ℤ × ℕ
  | .«1h» => (60, 60)
  | .«24h» => (60 * 60, 24)
  | .«7d» => (6 * 60 * 60, 28)

/-- `_INTERVALS`, in microseconds. -/
def intervals : Window → ℤ
  | .«1h» => 60 * 10 ^ 6
  | .«24h» => 60 * 60 * 10 ^ 6
  | .«7d» => 6 * 60 * 60 * 10 ^ 6

/-- `window_span`. -/
def windowSpan (window : Window) (now : Datetime) :
    Except DatetimeError (Datetime × Datetime) := do
  let (step, count) := windows window
  let lastEpoch := truncate now.timestamp / step * step
  let last ← Datetime.at (lastEpoch * 10 ^ 6) .valueError
  let first ← Datetime.at (last.micros - step * 10 ^ 6 * (count - 1)) .overflowError
  return (first, last)

/-! ## Rows -/

/-- What the aggregates read of a row. -/
structure Request (υ : Type) where
  userId : υ
  /-- In microseconds since the epoch. -/
  createdAt : ℤ
  status : String
  cacheHit : Bool
  substituted : Bool := false
  /-- The length of the attempt trail. -/
  attempts : ℕ := 0
  tokensIn : Option ℤ := none
  tokensOut : Option ℤ := none
  wastedTokensOut : ℤ := 0

/-- `STATUS_OK`. -/
def statusOk : String := "ok"

/-- `STATUS_REPLAYED`. -/
def statusReplayed : String := "replayed"

/-- `_NON_ERROR_STATUSES`. -/
def nonErrorStatuses : List String := [statusOk, statusReplayed]

variable {υ : Type}

def Request.isOk (row : Request υ) : Bool := row.status = statusOk

def Request.isReplay (row : Request υ) : Bool := row.status = statusReplayed

/-- Anything else is a failure. -/
def Request.isError (row : Request υ) : Bool := !nonErrorStatuses.contains row.status

/-- A row is a success, a failure or a replay, and no two of them. -/
theorem length_eq_outcomes (rows : List (Request υ)) :
    rows.length =
      rows.countP Request.isOk + rows.countP Request.isError + rows.countP Request.isReplay := by
  induction rows with
  | nil => rfl
  | cons row rows ih =>
    have hone : (if row.isOk then 1 else 0) + (if row.isError then 1 else 0) +
        (if row.isReplay then 1 else 0) = 1 := by
      by_cases hok : row.status = statusOk
      · simp [Request.isOk, Request.isError, Request.isReplay, nonErrorStatuses, hok,
          show statusOk ≠ statusReplayed by decide]
      · by_cases hreplay : row.status = statusReplayed
        · simp [Request.isOk, Request.isError, Request.isReplay, nonErrorStatuses, hreplay,
            show statusReplayed ≠ statusOk by decide]
        · simp [Request.isOk, Request.isError, Request.isReplay, nonErrorStatuses, hok, hreplay]
    rw [List.length_cons, List.countP_cons, List.countP_cons, List.countP_cons]
    omega

/-! ## Aggregates -/

/-- One bucket of the series. -/
structure VolumePoint where
  bucketStart : ℤ
  total : ℕ
  errors : ℕ
  cacheHits : ℕ
  deriving DecidableEq, Repr

/-- The outcomes of a window. -/
structure OutcomeSummary where
  total : ℕ
  ok : ℕ
  errors : ℕ
  cacheHits : ℕ
  replays : ℕ
  substituted : ℕ
  multiAttempt : ℕ
  tokensIn : ℤ
  tokensOut : ℤ
  wastedTokensOut : ℤ
  deriving DecidableEq, Repr

/-- `generate_series`. -/
def generateSeries (first last width : ℤ) : List ℤ :=
  (List.range ((last - first) / width + 1).toNat).map fun i : ℕ => first + width * i

variable [DecidableEq υ]

/-- The rows of a user in a bucket. -/
def inBucket (userId : υ) (width bucket : ℤ) (row : Request υ) : Bool :=
  row.userId = userId && decide (bucket ≤ row.createdAt ∧ row.createdAt < bucket + width)

/-- The rows of a user from an instant on. -/
def isSince (userId : υ) (since : ℤ) (row : Request υ) : Bool :=
  row.userId = userId && decide (since ≤ row.createdAt)

/-- The counts of a bucket. -/
def pointOf (bucket : ℤ) (rows : List (Request υ)) : VolumePoint where
  bucketStart := bucket
  total := rows.length
  errors := rows.countP Request.isError
  cacheHits := rows.countP (·.cacheHit)

/-- `volume_series`: the buckets joined to the rows, grouped and in order. -/
def volumeSeries (rows : List (Request υ)) (userId : υ) (window : Window) (now : Datetime) :
    Except DatetimeError (List VolumePoint) := do
  let (first, last) ← windowSpan window now
  let width := intervals window
  let joined := leftJoin (inBucket userId width)
    (generateSeries first.micros last.micros width) rows
  return ((groupKeys joined).mergeSort (· ≤ ·)).map fun bucket =>
    pointOf bucket (group joined bucket)

/-- `outcome_summary`. -/
def outcomeSummary (rows : List (Request υ)) (userId : υ) (since : Datetime) : OutcomeSummary :=
  let rows := rows.filter (isSince userId since.micros)
  { total := rows.length
    ok := rows.countP Request.isOk
    errors := rows.countP Request.isError
    cacheHits := rows.countP (·.cacheHit)
    replays := rows.countP Request.isReplay
    substituted := rows.countP (·.substituted)
    multiAttempt := rows.countP (1 < ·.attempts)
    tokensIn := (rows.filterMap (·.tokensIn)).sum
    tokensOut := (rows.filterMap (·.tokensOut)).sum
    wastedTokensOut := (rows.map (·.wastedTokensOut)).sum }

/-- `usage_overview`, what it reads of the outcomes and the series. -/
def usageOverview (rows : List (Request υ)) (userId : υ) (window : Window) (now : Datetime) :
    Except DatetimeError (OutcomeSummary × List VolumePoint) := do
  let (since, _) ← windowSpan window now
  let outcomes := outcomeSummary rows userId since
  let volume ← volumeSeries rows userId window now
  return (outcomes, volume)

/-! ## The span of a window -/

section

variable {window : Window} {now since last : Datetime}

/-- The widths are written down twice, and agree. -/
theorem intervals_eq (window : Window) : intervals window = (windows window).1 * 10 ^ 6 := by
  cases window <;> rfl

theorem windows_pos (window : Window) : 0 < (windows window).1 := by
  cases window <;> decide

theorem intervals_pos (window : Window) : 0 < intervals window := by
  cases window <;> decide

theorem Datetime.micros_of_at {micros : ℤ} {raises : DatetimeError} {t : Datetime}
    (h : Datetime.at micros raises = .ok t) : t.micros = micros := by
  unfold Datetime.at at h
  split at h
  · cases h
    rfl
  · cases h

/-- Where a window begins and where its last bucket does. -/
theorem micros_of_windowSpan (h : windowSpan window now = .ok (since, last)) :
    last.micros =
        truncate now.timestamp / (windows window).1 * (windows window).1 * 10 ^ 6 ∧
      since.micros = last.micros - intervals window * ((windows window).2 - 1) := by
  rw [intervals_eq]
  unfold windowSpan at h
  obtain ⟨l, hlast, h⟩ := bind_eq_ok_iff.mp h
  obtain ⟨s, hsince, h⟩ := bind_eq_ok_iff.mp h
  cases h
  have hsince := Datetime.micros_of_at hsince
  exact ⟨Datetime.micros_of_at hlast, hsince⟩

/-- A datetime has few digits before the point. -/
theorem Datetime.abs_seconds_lt (now : Datetime) : |(now.micros / 10 ^ 6 : ℚ)| < 2 ^ 53 := by
  have hlow : (minMicros : ℚ) ≤ now.micros := by exact_mod_cast now.min_le
  have hhigh : (now.micros : ℚ) ≤ maxMicros := by exact_mod_cast now.le_max
  norm_num [minMicros, maxMicros] at hlow hhigh
  rw [abs_lt]
  constructor <;> linarith

/-- A whole second is never passed over. -/
theorem Datetime.le_truncate_timestamp (now : Datetime) :
    now.micros / 10 ^ 6 ≤ truncate now.timestamp := by
  refine le_truncate (le_double now.abs_seconds_lt ?_)
  rw [le_div_iff₀ (by norm_num)]
  exact_mod_cast Int.ediv_mul_le now.micros (by norm_num)

/-- No two whole seconds are ahead of the clock. -/
theorem Datetime.truncate_timestamp_le (now : Datetime) :
    truncate now.timestamp ≤ now.micros / 10 ^ 6 + 1 := by
  refine truncate_le (double_le now.abs_seconds_lt ?_)
  rw [div_le_iff₀ (by norm_num)]
  exact_mod_cast (Int.lt_ediv_add_one_mul_self now.micros (by norm_num)).le

/-- **The present falls into the last bucket, or before it**: however the clock is rounded, a whole
second is never passed over. -/
theorem lt_of_windowSpan (h : windowSpan window now = .ok (since, last)) :
    now.micros < last.micros + intervals window := by
  obtain ⟨hlast, -⟩ := micros_of_windowSpan h
  have hfloor := now.le_truncate_timestamp
  have hbucket : truncate now.timestamp <
      truncate now.timestamp / (windows window).1 * (windows window).1 + (windows window).1 :=
    Int.lt_ediv_add_one_mul_self _ (windows_pos window) |>.trans_eq (by ring)
  rw [hlast, intervals_eq]
  generalize truncate now.timestamp / (windows window).1 * (windows window).1 = lastEpoch at *
  omega

/-- The buckets of a window, one behind the other. -/
theorem generateSeries_of_windowSpan (h : windowSpan window now = .ok (since, last)) :
    generateSeries since.micros last.micros (intervals window) =
      (List.range (windows window).2).map fun i : ℕ => since.micros + intervals window * i := by
  obtain ⟨-, hsince⟩ := micros_of_windowSpan h
  have hspan : last.micros - since.micros = intervals window * ((windows window).2 - 1) := by
    omega
  rw [generateSeries, hspan, Int.mul_ediv_cancel_left _ (intervals_pos window).ne',
    Int.sub_add_cancel, Int.toNat_natCast]

/-- A datetime there is. -/
theorem Datetime.at_eq_ok {micros : ℤ} {raises : DatetimeError} (hlow : minMicros ≤ micros)
    (hhigh : micros ≤ maxMicros) : Datetime.at micros raises = .ok ⟨micros, hlow, hhigh⟩ :=
  dif_pos ⟨hlow, hhigh⟩

/-- **A window has its span** from the second week of the first year on, up to the last second. -/
theorem windowSpan_isOk (window : Window) {now : Datetime}
    (hlow : minMicros + 7 * 24 * 60 * 60 * 10 ^ 6 ≤ now.micros)
    (hhigh : now.micros ≤ maxMicros - 10 ^ 6) : ∃ span, windowSpan window now = .ok span := by
  have hfloor := now.le_truncate_timestamp
  have hceil := now.truncate_timestamp_le
  have hlast :
      minMicros ≤ truncate now.timestamp / (windows window).1 * (windows window).1 * 10 ^ 6 ∧
      truncate now.timestamp / (windows window).1 * (windows window).1 * 10 ^ 6 ≤ maxMicros := by
    unfold minMicros at hlow ⊢
    unfold maxMicros at hhigh ⊢
    cases window <;> simp only [windows] <;> omega
  have hfirst :
      minMicros ≤ truncate now.timestamp / (windows window).1 * (windows window).1 * 10 ^ 6 -
        (windows window).1 * 10 ^ 6 * ((windows window).2 - 1) := by
    unfold minMicros at hlow ⊢
    cases window <;> simp only [windows] <;> omega
  have hnonneg : 0 ≤ (windows window).1 * 10 ^ 6 * (((windows window).2 : ℤ) - 1) := by
    cases window <;> decide
  exact ⟨_, bind_eq_ok_iff.mpr ⟨_, Datetime.at_eq_ok hlast.1 hlast.2,
    bind_eq_ok_iff.mpr ⟨_, Datetime.at_eq_ok hfirst (by omega), rfl⟩⟩⟩

end

/-! ## The buckets and the rows -/

section

variable {window : Window} {now since last : Datetime} {rows : List (Request υ)} {userId : υ}

/-- **Each row from the first bucket on is in one bucket**, and no other row in any. -/
theorem countP_inBucket (h : windowSpan window now = .ok (since, last)) {row : Request υ}
    (hrow : row.createdAt ≤ now.micros) :
    (generateSeries since.micros last.micros (intervals window)).countP
        (inBucket userId (intervals window) · row) =
      if isSince userId since.micros row then 1 else 0 := by
  obtain ⟨-, hsince⟩ := micros_of_windowSpan h
  have hlt := lt_of_windowSpan h
  have hedge : Monotone fun i : ℕ => since.micros + intervals window * i := by
    intro i j hij
    have hscaled := mul_le_mul_of_nonneg_left (Int.ofNat_le.mpr hij) (intervals_pos window).le
    dsimp only
    omega
  -- The edge behind the last bucket.
  have hend : since.micros + intervals window * ((windows window).2 : ℕ) =
      last.micros + intervals window := by
    rw [hsince]
    ring
  rw [generateSeries_of_windowSpan h, List.countP_map]
  by_cases howner : row.userId = userId
  · have hbucket : (inBucket userId (intervals window) · row) ∘
        (fun i : ℕ => since.micros + intervals window * i) = fun i : ℕ =>
          decide (since.micros + intervals window * i ≤ row.createdAt ∧
            row.createdAt < since.micros + intervals window * (i + 1 : ℕ)) := by
      funext i
      simp only [Function.comp_apply, inBucket, howner, decide_true, Bool.true_and]
      congr 3
      push_cast
      ring
    rw [hbucket, countP_between hedge]
    have hcovered : since.micros + intervals window * (0 : ℕ) ≤ row.createdAt ∧
        row.createdAt < since.micros + intervals window * ((windows window).2 : ℕ) ↔
          isSince userId since.micros row = true := by
      rw [hend]
      simp only [isSince, howner, decide_true, Bool.true_and, decide_eq_true_eq, Nat.cast_zero,
        mul_zero, add_zero]
      omega
    rw [if_congr hcovered rfl rfl]
  · have hnone : (inBucket userId (intervals window) · row) ∘
        (fun i : ℕ => since.micros + intervals window * i) = fun _ => false := by
      funext i
      simp only [Function.comp_apply, inBucket, howner, decide_false, Bool.false_and]
    have hsince' : isSince userId since.micros row = false := by
      simp only [isSince, howner, decide_false, Bool.false_and]
    rw [hnone, List.countP_false, hsince']
    rfl

/-- The buckets come in order, none twice. -/
theorem pairwise_generateSeries (first last : ℤ) (window : Window) :
    (generateSeries first last (intervals window)).Pairwise (· < ·) := by
  rw [generateSeries, List.pairwise_map]
  refine List.pairwise_lt_range.imp fun {i j} hij => ?_
  have hscaled := mul_lt_mul_of_pos_left (Int.ofNat_lt.mpr hij) (intervals_pos window)
  omega

/-- **A point for each bucket**, with the counts of the rows in it. -/
theorem volumeSeries_eq (h : windowSpan window now = .ok (since, last)) :
    volumeSeries rows userId window now =
      .ok ((generateSeries since.micros last.micros (intervals window)).map fun bucket =>
        pointOf bucket (rows.filter (inBucket userId (intervals window) bucket))) := by
  have hpairwise := pairwise_generateSeries since.micros last.micros window
  generalize hbuckets : generateSeries since.micros last.micros (intervals window) = buckets at *
  have hnodup : buckets.Nodup := hpairwise.imp fun hlt => hlt.ne
  have hkeys : (groupKeys (leftJoin (inBucket userId (intervals window)) buckets rows)).mergeSort
      (· ≤ ·) = buckets := by
    generalize hgroups : groupKeys (leftJoin (inBucket userId (intervals window)) buckets rows) =
      groups
    have hperm : groups.Perm buckets := by
      rw [← hgroups]
      exact (List.perm_ext_iff_of_nodup (List.nodup_dedup _) hnodup).mpr
        fun _ => mem_groupKeys_leftJoin
    have hsorted : (groups.mergeSort (· ≤ ·)).Pairwise fun a b => decide (a ≤ b) = true := by
      refine List.pairwise_mergeSort (fun a b c hab hbc => ?_) (fun a b => ?_) groups
      · simp only [decide_eq_true_eq] at hab hbc ⊢
        omega
      · simp only [Bool.or_eq_true, decide_eq_true_eq]
        omega
    have hbuckets : buckets.Pairwise fun a b => decide (a ≤ b) = true :=
      hpairwise.imp fun hlt => decide_eq_true hlt.le
    refine List.Perm.eq_of_pairwise (fun a b _ _ hab hba => ?_) hsorted hbuckets
      ((List.mergeSort_perm _ _).trans hperm)
    exact le_antisymm (of_decide_eq_true hab) (of_decide_eq_true hba)
  unfold volumeSeries
  rw [h]
  change Except.ok _ = Except.ok _
  rw [hbuckets, hkeys]
  congr 1
  refine List.map_congr_left fun bucket hbucket => ?_
  rw [group_leftJoin hnodup, if_pos hbucket]

/-- **The counts of the buckets add up** to those of the rows from the first bucket on. -/
theorem sum_points (h : windowSpan window now = .ok (since, last))
    (hrows : ∀ row ∈ rows, row.createdAt ≤ now.micros) (userId : υ) (q : Request υ → Bool) :
    ((generateSeries since.micros last.micros (intervals window)).map fun bucket =>
        (rows.filter (inBucket userId (intervals window) bucket)).countP q).sum =
      (rows.filter (isSince userId since.micros)).countP q :=
  sum_countP_filter (fun row hrow => countP_inBucket h (hrows row hrow)) q

/-! ## The dashboard -/

/-- **No contradiction** between the summary and the series. -/
structure Consistent (rows : List (Request υ)) (userId : υ) (window : Window) (since : Datetime)
    (summary : OutcomeSummary) (points : List VolumePoint) : Prop where
  total : (points.map (·.total)).sum = summary.total
  errors : (points.map (·.errors)).sum = summary.errors
  cacheHits : (points.map (·.cacheHits)).sum = summary.cacheHits
  /-- A row of the span is counted in one bucket. -/
  once : ∀ row ∈ rows, isSince userId since.micros row →
    points.countP (fun point => inBucket userId (intervals window) point.bucketStart row) = 1
  /-- What a bucket counts are the rows in it. -/
  counted : ∀ point ∈ points, point = pointOf point.bucketStart
    (rows.filter (inBucket userId (intervals window) point.bucketStart))
  partition : summary.total = summary.ok + summary.errors + summary.replays

/-- What is shown is consistent. -/
theorem consistent_of_usageOverview (hrows : ∀ row ∈ rows, row.createdAt ≤ now.micros)
    {summary : OutcomeSummary} {points : List VolumePoint}
    (h : usageOverview rows userId window now = .ok (summary, points)) :
    ∃ since last, windowSpan window now = .ok (since, last) ∧
      Consistent rows userId window since summary points := by
  unfold usageOverview at h
  obtain ⟨⟨since, last⟩, hspan, h⟩ := bind_eq_ok_iff.mp h
  rw [volumeSeries_eq hspan] at h
  cases h
  refine ⟨since, last, hspan, ?_⟩
  constructor
  · rw [List.map_map]
    have hsum := sum_points hspan hrows userId fun _ => true
    simp only [List.countP_true] at hsum
    exact hsum
  · rw [List.map_map]
    exact sum_points hspan hrows userId Request.isError
  · rw [List.map_map]
    exact sum_points hspan hrows userId (·.cacheHit)
  · intro row hrow hsince
    rw [List.countP_map]
    exact (countP_inBucket hspan (hrows row hrow)).trans (if_pos hsince)
  · intro point hpoint
    obtain ⟨bucket, -, rfl⟩ := List.mem_map.mp hpoint
    rfl
  · exact length_eq_outcomes _

/-- **The dashboard does not contradict itself**, for any rows none of which is of the future: it
is there for all but the first week and the last second there are, and what it shows of the
outcomes and of the series is consistent. -/
theorem usageOverview_consistent (rows : List (Request υ)) (userId : υ) (window : Window)
    (now : Datetime) (hrows : ∀ row ∈ rows, row.createdAt ≤ now.micros) :
    (minMicros + 7 * 24 * 60 * 60 * 10 ^ 6 ≤ now.micros → now.micros ≤ maxMicros - 10 ^ 6 →
      ∃ shown, usageOverview rows userId window now = .ok shown) ∧
    ∀ summary points, usageOverview rows userId window now = .ok (summary, points) →
      ∃ since last, windowSpan window now = .ok (since, last) ∧
        Consistent rows userId window since summary points := by
  refine ⟨fun hlow hhigh => ?_, fun _ _ h => consistent_of_usageOverview hrows h⟩
  obtain ⟨⟨since, last⟩, hspan⟩ := windowSpan_isOk window hlow hhigh
  exact ⟨_, bind_eq_ok_iff.mpr ⟨_, hspan, bind_eq_ok_iff.mpr ⟨_, volumeSeries_eq hspan, rfl⟩⟩⟩

/-- Half a minute after the epoch. -/
def atThirty : Datetime := ⟨30 * 10 ^ 6, by decide, by decide⟩

/-- A success from the cache, a replay and a status nobody knows. -/
def threeRows : List (Request ℕ) :=
  [{ userId := 1, createdAt := 0, status := "ok", cacheHit := true },
    { userId := 1, createdAt := 30 * 10 ^ 6, status := "replayed", cacheHit := false },
    { userId := 1, createdAt := -60 * 10 ^ 6, status := "degraded", cacheHit := false }]

theorem usageOverview_consistent_threeRows :
    ∃ summary points, usageOverview threeRows 1 .«1h» atThirty = .ok (summary, points) ∧
      ∃ since last, windowSpan .«1h» atThirty = .ok (since, last) ∧
        Consistent threeRows 1 .«1h» since summary points := by
  obtain ⟨hthere, hconsistent⟩ :=
    usageOverview_consistent threeRows 1 .«1h» atThirty (by decide)
  obtain ⟨⟨summary, points⟩, hshown⟩ := hthere (by decide) (by decide)
  exact ⟨summary, points, hshown, hconsistent summary points hshown⟩

end

end Requests

end LlmGateway
