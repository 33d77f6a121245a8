import LlmGateway.Routing.Selection
import Mathlib.Algebra.Order.Ring.Rat
import Mathlib.Algebra.Order.Field.Basic
import Mathlib.Data.List.AList
import Mathlib.Data.List.Induction
import Mathlib.Tactic.Linarith
import Mathlib.Tactic.Positivity

/-!
# What a worker counts

The latency table `auto` ranks with, and the counters and histograms behind the
metrics endpoint. Both live in one process and are written by one call for each
thing that happens; what they hold is read off the things that have happened.
-/

namespace LlmGateway

namespace Metrics

open Selection

inductive RoutingMode where
  | complete
  | stream
  deriving DecidableEq, Repr

abbrev Dict (κ ν : Type) : Type := AList fun _ : κ => ν

/-! ## Latency -/

/-- `EWMA_ALPHA`. -/
def ewmaAlpha : ℚ := 3 / 10

/-- `MIN_SAMPLES`. -/
def minSamples : Nat := 5

/-- `LatencyTable`. One cannot be built with a weight outside of `(0, 1]`. -/
structure LatencyTable where
  alpha : ℚ := ewmaAlpha
  minSamples : Nat := Metrics.minSamples
  series : Dict (Pair × RoutingMode) (LatencySample ℚ) := ∅
  alpha_pos : 0 < alpha := by decide
  alpha_le : alpha ≤ 1 := by decide

namespace LatencyTable

def record (t : LatencyTable) (provider model : String) (mode : RoutingMode) (ms : ℚ) :
    LatencyTable :=
  let observation := max 0 ms
  let key := ((provider, model), mode)
  match t.series.lookup key with
  | none => { t with series := t.series.insert key ⟨observation, 1⟩ }
  | some previous =>
    let ewma := t.alpha * observation + (1 - t.alpha) * previous.ewmaMs
    { t with series := t.series.insert key ⟨ewma, previous.samples + 1⟩ }

def snapshot (t : LatencyTable) (mode : RoutingMode) : LatencySnapshot ℚ where
  entries pair := t.series.lookup (pair, mode)
  minSamples := t.minSamples

end LatencyTable

/-- One successful attempt. -/
structure Attempt where
  pair : Pair
  mode : RoutingMode
  ms : ℚ

def LatencyTable.take (t : LatencyTable) (attempt : Attempt) : LatencyTable :=
  t.record attempt.pair.1 attempt.pair.2 attempt.mode attempt.ms

/-- What the attempts of one series took. -/
def timesOf (pair : Pair) (mode : RoutingMode) (attempts : List Attempt) : List ℚ :=
  (attempts.filter fun attempt => attempt.pair = pair ∧ attempt.mode = mode).map
    fun attempt => max 0 attempt.ms

/-- The mean of some times with exponential weights, the last weighing most. -/
def ewma (alpha : ℚ) : List ℚ → Option (LatencySample ℚ)
  | [] => none
  | first :: rest =>
    some (rest.foldl
      (fun sample x => ⟨alpha * x + (1 - alpha) * sample.ewmaMs, sample.samples + 1⟩) ⟨first, 1⟩)

theorem ewma_append (alpha : ℚ) (times : List ℚ) (x : ℚ) :
    ewma alpha (times ++ [x]) = some (match ewma alpha times with
      | none => ⟨x, 1⟩
      | some sample => ⟨alpha * x + (1 - alpha) * sample.ewmaMs, sample.samples + 1⟩) := by
  cases times with
  | nil => rfl
  | cons first rest =>
    show some (List.foldl _ _ (rest ++ [x])) = _
    rw [List.foldl_append]
    rfl

theorem samples_ewma {alpha : ℚ} {times : List ℚ} {sample : LatencySample ℚ}
    (h : ewma alpha times = some sample) : sample.samples = times.length := by
  induction times using List.reverseRecOn generalizing sample with
  | nil => cases h
  | append_singleton times x ih =>
    rw [ewma_append] at h
    cases hbefore : ewma alpha times with
    | none =>
      rw [hbefore] at h
      obtain rfl := Option.some.inj h
      cases times with
      | nil => rfl
      | cons first rest => cases hbefore
    | some previous =>
      rw [hbefore] at h
      obtain rfl := Option.some.inj h
      rw [List.length_append, ← ih hbefore]
      rfl

/-- **A mean lies between** any bounds of what it is the mean of. -/
theorem ewma_between {alpha low high : ℚ} (hpos : 0 < alpha) (hle : alpha ≤ 1) {times : List ℚ}
    {sample : LatencySample ℚ} (h : ewma alpha times = some sample)
    (hlow : ∀ x ∈ times, low ≤ x) (hhigh : ∀ x ∈ times, x ≤ high) :
    low ≤ sample.ewmaMs ∧ sample.ewmaMs ≤ high := by
  induction times using List.reverseRecOn generalizing sample with
  | nil => cases h
  | append_singleton times x ih =>
    have hxlow : low ≤ x := hlow x (by simp)
    have hxhigh : x ≤ high := hhigh x (by simp)
    rw [ewma_append] at h
    cases hbefore : ewma alpha times with
    | none =>
      rw [hbefore] at h
      obtain rfl := Option.some.inj h
      exact ⟨hxlow, hxhigh⟩
    | some previous =>
      rw [hbefore] at h
      obtain rfl := Option.some.inj h
      obtain ⟨hplow, hphigh⟩ := ih hbefore (fun y hy => hlow y (List.mem_append_left _ hy))
        fun y hy => hhigh y (List.mem_append_left _ hy)
      constructor
      · show low ≤ alpha * x + (1 - alpha) * previous.ewmaMs
        nlinarith
      · show alpha * x + (1 - alpha) * previous.ewmaMs ≤ high
        nlinarith

/-- **A table is its series**: each holds the mean of its own attempts. -/
theorem lookup_take (attempts : List Attempt) (t : LatencyTable) (h : t.series = ∅) (pair : Pair)
    (mode : RoutingMode) :
    (attempts.foldl LatencyTable.take t).series.lookup (pair, mode) =
      ewma t.alpha (timesOf pair mode attempts) ∧
    (attempts.foldl LatencyTable.take t).alpha = t.alpha ∧
    (attempts.foldl LatencyTable.take t).minSamples = t.minSamples := by
  induction attempts using List.reverseRecOn generalizing pair mode with
  | nil =>
    refine ⟨?_, rfl, rfl⟩
    rw [List.foldl_nil, h]
    rfl
  | append_singleton attempts attempt ih =>
    rw [List.foldl_append, List.foldl_cons, List.foldl_nil]
    generalize hbefore : attempts.foldl LatencyTable.take t = before at ih
    have hstep : ∀ pair mode,
        (before.take attempt).series.lookup (pair, mode) =
          ewma t.alpha (timesOf pair mode (attempts ++ [attempt])) := by
      intro pair mode
      obtain ⟨hseries, halpha, -⟩ := ih pair mode
      have htimes : timesOf pair mode (attempts ++ [attempt]) =
          timesOf pair mode attempts ++
            if attempt.pair = pair ∧ attempt.mode = mode then [max 0 attempt.ms] else [] := by
        rw [timesOf, List.filter_append, List.map_append, ← timesOf]
        split
        next hours => rw [List.filter_cons_of_pos (by simpa using hours)]; rfl
        next hother => rw [List.filter_cons_of_neg (by simpa using hother)]; rfl
      rw [htimes]
      by_cases hours : attempt.pair = pair ∧ attempt.mode = mode
      · obtain ⟨rfl, rfl⟩ := hours
        rw [if_pos ⟨rfl, rfl⟩, ewma_append, ← hseries]
        unfold LatencyTable.take LatencyTable.record
        dsimp only
        rw [Prod.mk.eta]
        cases hprevious : before.series.lookup (attempt.pair, attempt.mode) with
        | none => exact AList.lookup_insert _
        | some previous =>
          rw [← halpha]
          exact AList.lookup_insert _
      · have hne : (pair, mode) ≠ (attempt.pair, attempt.mode) := by
          intro heq
          exact hours ⟨(Prod.mk.inj heq).1.symm, (Prod.mk.inj heq).2.symm⟩
        rw [if_neg hours, List.append_nil, ← hseries]
        unfold LatencyTable.take LatencyTable.record
        dsimp only
        rw [Prod.mk.eta]
        split <;> exact AList.lookup_insert_ne hne
    refine ⟨hstep pair mode, ?_, ?_⟩
    · refine Eq.trans ?_ (ih pair mode).2.1
      unfold LatencyTable.take LatencyTable.record
      dsimp only
      split <;> rfl
    · refine Eq.trans ?_ (ih pair mode).2.2
      unfold LatencyTable.take LatencyTable.record
      dsimp only
      split <;> rfl

/-! ## Histograms -/

/-- `DURATION_BUCKETS_MS`. -/
def durationBucketsMs : List ℚ :=
  [25, 50, 100, 250, 500, 1000, 2500, 5000, 10000, 30000, 60000]

/-- `_Histogram`. -/
structure Histogram where
  bounds : List ℚ
  counts : List ℕ
  totalMs : ℚ := 0
  count : ℕ := 0
  deriving DecidableEq, Repr

/-- One more in the first bucket that an observation fits into. -/
def bumpBucket (observation : ℚ) : List ℚ → List ℕ → List ℕ
  | bound :: bounds, count :: counts =>
    if observation ≤ bound then (count + 1) :: counts
    else count :: bumpBucket observation bounds counts
  | _, counts => counts

/-- The counts up to each bound, behind what has been counted. -/
def accumulate (running : ℕ) : List ℚ → List ℕ → List (ℚ × ℕ)
  | bound :: bounds, bucket :: counts =>
    (bound, running + bucket) :: accumulate (running + bucket) bounds counts
  | _, _ => []

namespace Histogram

def observe (h : Histogram) (ms : ℚ) : Histogram :=
  let observation := max 0 ms
  { h with
    count := h.count + 1
    totalMs := h.totalMs + observation
    counts := bumpBucket observation h.bounds h.counts }

/-- `cumulative`, the last row as a row of its own. -/
def cumulative (h : Histogram) : List (ℚ × ℕ) × ℕ := (accumulate 0 h.bounds h.counts, h.count)

end Histogram

/-- How many fall into each bucket. -/
def countsOf : List ℚ → List ℚ → List ℕ
  | [], _ => []
  | bound :: bounds, times =>
    times.countP (· ≤ bound) :: countsOf bounds (times.filter fun x => ¬ x ≤ bound)

def total (times : List ℚ) : ℚ := times.foldl (fun sum x => sum + x) 0

/-- The histogram of some times. -/
def histogramOf (bounds times : List ℚ) : Histogram where
  bounds := bounds
  counts := countsOf bounds times
  totalMs := total times
  count := times.length

theorem countsOf_nil (bounds : List ℚ) : countsOf bounds [] = List.replicate bounds.length 0 := by
  induction bounds with
  | nil => rfl
  | cons bound bounds ih =>
    rw [countsOf, List.filter_nil, ih]
    rfl

theorem countsOf_append (bounds times : List ℚ) (x : ℚ) :
    countsOf bounds (times ++ [x]) = bumpBucket x bounds (countsOf bounds times) := by
  induction bounds generalizing times with
  | nil => rfl
  | cons bound bounds ih =>
    rw [countsOf, countsOf, bumpBucket, List.countP_append, List.filter_append]
    by_cases hx : x ≤ bound
    · rw [if_pos hx, List.filter_cons_of_neg (by simpa using hx)]
      simp [hx]
    · rw [if_neg hx, List.filter_cons_of_pos (by simpa using hx), List.filter_nil, ih]
      simp [hx]

theorem observe_histogramOf (bounds times : List ℚ) (ms : ℚ) :
    (histogramOf bounds times).observe ms = histogramOf bounds (times ++ [max 0 ms]) := by
  have hcount : times.length + 1 = (times ++ [max 0 ms]).length := by simp
  have htotal : total times + max 0 ms = total (times ++ [max 0 ms]) := by
    rw [total, total, List.foldl_append]
    rfl
  unfold Histogram.observe histogramOf
  simp only [hcount, htotal, countsOf_append]

theorem accumulate_countsOf {bounds : List ℚ} (hsorted : bounds.Pairwise (· ≤ ·)) (running : ℕ)
    (times : List ℚ) :
    accumulate running bounds (countsOf bounds times) =
      bounds.map fun bound => (bound, running + times.countP (· ≤ bound)) := by
  induction bounds generalizing running times with
  | nil => rfl
  | cons bound bounds ih =>
    obtain ⟨hbelow, hsorted⟩ := List.pairwise_cons.mp hsorted
    rw [countsOf, accumulate, List.map_cons, ih hsorted]
    congr 1
    refine List.map_congr_left ?_
    intro later hlater
    have hsplit : times.countP (· ≤ later) =
        times.countP (· ≤ bound) +
          (times.filter fun x => ¬ x ≤ bound).countP (· ≤ later) := by
      have hboth : ∀ x, (decide (x ≤ later) && decide (x ≤ bound)) = decide (x ≤ bound) := by
        intro x
        by_cases hx : x ≤ bound
        · simp [hx, le_trans hx (hbelow later hlater)]
        · simp [hx]
      rw [List.countP_filter, List.countP_eq_countP_filter_add times (fun x => decide (x ≤ later))
        (fun x => decide (x ≤ bound)), List.countP_filter, List.countP_filter]
      simp only [hboth]
      congr 1
      refine List.countP_congr ?_
      intro x _
      simp
    rw [hsplit, Nat.add_assoc]

/-- **A row of a histogram** is the number of times that are not above its bound. -/
theorem cumulative_histogramOf {bounds : List ℚ} (hsorted : bounds.Pairwise (· ≤ ·))
    (times : List ℚ) :
    (histogramOf bounds times).cumulative =
      (bounds.map fun bound => (bound, times.countP (· ≤ bound)), times.length) := by
  have hrows := accumulate_countsOf hsorted 0 times
  simp only [Nat.zero_add] at hrows
  exact Prod.ext hrows rfl

/-! ## The registry -/

/-- `UNKNOWN_LABEL`. -/
def unknownLabel : String := "unknown"

/-- `NO_KEY_POOL`. -/
def noKeyPool : String := "none"

/-- `label or default`. -/
def orLabel (label : Option String) (default : String) : String :=
  match label with
  | none => default
  | some text => if text = "" then default else text

/-- `_RequestKey`. -/
structure RequestKey where
  provider : String
  model : String
  status : String
  keyPool : String
  deriving DecidableEq, Repr

/-- `_DurationKey`. -/
abbrev DurationKey : Type := String × RoutingMode

/-- `MetricsRegistry`. -/
structure MetricsRegistry where
  bounds : List ℚ
  requests : Dict RequestKey ℕ := ∅
  durations : Dict DurationKey Histogram := ∅
  breakerFailOpen : Dict Pair ℕ := ∅

/-- `counts[key] = counts.get(key, 0) + 1`. -/
def increment {κ : Type} [DecidableEq κ] (counts : Dict κ ℕ) (key : κ) : Dict κ ℕ :=
  counts.insert key ((counts.lookup key).getD 0 + 1)

namespace MetricsRegistry

/-- `__init__`. -/
def new (buckets : List ℚ) : MetricsRegistry where
  bounds := buckets.mergeSort

def recordRequest (m : MetricsRegistry) (provider model : Option String) (status : String)
    (keyPool : Option String) : MetricsRegistry :=
  { m with
    requests := increment m.requests
      { provider := orLabel provider unknownLabel, model := orLabel model unknownLabel, status
        keyPool := orLabel keyPool noKeyPool } }

def observeDuration (m : MetricsRegistry) (provider : Option String) (mode : RoutingMode)
    (ms : ℚ) : MetricsRegistry :=
  let key := (orLabel provider unknownLabel, mode)
  let histogram := (m.durations.lookup key).getD
    { bounds := m.bounds, counts := List.replicate m.bounds.length 0 }
  { m with durations := m.durations.insert key (histogram.observe ms) }

def recordBreakerFailOpen (m : MetricsRegistry) (provider model : String) : MetricsRegistry :=
  { m with breakerFailOpen := increment m.breakerFailOpen (provider, model) }

end MetricsRegistry

/-! ## What has happened -/

/-- One call of the registry. -/
inductive Event where
  | request (provider model : Option String) (status : String) (keyPool : Option String)
  | duration (provider : Option String) (mode : RoutingMode) (ms : ℚ)
  | failOpen (provider model : String)
  deriving DecidableEq, Repr

def MetricsRegistry.take (m : MetricsRegistry) : Event → MetricsRegistry
  | .request provider model status keyPool => m.recordRequest provider model status keyPool
  | .duration provider mode ms => m.observeDuration provider mode ms
  | .failOpen provider model => m.recordBreakerFailOpen provider model

namespace Event

/-- The series of requests it counts in. -/
def request? : Event → Option RequestKey
  | .request provider model status keyPool =>
    some { provider := orLabel provider unknownLabel, model := orLabel model unknownLabel, status
           keyPool := orLabel keyPool noKeyPool }
  | _ => none

/-- The series of durations it is observed in, and as what. -/
def duration? : Event → Option (DurationKey × ℚ)
  | .duration provider mode ms => some ((orLabel provider unknownLabel, mode), max 0 ms)
  | _ => none

def failOpen? : Event → Option Pair
  | .failOpen provider model => some (provider, model)
  | _ => none

end Event

/-- The durations of one series. -/
def observed (key : DurationKey) (events : List Event) : List ℚ :=
  (events.filterMap Event.duration?).filterMap fun (at_, x) => if at_ = key then some x else none

/-- A counter that has been incremented so often. -/
def counter (n : ℕ) : Option ℕ := if n = 0 then none else some n

theorem lookup_increment {κ : Type} [DecidableEq κ] {counts : Dict κ ℕ} {key : κ} {keys : List κ}
    (h : ∀ key, counts.lookup key = counter (keys.countP (· = key))) (other : κ) :
    (increment counts key).lookup other = counter ((keys ++ [key]).countP (· = other)) := by
  by_cases hkey : other = key
  · subst hkey
    have hcount : (keys ++ [other]).countP (· = other) = keys.countP (· = other) + 1 := by simp
    rw [increment, AList.lookup_insert, h, hcount, counter, counter, if_neg (Nat.succ_ne_zero _)]
    by_cases hzero : keys.countP (· = other) = 0
    · rw [if_pos hzero, hzero]
      rfl
    · rw [if_neg hzero]
      rfl
  · have hcount : (keys ++ [key]).countP (· = other) = keys.countP (· = other) := by
      simp [Ne.symm hkey]
    rw [increment, AList.lookup_insert_ne hkey, h, hcount]

/-- **The registry tells what has happened.** -/
structure Tells (m : MetricsRegistry) (bounds : List ℚ) (events : List Event) : Prop where
  same : m.bounds = bounds
  requests : ∀ key,
    m.requests.lookup key = counter ((events.filterMap Event.request?).countP (· = key))
  durations : ∀ key, m.durations.lookup key =
    if observed key events = [] then none else some (histogramOf bounds (observed key events))
  failOpen : ∀ key, m.breakerFailOpen.lookup key =
    counter ((events.filterMap Event.failOpen?).countP (· = key))

theorem tells_new (buckets : List ℚ) :
    Tells (MetricsRegistry.new buckets) buckets.mergeSort [] where
  same := rfl
  requests _ := rfl
  durations _ := rfl
  failOpen _ := rfl

/-- What an event has no part in. -/
theorem filterMap_behind {β : Type} {f : Event → Option β} {event : Event} (h : f event = none)
    {events : List Event} : (events ++ [event]).filterMap f = events.filterMap f := by
  rw [List.filterMap_append, List.filterMap_cons_none h, List.filterMap_nil, List.append_nil]

theorem Tells.take {m : MetricsRegistry} {bounds : List ℚ} {events : List Event}
    (h : Tells m bounds events) (event : Event) :
    Tells (m.take event) bounds (events ++ [event]) := by
  cases event with
  | request provider model status keyPool =>
    refine ⟨h.same, ?_, ?_, ?_⟩
    · intro key
      rw [List.filterMap_append]
      exact lookup_increment h.requests key
    · intro key
      rw [observed, filterMap_behind rfl]
      exact h.durations key
    · intro key
      rw [filterMap_behind rfl]
      exact h.failOpen key
  | duration provider mode ms =>
    refine ⟨h.same, ?_, ?_, ?_⟩
    · intro key
      rw [filterMap_behind rfl]
      exact h.requests key
    · intro key
      let at_ : DurationKey := (orLabel provider unknownLabel, mode)
      have hobserved : observed key (events ++ [.duration provider mode ms]) =
          observed key events ++ if at_ = key then [max 0 ms] else [] := by
        rw [observed, List.filterMap_append, List.filterMap_append, ← observed]
        congr 1
        by_cases hkey : at_ = key
        · simp [Event.duration?, at_, hkey]
        · simp [Event.duration?, at_, hkey]
      rw [hobserved]
      by_cases hkey : at_ = key
      · subst hkey
        rw [if_pos rfl, if_neg (by simp)]
        show (m.durations.insert at_ _).lookup at_ = _
        rw [AList.lookup_insert, h.durations, h.same]
        by_cases hnone : observed at_ events = []
        · rw [if_pos hnone, hnone, ← observe_histogramOf, histogramOf, countsOf_nil]
          rfl
        · rw [if_neg hnone, ← observe_histogramOf]
          rfl
      · rw [if_neg hkey, List.append_nil, ← h.durations]
        exact AList.lookup_insert_ne (Ne.symm hkey)
    · intro key
      rw [filterMap_behind rfl]
      exact h.failOpen key
  | failOpen provider model =>
    refine ⟨h.same, ?_, ?_, ?_⟩
    · intro key
      rw [filterMap_behind rfl]
      exact h.requests key
    · intro key
      rw [observed, filterMap_behind rfl]
      exact h.durations key
    · intro key
      rw [List.filterMap_append]
      exact lookup_increment h.failOpen key

/-- And tells no more than that, whatever happens. -/
theorem tells_run (buckets : List ℚ) (events : List Event) :
    Tells (events.foldl MetricsRegistry.take (.new buckets)) buckets.mergeSort events := by
  induction events using List.reverseRecOn with
  | nil => exact tells_new buckets
  | append_singleton events event ih =>
    rw [List.foldl_append]
    exact ih.take event

end Metrics

end LlmGateway
