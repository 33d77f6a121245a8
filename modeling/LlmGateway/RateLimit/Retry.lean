import LlmGateway.Effects.Play
import LlmGateway.RateLimit.Admission
import Mathlib.Tactic.FieldSimp

/-!
# When a retry is accepted

The answer a refused request is given, `retry_after_s`, against what becomes of
the counters by then, when the user sends nothing else. A window's interpolated
count decays; the instant at which it makes room for one more request is solved
from the two buckets.
-/

namespace LlmGateway

namespace RateLimit

open Effects
open Desk (elapsedFraction_mem mapM_counted tally)

/-! ## A window's decay -/

namespace Counted

variable {c : Counted} {now t : Seconds}

/-- The interpolated count of what was read at an instant. -/
structure ReadAt (c : Counted) (now : Seconds) : Prop where
  start : c.start = c.name.start now
  previous : 0 ≤ c.previous
  current : 1 ≤ c.current
  count : c.count = c.previous * (1 - elapsedFraction c.name now) + c.current

/-- What a retry would be counted as later, the refused request given back. -/
def retryCount (c : Counted) (t : Seconds) : ℚ :=
  if c.name.start t = c.start then c.previous * (1 - elapsedFraction c.name t) + c.current
  else if c.name.start t = c.start + c.widthS then
    (c.current - 1) * (1 - elapsedFraction c.name t) + 1
  else 1

/-- The instant at which a window that is over its limit makes room for one request. -/
def clears (c : Counted) : Seconds :=
  if c.current ≤ c.limit then c.start + (c.previous + c.current - c.limit) / c.previous * c.widthS
  else c.start + c.widthS + (1 - (c.limit - 1) / (c.current - 1)) * c.widthS

end Counted

namespace GatewayWindow

/-- Buckets open at multiples of the width. -/
theorem start_cases (w : GatewayWindow) {now t : Seconds} (h : now ≤ t) :
    w.start t = w.start now ∨ w.start t = w.start now + w.widthS ∨
      w.start now + 2 * w.widthS ≤ w.start t := by
  have hpos := w.widthS_pos
  have hpos' : (0 : ℚ) < w.widthS := by exact_mod_cast hpos
  have hfloor : ⌊now / w.widthS⌋ ≤ ⌊t / w.widthS⌋ := Int.floor_le_floor (by gcongr)
  unfold start
  rcases eq_or_lt_of_le hfloor with heq | hlt
  · exact .inl (by rw [heq])
  · rcases eq_or_lt_of_le (Int.add_one_le_of_lt hlt) with heq | hlt'
    · refine .inr (.inl ?_)
      rw [← heq]
      ring
    · refine .inr (.inr ?_)
      have hle : ⌊now / w.widthS⌋ + 2 ≤ ⌊t / w.widthS⌋ := by omega
      nlinarith

theorem start_nonneg (w : GatewayWindow) {now : Seconds} (h : 0 ≤ now) : 0 ≤ w.start now := by
  have hpos := w.widthS_pos
  have hpos' : (0 : ℚ) < w.widthS := by exact_mod_cast hpos
  have hfloor : 0 ≤ ⌊now / w.widthS⌋ := Int.floor_nonneg.mpr (by positivity)
  exact mul_nonneg hfloor hpos.le

/-- The share of a bucket that is over, from the instant. -/
theorem elapsedFraction_le_iff (w : GatewayWindow) (t : Seconds) (x : ℚ) :
    x ≤ elapsedFraction w t ↔ w.start t + x * w.widthS ≤ t := by
  have hpos : (0 : ℚ) < w.widthS := by exact_mod_cast w.widthS_pos
  rw [elapsedFraction, le_div_iff₀ hpos]
  constructor <;> intro h <;> linarith

end GatewayWindow

namespace Counted

variable {c : Counted} {now t : Seconds}

theorem ReadAt.current_le (h : c.ReadAt now) : (c.current : ℚ) ≤ c.count := by
  have hprevious : (0 : ℚ) ≤ c.previous := by exact_mod_cast h.previous
  have hfraction := (elapsedFraction_mem c.name now).2
  have hdecayed : 0 ≤ (c.previous : ℚ) * (1 - elapsedFraction c.name now) :=
    mul_nonneg hprevious (by linarith)
  rw [h.count]
  linarith

/-- In the next bucket the decayed count is no more than what it was before the retry. -/
theorem ReadAt.carried_le (h : c.ReadAt now) (t : Seconds) :
    ((c.current : ℚ) - 1) * (1 - elapsedFraction c.name t) + 1 ≤ c.current := by
  have hcurrent : (1 : ℚ) ≤ c.current := by exact_mod_cast h.current
  have hfraction := (elapsedFraction_mem c.name t).1
  have hle : ((c.current : ℚ) - 1) * (1 - elapsedFraction c.name t) ≤ c.current - 1 :=
    mul_le_of_le_one_right (by linarith) (by linarith)
  linarith

/-- Once the bucket is not open any more, a count within the limit needs no decay. -/
theorem retryCount_le_of_closed (h : c.ReadAt now) (hlimit : 0 < c.limit)
    (hcurrent : c.current ≤ c.limit) (hclosed : c.name.start t ≠ c.start) :
    c.retryCount t ≤ c.limit := by
  have hlimit' : (1 : ℚ) ≤ c.limit := by exact_mod_cast hlimit
  have hcurrent' : (c.current : ℚ) ≤ c.limit := by exact_mod_cast hcurrent
  rw [retryCount, if_neg hclosed]
  split
  · exact (h.carried_le t).trans hcurrent'
  · exact hlimit'

/-- A window that is within its limit stays so. -/
theorem retryCount_le_of_within (h : c.ReadAt now) (ht : now ≤ t) (hlimit : 0 < c.limit)
    (hwithin : c.count ≤ c.limit) : c.retryCount t ≤ c.limit := by
  by_cases hopen : c.name.start t = c.start
  · have hprevious : (0 : ℚ) ≤ c.previous := by exact_mod_cast h.previous
    have hpos : (0 : ℚ) < c.name.widthS := by exact_mod_cast c.name.widthS_pos
    have hfraction : elapsedFraction c.name now ≤ elapsedFraction c.name t := by
      rw [elapsedFraction, elapsedFraction, hopen, h.start]
      gcongr
    have hdecays : (c.previous : ℚ) * (1 - elapsedFraction c.name t) ≤
        c.previous * (1 - elapsedFraction c.name now) := by gcongr
    have hcount := h.count
    rw [retryCount, if_pos hopen]
    linarith
  · have hcurrent : c.current ≤ c.limit := by exact_mod_cast h.current_le.trans hwithin
    exact retryCount_le_of_closed h hlimit hcurrent hopen

/-- What is left of the limit is there before the bucket closes, if the bucket alone is within
it. -/
theorem clears_le_next (hcurrent : c.current ≤ c.limit)
    (hprevious : 0 < c.previous) : c.clears ≤ c.start + c.widthS := by
  have hpos : (0 : ℚ) < c.widthS := by exact_mod_cast c.name.widthS_pos
  have hprevious' : (0 : ℚ) < c.previous := by exact_mod_cast hprevious
  have hcurrent' : (c.current : ℚ) ≤ c.limit := by exact_mod_cast hcurrent
  have hneeded : ((c.previous : ℚ) + c.current - c.limit) / c.previous ≤ 1 := by
    rw [div_le_one hprevious']
    linarith
  rw [clears, if_pos hcurrent]
  nlinarith

/-- The share of the limit the bucket takes with it into the next. -/
theorem needed_mem (hlimit : 0 < c.limit) (hover : c.limit < c.current) :
    0 ≤ 1 - ((c.limit : ℚ) - 1) / (c.current - 1) ∧
      1 - ((c.limit : ℚ) - 1) / (c.current - 1) ≤ 1 := by
  have hlimit' : (1 : ℚ) ≤ c.limit := by exact_mod_cast hlimit
  have hover' : (c.limit : ℚ) < c.current := by exact_mod_cast hover
  have hpos : (0 : ℚ) < c.current - 1 := by linarith
  have hle : ((c.limit : ℚ) - 1) / (c.current - 1) ≤ 1 := by
    rw [div_le_one hpos]
    linarith
  have hnonneg : 0 ≤ ((c.limit : ℚ) - 1) / (c.current - 1) := div_nonneg (by linarith) hpos.le
  constructor <;> linarith

/-- The bucket before decays: the room is there from an instant in this bucket on. -/
theorem retryCount_le_iff_of_current_le (h : c.ReadAt now) (ht : now ≤ t) (hlimit : 0 < c.limit)
    (hcurrent : c.current ≤ c.limit) (hprevious : 0 < c.previous) :
    c.retryCount t ≤ c.limit ↔ c.clears ≤ t := by
  have hprevious' : (0 : ℚ) < c.previous := by exact_mod_cast hprevious
  by_cases hopen : c.name.start t = c.start
  · rw [retryCount, if_pos hopen, clears, if_pos hcurrent, ← hopen, widthS,
      ← c.name.elapsedFraction_le_iff t, div_le_iff₀ hprevious']
    constructor <;> intro hle <;> linarith
  · refine iff_of_true (retryCount_le_of_closed h hlimit hcurrent hopen) ?_
    have hnext := clears_le_next hcurrent hprevious
    have hstart : c.start + c.widthS ≤ c.name.start t := by
      have hw := c.name.widthS_pos
      have hs := h.start
      rcases c.name.start_cases ht with heq | heq | hle
      · exact absurd (heq.trans h.start.symm) hopen
      · rw [hs, widthS]
        omega
      · rw [hs, widthS]
        omega
    have hstart' : ((c.start : ℚ) + c.widthS) ≤ c.name.start t := by exact_mod_cast hstart
    exact hnext.trans (hstart'.trans (c.name.start_le t))

/-- The bucket is over its limit by itself: the room comes while it is the one before. -/
theorem retryCount_le_iff_of_lt (h : c.ReadAt now) (ht : now ≤ t) (hlimit : 0 < c.limit)
    (hover : c.limit < c.current) : c.retryCount t ≤ c.limit ↔ c.clears ≤ t := by
  have hlimit' : (1 : ℚ) ≤ c.limit := by exact_mod_cast hlimit
  have hover' : (c.limit : ℚ) < c.current := by exact_mod_cast hover
  have hprevious' : (0 : ℚ) ≤ c.previous := by exact_mod_cast h.previous
  have hpos : (0 : ℚ) < c.widthS := by exact_mod_cast c.name.widthS_pos
  obtain ⟨hneeded, hneeded'⟩ := needed_mem hlimit hover
  have hclears : c.clears = c.start + c.widthS +
      (1 - ((c.limit : ℚ) - 1) / (c.current - 1)) * c.widthS := by
    rw [clears, if_neg (by omega)]
  rcases c.name.start_cases ht with hopen | hnext | hlater
  · -- While its bucket is open it stays over the limit.
    have hopen' : c.name.start t = c.start := hopen.trans h.start.symm
    have hfraction := (elapsedFraction_mem c.name t).2
    have hdecayed : 0 ≤ (c.previous : ℚ) * (1 - elapsedFraction c.name t) :=
      mul_nonneg hprevious' (by linarith)
    have hend := c.name.lt_start_add t
    rw [hopen'] at hend
    have hlate : t < c.clears := by
      rw [hclears]
      have hrest := mul_nonneg hneeded hpos.le
      rw [widthS] at *
      linarith
    refine iff_of_false ?_ (not_le.mpr hlate)
    rw [retryCount, if_pos hopen']
    linarith
  · -- In the next one it decays with the fraction of that bucket that is past.
    have hne : c.name.start t ≠ c.start := by
      have hw := c.name.widthS_pos
      rw [hnext, h.start]
      omega
    have hnext' : c.name.start t = c.start + c.widthS := by rw [hnext, h.start, widthS]
    have hcarried : (0 : ℚ) < c.current - 1 := by linarith
    have hstart : (c.start : ℚ) + c.widthS = c.name.start t := by
      rw [hnext']
      push_cast
      ring
    rw [retryCount, if_neg hne, if_pos hnext', hclears, hstart, widthS,
      ← c.name.elapsedFraction_le_iff t, sub_le_comm, le_div_iff₀ hcarried]
    constructor <;> intro hle <;> linarith
  · have hw := c.name.widthS_pos
    have hlater' : c.start + 2 * c.widthS ≤ c.name.start t := by rw [h.start, widthS]; exact hlater
    have hlater'' : (c.start : ℚ) + 2 * c.widthS ≤ c.name.start t := by exact_mod_cast hlater'
    have hwidth : c.widthS = c.name.widthS := rfl
    have hlate : c.clears ≤ t := by
      have hstart := c.name.start_le t
      rw [hclears]
      nlinarith
    refine iff_of_true ?_ hlate
    rw [retryCount, if_neg (by omega), if_neg (by omega)]
    exact hlimit'

/-- A window that is over its limit while its bucket is not has the one before to thank. -/
theorem ReadAt.previous_pos (h : c.ReadAt now) (hcurrent : c.current ≤ c.limit)
    (hover : (c.limit : ℚ) < c.count) : 0 < c.previous := by
  refine lt_of_le_of_ne h.previous fun hzero => ?_
  have hcurrent' : (c.current : ℚ) ≤ c.limit := by exact_mod_cast hcurrent
  have hcount := h.count
  rw [← hzero] at hcount
  simp only [Int.cast_zero, zero_mul, zero_add] at hcount
  linarith

/-- A window that is over its limit makes room exactly from `clears` on. -/
theorem retryCount_le_iff (h : c.ReadAt now) (ht : now ≤ t) (hlimit : 0 < c.limit)
    (hover : (c.limit : ℚ) < c.count) : c.retryCount t ≤ c.limit ↔ c.clears ≤ t := by
  rcases le_or_gt c.current c.limit with hcurrent | hcurrent
  · exact retryCount_le_iff_of_current_le h ht hlimit hcurrent (h.previous_pos hcurrent hover)
  · exact retryCount_le_iff_of_lt h ht hlimit hcurrent

/-- The answer is the whole second in which the window clears, one at the least. -/
theorem retryAfterS_eq (h : c.ReadAt now) (hlimit : 0 < c.limit) (hover : (c.limit : ℚ) < c.count) :
    retryAfterS c now = atLeastOne (c.clears - now) := by
  rcases le_or_gt c.current c.limit with hcurrent | hcurrent
  · have hprevious := h.previous_pos hcurrent hover
    have hprevious' : (0 : ℚ) < c.previous := by exact_mod_cast hprevious
    have hcurrent' : (c.current : ℚ) ≤ c.limit := by exact_mod_cast hcurrent
    have hneeded : ((c.previous : ℚ) + c.current - c.limit) / c.previous ≤ 1 := by
      rw [div_le_one hprevious']
      linarith
    rw [retryAfterS, if_pos ⟨hprevious, hcurrent⟩, clears, if_pos hcurrent]
    dsimp only
    rw [if_pos hneeded]
  · have hcarried : max 0 (c.current - 1) = c.current - 1 := max_eq_right (by omega)
    have hnext : retryNextBucketS c now = atLeastOne ((c.start + c.widthS : ℤ) +
        (1 - ((c.limit - 1 : ℤ) : ℚ) / (c.current - 1 : ℤ)) * c.widthS - now) := by
      rw [retryNextBucketS, hcarried]
      exact if_pos (by omega)
    rw [retryAfterS, if_neg (by omega), hnext, clears, if_neg (by omega)]
    push_cast
    rfl

end Counted

/-! ## One request after the other -/

/-- Redis, as far as one user's counters, and the time. -/
structure Server where
  clock : Seconds
  buckets : Key → Option Bucket

namespace Server

variable (s : Server)

/-- A bucket that has not expired. -/
def live (k : Key) : Option Bucket :=
  (s.buckets k).filter fun b => b.deadline.all fun t => decide (s.clock < t)

/-- What a bucket reads; an absent one reads zero. -/
def value (k : Key) : ℤ := ((s.live k).map (·.value)).getD 0

def put (k : Key) (b : Option Bucket) : Server :=
  { s with buckets := Function.update s.buckets k b }

/-- What an `INCR` or a `DECR` leaves: a counter it creates has no TTL. -/
def add (k : Key) (n : ℤ) : Server := s.put k (some ⟨s.value k + n, (s.live k).bind (·.deadline)⟩)

/-- What a command is answered, and what it leaves. -/
def answer (s : Server) : (q : Ask) → Ans q × Server
  | .now => (s.clock, s)
  | .incr k => (.ok (s.value k + 1), s.add k 1)
  | .expire k ttl =>
    (.ok (s.live k).isSome,
      s.put k ((s.live k).map fun b => { b with deadline := some (s.clock + ttl) }))
  | .get k => (.ok ((s.live k).map (·.value)), s)
  | .decr k => (.ok (s.value k - 1), s.add k (-1))
  | .returned _ => ((), s)

/-- A request at the limiter: what it is told, and what it leaves. -/
def request (tier : GatewayLimits) : Except Fault Unit × Server :=
  (enforce (some tier)).eval answer s

/-- The same counters at another time. -/
def at' (t : Seconds) : Server := { s with clock := t }

variable {s}

/-! ### Counters -/

/-- The open bucket of a window, and the one before it. -/
def open' (s : Server) (w : GatewayWindow) : Key := ⟨w, w.start s.clock⟩

def before (s : Server) (w : GatewayWindow) : Key := ⟨w, max 0 (w.start s.clock - w.widthS)⟩

theorem live_put (k k' : Key) (b : Option Bucket) :
    (s.put k b).live k' =
      if k' = k then b.filter fun b => b.deadline.all fun t => decide (s.clock < t)
      else s.live k' := by
  rw [live, put]
  by_cases hk : k' = k
  · subst hk
    simp
  · simp [hk, live]

theorem put_put (k : Key) (b b' : Option Bucket) : (s.put k b).put k b' = s.put k b' := by
  simp [put]

/-- What has not expired does not expire by being counted. -/
theorem live_add (k k' : Key) (n : ℤ) :
    (s.add k n).live k' =
      if k' = k then some ⟨s.value k + n, (s.live k).bind (·.deadline)⟩ else s.live k' := by
  rw [add, live_put]
  by_cases hk : k' = k
  · rw [if_pos hk, if_pos hk, Option.filter_some, if_pos]
    cases hlive : s.live k with
    | none => rfl
    | some b => exact (Option.filter_eq_some_iff.mp hlive).2
  · rw [if_neg hk, if_neg hk]

theorem value_add (k k' : Key) (n : ℤ) :
    (s.add k n).value k' = if k' = k then s.value k + n else s.value k' := by
  rw [value, live_add]
  by_cases hk : k' = k
  · simp [hk]
  · simp [hk, value]

/-- A window's bucket once a request has been counted into it. -/
def charge (s : Server) (w : GatewayWindow) : Server :=
  s.put (s.open' w)
    (some ⟨s.value (s.open' w) + 1, some (s.clock + (w.widthS * ttlMultiplier : ℤ))⟩)

theorem answer_expire_add (w : GatewayWindow) :
    ((s.add (s.open' w) 1).answer (.expire (s.open' w) (w.widthS * ttlMultiplier))).2 =
      s.charge w := by
  have hclock : (s.add (s.open' w) 1).clock = s.clock := rfl
  rw [answer, live_add, if_pos rfl]
  dsimp only
  rw [hclock, Option.map_some, add, put_put]
  rfl

theorem live_charge (w : GatewayWindow) (k : Key) :
    (s.charge w).live k = if k = s.open' w then
        some ⟨s.value k + 1, some (s.clock + (w.widthS * ttlMultiplier : ℤ))⟩
      else s.live k := by
  rw [charge, live_put]
  by_cases hk : k = s.open' w
  · have hpos : (0 : ℚ) < (w.widthS * ttlMultiplier : ℤ) := by
      have := w.widthS_pos
      rw [ttlMultiplier]
      exact_mod_cast (by omega : 0 < w.widthS * 2)
    rw [if_pos hk, if_pos hk, Option.filter_some, if_pos (by simpa using hpos), hk]
  · rw [if_neg hk, if_neg hk]

theorem value_charge (w : GatewayWindow) (k : Key) :
    (s.charge w).value k = if k = s.open' w then s.value k + 1 else s.value k := by
  rw [value, live_charge]
  by_cases hk : k = s.open' w
  · simp [hk]
  · simp [hk, value]

/-- What the `GET` of a window reads, its own request counted. -/
def readBefore (s : Server) (w : GatewayWindow) : ℤ := (s.charge w).value (s.before w)

theorem readBefore_eq (w : GatewayWindow) :
    s.readBefore w =
      if s.before w = s.open' w then s.value (s.before w) + 1 else s.value (s.before w) := by
  rw [readBefore, value_charge]

/-- What a request reads in a window. -/
def seen (s : Server) (check : Check) : Counted :=
  tally s.clock (check, s.value (s.open' check.1) + 1, s.readBefore check.1)

/-- Another window's counters are not touched. -/
theorem seen_charge {w : GatewayWindow} {check : Check} (h : check.1 ≠ w) :
    (s.charge w).seen check = s.seen check := by
  have hother : ∀ n, (⟨check.1, n⟩ : Key) ≠ s.open' w := fun n heq => h (congrArg Key.window heq)
  have hopen : (s.charge w).open' check.1 = s.open' check.1 := rfl
  have hbefore : (s.charge w).before check.1 = s.before check.1 := rfl
  have hclock : (s.charge w).clock = s.clock := rfl
  have hvalue : ∀ n, (s.charge w).value ⟨check.1, n⟩ = s.value ⟨check.1, n⟩ := by
    intro n
    rw [value_charge, if_neg (hother n)]
  rw [seen, seen, readBefore_eq, readBefore_eq, hopen, hbefore, hclock, open', before, hvalue,
    hvalue]

/-! ### A request -/

/-- The windows of a batch, each counted. -/
def chargeAll (s : Server) (ws : List GatewayWindow) : Server := ws.foldl charge s

/-- The batch counts the request in every window. -/
theorem eval_execute (checks : List Check) (hnodup : (checks.map (·.1)).Nodup) (s : Server) :
    ∃ replies results, (execute s.clock checks).eval answer s =
        (.ok replies, s.chargeAll (checks.map (·.1))) ∧
      replies.mapM Replies.results = .ok results ∧
      (checks.zip results).map (tally s.clock) = checks.map s.seen ∧
      results.length = checks.length := by
  induction checks generalizing s with
  | nil => exact ⟨[], [], rfl, rfl, rfl, rfl⟩
  | cons check checks ih =>
    obtain ⟨w, limit⟩ := check
    rw [List.map_cons, List.nodup_cons] at hnodup
    obtain ⟨replies, results, heval, hresults, htally, hlength⟩ := ih hnodup.2 (s.charge w)
    have hclock : (s.charge w).clock = s.clock := rfl
    rw [hclock] at heval htally
    let first : Replies := ⟨.ok (s.value (s.open' w) + 1), .ok true,
      .ok (((s.charge w).live (s.before w)).map (·.value))⟩
    refine ⟨first :: replies, (s.value (s.open' w) + 1, s.readBefore w) :: results, ?_, ?_, ?_, ?_⟩
    · have hlive : ((s.add (s.open' w) 1).live (s.open' w)).isSome = true := by
        rw [live_add, if_pos rfl]
        rfl
      have hfirst : (execute s.clock ((w, limit) :: checks)).eval answer s =
          ((execute s.clock checks) >>= fun replies => pure (first :: replies)).eval answer
            (s.charge w) := by
        show ((execute s.clock checks) >>= fun replies => pure (Replies.mk
            (.ok (s.value (s.open' w) + 1)) (.ok ((s.add (s.open' w) 1).live (s.open' w)).isSome)
            (.ok ((((s.add (s.open' w) 1).answer
              (.expire (s.open' w) (w.widthS * ttlMultiplier))).2.live (s.before w)).map
                (·.value))) :: replies)).eval answer
          ((s.add (s.open' w) 1).answer (.expire (s.open' w) (w.widthS * ttlMultiplier))).2 = _
        rw [answer_expire_add, hlive]
      rw [hfirst, Prog.eval_bind_of_ok heval]
      rfl
    · rw [List.mapM_cons, hresults]
      rfl
    · -- The windows behind it read other buckets.
      have hseen : checks.map (s.charge w).seen = checks.map s.seen := by
        refine List.map_congr_left fun check hcheck => seen_charge ?_
        rintro rfl
        exact hnodup.1 (List.mem_map.mpr ⟨check, hcheck, rfl⟩)
      rw [List.zip_cons_cons, List.map_cons, List.map_cons, htally, hseen]
      rfl
    · simpa using hlength

/-- `_count`. -/
theorem eval_count {checks : List Check} (hnodup : (checks.map (·.1)).Nodup) (s : Server) :
    (count checks s.clock).eval answer s =
      (.ok (checks.map s.seen), s.chargeAll (checks.map (·.1))) := by
  obtain ⟨replies, results, heval, hresults, htally, -⟩ := eval_execute checks hnodup s
  rw [count, Prog.eval_bind_of_ok heval, hresults]
  show (Prog.ofExcept _ : Eff (List Counted)).eval answer _ = _
  rw [mapM_counted, htally]
  rfl

/-- The counters a refusal gives back. -/
def giveBackAll (s : Server) (cs : List Counted) : Server :=
  cs.foldl (fun s c => s.add c.key (-1)) s

theorem eval_refund (cs : List Counted) (s : Server) :
    (refund cs).eval answer s = (.ok (), s.giveBackAll cs) := by
  have hloop : ∃ left, (giveBack cs).eval answer s = (.ok left, s.giveBackAll cs) := by
    induction cs generalizing s with
    | nil => exact ⟨[], rfl⟩
    | cons c cs ih =>
      obtain ⟨left, heval⟩ := ih (s.add c.key (-1))
      refine ⟨.ok (s.value c.key - 1) :: left, ?_⟩
      show ((giveBack cs) >>= fun rest => pure _).eval answer (s.add c.key (-1)) = _
      rw [Prog.eval_bind_of_ok heval]
      rfl
  obtain ⟨left, heval⟩ := hloop
  rw [refund, Prog.eval_bind_of_ok heval]
  rfl

/-- The window whose limit a request is over, the first of them. -/
def refusing (s : Server) (tier : GatewayLimits) : Option Counted :=
  (tier.checks.map s.seen).find? fun c => (c.limit : ℚ) < c.count

/-- **What a request does**: it passes if no window is over its limit, and else is given back. -/
theorem request_eq (tier : GatewayLimits) (s : Server) :
    s.request tier = match s.refusing tier with
      | none => (.ok (), s.chargeAll (tier.checks.map (·.1)))
      | some c => (.error (tooManyRequests c s.clock),
          (s.chargeAll (tier.checks.map (·.1))).giveBackAll (tier.checks.map s.seen)) := by
  have hnodup : (tier.checks.map (·.1)).Nodup := by simp [GatewayLimits.checks]
  have hcount : ((count tier.checks s.clock).attempt : Eff _).eval answer s =
      (.ok (.ok (tier.checks.map s.seen)), s.chargeAll (tier.checks.map (·.1))) := by
    rw [Prog.eval_attempt, eval_count hnodup]
  show ((count tier.checks s.clock).attempt >>= _).eval answer s = _
  rw [Prog.eval_bind_of_ok hcount]
  show (raiseIfOver (tier.checks.map s.seen) s.clock).eval answer _ = _
  cases hrefusing : s.refusing tier with
  | none =>
    unfold refusing at hrefusing
    rw [raiseIfOver, hrefusing]
    rfl
  | some c =>
    unfold refusing at hrefusing
    rw [raiseIfOver, hrefusing]
    exact Prog.eval_bind_of_ok (eval_refund _ _) _

/-! ### What a refused request leaves -/

/-- **What the limiter keeps**: no count is negative, no bucket is of a time to come, and none
expires before the one behind it has closed. -/
def Kept (s : Server) : Prop := ∀ k b, s.live k = some b →
  0 ≤ b.value ∧ k.start ≤ k.window.start s.clock ∧
    ∀ t, b.deadline = some t → (k.start + 2 * k.window.widthS : ℚ) ≤ t

theorem Kept.value_nonneg (h : s.Kept) (k : Key) : 0 ≤ s.value k := by
  rw [value]
  cases hk : s.live k with
  | none => exact le_refl 0
  | some b => exact (h k b hk).1

theorem Kept.value_of_ahead (h : s.Kept) {k : Key} (hk : k.window.start s.clock < k.start) :
    s.live k = none := by
  cases hlive : s.live k with
  | none => rfl
  | some b => exact absurd (h k b hlive).2.1 (not_le.mpr hk)

theorem readAt_seen (h : s.Kept) (check : Check) : (s.seen check).ReadAt s.clock where
  start := rfl
  previous := by
    show 0 ≤ s.readBefore check.1
    have hbefore := h.value_nonneg (s.before check.1)
    rw [readBefore_eq]
    split <;> omega
  current := by
    show 1 ≤ s.value (s.open' check.1) + 1
    have hopen := h.value_nonneg (s.open' check.1)
    omega
  count := rfl

/-- Later, what has expired by then is not read. -/
theorem live_at {t : Seconds} (ht : s.clock ≤ t) (k : Key) :
    (s.at' t).live k = (s.live k).filter fun b => b.deadline.all fun d => decide (t < d) := by
  rw [live, live, at', Option.filter_filter]
  refine congrArg (fun p => Option.filter p (s.buckets k)) (funext fun b => ?_)
  cases b.deadline with
  | none => rfl
  | some d =>
    simp only [Option.all_some]
    by_cases hd : t < d
    · simp [hd, lt_of_le_of_lt ht hd]
    · simp [hd]

/-- What a refused request leaves. -/
def refused (s : Server) (tier : GatewayLimits) : Server :=
  (s.chargeAll (tier.checks.map (·.1))).giveBackAll (tier.checks.map s.seen)

/-- The counters are what they were; those of the open buckets live on. -/
theorem live_refused (tier : GatewayLimits) (k : Key) :
    (s.refused tier).live k = if k ∈ tier.checks.map fun check => s.open' check.1 then
        some ⟨s.value k, some (s.clock + (k.window.widthS * ttlMultiplier : ℤ))⟩
      else s.live k := by
  have hkey : ∀ check, (s.seen check).key = s.open' check.1 := fun _ => rfl
  have hopen : ∀ w w', (s.charge w).open' w' = s.open' w' := fun _ _ => rfl
  have hclock : ∀ w, (s.charge w).clock = s.clock := fun _ => rfl
  simp only [refused, GatewayLimits.checks, List.map_cons, List.map_nil, chargeAll, giveBackAll,
    List.foldl_cons, List.foldl_nil, hkey, List.mem_cons, List.not_mem_nil, or_false]
  by_cases hd : k = s.open' .rpd
  · subst hd
    simp [live_add, live_charge, value_add, value_charge, hclock, open']
  · by_cases hm : k = s.open' .rpm
    · subst hm
      simp [live_add, live_charge, value_charge, hclock, open']
    · simp [live_add, live_charge, hd, hm, hopen]

/-! ### The retry -/

section

variable {tier : GatewayLimits} {check : Check} {t : Seconds}

theorem open_mem (hcheck : check ∈ tier.checks) :
    s.open' check.1 ∈ tier.checks.map fun check => s.open' check.1 :=
  List.mem_map_of_mem hcheck

/-- The bucket that was open reads what it read before the request, until the next has closed. -/
theorem value_refused_open (hcheck : check ∈ tier.checks) (ht : s.clock ≤ t)
    (hlive : t < s.clock + 2 * check.1.widthS) :
    ((s.refused tier).at' t).value (s.open' check.1) = s.value (s.open' check.1) := by
  have hclock : (s.refused tier).clock = s.clock := rfl
  have hdeadline : t < s.clock + ((s.open' check.1).window.widthS * ttlMultiplier : ℤ) := by
    rw [ttlMultiplier]
    push_cast
    show t < s.clock + check.1.widthS * 2
    linarith
  rw [value, live_at (hclock ▸ ht), live_refused, if_pos (open_mem hcheck), Option.filter_some,
    if_pos (by simpa using hdeadline)]
  rfl

theorem not_open_mem {n : ℤ} (hn : n ≠ check.1.start s.clock) :
    (⟨check.1, n⟩ : Key) ∉ tier.checks.map fun check => s.open' check.1 := by
  intro hmem
  obtain ⟨check', -, heq⟩ := List.mem_map.mp hmem
  have hwindow : check'.1 = check.1 := congrArg Key.window heq
  have hstart : check'.1.start s.clock = n := congrArg Key.start heq
  exact hn (by rw [← hstart, hwindow])

/-- A bucket that was not open reads what it read before, while it lives. -/
theorem value_refused (hs : s.Kept) (ht : s.clock ≤ t) {n : ℤ}
    (hn : n ≠ check.1.start s.clock)
    (hlive : t < n + 2 * check.1.widthS) :
    ((s.refused tier).at' t).value ⟨check.1, n⟩ = s.value ⟨check.1, n⟩ := by
  have hclock : (s.refused tier).clock = s.clock := rfl
  rw [value, value, live_at (hclock ▸ ht), live_refused, if_neg (not_open_mem hn)]
  cases hb : s.live ⟨check.1, n⟩ with
  | none => rfl
  | some b =>
    have hdeadline : b.deadline.all fun d => decide (t < d) := by
      cases hd : b.deadline with
      | none => rfl
      | some d => simpa using lt_of_lt_of_le hlive ((hs _ b hb).2.2 d hd)
    rw [Option.filter_some, if_pos hdeadline]

/-- A bucket of a time to come reads nothing. -/
theorem value_refused_ahead (hs : s.Kept) (ht : s.clock ≤ t) {n : ℤ}
    (hn : check.1.start s.clock < n) :
    ((s.refused tier).at' t).value ⟨check.1, n⟩ = 0 := by
  have hclock : (s.refused tier).clock = s.clock := rfl
  have hnone : s.live ⟨check.1, n⟩ = none := hs.value_of_ahead hn
  rw [value, live_at (hclock ▸ ht), live_refused, if_neg (not_open_mem (ne_of_gt hn)), hnone]
  rfl

/-- While the buckets are the same a retry reads what the refused request read. -/
theorem seen_same (hs : s.Kept) (hcheck : check ∈ tier.checks) (ht : s.clock ≤ t)
    (hsame : check.1.start t = check.1.start s.clock) :
    ((s.refused tier).at' t).value ⟨check.1, check.1.start t⟩ = s.value (s.open' check.1) ∧
      ((s.refused tier).at' t).readBefore check.1 = s.readBefore check.1 := by
  have hw : (0 : ℚ) < check.1.widthS := by exact_mod_cast check.1.widthS_pos
  have hend := check.1.lt_start_add t
  have hle := check.1.start_le s.clock
  rw [hsame] at hend
  have hopen : ((s.refused tier).at' t).open' check.1 = s.open' check.1 := by
    show (⟨check.1, check.1.start t⟩ : Key) = _
    rw [hsame]
    rfl
  have hbefore : ((s.refused tier).at' t).before check.1 = s.before check.1 := by
    show (⟨check.1, max 0 (check.1.start t - check.1.widthS)⟩ : Key) = _
    rw [hsame]
    rfl
  have hvalue := value_refused_open (t := t) hcheck ht (by linarith)
  constructor
  · rw [hsame]
    exact hvalue
  · rw [readBefore_eq, readBefore_eq, hopen, hbefore]
    -- At the epoch the bucket before is the open one.
    by_cases heq : s.before check.1 = s.open' check.1
    · rw [if_pos heq, if_pos heq, heq, hvalue]
    · rw [if_neg heq, if_neg heq]
      have hn : max 0 (check.1.start s.clock - check.1.widthS) ≠ check.1.start s.clock :=
        fun h => heq (by rw [before, h]; rfl)
      have hback : ((check.1.start s.clock : ℚ) - check.1.widthS) ≤
          (max 0 (check.1.start s.clock - check.1.widthS) : ℤ) := by
        exact_mod_cast le_max_right _ _
      exact value_refused hs ht hn (by linarith)

/-- In a later bucket it is the first, and only the one before has anything in it. -/
theorem seen_later (hs : s.Kept) (hclock : 0 ≤ s.clock) (hcheck : check ∈ tier.checks)
    (ht : s.clock ≤ t) (hlater : check.1.start s.clock + check.1.widthS ≤ check.1.start t) :
    ((s.refused tier).at' t).value ⟨check.1, check.1.start t⟩ = 0 ∧
      ((s.refused tier).at' t).readBefore check.1 =
        if check.1.start t = check.1.start s.clock + check.1.widthS then s.value (s.open' check.1)
        else 0 := by
  have hw := check.1.widthS_pos
  have hstart := check.1.start_nonneg hclock
  have hend := check.1.lt_start_add t
  have hle := check.1.start_le s.clock
  have hmax : max 0 (check.1.start t - check.1.widthS) = check.1.start t - check.1.widthS :=
    max_eq_right (by omega)
  have hne : ((s.refused tier).at' t).before check.1 ≠ ((s.refused tier).at' t).open' check.1 := by
    intro heq
    have hsame : max 0 (check.1.start t - check.1.widthS) = check.1.start t :=
      congrArg Key.start heq
    omega
  refine ⟨value_refused_ahead hs ht (by omega), ?_⟩
  rw [readBefore_eq, if_neg hne]
  show ((s.refused tier).at' t).value ⟨check.1, max 0 (check.1.start t - check.1.widthS)⟩ = _
  rw [hmax]
  split
  next hnext =>
    have hkey : (⟨check.1, check.1.start t - check.1.widthS⟩ : Key) = s.open' check.1 := by
      rw [hnext, add_sub_cancel_right]
      rfl
    have hnext' : (check.1.start t : ℚ) = check.1.start s.clock + check.1.widthS := by
      exact_mod_cast hnext
    rw [hkey]
    exact value_refused_open hcheck ht (by linarith)
  next hnext => exact value_refused_ahead hs ht (by omega)

/-- **What a retry reads** is what the decay of the counts makes of them. -/
theorem count_seen_later (hs : s.Kept) (hclock : 0 ≤ s.clock) (hcheck : check ∈ tier.checks)
    (ht : s.clock ≤ t) :
    (((s.refused tier).at' t).seen check).count = (s.seen check).retryCount t := by
  have hw := check.1.widthS_pos
  have hcount : (((s.refused tier).at' t).seen check).count =
      (((s.refused tier).at' t).readBefore check.1 : ℚ) * (1 - elapsedFraction check.1 t) +
        (((s.refused tier).at' t).value ⟨check.1, check.1.start t⟩ + 1 : ℤ) := rfl
  have hretry : (s.seen check).retryCount t =
      if check.1.start t = check.1.start s.clock then
        (s.readBefore check.1 : ℚ) * (1 - elapsedFraction check.1 t) +
          (s.value (s.open' check.1) + 1 : ℤ)
      else if check.1.start t = check.1.start s.clock + check.1.widthS then
        ((s.value (s.open' check.1) + 1 : ℤ) - 1) * (1 - elapsedFraction check.1 t) + 1
      else 1 := rfl
  rw [hcount, hretry]
  by_cases hsame : check.1.start t = check.1.start s.clock
  · obtain ⟨hvalue, hbefore⟩ := seen_same hs hcheck ht hsame
    rw [if_pos hsame, hvalue, hbefore]
  · have hlater : check.1.start s.clock + check.1.widthS ≤ check.1.start t := by
      rcases check.1.start_cases ht with heq | heq | hle
      · exact absurd heq hsame
      · omega
      · omega
    obtain ⟨hvalue, hbefore⟩ := seen_later hs hclock hcheck ht hlater
    rw [if_neg hsame, hvalue, hbefore]
    split
    · push_cast
      ring
    · push_cast
      ring

theorem limit_pos (hcheck : check ∈ tier.checks) : 0 < check.2 := by
  rcases List.mem_cons.mp hcheck with rfl | hcheck
  · exact tier.rpm_pos
  · rw [List.mem_singleton.mp hcheck]
    exact tier.rpd_pos

/-- A window that is over its limit for the request. -/
def Over (s : Server) (check : Check) : Prop := (check.2 : ℚ) < (s.seen check).count

instance (s : Server) (check : Check) : Decidable (s.Over check) :=
  inferInstanceAs (Decidable ((check.2 : ℚ) < (s.seen check).count))

/-- When such a window makes room. -/
def clearsAt (s : Server) (check : Check) : Seconds := (s.seen check).clears

/-- A retry passes exactly when every window that was over its limit has cleared. -/
theorem retry_passes_iff (hs : s.Kept) (hclock : 0 ≤ s.clock) (ht : s.clock ≤ t) :
    (((s.refused tier).at' t).request tier).1 = .ok () ↔
      ∀ check ∈ tier.checks, s.Over check → s.clearsAt check ≤ t := by
  have hpasses : (((s.refused tier).at' t).request tier).1 = .ok () ↔
      ∀ check ∈ tier.checks, (s.seen check).retryCount t ≤ check.2 := by
    have hnone : ((s.refused tier).at' t).refusing tier = none ↔
        ∀ check ∈ tier.checks, (s.seen check).retryCount t ≤ check.2 := by
      rw [refusing, List.find?_eq_none]
      constructor
      · intro h check hcheck
        have hle := h _ (List.mem_map_of_mem hcheck)
        rw [← count_seen_later hs hclock hcheck ht]
        exact not_lt.mp fun hlt => hle (decide_eq_true hlt)
      · intro h c hc
        obtain ⟨check, hcheck, rfl⟩ := List.mem_map.mp hc
        have hle := h check hcheck
        rw [← count_seen_later hs hclock hcheck ht] at hle
        exact fun hlt => absurd (of_decide_eq_true hlt) (not_lt.mpr hle)
    rw [← hnone, request_eq]
    cases ((s.refused tier).at' t).refusing tier with
    | none => exact iff_of_true rfl rfl
    | some c => exact iff_of_false (fun h => by cases h) (fun h => by cases h)
  rw [hpasses]
  refine forall₂_congr fun check hcheck => ?_
  have hread := readAt_seen hs check
  have hlimit := limit_pos hcheck
  by_cases hover : s.Over check
  · rw [forall_prop_of_true hover]
    exact Counted.retryCount_le_iff hread ht hlimit hover
  · rw [forall_prop_of_false hover, iff_true]
    exact Counted.retryCount_le_of_within hread ht hlimit (not_lt.mp hover)

end

theorem le_atLeastOne (x : ℚ) : x ≤ atLeastOne x := by
  have hceil : (⌈x⌉ : ℚ) ≤ atLeastOne x := by exact_mod_cast le_max_right 1 ⌈x⌉
  exact (Int.le_ceil x).trans hceil

theorem one_le_atLeastOne (x : ℚ) : (1 : ℚ) ≤ atLeastOne x := by
  exact_mod_cast le_max_left 1 ⌈x⌉

/-- The window that refuses: that of the minute, if it is over its limit. -/
theorem refusing_cases {tier : GatewayLimits} {c : Counted} (h : s.refusing tier = some c) :
    (s.Over (.rpm, tier.rpm) ∧ c = s.seen (.rpm, tier.rpm)) ∨
      (¬ s.Over (.rpm, tier.rpm) ∧ s.Over (.rpd, tier.rpd) ∧ c = s.seen (.rpd, tier.rpd)) := by
  rw [refusing, GatewayLimits.checks, List.map_cons, List.map_cons, List.map_nil,
    List.find?_cons] at h
  split at h
  next hrpm => exact .inl ⟨of_decide_eq_true hrpm, (Option.some.inj h).symm⟩
  next hrpm =>
    rw [List.find?_cons] at h
    split at h
    next hrpd =>
      exact .inr ⟨of_decide_eq_false hrpm, of_decide_eq_true hrpd, (Option.some.inj h).symm⟩
    next => cases h

/-- **Retry-After.** A retry after the time a refused request was told passes exactly when not both
windows were over their limits, or the daily one clears in the second, at the latest, in which the
one of the minute does. -/
theorem request_retry_iff (tier : GatewayLimits) {s : Server} (hs : s.Kept) (hclock : 0 ≤ s.clock)
    {message : String} {retryAfterS : ℤ}
    (hrefused : (s.request tier).1 = .error (.tooManyRequests message retryAfterS)) :
    (((s.request tier).2.at' (s.clock + retryAfterS)).request tier).1 = .ok () ↔
      (s.Over (.rpm, tier.rpm) → s.Over (.rpd, tier.rpd) →
        s.clearsAt (.rpd, tier.rpd) ≤
          s.clock + atLeastOne (s.clearsAt (.rpm, tier.rpm) - s.clock)) := by
  rw [request_eq] at hrefused
  have hleft : (s.request tier).2 = s.refused tier := by
    rw [request_eq]
    cases hr : s.refusing tier with
    | none => rw [hr] at hrefused; cases hrefused
    | some c => rfl
  rw [hleft]
  cases hr : s.refusing tier with
  | none => rw [hr] at hrefused; cases hrefused
  | some c =>
    rw [hr] at hrefused
    have hretry : retryAfterS = RateLimit.retryAfterS c s.clock := by
      have hfault := Except.error.inj hrefused
      rw [tooManyRequests, Fault.tooManyRequests.injEq] at hfault
      exact hfault.2.symm
    have hchecks : ∀ p : Check → Prop, (∀ check ∈ tier.checks, p check) ↔
        p (.rpm, tier.rpm) ∧ p (.rpd, tier.rpd) := by
      intro p
      simp [GatewayLimits.checks]
    have hmem : (GatewayWindow.rpm, tier.rpm) ∈ tier.checks ∧
        (GatewayWindow.rpd, tier.rpd) ∈ tier.checks := by
      simp [GatewayLimits.checks]
    rcases refusing_cases hr with ⟨hover, rfl⟩ | ⟨hnot, hover, rfl⟩
    · -- The minute refused: its own window has cleared by then, the day's may not have.
      have htime : retryAfterS = atLeastOne (s.clearsAt (.rpm, tier.rpm) - s.clock) :=
        hretry.trans (Counted.retryAfterS_eq (readAt_seen hs _) (limit_pos hmem.1) hover)
      have hone := one_le_atLeastOne (s.clearsAt (.rpm, tier.rpm) - s.clock)
      have hclears := le_atLeastOne (s.clearsAt (.rpm, tier.rpm) - s.clock)
      rw [htime, retry_passes_iff hs hclock (by linarith), hchecks]
      constructor
      · rintro ⟨-, hrpd⟩ _ hover'
        exact hrpd hover'
      · intro h
        exact ⟨fun _ => by linarith, fun hover' => h hover hover'⟩
    · -- The day refused, so the minute was within its limit.
      have htime : retryAfterS = atLeastOne (s.clearsAt (.rpd, tier.rpd) - s.clock) :=
        hretry.trans (Counted.retryAfterS_eq (readAt_seen hs _) (limit_pos hmem.2) hover)
      have hone := one_le_atLeastOne (s.clearsAt (.rpd, tier.rpd) - s.clock)
      have hclears := le_atLeastOne (s.clearsAt (.rpd, tier.rpd) - s.clock)
      rw [htime, retry_passes_iff hs hclock (by linarith), hchecks]
      refine iff_of_true ⟨fun h => absurd h hnot, fun _ => by linarith⟩ fun h => absurd h hnot

/-! ### The counters the limiter leaves -/

/-- A user whom the limiter has not seen. -/
theorem kept_fresh (clock : Seconds) : Kept ⟨clock, fun _ => none⟩ := by
  rintro k b hb
  cases hb

/-- As time passes nothing is kept that was not. -/
theorem Kept.at' (hs : s.Kept) {t : Seconds} (ht : s.clock ≤ t) : (s.at' t).Kept := by
  intro k b hb
  rw [live_at ht, Option.filter_eq_some_iff] at hb
  obtain ⟨hpos, hstart, hdeadline⟩ := hs k b hb.1
  have hmono : k.window.start s.clock ≤ k.window.start t := by
    have hw := k.window.widthS_pos
    rcases k.window.start_cases ht with heq | heq | hle
    · omega
    · omega
    · omega
  exact ⟨hpos, hstart.trans hmono, hdeadline⟩

/-- A bucket that is open, with any count and the time to live it is given. -/
theorem Kept.of_open (hs : s.Kept) (s' : Server) (tier : GatewayLimits)
    (hclock : s'.clock = s.clock)
    (hlive : ∀ k, s'.live k = s.live k ∨ k ∈ (tier.checks.map fun check => s.open' check.1) ∧
      ∃ n, 0 ≤ n ∧ s'.live k = some ⟨n, some (s.clock + (k.window.widthS * ttlMultiplier : ℤ))⟩) :
    s'.Kept := by
  intro k b hb
  rw [hclock]
  rcases hlive k with heq | ⟨hopen, n, hn, heq⟩
  · exact hs k b (heq ▸ hb)
  · obtain ⟨check, -, rfl⟩ := List.mem_map.mp hopen
    obtain rfl := Option.some.inj (heq.symm.trans hb)
    refine ⟨hn, le_refl _, fun t ht => ?_⟩
    have hstart := check.1.start_le s.clock
    rw [← Option.some.inj ht, ttlMultiplier]
    push_cast
    show (check.1.start s.clock : ℚ) + 2 * check.1.widthS ≤ s.clock + check.1.widthS * 2
    linarith

theorem live_chargeAll (tier : GatewayLimits) (k : Key) :
    (s.chargeAll (tier.checks.map (·.1))).live k =
      if k ∈ tier.checks.map fun check => s.open' check.1 then
        some ⟨s.value k + 1, some (s.clock + (k.window.widthS * ttlMultiplier : ℤ))⟩
      else s.live k := by
  have hopen : ∀ w w', (s.charge w).open' w' = s.open' w' := fun _ _ => rfl
  have hclock : ∀ w, (s.charge w).clock = s.clock := fun _ => rfl
  simp only [GatewayLimits.checks, List.map_cons, List.map_nil, chargeAll, List.foldl_cons,
    List.foldl_nil, List.mem_cons, List.not_mem_nil, or_false]
  by_cases hd : k = s.open' .rpd
  · subst hd
    simp [live_charge, value_charge, hclock, open']
  · by_cases hm : k = s.open' .rpm
    · subst hm
      simp [live_charge, open']
    · simp [live_charge, hd, hm, hopen]

/-- A request leaves the counters as the limiter keeps them. -/
theorem Kept.request (hs : s.Kept) (tier : GatewayLimits) : (s.request tier).2.Kept := by
  rw [request_eq]
  split
  · refine hs.of_open _ tier rfl fun k => ?_
    have hpos := hs.value_nonneg k
    rw [live_chargeAll]
    split
    next hk => exact .inr ⟨hk, _, by omega, rfl⟩
    next => exact .inl rfl
  · refine hs.of_open (s.refused tier) tier rfl fun k => ?_
    rw [live_refused]
    split
    next hk => exact .inr ⟨hk, _, hs.value_nonneg k, rfl⟩
    next => exact .inl rfl

/-- A limit of one a minute and one a day. -/
def oneADay : GatewayLimits := ⟨1, 1, Int.one_pos, Int.one_pos⟩

/-- A limit of one a minute and ten a day. -/
def tenADay : GatewayLimits := single

/-- A user after the first request, at the stroke of a day. -/
def once (tier : GatewayLimits) : Server := (request ⟨86400, fun _ => none⟩ tier).2

theorem kept_once (tier : GatewayLimits) : (once tier).Kept := (kept_fresh 86400).request tier

-- so that instants are computed with
unseal Rat.add Rat.sub Rat.mul Rat.inv Rat.ofScientific

/-- Over both its limits, a user is told when the one of the minute makes room. -/
theorem not_request_retry :
    ¬ ∀ (tier : GatewayLimits) (s : Server) (message : String) (retryAfterS : ℤ), s.Kept →
      0 ≤ s.clock → (s.request tier).1 = .error (.tooManyRequests message retryAfterS) →
      (((s.request tier).2.at' (s.clock + retryAfterS)).request tier).1 = .ok () := by
  intro h
  have haccepted := h oneADay (once oneADay) _ 120 (kept_once oneADay) (by decide) rfl
  revert haccepted
  decide

theorem request_retry_reading :
    ((((once tenADay).request tenADay).2.at' ((once tenADay).clock + (120 : ℤ))).request tenADay).1 =
        .ok () ↔
      ((once tenADay).Over (.rpm, tenADay.rpm) → (once tenADay).Over (.rpd, tenADay.rpd) →
        (once tenADay).clearsAt (.rpd, tenADay.rpd) ≤ (once tenADay).clock +
          atLeastOne ((once tenADay).clearsAt (.rpm, tenADay.rpm) - (once tenADay).clock)) :=
  request_retry_iff tenADay (kept_once tenADay) (by decide) rfl

end Server

end RateLimit

end LlmGateway
