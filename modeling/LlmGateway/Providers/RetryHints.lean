import LlmGateway.Codec.Floats
import LlmGateway.Codec.Json
import LlmGateway.Routing.CircuitBreaker

/-!
# Retry hints

What a provider that refuses says of when to come back, from the text of a header
or a field to the cooldown of the breaker and the header of the gateway's own
answer. Each provider has its own forms, and each reads some of them with `float`,
which takes the names of the infinities and of what is not a number too.
-/

namespace LlmGateway

namespace RetryHints

open Floats Json Text

/-! ## Durations -/

/-- `\d+(?:\.\d+)?` at the beginning of a text, and what is behind it. -/
def plain (text : List Char) : Option (Decimal × List Char) :=
  match digits text with
  | ([], _) => none
  | (whole, '.' :: rest) =>
    match digits rest with
    | ([], _) => some (.ofDigits whole [] 0, '.' :: rest)
    | (fraction, rest) => some (.ofDigits whole fraction 0, rest)
  | (whole, rest) => some (.ofDigits whole [] 0, rest)

/-- `Retry-After`, where it is a number and not a date. -/
def headerNumber : Option (List Char) → Option Number
  | some raw => if raw = [] then none else float raw
  | none => none

theorem headerNumber_eq (retryAfter : Option (List Char)) :
    headerNumber retryAfter = (retryAfter.bind literal).map Literal.number := by
  cases retryAfter with
  | none => rfl
  | some raw =>
    by_cases hraw : raw = []
    · subst hraw
      rfl
    · exact if_neg hraw

namespace Groq

inductive DurationUnit where
  | ms
  | s
  | m
  | h
  deriving DecidableEq, Repr

/-- `scale`. -/
def DurationUnit.scale : DurationUnit → ℚ
  | .ms => 1 / 1000
  | .s => 1
  | .m => 60
  | .h => 3600

theorem DurationUnit.scale_pos (unit : DurationUnit) : 0 < unit.scale := by
  cases unit <;> norm_num [scale]

/-- A match of `_DURATION_RE`. -/
structure Quantity where
  value : Decimal
  unit : DurationUnit
  deriving DecidableEq, Repr

def Quantity.seconds (quantity : Quantity) : ℚ := quantity.value.value * quantity.unit.scale

theorem Quantity.seconds_nonneg (quantity : Quantity) : 0 ≤ quantity.seconds :=
  mul_nonneg quantity.value.value_nonneg quantity.unit.scale_pos.le

/-- A match at the beginning of a text. -/
def quantity (text : List Char) : Option (Quantity × List Char) :=
  match plain text with
  | some (value, 'm' :: 's' :: rest) => some (⟨value, .ms⟩, rest)
  | some (value, 's' :: rest) => some (⟨value, .s⟩, rest)
  | some (value, 'm' :: rest) => some (⟨value, .m⟩, rest)
  | some (value, 'h' :: rest) => some (⟨value, .h⟩, rest)
  | _ => none

/-- The search behind `findall`, of a text no longer than the first argument. -/
def search : ℕ → List Char → List Quantity
  | 0, _ => []
  | _, [] => []
  | rounds + 1, c :: rest =>
    match quantity (c :: rest) with
    | some (found, rest) => found :: search rounds rest
    | none => search rounds rest

/-- `_DURATION_RE.findall`. -/
def findall (text : List Char) : List Quantity := search text.length text

/-- `float(value) * scale[unit]`. -/
def Quantity.float (quantity : Quantity) : Number :=
  (Number.round quantity.value.value).times quantity.unit.scale

/-- `sum(float(value) * scale[unit] for value, unit in matches)`. -/
def total (quantities : List Quantity) : Number :=
  quantities.foldl (fun (sum : Number) quantity => sum.add quantity.float) (.finite 0)

/-- `_parse_duration`. -/
def parseDuration (raw : List Char) : Option Number :=
  let text := strip raw
  if text = [] then none
  else
    let quantities := findall text
    if quantities ≠ [] then some (total quantities) else float text

/-- `_read_retry_after`. -/
def readRetryAfter (retryAfter resetTokens resetRequests : Option (List Char)) : Option Number :=
  match headerNumber retryAfter with
  | some value => some value
  | none =>
    match resetTokens.bind parseDuration with
    | some value => some value
    | none => resetRequests.bind parseDuration

end Groq

namespace Gemini

/-- `_RETRY_DELAY_RE`. -/
def retryDelay (text : List Char) : Option Decimal :=
  match plain (strip text) with
  | some (value, []) | some (value, ['s']) => some value
  | _ => none

/-- `_parse_duration`. -/
def parseDuration : Option (Value Number) → Except Number.ConversionError (Option Number)
  | some (.int n) => do return some (← Number.ofInt n)
  | some (.float x) => return some x
  | some (.str s) => return (retryDelay s.toList).map fun value => .round value.value
  | _ => return none

/-- An entry of the details of an error. -/
abbrev Entry : Type := List (String × Value Number)

def Entry.get? (entry : Entry) (key : String) : Option (Value Number) := (Value.obj entry).get? key

def Entry.isRetryInfo (entry : Entry) : Bool :=
  match entry.get? "@type" with
  | some (.str url) => "RetryInfo".toList.isSuffixOf url.toList || (entry.get? "retryDelay").isSome
  | _ => (entry.get? "retryDelay").isSome

/-- The loop over the details. -/
def readDetails : List Entry → Except Number.ConversionError (Option Number)
  | [] => return none
  | entry :: rest =>
    if entry.isRetryInfo then do
      match ← parseDuration (entry.get? "retryDelay") with
      | some value => return some value
      | none => readDetails rest
    else readDetails rest

/-- `_read_retry_after`. -/
def readRetryAfter (retryAfter : Option (List Char)) (details : List Entry) :
    Except Number.ConversionError (Option Number) :=
  match headerNumber retryAfter with
  | some value => return some value
  | none => readDetails details

end Gemini

namespace OpenRouter

/-- A reading of the clock, in seconds since the epoch. -/
structure Timestamp where
  seconds : ℚ
  nonneg : 0 ≤ seconds
  lt_bound : seconds < bound

/-- `_MS_EPOCH_FLOOR`. -/
def msEpochFloor : Number := .finite (10 ^ 11)

/-- `_S_EPOCH_FLOOR`. -/
def sEpochFloor : Number := .finite (10 ^ 9)

/-- What `_reset_seconds` makes of a number: it may be milliseconds or seconds since the epoch, or
seconds from now. -/
def fromNow (now : Timestamp) (value : Number) : Number :=
  if msEpochFloor.lt value then
    (Number.finite 0).max ((value.times (1 / 1000)).add (.finite (-now.seconds)))
  else if sEpochFloor.lt value then (Number.finite 0).max (value.add (.finite (-now.seconds)))
  else (Number.finite 0).max value

/-- `_reset_seconds`. -/
def resetSeconds (now : Timestamp) (raw : Option (List Char)) : Option Number :=
  (raw.bind float).map (fromNow now)

/-- `_read_retry_after`. -/
def readRetryAfter (now : Timestamp) (retryAfter reset : Option (List Char)) : Option Number :=
  match headerNumber retryAfter with
  | some value => some value
  | none => resetSeconds now reset

end OpenRouter

/-! ## From the refusal to the client -/

/-- What a refusal says besides `Retry-After`. -/
inductive Told where
  | groq (resetTokens resetRequests : Option (List Char))
  | gemini (details : List Gemini.Entry)
  | openRouter (now : OpenRouter.Timestamp) (reset : Option (List Char))

/-- A response that is classified as `RateLimited`. -/
structure Refusal where
  retryAfter : Option (List Char)
  told : Told

def Refusal.readRetryAfter (refusal : Refusal) : Except Number.ConversionError (Option Number) :=
  match refusal.told with
  | .groq resetTokens resetRequests =>
    return Groq.readRetryAfter refusal.retryAfter resetTokens resetRequests
  | .gemini details => Gemini.readRetryAfter refusal.retryAfter details
  | .openRouter now reset => return OpenRouter.readRetryAfter now refusal.retryAfter reset

/-- What `parse_error` makes of it. -/
inductive Failure where
  | rateLimited (retryAfterS : Option Number)
  /-- The refusal could not be classified. -/
  | unavailable
  deriving DecidableEq

/-- `parse_error`, which does not raise. -/
def Refusal.parseError (refusal : Refusal) : Failure :=
  match refusal.readRetryAfter with
  | .ok retryAfterS => .rateLimited retryAfterS
  | .error _ => .unavailable

/-- `_next_cooldown`. -/
def nextCooldown (cfg : Breaker.Config) (previous retryAfterS : Option Number) : Number :=
  match retryAfterS, previous with
  | some hint, _ => (hint.max (.finite cfg.cooldownInitialS)).min (.finite cfg.cooldownMaxS)
  | none, none => .finite cfg.cooldownInitialS
  | none, some previous => (previous.times cfg.cooldownFactor).min (.finite cfg.cooldownMaxS)

/-- `_read_cooldown`. -/
def readCooldown (raw : Option Number) : Option Number := raw.filter (· ≠ .finite 0)

/-- The breaker a failure is recorded in: how the attempt was decided, the count of failures that
`HINCRBY` returns, and the cooldown that is stored. -/
structure Record where
  degraded : Bool
  isProbe : Bool
  failures : ℤ
  cooldownS : Option Number

/-- `record_failure`: the cooldown it stores, if it opens the breaker. -/
def Record.recordFailure (cfg : Breaker.Config) (record : Record) (failure : Failure) :
    Option Number :=
  let retryAfterS := match failure with
    | .rateLimited retryAfterS => retryAfterS
    | .unavailable => none
  if record.degraded then none
  else if record.isProbe then some (nextCooldown cfg (readCooldown record.cooldownS) retryAfterS)
  else match failure with
    | .rateLimited _ => some (nextCooldown cfg none retryAfterS)
    | .unavailable =>
      if cfg.failureThreshold ≤ record.failures then some (nextCooldown cfg none retryAfterS)
      else none

/-- `UpstreamUnavailable`, as the client gets it. -/
structure UpstreamUnavailable where
  message : String
  code : String
  headers : List (String × String) := []
  deriving DecidableEq, Repr

/-- `\x7b"Retry-After": str(int(exc.retry_after_s))\x7d`. -/
def retryAfterHeader : Option Number → Except Number.ConversionError (List (String × String))
  | none => return []
  | some value => do return [("Retry-After", toString (← value.toInt))]

/-- `to_app_error`. -/
def toAppError : Failure → Except Number.ConversionError UpstreamUnavailable
  | .rateLimited retryAfterS => do
    let headers ← retryAfterHeader retryAfterS
    return { message := "The model provider is rate limiting this gateway. Try again shortly."
             code := "rate_limited", headers }
  | .unavailable =>
    return { message := "The model provider is currently unavailable."
             code := "provider_unavailable" }

/-- **A total hint**: it is read, the error it goes into is translated, and what the breaker stores
is a number between the two cooldowns. -/
def Total (cfg : Breaker.Config) (refusal : Refusal) (record : Record) : Prop :=
  (∃ retryAfterS, refusal.readRetryAfter = .ok retryAfterS) ∧
    (∃ error, toAppError refusal.parseError = .ok error) ∧
    ∀ cooldown ∈ record.recordFailure cfg refusal.parseError,
      cooldown.Between cfg.cooldownInitialS cfg.cooldownMaxS

/-! ## Which texts are read, and as what -/

namespace Groq

/-- Quantities that neither one by one nor together go beyond the bound. -/
def Within (quantities : List Quantity) : Prop :=
  (∀ quantity ∈ quantities, quantity.value.value < bound) ∧ (quantities.map (·.seconds)).sum < bound

/-- A quantity is an infinity as soon as its number is one, or its seconds are. -/
theorem Quantity.float_eq (quantity : Quantity) :
    quantity.float = if quantity.value.value < bound ∧ quantity.seconds < bound
      then .finite quantity.seconds else .infinite false := by
  have hscale := quantity.unit.scale_pos
  rw [Quantity.float, Number.round_of_nonneg quantity.value.value_nonneg]
  by_cases hvalue : quantity.value.value < bound
  · rw [if_pos hvalue]
    have htimes : (Number.finite quantity.value.value).times quantity.unit.scale =
        Number.round quantity.seconds := rfl
    rw [htimes, Number.round_of_nonneg quantity.seconds_nonneg]
    simp only [hvalue, true_and]
  · rw [if_neg hvalue, if_neg (fun hboth => hvalue hboth.1), Number.times, if_neg hscale.ne',
      decide_eq_false (not_lt.mpr hscale.le)]
    rfl

/-- What is beyond the bound stays there. -/
theorem foldl_infinite (quantities : List Quantity) :
    quantities.foldl (fun (sum : Number) quantity => sum.add quantity.float)
      (Number.infinite false) = .infinite false := by
  induction quantities with
  | nil => rfl
  | cons quantity quantities ih =>
    have hadd : (Number.infinite false).add quantity.float = .infinite false := by
      rw [quantity.float_eq]
      split <;> rfl
    rw [List.foldl_cons, hadd]
    exact ih

theorem sum_seconds_nonneg (quantities : List Quantity) :
    0 ≤ (quantities.map (·.seconds)).sum := by
  refine List.sum_nonneg fun seconds hseconds => ?_
  obtain ⟨quantity, -, rfl⟩ := List.mem_map.mp hseconds
  exact quantity.seconds_nonneg

theorem isFinite_foldl (quantities : List Quantity) {sum : ℚ} (h : 0 ≤ sum) (hsum : sum < bound) :
    (quantities.foldl (fun (sum : Number) quantity => sum.add quantity.float)
      (Number.finite sum)).IsFinite ↔
      (∀ quantity ∈ quantities, quantity.value.value < bound) ∧
        sum + (quantities.map (·.seconds)).sum < bound := by
  induction quantities generalizing sum with
  | nil => simp [Number.IsFinite, hsum]
  | cons quantity quantities ih =>
    have hrest := sum_seconds_nonneg quantities
    have hnonneg := quantity.seconds_nonneg
    rw [List.foldl_cons, List.forall_mem_cons, List.map_cons, List.sum_cons, quantity.float_eq]
    by_cases hquantity : quantity.value.value < bound ∧ quantity.seconds < bound
    · rw [if_pos hquantity, Number.add, Number.round_of_nonneg (by linarith)]
      by_cases hboth : sum + quantity.seconds < bound
      · rw [if_pos hboth, ih (by linarith) hboth, add_assoc]
        exact ⟨fun hall => ⟨⟨hquantity.1, hall.1⟩, hall.2⟩, fun hall => ⟨hall.1.2, hall.2⟩⟩
      · rw [if_neg hboth, foldl_infinite]
        refine iff_of_false id fun hall => hboth ?_
        linarith [hall.2]
    · rw [if_neg hquantity, Number.add, foldl_infinite]
      refine iff_of_false id fun hall => hquantity ⟨hall.1.1, ?_⟩
      linarith [hall.2]

theorem isFinite_total {quantities : List Quantity} :
    (total quantities).IsFinite ↔ Within quantities := by
  rw [total, isFinite_foldl quantities le_rfl bound_pos, zero_add]
  rfl

/-- A reset duration that is read at all. -/
def Reads (raw : List Char) : Prop :=
  findall (strip raw) ≠ [] ∨ (literal (strip raw)).isSome

instance : DecidablePred Reads := fun _ => inferInstanceAs (Decidable (_ ∨ _))

/-- A reset duration that is read as something finite. -/
def ResetWithin (raw : List Char) : Prop :=
  if findall (strip raw) = [] then ∀ l ∈ literal (strip raw), l.Within
  else Within (findall (strip raw))

theorem parseDuration_eq (raw : List Char) :
    parseDuration raw = if findall (strip raw) = [] then (literal (strip raw)).map Literal.number
      else some (total (findall (strip raw))) := by
  unfold parseDuration
  dsimp only
  by_cases hempty : strip raw = []
  · rw [if_pos hempty, hempty]
    rfl
  · rw [if_neg hempty]
    by_cases hfound : findall (strip raw) = []
    · rw [if_pos hfound, if_neg (fun hne => hne hfound)]
      rfl
    · rw [if_neg hfound, if_pos hfound]

theorem parseDuration_eq_none_iff {raw : List Char} : parseDuration raw = none ↔ ¬ Reads raw := by
  rw [parseDuration_eq]
  unfold Reads
  split
  next hfound => simp [hfound]
  next hfound => simp [hfound]

theorem isFinite_parseDuration {raw : List Char} {value : Number}
    (h : parseDuration raw = some value) : value.IsFinite ↔ ResetWithin raw := by
  rw [parseDuration_eq] at h
  unfold ResetWithin
  split at h
  next hfound =>
    obtain ⟨l, hl, rfl⟩ := Option.map_eq_some_iff.mp h
    rw [if_pos hfound, hl, Literal.isFinite_number]
    simp
  next hfound =>
    rw [if_neg hfound, ← Option.some.inj h]
    exact isFinite_total

/-- The reset durations in the order they are looked at. -/
def resets (resetTokens resetRequests : Option (List Char)) : List (List Char) :=
  resetTokens.toList ++ resetRequests.toList

/-- The first that is read. -/
theorem read_resets (resetTokens resetRequests : Option (List Char)) :
    (match resetTokens.bind parseDuration with
      | some value => some value
      | none => resetRequests.bind parseDuration) =
      ((resets resetTokens resetRequests).find? fun raw => decide (Reads raw)).bind
        parseDuration := by
  have hone : ∀ raw : Option (List Char),
      raw.bind parseDuration = (raw.toList.find? fun raw => decide (Reads raw)).bind
        parseDuration := by
    intro raw
    cases raw with
    | none => rfl
    | some raw =>
      by_cases hreads : Reads raw
      · simp [hreads]
      · simp [hreads, parseDuration_eq_none_iff.mpr hreads]
  rw [resets, List.find?_append, hone resetTokens, hone resetRequests]
  cases hfirst : resetTokens.toList.find? fun raw => decide (Reads raw) with
  | none => rfl
  | some raw =>
    have hreads : Reads raw := by simpa using List.find?_some hfirst
    cases hvalue : parseDuration raw with
    | none => exact absurd hreads (parseDuration_eq_none_iff.mp hvalue)
    | some value => simp [hvalue]

end Groq

namespace Gemini

/-- A delay that is read at all. -/
def Reads : Option (Value Number) → Bool
  | some (.int _) | some (.float _) => true
  | some (.str s) => (retryDelay s.toList).isSome
  | _ => false

/-- A delay that is read as something finite. -/
def DelayWithin : Option (Value Number) → Prop
  | some (.int n) => |(n : ℚ)| < bound
  | some (.float x) => x.IsFinite
  | some (.str s) => ∀ value ∈ retryDelay s.toList, value.value < bound
  | _ => True

/-- An entry that says when to come back. -/
def Entry.tells (entry : Entry) : Bool := entry.isRetryInfo && Reads (entry.get? "retryDelay")

theorem parseDuration_of_not_reads {delay : Option (Value Number)} (h : Reads delay = false) :
    parseDuration delay = .ok none := by
  cases delay with
  | none => rfl
  | some delay =>
    cases delay with
    | int n => cases h
    | float x => cases h
    | str s =>
      have hnone : retryDelay s.toList = none :=
        Option.isNone_iff_eq_none.mp (Option.isSome_eq_false_iff.mp h)
      simp only [parseDuration, hnone]
      rfl
    | null => rfl
    | bool b => rfl
    | arr items => rfl
    | obj members => rfl

/-- A delay that is read gives a number, unless it is an integer that no float comes near. -/
theorem parseDuration_of_reads {delay : Option (Value Number)} (h : Reads delay = true) :
    parseDuration delay ≠ .ok none ∧
      ((∃ value, parseDuration delay = .ok (some value) ∧ value.IsFinite) ↔ DelayWithin delay) := by
  cases delay with
  | none => cases h
  | some delay =>
    cases delay with
    | int n =>
      -- `float()` of an integer is the one reading that may raise.
      have hparse : parseDuration (some (.int n)) =
          Number.ofInt n >>= fun value => return some value := rfl
      rw [hparse]
      by_cases hn : |(n : ℚ)| < bound
      · have hint : Number.ofInt n = .ok (.finite n) := if_pos hn
        rw [hint]
        exact ⟨nofun, iff_of_true ⟨_, rfl, trivial⟩ hn⟩
      · have hint : Number.ofInt n = .error .overflowError := if_neg hn
        rw [hint]
        exact ⟨nofun, iff_of_false (fun ⟨_, hvalue, _⟩ => nomatch hvalue) hn⟩
    | float x =>
      refine ⟨nofun, ⟨fun ⟨value, hvalue, hfinite⟩ => ?_, fun hfinite => ⟨x, rfl, hfinite⟩⟩⟩
      obtain rfl := Option.some.inj (Except.ok.inj hvalue)
      exact hfinite
    | str s =>
      obtain ⟨decimal, hdecimal⟩ := Option.isSome_iff_exists.mp h
      have hparse : parseDuration (some (.str s)) = .ok (some (.round decimal.value)) := by
        simp only [parseDuration, hdecimal]
        rfl
      have hfinite : (Number.round decimal.value).IsFinite ↔ decimal.value < bound := by
        rw [Number.isFinite_round, abs_of_nonneg decimal.value_nonneg]
      rw [hparse]
      refine ⟨nofun, ⟨fun ⟨value, hvalue, hround⟩ other hother => ?_, fun hwithin => ?_⟩⟩
      · obtain rfl := Option.some.inj (Except.ok.inj hvalue)
        obtain rfl := Option.some.inj (hdecimal.symm.trans hother)
        exact hfinite.mp hround
      · exact ⟨_, rfl, hfinite.mpr (hwithin decimal hdecimal)⟩
    | null => cases h
    | bool b => cases h
    | arr items => cases h
    | obj members => cases h

/-- The loop stops at the first entry that tells. -/
theorem readDetails_eq (details : List Entry) : readDetails details =
    match details.find? (·.tells) with
    | some entry => parseDuration (entry.get? "retryDelay")
    | none => .ok none := by
  induction details with
  | nil => rfl
  | cons entry rest ih =>
    rw [readDetails, List.find?_cons]
    by_cases hinfo : entry.isRetryInfo
    · rw [if_pos hinfo]
      cases hreads : Reads (entry.get? "retryDelay") with
      | false =>
        -- It is one, but says nothing that can be read, and the loop goes on.
        have htells : entry.tells = false := by rw [Entry.tells, hinfo, hreads]; rfl
        rw [parseDuration_of_not_reads hreads, htells]
        exact ih
      | true =>
        have htells : entry.tells = true := by rw [Entry.tells, hinfo, hreads]; rfl
        rw [htells]
        dsimp only
        cases hparse : parseDuration (entry.get? "retryDelay") with
        | error e => rfl
        | ok value =>
          cases value with
          | none => exact absurd hparse (parseDuration_of_reads hreads).1
          | some value => rfl
    · have htells : entry.tells = false := by
        rw [Entry.tells, eq_false_of_ne_true hinfo]
        rfl
      rw [if_neg hinfo, htells]
      exact ih

end Gemini

namespace OpenRouter

theorem isFinite_max_zero {x : Number} (h : ¬ x = .infinite false) :
    ((Number.finite 0).max x).IsFinite := by
  cases x with
  | nan => trivial
  | infinite negative =>
    cases negative with
    | true => trivial
    | false => exact absurd rfl h
  | finite q =>
    rw [Number.max_finite]
    trivial

theorem resetSeconds_eq (now : Timestamp) (raw : Option (List Char)) :
    resetSeconds now raw = (raw.bind literal).map fun l => fromNow now l.number := by
  cases raw with
  | none => rfl
  | some raw => exact Option.map_map _ _ _

/-- **A reset is infinite where its number is, and positive.** -/
theorem isFinite_fromNow (now : Timestamp) {value : Number}
    (h : ∀ q, value = .finite q → |q| < bound) :
    (fromNow now value).IsFinite ↔ value ≠ .infinite false := by
  cases value with
  | nan => exact iff_of_true trivial (by decide)
  | infinite negative =>
    cases negative with
    | true => exact iff_of_true trivial (by decide)
    | false =>
      refine iff_of_false (fun hfinite => ?_) (fun hne => hne rfl)
      have hscale : ¬ (1 / 1000 : ℚ) = 0 := by norm_num
      have hpos : ¬ (1 / 1000 : ℚ) < 0 := by norm_num
      have hinfinite : (Number.infinite false).times (1 / 1000) = .infinite false := by
        rw [Number.times, if_neg hscale, decide_eq_false hpos]
        rfl
      have hms : msEpochFloor.lt (.infinite false) = true := rfl
      rw [fromNow, if_pos hms, hinfinite] at hfinite
      exact hfinite
  | finite q =>
    refine iff_of_true ?_ (by rintro ⟨⟩)
    have hnow := now.nonneg
    have hlt := now.lt_bound
    obtain ⟨hlow, hhigh⟩ := abs_lt.mp (h q rfl)
    -- Past a floor the number is above zero, and what is taken off it is not too much.
    have hleft : ∀ r : ℚ, 0 ≤ r → r < bound →
        ((Number.finite 0).max ((Number.finite r).add (.finite (-now.seconds)))).IsFinite := by
      intro r hr hbound
      have habs : |r + -now.seconds| < bound := abs_lt.mpr ⟨by linarith, by linarith⟩
      rw [Number.add, Number.round_of_lt habs]
      exact isFinite_max_zero (by rintro ⟨⟩)
    unfold fromNow
    split
    next hms =>
      have hq : (10 : ℚ) ^ 11 < q := of_decide_eq_true hms
      have hpos : 0 < q := lt_trans (by norm_num) hq
      have hscaled : |q * (1 / 1000)| < bound := abs_lt.mpr ⟨by linarith, by linarith⟩
      rw [Number.times, Number.round_of_lt hscaled]
      exact hleft _ (by linarith) (by linarith)
    next =>
      split
      next hs =>
        have hq : (10 : ℚ) ^ 9 < q := of_decide_eq_true hs
        have hpos : 0 < q := lt_trans (by norm_num) hq
        exact hleft q hpos.le hhigh
      next => exact isFinite_max_zero (by rintro ⟨⟩)

end OpenRouter

/-- What is read of the rest of a refusal is finite, if it is anything. -/
def Told.Within : Told → Prop
  | .groq resetTokens resetRequests =>
    ∀ raw ∈ (Groq.resets resetTokens resetRequests).find? fun raw => decide (Groq.Reads raw),
      Groq.ResetWithin raw
  | .gemini details =>
    ∀ entry ∈ details.find? (·.tells), Gemini.DelayWithin (entry.get? "retryDelay")
  | .openRouter _ reset => ∀ l ∈ reset.bind literal, l.BoundedAbove

/-- Nothing is read of the rest of a refusal. -/
def Told.Silent : Told → Prop
  | .groq resetTokens resetRequests => ∀ raw ∈ Groq.resets resetTokens resetRequests,
    ¬ Groq.Reads raw
  | .gemini details => ∀ entry ∈ details, entry.tells = false
  | .openRouter _ reset => reset.bind literal = none

/-- **What is read first is finite**: `Retry-After` where it is a number, else the rest. -/
def Refusal.Within (refusal : Refusal) : Prop :=
  match refusal.retryAfter.bind literal with
  | some l => l.Within
  | none => refusal.told.Within

def Refusal.Silent (refusal : Refusal) : Prop :=
  refusal.retryAfter.bind literal = none ∧ refusal.told.Silent

/-! ## What is read of a refusal -/

/-- Read without an exception, and as nothing that is not finite. -/
def Tame (reading : Except Number.ConversionError (Option Number)) : Prop :=
  ∃ hint, reading = .ok hint ∧ ∀ value ∈ hint, value.IsFinite

theorem tame_ok_iff {hint : Option Number} :
    Tame (.ok hint) ↔ ∀ value ∈ hint, value.IsFinite :=
  ⟨fun ⟨_, heq, h⟩ => Except.ok.inj heq ▸ h, fun h => ⟨hint, rfl, h⟩⟩

/-- What is read behind `Retry-After`. -/
def Told.read : Told → Except Number.ConversionError (Option Number)
  | .groq resetTokens resetRequests => .ok
      (((Groq.resets resetTokens resetRequests).find? fun raw => decide (Groq.Reads raw)).bind
        Groq.parseDuration)
  | .gemini details => Gemini.readDetails details
  | .openRouter now reset => .ok (OpenRouter.resetSeconds now reset)

theorem readRetryAfter_eq (refusal : Refusal) : refusal.readRetryAfter =
    match refusal.retryAfter.bind literal with
    | some l => .ok (some l.number)
    | none => refusal.told.read := by
  unfold Refusal.readRetryAfter Groq.readRetryAfter Gemini.readRetryAfter OpenRouter.readRetryAfter
  rw [headerNumber_eq]
  cases refusal.retryAfter.bind literal with
  | some l => cases refusal.told <;> rfl
  | none =>
    cases refusal.told with
    | groq resetTokens resetRequests =>
      exact congrArg Except.ok (Groq.read_resets resetTokens resetRequests)
    | gemini details => rfl
    | openRouter now reset => rfl

theorem tame_read (told : Told) : Tame told.read ↔ told.Within := by
  cases told with
  | groq resetTokens resetRequests =>
    rw [Told.read, tame_ok_iff, Told.Within]
    cases hfound : (Groq.resets resetTokens resetRequests).find?
        fun raw => decide (Groq.Reads raw) with
    | none => simp
    | some raw =>
      have hreads : Groq.Reads raw := by simpa using List.find?_some hfound
      cases hvalue : Groq.parseDuration raw with
      | none => exact absurd hreads (Groq.parseDuration_eq_none_iff.mp hvalue)
      | some value => simpa [hvalue] using Groq.isFinite_parseDuration hvalue
  | gemini details =>
    rw [Told.read, Gemini.readDetails_eq, Told.Within]
    cases hfound : details.find? (·.tells) with
    | none => simp [tame_ok_iff]
    | some entry =>
      have htells : entry.tells = true := List.find?_some hfound
      have hreads := Gemini.parseDuration_of_reads (Bool.and_eq_true_iff.mp htells).2
      simp only [Option.mem_some_iff, forall_eq']
      rw [← hreads.2]
      constructor
      · rintro ⟨hint, hparse, hfinite⟩
        cases hint with
        | none => exact absurd hparse hreads.1
        | some value => exact ⟨value, hparse, hfinite value rfl⟩
      · rintro ⟨value, hparse, hfinite⟩
        exact ⟨some value, hparse, fun other hother => Option.mem_some_iff.mp hother ▸ hfinite⟩
  | openRouter now reset =>
    rw [Told.read, tame_ok_iff, OpenRouter.resetSeconds_eq, Told.Within]
    cases reset.bind literal with
    | none => simp
    | some l =>
      have hbound : ∀ q, l.number = .finite q → |q| < bound := fun _ => Literal.abs_lt_of_number
      have hfinite := OpenRouter.isFinite_fromNow now hbound
      simpa using hfinite.trans Literal.number_ne_infinite_iff

theorem read_eq_none_iff (told : Told) : told.read = .ok none ↔ told.Silent := by
  cases told with
  | groq resetTokens resetRequests =>
    rw [Told.read, Told.Silent]
    cases hfound : (Groq.resets resetTokens resetRequests).find?
        fun raw => decide (Groq.Reads raw) with
    | none => simpa using List.find?_eq_none.mp hfound
    | some raw =>
      have hreads : Groq.Reads raw := by simpa using List.find?_some hfound
      have hmem := List.mem_of_find?_eq_some hfound
      refine iff_of_false (fun hnone => ?_) fun hall => hall raw hmem hreads
      exact absurd hreads (Groq.parseDuration_eq_none_iff.mp (Except.ok.inj hnone))
  | gemini details =>
    rw [Told.read, Gemini.readDetails_eq, Told.Silent]
    cases hfound : details.find? (·.tells) with
    | none => simpa using List.find?_eq_none.mp hfound
    | some entry =>
      have htells : entry.tells = true := List.find?_some hfound
      have hmem := List.mem_of_find?_eq_some hfound
      have hreads := Gemini.parseDuration_of_reads (Bool.and_eq_true_iff.mp htells).2
      exact iff_of_false hreads.1 fun hall => absurd htells (by rw [hall entry hmem]; decide)
  | openRouter now reset =>
    rw [Told.read, OpenRouter.resetSeconds_eq, Told.Silent]
    cases reset.bind literal with
    | none => exact iff_of_true rfl rfl
    | some l => exact iff_of_false nofun nofun

theorem tame_readRetryAfter (refusal : Refusal) :
    Tame refusal.readRetryAfter ↔ refusal.Within := by
  rw [readRetryAfter_eq, Refusal.Within]
  cases refusal.retryAfter.bind literal with
  | some l => simpa [tame_ok_iff] using Literal.isFinite_number
  | none => exact tame_read refusal.told

theorem readRetryAfter_eq_none_iff (refusal : Refusal) :
    refusal.readRetryAfter = .ok none ↔ refusal.Silent := by
  rw [readRetryAfter_eq, Refusal.Silent]
  cases refusal.retryAfter.bind literal with
  | some l => exact iff_of_false nofun fun hsilent => nomatch hsilent.1
  | none => exact (read_eq_none_iff refusal.told).trans (and_iff_right rfl).symm

/-! ## From what is read to what is stored -/

/-- The error is translated exactly when its hint can be made an integer. -/
theorem toAppError_isOk_iff {hint : Option Number} :
    (∃ error, toAppError (.rateLimited hint) = .ok error) ↔ ∀ value ∈ hint, value.IsFinite := by
  cases hint with
  | none => exact iff_of_true ⟨_, rfl⟩ nofun
  | some value =>
    have hvalue := Number.toInt_isOk_iff (x := value)
    simp only [Option.mem_some_iff, forall_eq']
    rw [← hvalue]
    cases hint : value.toInt with
    | error e =>
      have hraises : toAppError (.rateLimited (some value)) = .error e := by
        simp [toAppError, retryAfterHeader, hint]
      rw [hraises]
      exact iff_of_false nofun nofun
    | ok n =>
      have hok : ∃ error, toAppError (.rateLimited (some value)) = .ok error := by
        simp [toAppError, retryAfterHeader, hint]
      exact iff_of_true hok ⟨n, rfl⟩

/-- A hint is clamped, and without one the ladder goes on from what is stored. -/
theorem between_nextCooldown (cfg : Breaker.Config) (previous hint : Option Number)
    (h : ∀ value ∈ hint, value.IsFinite) :
    (nextCooldown cfg previous hint).Between cfg.cooldownInitialS cfg.cooldownMaxS ↔
      (hint = none → ∀ value ∈ previous,
        (value.times cfg.cooldownFactor).AtLeast cfg.cooldownInitialS) := by
  cases hint with
  | some value =>
    refine iff_of_true ?_ nofun
    refine (Number.between_clamp cfg.initial_le_max).mpr ?_
    rintro rfl
    exact h _ rfl
  | none =>
    cases previous with
    | none => exact iff_of_true ⟨le_rfl, cfg.initial_le_max⟩ fun _ _ hmem => nomatch hmem
    | some value =>
      simpa [nextCooldown] using Number.between_min cfg.initial_le_max

/-- What the state of the breaker adds: a probe whose refusal says nothing goes on from a cooldown
that the ladder takes to one it can store. -/
def Record.Goes (cfg : Breaker.Config) (refusal : Refusal) (record : Record) : Prop :=
  refusal.Silent → record.degraded = false → record.isProbe = true →
    ∀ previous ∈ readCooldown record.cooldownS,
      (previous.times cfg.cooldownFactor).AtLeast cfg.cooldownInitialS

/-- **When a retry hint is total**: exactly when what is read of the refusal first is finite, if
anything is, and the breaker has not stored before what no ladder leads on from. -/
theorem total_iff (cfg : Breaker.Config) (refusal : Refusal) (record : Record) :
    Total cfg refusal record ↔ refusal.Within ∧ record.Goes cfg refusal := by
  rw [← tame_readRetryAfter, Record.Goes, ← readRetryAfter_eq_none_iff]
  unfold Total Refusal.parseError
  cases hread : refusal.readRetryAfter with
  | error e => exact iff_of_false (fun h => nomatch h.1) fun h => nomatch h.1
  | ok hint =>
    dsimp only
    rw [toAppError_isOk_iff, tame_ok_iff]
    refine (and_iff_right ⟨hint, rfl⟩).trans (and_congr_right fun hfinite => ?_)
    -- A closed breaker opens with the first cooldown, or with the hint.
    have hclosed : (nextCooldown cfg none hint).Between cfg.cooldownInitialS cfg.cooldownMaxS :=
      (between_nextCooldown cfg none hint hfinite).mpr fun _ _ hmem => nomatch hmem
    have hprobe := between_nextCooldown cfg (readCooldown record.cooldownS) hint hfinite
    unfold Record.recordFailure
    dsimp only
    cases record.degraded with
    | true => exact iff_of_true nofun nofun
    | false =>
      cases record.isProbe with
      | true => simpa using hprobe
      | false => simpa using hclosed

/-! ## Over a run of refusals -/

/-- A refusal, with how its attempt was decided and the count its breaker returns. -/
structure Attempt where
  refusal : Refusal
  degraded : Bool
  isProbe : Bool
  failures : ℤ

/-- The breaker an attempt is recorded in, with what has been stored. -/
def Attempt.record (attempt : Attempt) (cooldownS : Option Number) : Record :=
  { attempt with cooldownS }

/-- What is stored behind an attempt: one that does not open the breaker leaves it as it is. -/
def Attempt.stored (cfg : Breaker.Config) (attempt : Attempt) (cooldownS : Option Number) :
    Option Number :=
  ((attempt.record cooldownS).recordFailure cfg attempt.refusal.parseError).or cooldownS

/-- Each attempt of a run is total where it is made. -/
def AllTotal (cfg : Breaker.Config) (cooldownS : Option Number) : List Attempt → Prop
  | [] => True
  | attempt :: rest =>
    Total cfg attempt.refusal (attempt.record cooldownS) ∧
      AllTotal cfg (attempt.stored cfg cooldownS) rest

/-- **As long as all that is read is finite**, every hint of a run is total: what one attempt
stores is something the ladder of the next can go on from. -/
theorem allTotal_of_within (cfg : Breaker.Config) {cooldownS : Option Number}
    (hstored : ∀ cooldown ∈ cooldownS, cooldown.Between cfg.cooldownInitialS cfg.cooldownMaxS)
    {attempts : List Attempt} (h : ∀ attempt ∈ attempts, attempt.refusal.Within) :
    AllTotal cfg cooldownS attempts := by
  induction attempts generalizing cooldownS with
  | nil => trivial
  | cons attempt rest ih =>
    have hgoes : (attempt.record cooldownS).Goes cfg attempt.refusal := by
      intro _ _ _ previous hprevious
      have hmem := (Option.mem_filter_iff.mp hprevious).1
      exact (hstored previous hmem).atLeast.times cfg.initial_pos cfg.one_le_factor
    have htotal := (total_iff cfg attempt.refusal (attempt.record cooldownS)).mpr
      ⟨h attempt List.mem_cons_self, hgoes⟩
    refine ⟨htotal, ih ?_ fun other hother => h other (List.mem_cons_of_mem _ hother)⟩
    intro cooldown hcooldown
    unfold Attempt.stored at hcooldown
    cases hrecord : (attempt.record cooldownS).recordFailure cfg attempt.refusal.parseError with
    | none =>
      rw [hrecord, Option.none_or] at hcooldown
      exact hstored cooldown hcooldown
    | some next =>
      rw [hrecord] at hcooldown
      obtain rfl := Option.mem_some_iff.mp hcooldown
      exact htotal.2.2 _ hrecord

/-- **Retry hints are total where they are finite.** A hint is total exactly when what is read of
the refusal first is finite, if anything is, and the breaker has not stored before what no ladder
leads on from; and that it never has, in a run from a breaker of which nothing is stored whose
refusals say nothing that is not finite. -/
theorem retry_hints_iff (cfg : Breaker.Config) :
    (∀ (refusal : Refusal) (record : Record),
      Total cfg refusal record ↔ refusal.Within ∧ record.Goes cfg refusal) ∧
    ∀ attempts : List Attempt, (∀ attempt ∈ attempts, attempt.refusal.Within) →
      AllTotal cfg none attempts :=
  ⟨total_iff cfg, fun _ h => allTotal_of_within cfg (fun _ hmem => absurd hmem (Option.not_mem_none _)) h⟩

/-- A refusal of Groq's, with nothing but the header. -/
def refused (retryAfter : String) : Refusal where
  retryAfter := some retryAfter.toList
  told := .groq none none

/-- One of a probe, and then one that says nothing. -/
def attempts : List Attempt :=
  [{ refusal := refused "12", degraded := false, isProbe := false, failures := 1 },
    { refusal := refused "soon", degraded := false, isProbe := true, failures := 1 }]

theorem retry_hints_attempts : AllTotal Breaker.defaults none attempts := by
  refine (retry_hints_iff Breaker.defaults).2 attempts ?_
  have htwelve : (refused "12").retryAfter.bind literal = some (.numeral false ⟨12, 0⟩) := by decide
  have hsoon : (refused "soon").retryAfter.bind literal = none := by decide
  have hvalue : Decimal.value ⟨12, 0⟩ < bound := by
    have hstep : (2 : ℚ) ^ 1024 = 2 ^ 970 * 2 ^ 54 := by
      rw [show 1024 = 970 + 54 from rfl, pow_add]
    have hone : (1 : ℚ) ≤ 2 ^ 970 := one_le_pow₀ (by norm_num)
    unfold Decimal.value bound
    rw [hstep]
    generalize (2 : ℚ) ^ 970 = x at hone ⊢
    norm_num
    linarith
  intro attempt hattempt
  unfold Refusal.Within
  rcases List.mem_cons.mp hattempt with rfl | hattempt
  · rw [htwelve]
    exact hvalue
  · obtain rfl := List.mem_singleton.mp hattempt
    rw [hsoon]
    intro raw hraw
    cases hraw

/-- `Retry-After: nan`, of a closed breaker: the client gets an exception instead of an error, and
the breaker stores what is no number. -/
theorem not_retry_hints :
    ¬ Total Breaker.defaults (refused "nan")
      { degraded := false, isProbe := false, failures := 1, cooldownS := none } ∧
    toAppError (refused "nan").parseError = .error .valueError ∧
    Record.recordFailure Breaker.defaults
      { degraded := false, isProbe := false, failures := 1, cooldownS := none }
      (refused "nan").parseError = some .nan := by
  have hliteral : (refused "nan").retryAfter.bind literal = some .nan := by decide
  have hparse : (refused "nan").parseError = .rateLimited (some .nan) := by
    rw [Refusal.parseError, readRetryAfter_eq, hliteral]
    rfl
  unfold Total
  rw [hparse]
  refine ⟨fun h => ?_, rfl, rfl⟩
  obtain ⟨error, herror⟩ := h.2.1
  cases herror

end RetryHints

end LlmGateway
