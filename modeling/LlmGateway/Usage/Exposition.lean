import LlmGateway.Codec.Exposition
import LlmGateway.Codec.Json
import LlmGateway.Quota.Tracker
import LlmGateway.Usage.Metrics

/-!
# What the metrics endpoint says

The text a scrape is answered with: the counters and histograms of the worker that
answers, and two gauges that are read for every candidate of the fleet.
-/

namespace LlmGateway

namespace Metrics

open Selection Exposition

/-! ## Numbers and labels -/

/-- `str.replace`, of one character. -/
def replace (old : Char) (new : List Char) (text : List Char) : List Char :=
  text.flatMap fun c => if c = old then new else [c]

/-- `_escape`: backslash, double quote and newline, in that order. -/
def escape (value : String) : List Char :=
  replace '\n' ['\\', 'n'] (replace '"' ['\\', '"'] (replace '\\' ['\\', '\\'] value.toList))

section

variable (repr : ℚ → List Char)

/-- `_format_number`. -/
def formatNumber (value : ℚ) : List Char :=
  if value.den = 1 then Json.writeInt value.num else repr value

/-- `_sample`. -/
def sample (name : String) (labels : List (String × String)) (value : ℚ) : List Char :=
  let rendered := [','].intercalate
    (labels.map fun label => label.1.toList ++ ('=' :: '"' :: (escape label.2 ++ ['"'])))
  name.toList ++ ('{' :: (rendered ++ ('}' :: ' ' :: formatNumber repr value)))

end

/-! ## Gauges -/

structure BreakerGauge where
  provider : String
  model : String
  state : String
  deriving DecidableEq, Repr

structure QuotaGauge where
  provider : String
  model : String
  window : String
  remaining : ℤ
  deriving DecidableEq, Repr

/-- `BREAKER_STATE_CODES`, looked up. -/
def breakerStateCode (state : String) : Option ℕ :=
  if state = "closed" then some 0
  else if state = "half_open" then some 1
  else if state = "open" then some 2
  else none

/-- The text of a state. -/
def stateText : BreakerState → String
  | .closed => "closed"
  | .halfOpen => "half_open"
  | .open => "open"

def modeText : RoutingMode → String
  | .complete => "complete"
  | .stream => "stream"

/-! ## The text -/

def requestsTotal : String := "gateway_requests_total"
def durationMs : String := "gateway_request_duration_ms"
def breakerFailOpenTotal : String := "gateway_breaker_fail_open_total"
def breakerState : String := "gateway_breaker_state"
def quotaRemaining : String := "gateway_quota_remaining"

/-- The labels of a series of requests. -/
def RequestKey.labels (key : RequestKey) : List (String × String) :=
  [("provider", key.provider), ("model", key.model), ("status", key.status),
    ("key_pool", key.keyPool)]

def durationLabels (key : DurationKey) : List (String × String) :=
  [("provider", key.1), ("mode", modeText key.2)]

def pairLabels (key : Pair) : List (String × String) := [("provider", key.1), ("model", key.2)]

def BreakerGauge.key (gauge : BreakerGauge) : Pair := (gauge.provider, gauge.model)

def QuotaGauge.key (gauge : QuotaGauge) : Pair × String :=
  ((gauge.provider, gauge.model), gauge.window)

/-- `sorted`, by texts. -/
def sortedBy {α : Type} (key : α → List String) (items : List α) : List α :=
  items.mergeSort fun x y => !List.lex (key y) (key x) fun a b => decide (a < b)

/-- The entries of a dictionary. -/
def items {κ ν : Type} (d : Dict κ ν) : List (κ × ν) := d.entries.map fun e => (e.1, e.2)

section

variable {β : Type} (comment : String → β) (emit : String → List (String × String) → ℚ → β)
  (le : ℚ → String)

/-- The rows of a histogram. -/
def histogramLines (entry : DurationKey × Histogram) : List β :=
  let base := durationLabels entry.1
  let (rows, count) := entry.2.cumulative
  (rows.map fun row => emit (durationMs ++ "_bucket") (base ++ [("le", le row.1)]) row.2) ++
    [emit (durationMs ++ "_bucket") (base ++ [("le", "+Inf")]) count,
      emit (durationMs ++ "_sum") base entry.2.totalMs,
      emit (durationMs ++ "_count") base entry.2.count]

/-- The lines of the endpoint, over what a line is. -/
def expositionLines (m : MetricsRegistry) (breakers : List BreakerGauge)
    (quota : List QuotaGauge) : List β :=
  [comment " HELP gateway_requests_total Terminal request outcomes recorded by this worker.",
    comment " TYPE gateway_requests_total counter"] ++
  ((sortedBy (fun entry => entry.1.labels.map (·.2)) (items m.requests)).map fun entry =>
    emit requestsTotal entry.1.labels entry.2) ++
  [comment " HELP gateway_request_duration_ms Request wall-clock latency in milliseconds.",
    comment " TYPE gateway_request_duration_ms histogram"] ++
  (sortedBy (fun entry => (durationLabels entry.1).map (·.2)) (items m.durations)).flatMap
    (histogramLines emit le) ++
  [comment " HELP gateway_breaker_fail_open_total Breaker decisions made without Redis (ADR-010).",
    comment " TYPE gateway_breaker_fail_open_total counter"] ++
  ((sortedBy (fun entry => (pairLabels entry.1).map (·.2)) (items m.breakerFailOpen)).map
    fun entry => emit breakerFailOpenTotal (pairLabels entry.1) entry.2) ++
  (if breakers = [] then [] else
    [comment " HELP gateway_breaker_state Circuit breaker state: 0 closed, 1 half_open, 2 open.",
      comment " TYPE gateway_breaker_state gauge"] ++
    (sortedBy (fun gauge => [gauge.provider, gauge.model]) breakers).filterMap fun gauge =>
      (breakerStateCode gauge.state).map fun (code : ℕ) =>
        emit breakerState (pairLabels gauge.key) code) ++
  if quota = [] then [] else
    [comment " HELP gateway_quota_remaining Budget left in a window under the shared pool.",
      comment " TYPE gateway_quota_remaining gauge"] ++
    (sortedBy (fun gauge => [gauge.provider, gauge.model, gauge.window]) quota).map fun gauge =>
      emit quotaRemaining (pairLabels (gauge.provider, gauge.model) ++ [("window", gauge.window)])
        gauge.remaining

end

/-- `render_exposition`. -/
def renderExposition (repr : ℚ → List Char) (m : MetricsRegistry) (breakers : List BreakerGauge)
    (quota : List QuotaGauge) : List Char :=
  let lines := expositionLines (fun text => '#' :: text.toList) (sample repr)
    (fun bound => String.ofList (formatNumber repr bound)) m breakers quota
  ['\n'].intercalate lines ++ ['\n']

/-! ## The endpoint -/

/-- `WindowState`. -/
structure WindowState where
  window : QuotaWindow
  limit : ℤ
  used : ℤ
  resetsAt : Seconds
  deriving DecidableEq

/-- `QuotaTracker.remaining`, over what is stored for each window: what is used, and for how long
yet. Nothing is known of a window that Redis does not answer for. -/
def remaining (T : Quota.Tracker) (spec : ModelSpec) (now : Seconds)
    (stored : Option (QuotaWindow → ℤ × ℤ)) : List WindowState :=
  match stored with
  | none => []
  | some stored =>
    (T.declared spec.provider spec.model).map fun w =>
      let (used, ttl) := stored w.window
      { window := w.window, limit := T.effectiveLimit spec w.limit, used
        resetsAt := if 0 < ttl then now + ttl else Quota.resetsAt T.pacific w.reset now }

/-- What a scrape learns of one candidate. Either question may raise. -/
structure Reading where
  peek : Option BreakerDecision
  /-- Left out where the gateway keeps no quota. -/
  stored : Option (Option (Seconds × Option (QuotaWindow → ℤ × ℤ)))

/-- What the loop over the fleet has gathered. -/
structure Gauges where
  breakers : List BreakerGauge := []
  quota : List QuotaGauge := []
  seen : List Pair := []

section

variable (T : Quota.Tracker) (read : ModelSpec → Reading)

/-- The gauges of one candidate, unless a question about it raises. -/
def gaugesOf (spec : ModelSpec) : Option (List BreakerGauge × List QuotaGauge) := do
  let decision ← (read spec).peek
  let breakers : List BreakerGauge :=
    if decision.degraded then []
    else [{ provider := spec.provider, model := spec.model, state := stateText decision.state }]
  match (read spec).stored with
  | none => return (breakers, [])
  | some answered =>
    let (now, stored) ← answered
    return (breakers, (remaining T spec now stored).map fun w =>
      { provider := spec.provider, model := spec.model, window := w.window.name
        remaining := max (w.limit - w.used) 0 })

/-- The loop over the candidates of a slot. An exception ends it, and what has been gathered so far
is dropped with it. -/
def gatherSlot : List ModelSpec → Gauges → Gauges
  | [], g => g
  | spec :: rest, g =>
    if spec.key ∈ g.seen then gatherSlot rest g
    else
      match gaugesOf T read spec with
      | some (breakers, quota) =>
        gatherSlot rest { breakers := g.breakers ++ breakers, quota := g.quota ++ quota
                          seen := spec.key :: g.seen }
      | none => { breakers := [], quota := [], seen := spec.key :: g.seen }

/-- And over the slots, internal ones included. -/
def gather (registry : ProviderRegistry) : Gauges :=
  registry.specs.foldl (fun g slot => gatherSlot T read slot.2 g) {}

/-- `metrics`, of a worker that has counted `m` by the time it renders. -/
def metrics (repr : ℚ → List Char) (registry : ProviderRegistry) (m : MetricsRegistry) :
    List Char :=
  let g := gather T read registry
  renderExposition repr m g.breakers g.quota

end

/-! ## One gauge for each -/

/-- What has been gathered is about candidates that have been seen, and has no two gauges for one
of them. -/
structure Gauges.Single (g : Gauges) : Prop where
  breakers : (g.breakers.map (·.key)).Nodup
  quota : (g.quota.map (·.key)).Nodup
  breakers_seen : ∀ gauge ∈ g.breakers, gauge.key ∈ g.seen
  quota_seen : ∀ gauge ∈ g.quota, gauge.key.1 ∈ g.seen

section

variable {T : Quota.Tracker} {read : ModelSpec → Reading}

theorem windowName_injective : Function.Injective QuotaWindow.name := by
  intro a b h
  cases a <;> cases b <;> first | rfl | exact absurd h (by decide)

/-- The gauges of one candidate are about it, and different. -/
theorem single_gaugesOf {spec : ModelSpec} {breakers : List BreakerGauge} {quota : List QuotaGauge}
    (h : gaugesOf T read spec = some (breakers, quota)) :
    ((breakers.map (·.key)).Nodup ∧ ∀ gauge ∈ breakers, gauge.key = spec.key) ∧
      (quota.map (·.key)).Nodup ∧ ∀ gauge ∈ quota, gauge.key.1 = spec.key := by
  obtain ⟨decision, -, h⟩ := Option.bind_eq_some_iff.mp h
  have hbreakers : ∀ list : List BreakerGauge, list =
      (if decision.degraded then []
        else [{ provider := spec.provider, model := spec.model
                state := stateText decision.state }]) →
      (list.map (·.key)).Nodup ∧ ∀ gauge ∈ list, gauge.key = spec.key := by
    rintro list rfl
    split
    · simp
    · simp [BreakerGauge.key, ModelSpec.key]
  dsimp only at h
  split at h
  next =>
    obtain ⟨rfl, rfl⟩ := Prod.mk.inj (Option.some.inj h)
    exact ⟨hbreakers _ rfl, List.nodup_nil, by simp⟩
  next answered hanswered =>
    obtain ⟨⟨now, stored⟩, -, h⟩ := Option.bind_eq_some_iff.mp h
    obtain ⟨rfl, rfl⟩ := Prod.mk.inj (Option.some.inj h)
    refine ⟨hbreakers _ rfl, ?_, ?_⟩
    · have hwindows : ((remaining T spec now stored).map (·.window)).Nodup := by
        unfold remaining
        split
        · exact List.nodup_nil
        · rw [List.map_map]
          exact Quota.Tracker.declared_nodup
      rw [List.map_map]
      have hkeys : (remaining T spec now stored).map
          ((·.key) ∘ fun w => ({ provider := spec.provider, model := spec.model
                                 window := w.window.name
                                 remaining := max (w.limit - w.used) 0 } : QuotaGauge)) =
          ((remaining T spec now stored).map (·.window)).map
            fun w => ((spec.provider, spec.model), w.name) := by
        rw [List.map_map]
        rfl
      rw [hkeys]
      refine hwindows.map ?_
      intro a b hab
      exact windowName_injective (Prod.mk.inj hab).2
    · intro gauge hgauge
      obtain ⟨w, -, rfl⟩ := List.mem_map.mp hgauge
      rfl

theorem Gauges.Single.gatherSlot {g : Gauges} (h : g.Single) (specs : List ModelSpec) :
    (gatherSlot T read specs g).Single := by
  induction specs generalizing g with
  | nil => exact h
  | cons spec rest ih =>
    rw [Metrics.gatherSlot]
    by_cases hseen : spec.key ∈ g.seen
    · rw [if_pos hseen]
      exact ih h
    · rw [if_neg hseen]
      cases hone : gaugesOf T read spec with
      | none => exact ⟨List.nodup_nil, List.nodup_nil, by simp, by simp⟩
      | some both =>
        obtain ⟨breakers, quota⟩ := both
        obtain ⟨⟨hb, hbkey⟩, hq, hqkey⟩ := single_gaugesOf hone
        refine ih ⟨?_, ?_, ?_, ?_⟩
        · rw [List.map_append, List.nodup_append]
          refine ⟨h.breakers, hb, ?_⟩
          rintro a ha b hb rfl
          obtain ⟨gauge, hgauge, rfl⟩ := List.mem_map.mp ha
          obtain ⟨other, hother, heq⟩ := List.mem_map.mp hb
          rw [hbkey other hother] at heq
          exact hseen (heq ▸ h.breakers_seen gauge hgauge)
        · rw [List.map_append, List.nodup_append]
          refine ⟨h.quota, hq, ?_⟩
          rintro a ha b hb rfl
          obtain ⟨gauge, hgauge, rfl⟩ := List.mem_map.mp ha
          obtain ⟨other, hother, heq⟩ := List.mem_map.mp hb
          have hspec := hqkey other hother
          have hsame : other.key = gauge.key := heq
          rw [hsame] at hspec
          exact hseen (hspec ▸ h.quota_seen gauge hgauge)
        · intro gauge hgauge
          rcases List.mem_append.mp hgauge with hold | hnew
          · exact List.mem_cons_of_mem _ (h.breakers_seen gauge hold)
          · rw [hbkey gauge hnew]
            exact List.mem_cons_self
        · intro gauge hgauge
          rcases List.mem_append.mp hgauge with hold | hnew
          · exact List.mem_cons_of_mem _ (h.quota_seen gauge hold)
          · rw [hqkey gauge hnew]
            exact List.mem_cons_self

/-- **No candidate has two gauges**, whatever is read and whatever raises. -/
theorem single_gather (registry : ProviderRegistry) : (gather T read registry).Single := by
  have hrun : ∀ (slots : List (String × List ModelSpec)) (g : Gauges), g.Single →
      (slots.foldl (fun g slot => gatherSlot T read slot.2 g) g).Single := by
    intro slots
    induction slots with
    | nil => exact fun g h => h
    | cons slot slots ih => exact fun g h => ih _ (h.gatherSlot slot.2)
  exact hrun registry.specs {} ⟨List.nodup_nil, List.nodup_nil, by simp, by simp⟩

end

end Metrics

end LlmGateway
