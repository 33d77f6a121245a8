import LlmGateway.Usage.Exposition

/-!
# What a scraper reads

The answer of the metrics endpoint, read back line by line: each sample is one that
may be told, each that may be told is there, and none is there twice.
-/

namespace LlmGateway

namespace Metrics

open Selection Exposition

/-! ## The text as samples -/

/-- The sample a line is. -/
def sampleOf (repr : ℚ → List Char) (name : String) (labels : List (String × String)) (value : ℚ) :
    Sample where
  name := name.toList
  labels := labels.map fun label => (label.1.toList, label.2.toList)
  value := formatNumber repr value

/-- The three replacements in a row are one. -/
theorem escape_eq (value : String) : escape value = escaped value.toList := by
  rw [escape, replace, replace, replace, List.flatMap_assoc, List.flatMap_assoc, escaped]
  refine List.flatMap_congr ?_
  intro c _
  unfold escapeChar
  by_cases hslash : c = '\\'
  · subst hslash
    rfl
  · by_cases hquote : c = '"'
    · subst hquote
      rfl
    · by_cases hnl : c = '\n'
      · subst hnl
        rfl
      · simp [hslash, hquote, hnl]

theorem sample_eq (repr : ℚ → List Char) (name : String) (labels : List (String × String))
    (value : ℚ) : sample repr name labels value = (sampleOf repr name labels value).text := by
  have hlabels : (labels.map fun label =>
        label.1.toList ++ ('=' :: '"' :: (escape label.2 ++ ['"']))) =
      (sampleOf repr name labels value).labels.map labelText := by
    rw [sampleOf, List.map_map]
    refine List.map_congr_left ?_
    intro label _
    rw [escape_eq]
    rfl
  rw [sample, hlabels]
  rfl

/-- What is done to the lines is done to what they are made of. -/
theorem map_expositionLines {β γ : Type} (f : β → γ) (comment : String → β)
    (emit : String → List (String × String) → ℚ → β) (le : ℚ → String) (m : MetricsRegistry)
    (breakers : List BreakerGauge) (quota : List QuotaGauge) :
    (expositionLines comment emit le m breakers quota).map f =
      expositionLines (fun text => f (comment text)) (fun name labels v => f (emit name labels v))
        le m breakers quota := by
  have hhistogram : ∀ entry : DurationKey × Histogram,
      (histogramLines emit le entry).map f =
        histogramLines (fun name labels v => f (emit name labels v)) le entry := by
    intro entry
    simp [histogramLines]
  unfold expositionLines
  simp only [List.map_append, List.map_map, List.map_flatMap, List.map_cons, List.map_nil,
    hhistogram]
  congr 1
  · congr 1
    split
    · rfl
    · rw [List.map_append, List.map_filterMap]
      simp only [List.map_cons, List.map_nil, Option.map_map]
      rfl
  · split
    · rfl
    · rw [List.map_append, List.map_map]
      rfl

section

variable {repr : ℚ → List Char} {m : MetricsRegistry} {breakers : List BreakerGauge}
  {quota : List QuotaGauge}

/-- The text of a bound. -/
def leText (repr : ℚ → List Char) (bound : ℚ) : String := String.ofList (formatNumber repr bound)

/-- The lines, a sample where one is written. -/
def linesOf (repr : ℚ → List Char) (m : MetricsRegistry) (breakers : List BreakerGauge)
    (quota : List QuotaGauge) : List Line :=
  expositionLines (fun text => .comment text.toList)
    (fun name labels v => .sample (sampleOf repr name labels v)) (leText repr) m breakers quota

theorem renderExposition_eq :
    renderExposition repr m breakers quota = body ((linesOf repr m breakers quota).map Line.text) :=
  by
  rw [linesOf, map_expositionLines, renderExposition, body]
  have hsample : sample repr = fun name labels v =>
      Line.text (.sample (sampleOf repr name labels v)) := by
    funext name labels v
    exact sample_eq repr name labels v
  rw [hsample]
  rfl

/-- The samples of a text. -/
def samplesOf (repr : ℚ → List Char) (m : MetricsRegistry) (breakers : List BreakerGauge)
    (quota : List QuotaGauge) : List Sample :=
  ((sortedBy (fun entry => entry.1.labels.map (·.2)) (items m.requests)).map fun entry =>
    sampleOf repr requestsTotal entry.1.labels entry.2) ++
  ((sortedBy (fun entry => (durationLabels entry.1).map (·.2)) (items m.durations)).flatMap
    (histogramLines (sampleOf repr) (leText repr)) ++
  (((sortedBy (fun entry => (pairLabels entry.1).map (·.2)) (items m.breakerFailOpen)).map
    fun entry => sampleOf repr breakerFailOpenTotal (pairLabels entry.1) entry.2) ++
  ((((sortedBy (fun gauge => [gauge.provider, gauge.model]) breakers).filterMap fun gauge =>
      (breakerStateCode gauge.state).map fun (code : ℕ) =>
        sampleOf repr breakerState (pairLabels gauge.key) code)) ++
    (sortedBy (fun gauge => [gauge.provider, gauge.model, gauge.window]) quota).map fun gauge =>
      sampleOf repr quotaRemaining
        (pairLabels (gauge.provider, gauge.model) ++ [("window", gauge.window)]) gauge.remaining)))

theorem filterMap_linesOf :
    (linesOf repr m breakers quota).filterMap Line.sample? = samplesOf repr m breakers quota := by
  have hhistogram : ∀ entry : DurationKey × Histogram,
      (histogramLines (fun name labels v => Line.sample (sampleOf repr name labels v))
        (leText repr) entry).filterMap Line.sample? =
        histogramLines (sampleOf repr) (leText repr) entry := by
    intro entry
    simp [histogramLines, List.filterMap_map, Function.comp_def, Line.sample?]
  have hgauges : ∀ gauge : BreakerGauge,
      ((breakerStateCode gauge.state).map fun (code : ℕ) =>
        Line.sample (sampleOf repr breakerState (pairLabels gauge.key) code)).bind Line.sample? =
        (breakerStateCode gauge.state).map fun (code : ℕ) =>
          sampleOf repr breakerState (pairLabels gauge.key) code := by
    intro gauge
    cases breakerStateCode gauge.state <;> rfl
  unfold linesOf expositionLines samplesOf
  simp only [List.filterMap_append, List.filterMap_flatMap, hhistogram, List.append_assoc]
  have hcomments : ∀ a b : String,
      [Line.comment a.toList, Line.comment b.toList].filterMap Line.sample? = [] := fun _ _ => rfl
  rw [hcomments, hcomments, hcomments, List.nil_append, List.nil_append, List.nil_append,
    List.filterMap_map, List.filterMap_map]
  congr 1
  · exact congrFun List.filterMap_eq_map _
  · congr 1
    congr 1
    · exact congrFun List.filterMap_eq_map _
    · congr 1
      · split
        next hnone => simp [hnone, sortedBy]
        next =>
          rw [List.filterMap_append, hcomments, List.nil_append, List.filterMap_filterMap]
          simp only [hgauges]
      · split
        next hnone => simp [hnone, sortedBy]
        next =>
          rw [List.filterMap_append, hcomments, List.nil_append, List.filterMap_map]
          exact congrFun List.filterMap_eq_map _

theorem newline_not_mem_formatNumber (hrepr : ∀ q, '\n' ∉ repr q) (value : ℚ) :
    '\n' ∉ formatNumber repr value := by
  unfold formatNumber
  split
  · intro hmem
    exact absurd (Json.isNumeral_writeInt hmem) (by decide)
  · exact hrepr value

/-- The names of the families, and of their labels. -/
def familyNames : List String :=
  [requestsTotal, durationMs ++ "_bucket", durationMs ++ "_sum", durationMs ++ "_count",
    breakerFailOpenTotal, breakerState, quotaRemaining]

def labelNames : List String :=
  ["provider", "model", "status", "key_pool", "mode", "le", "window"]

theorem plain_sampleOf (hrepr : ∀ q, '\n' ∉ repr q) {name : String}
    {labels : List (String × String)} (hname : name ∈ familyNames)
    (hlabels : ∀ label ∈ labels, label.1 ∈ labelNames) (value : ℚ) :
    (sampleOf repr name labels value).Plain := by
  have hnames : ∀ name ∈ familyNames, name.toList ≠ [] ∧ name.toList.head? ≠ some '#' ∧
      '{' ∉ name.toList ∧ '\n' ∉ name.toList := by
    decide
  have hkeys : ∀ key ∈ labelNames, '=' ∉ key.toList ∧ '}' ∉ key.toList ∧ '\n' ∉ key.toList := by
    decide
  obtain ⟨hne, hhead, hbrace, hnl⟩ := hnames name hname
  refine ⟨hne, hhead, ⟨hbrace, hnl⟩, ?_, newline_not_mem_formatNumber hrepr value⟩
  intro label hlabel
  obtain ⟨original, horiginal, rfl⟩ := List.mem_map.mp hlabel
  exact hkeys original.1 (hlabels original horiginal)

/-- Every line can be read. -/
theorem plain_linesOf (hrepr : ∀ q, '\n' ∉ repr q) :
    ∀ line ∈ linesOf repr m breakers quota, line.Plain := by
  have hpair : ∀ key : Pair, ∀ label ∈ pairLabels key, label.1 ∈ labelNames := by
    intro key label hlabel
    simp only [pairLabels, List.mem_cons, List.not_mem_nil, or_false] at hlabel
    rcases hlabel with rfl | rfl <;> simp [labelNames]
  have hduration : ∀ key : DurationKey, ∀ label ∈ durationLabels key, label.1 ∈ labelNames := by
    intro key label hlabel
    simp only [durationLabels, List.mem_cons, List.not_mem_nil, or_false] at hlabel
    rcases hlabel with rfl | rfl <;> simp [labelNames]
  have hwith : ∀ (labels : List (String × String)) (name text : String), name ∈ labelNames →
      (∀ label ∈ labels, label.1 ∈ labelNames) →
      ∀ label ∈ labels ++ [(name, text)], label.1 ∈ labelNames := by
    intro labels name text hname hlabels label hlabel
    rcases List.mem_append.mp hlabel with hold | hnew
    · exact hlabels label hold
    · rw [List.mem_singleton.mp hnew]
      exact hname
  have hsaid : ∀ text : String, '\n' ∉ text.toList → (Line.comment text.toList).Plain :=
    fun _ h => h
  intro line hline
  simp only [linesOf, expositionLines, List.mem_append, or_assoc] at hline
  rcases hline with hcomment | hrequest | hcomment | htimes | hcomment | hopen | hbreaker | hquota
  · simp only [List.mem_cons, List.not_mem_nil, or_false] at hcomment
    rcases hcomment with rfl | rfl <;> exact hsaid _ (by decide)
  · obtain ⟨entry, -, rfl⟩ := List.mem_map.mp hrequest
    refine plain_sampleOf hrepr (by decide) ?_ _
    intro label hlabel
    simp only [RequestKey.labels, List.mem_cons, List.not_mem_nil, or_false] at hlabel
    rcases hlabel with rfl | rfl | rfl | rfl <;> simp [labelNames]
  · simp only [List.mem_cons, List.not_mem_nil, or_false] at hcomment
    rcases hcomment with rfl | rfl <;> exact hsaid _ (by decide)
  · obtain ⟨entry, -, hentry⟩ := List.mem_flatMap.mp htimes
    simp only [histogramLines, List.mem_append, List.mem_map, List.mem_cons, List.not_mem_nil,
      or_false] at hentry
    rcases hentry with ⟨row, -, rfl⟩ | rfl | rfl | rfl
    · exact plain_sampleOf hrepr (by decide) (hwith _ _ _ (by decide) (hduration _)) _
    · exact plain_sampleOf hrepr (by decide) (hwith _ _ _ (by decide) (hduration _)) _
    · exact plain_sampleOf hrepr (by decide) (hduration _) _
    · exact plain_sampleOf hrepr (by decide) (hduration _) _
  · simp only [List.mem_cons, List.not_mem_nil, or_false] at hcomment
    rcases hcomment with rfl | rfl <;> exact hsaid _ (by decide)
  · obtain ⟨entry, -, rfl⟩ := List.mem_map.mp hopen
    exact plain_sampleOf hrepr (by decide) (hpair _) _
  · split at hbreaker
    next => cases hbreaker
    next =>
      rcases List.mem_append.mp hbreaker with hcomment | hgauge
      · simp only [List.mem_cons, List.not_mem_nil, or_false] at hcomment
        rcases hcomment with rfl | rfl <;> exact hsaid _ (by decide)
      · obtain ⟨gauge, -, hcode⟩ := List.mem_filterMap.mp hgauge
        obtain ⟨code, -, rfl⟩ := Option.map_eq_some_iff.mp hcode
        exact plain_sampleOf hrepr (by decide) (hpair _) _
  · split at hquota
    next => cases hquota
    next =>
      rcases List.mem_append.mp hquota with hcomment | hgauge
      · simp only [List.mem_cons, List.not_mem_nil, or_false] at hcomment
        rcases hcomment with rfl | rfl <;> exact hsaid _ (by decide)
      · obtain ⟨gauge, -, rfl⟩ := List.mem_map.mp hgauge
        exact plain_sampleOf hrepr (by decide) (hwith _ _ _ (by decide) (hpair _)) _

/-- **The text is read back** as its samples. -/
theorem scrape_renderExposition (hrepr : ∀ q, '\n' ∉ repr q) :
    scrape (renderExposition repr m breakers quota) = some (samplesOf repr m breakers quota) := by
  have hne : linesOf repr m breakers quota ≠ [] := List.cons_ne_nil _ _
  rw [renderExposition_eq, scrape_body (plain_linesOf hrepr) hne, filterMap_linesOf]

end

/-! ## What is told -/

/-- How often something has been asked of a series. -/
def asked {κ : Type} [DecidableEq κ] (series : Event → Option κ) (key : κ) (events : List Event) :
    ℕ :=
  events.countP fun event => series event = some key

/-- **What a scrape may say**: of each series that something has happened to, how much. -/
inductive Told (repr : ℚ → List Char) (events : List Event) (breakers : List BreakerGauge)
    (quota : List QuotaGauge) : Sample → Prop
  | requests (key : RequestKey) (h : asked Event.request? key events ≠ 0) :
    Told repr events breakers quota
      (sampleOf repr requestsTotal key.labels (asked Event.request? key events))
  | bucket (key : DurationKey) (h : observed key events ≠ []) {bound : ℚ}
      (hbound : bound ∈ durationBucketsMs) :
    Told repr events breakers quota
      (sampleOf repr (durationMs ++ "_bucket") (durationLabels key ++ [("le", leText repr bound)])
        ((observed key events).countP (· ≤ bound)))
  | infinity (key : DurationKey) (h : observed key events ≠ []) :
    Told repr events breakers quota
      (sampleOf repr (durationMs ++ "_bucket") (durationLabels key ++ [("le", "+Inf")])
        (observed key events).length)
  | sum (key : DurationKey) (h : observed key events ≠ []) :
    Told repr events breakers quota
      (sampleOf repr (durationMs ++ "_sum") (durationLabels key) (total (observed key events)))
  | count (key : DurationKey) (h : observed key events ≠ []) :
    Told repr events breakers quota
      (sampleOf repr (durationMs ++ "_count") (durationLabels key) (observed key events).length)
  | failOpen (key : Pair) (h : asked Event.failOpen? key events ≠ 0) :
    Told repr events breakers quota
      (sampleOf repr breakerFailOpenTotal (pairLabels key) (asked Event.failOpen? key events))
  | breaker {gauge : BreakerGauge} (h : gauge ∈ breakers) {code : ℕ}
      (hcode : breakerStateCode gauge.state = some code) :
    Told repr events breakers quota (sampleOf repr breakerState (pairLabels gauge.key) code)
  | quota {gauge : QuotaGauge} (h : gauge ∈ quota) :
    Told repr events breakers quota
      (sampleOf repr quotaRemaining
        (pairLabels (gauge.provider, gauge.model) ++ [("window", gauge.window)]) gauge.remaining)

/-- Two samples of different series. -/
def Apart (s t : Sample) : Prop := s.name ≠ t.name ∨ s.labels ≠ t.labels

section

variable {κ ν : Type}

theorem pairwise_sortedBy (key : κ × ν → List String) (d : Dict κ ν) :
    (sortedBy key (items d)).Pairwise fun a b => a.1 ≠ b.1 := by
  have hitems : (items d).Pairwise fun a b => a.1 ≠ b.1 := by
    have hkeys := List.nodupKeys_iff_pairwise.mp d.nodupKeys
    rw [items, List.pairwise_map]
    exact hkeys
  exact (List.mergeSort_perm _ _).symm.pairwise hitems fun h => h.symm

variable [DecidableEq κ]

theorem mem_sortedBy {key : κ × ν → List String} {d : Dict κ ν} {entry : κ × ν} :
    entry ∈ sortedBy key (items d) ↔ d.lookup entry.1 = some entry.2 := by
  rw [sortedBy, List.mem_mergeSort, items, List.mem_map]
  constructor
  · rintro ⟨e, he, rfl⟩
    exact AList.mem_lookup_iff.mpr he
  · intro h
    exact ⟨⟨entry.1, entry.2⟩, AList.mem_lookup_iff.mp h, rfl⟩

theorem counter_eq_some {n v : ℕ} : counter n = some v ↔ n ≠ 0 ∧ v = n := by
  unfold counter
  split
  next hzero => simp [hzero]
  next hne => simp [hne, eq_comm]

theorem asked_eq (series : Event → Option κ) (key : κ) (events : List Event) :
    (events.filterMap series).countP (· = key) = asked series key events := by
  rw [List.countP_filterMap, asked]
  refine List.countP_congr ?_
  intro event _
  cases series event <;> simp

end

theorem labels_sampleOf_inj {repr : ℚ → List Char} {name name' : String}
    {labels labels' : List (String × String)} {v v' : ℚ}
    (h : (sampleOf repr name labels v).labels = (sampleOf repr name' labels' v').labels) :
    labels = labels' := by
  refine List.map_injective_iff.mpr ?_ h
  intro a b hab
  obtain ⟨hkey, htext⟩ := Prod.mk.inj hab
  exact Prod.ext (String.toList_inj.mp hkey) (String.toList_inj.mp htext)

theorem leText_bucket (repr : ℚ → List Char) :
    durationBucketsMs.map (leText repr) =
      ["25", "50", "100", "250", "500", "1000", "2500", "5000", "10000", "30000", "60000"] := by
  rfl

section

variable {repr : ℚ → List Char} {m : MetricsRegistry} {breakers : List BreakerGauge}
  {quota : List QuotaGauge} {events : List Event}

theorem mem_histogramLines {key : DurationKey} {times : List ℚ} {s : Sample} :
    s ∈ histogramLines (sampleOf repr) (leText repr) (key, histogramOf durationBucketsMs times) ↔
      (∃ bound ∈ durationBucketsMs, s = sampleOf repr (durationMs ++ "_bucket")
        (durationLabels key ++ [("le", leText repr bound)]) (times.countP (· ≤ bound))) ∨
      s = sampleOf repr (durationMs ++ "_bucket") (durationLabels key ++ [("le", "+Inf")])
        times.length ∨
      s = sampleOf repr (durationMs ++ "_sum") (durationLabels key) (total times) ∨
      s = sampleOf repr (durationMs ++ "_count") (durationLabels key) times.length := by
  have hsorted : durationBucketsMs.Pairwise (· ≤ ·) := by decide
  simp only [histogramLines, cumulative_histogramOf hsorted, List.mem_append, List.mem_map,
    List.mem_cons, List.not_mem_nil, or_false]
  constructor
  · rintro (⟨row, ⟨bound, hbound, rfl⟩, rfl⟩ | hrest)
    · exact .inl ⟨bound, hbound, rfl⟩
    · exact .inr hrest
  · rintro (⟨bound, hbound, rfl⟩ | hrest)
    · exact .inl ⟨_, ⟨bound, hbound, rfl⟩, rfl⟩
    · exact .inr hrest

/-- **The samples are what may be told**, each of them and no other. -/
theorem mem_samplesOf (h : Tells m durationBucketsMs events) {s : Sample} :
    s ∈ samplesOf repr m breakers quota ↔ Told repr events breakers quota s := by
  have hrequests : ∀ key n, m.requests.lookup key = some n ↔
      asked Event.request? key events ≠ 0 ∧ n = asked Event.request? key events := by
    intro key n
    rw [h.requests, asked_eq, counter_eq_some]
  have hopens : ∀ key n, m.breakerFailOpen.lookup key = some n ↔
      asked Event.failOpen? key events ≠ 0 ∧ n = asked Event.failOpen? key events := by
    intro key n
    rw [h.failOpen, asked_eq, counter_eq_some]
  have hdurations : ∀ key histogram, m.durations.lookup key = some histogram ↔
      observed key events ≠ [] ∧
        histogram = histogramOf durationBucketsMs (observed key events) := by
    intro key histogram
    rw [h.durations]
    split
    next hnone => simp [hnone]
    next hsome => simp [hsome, eq_comm]
  simp only [samplesOf, List.mem_append]
  constructor
  · rintro (hmem | hmem | hmem | hmem | hmem)
    · obtain ⟨⟨key, n⟩, hentry, rfl⟩ := List.mem_map.mp hmem
      obtain ⟨hne, rfl⟩ := (hrequests key n).mp (mem_sortedBy.mp hentry)
      exact .requests key hne
    · obtain ⟨⟨key, histogram⟩, hentry, hline⟩ := List.mem_flatMap.mp hmem
      obtain ⟨hne, rfl⟩ := (hdurations key histogram).mp (mem_sortedBy.mp hentry)
      rcases mem_histogramLines.mp hline with ⟨bound, hbound, rfl⟩ | rfl | rfl | rfl
      · exact .bucket key hne hbound
      · exact .infinity key hne
      · exact .sum key hne
      · exact .count key hne
    · obtain ⟨⟨key, n⟩, hentry, rfl⟩ := List.mem_map.mp hmem
      obtain ⟨hne, rfl⟩ := (hopens key n).mp (mem_sortedBy.mp hentry)
      exact .failOpen key hne
    · obtain ⟨gauge, hgauge, hline⟩ := List.mem_filterMap.mp hmem
      obtain ⟨code, hcode, rfl⟩ := Option.map_eq_some_iff.mp hline
      exact .breaker (List.mem_mergeSort.mp hgauge) hcode
    · obtain ⟨gauge, hgauge, rfl⟩ := List.mem_map.mp hmem
      exact .quota (List.mem_mergeSort.mp hgauge)
  · have hhistogram : ∀ key, observed key events ≠ [] →
        (key, histogramOf durationBucketsMs (observed key events)) ∈
          sortedBy (fun entry => (durationLabels entry.1).map (·.2)) (items m.durations) :=
      fun key hne => mem_sortedBy.mpr ((hdurations key _).mpr ⟨hne, rfl⟩)
    intro htold
    cases htold with
    | requests key hne =>
      exact .inl (List.mem_map.mpr
        ⟨(key, _), mem_sortedBy.mpr ((hrequests key _).mpr ⟨hne, rfl⟩), rfl⟩)
    | bucket key hne hbound =>
      exact .inr (.inl (List.mem_flatMap.mpr
        ⟨_, hhistogram key hne, mem_histogramLines.mpr (.inl ⟨_, hbound, rfl⟩)⟩))
    | infinity key hne =>
      exact .inr (.inl (List.mem_flatMap.mpr
        ⟨_, hhistogram key hne, mem_histogramLines.mpr (.inr (.inl rfl))⟩))
    | sum key hne =>
      exact .inr (.inl (List.mem_flatMap.mpr
        ⟨_, hhistogram key hne, mem_histogramLines.mpr (.inr (.inr (.inl rfl)))⟩))
    | count key hne =>
      exact .inr (.inl (List.mem_flatMap.mpr
        ⟨_, hhistogram key hne, mem_histogramLines.mpr (.inr (.inr (.inr rfl)))⟩))
    | failOpen key hne =>
      exact .inr (.inr (.inl (List.mem_map.mpr
        ⟨(key, _), mem_sortedBy.mpr ((hopens key _).mpr ⟨hne, rfl⟩), rfl⟩)))
    | breaker hgauge hcode =>
      exact .inr (.inr (.inr (.inl (List.mem_filterMap.mpr
        ⟨_, List.mem_mergeSort.mpr hgauge, Option.map_eq_some_iff.mpr ⟨_, hcode, rfl⟩⟩))))
    | quota hgauge =>
      exact .inr (.inr (.inr (.inr (List.mem_map.mpr
        ⟨_, List.mem_mergeSort.mpr hgauge, rfl⟩))))

theorem apart_of_name {name name' : String} {labels labels' : List (String × String)} {v v' : ℚ}
    (h : name ≠ name') : Apart (sampleOf repr name labels v) (sampleOf repr name' labels' v') :=
  .inl fun heq => h (String.toList_inj.mp heq)

theorem apart_of_labels {name name' : String} {labels labels' : List (String × String)} {v v' : ℚ}
    (h : labels ≠ labels') :
    Apart (sampleOf repr name labels v) (sampleOf repr name' labels' v') :=
  .inr fun heq => h (labels_sampleOf_inj heq)

theorem durationLabels_injective : Function.Injective durationLabels := by
  rintro ⟨provider, mode⟩ ⟨provider', mode'⟩ h
  simp only [durationLabels, List.cons.injEq, Prod.mk.injEq, true_and, and_true] at h
  obtain ⟨rfl, hmode⟩ := h
  cases mode <;> cases mode' <;> first | rfl | exact absurd hmode (by decide)

theorem pairLabels_injective : Function.Injective pairLabels := by
  rintro ⟨provider, model⟩ ⟨provider', model'⟩ h
  simp only [pairLabels, List.cons.injEq, Prod.mk.injEq, true_and, and_true] at h
  exact Prod.ext h.1 h.2

/-- The rows of one histogram are of different series. -/
theorem pairwise_histogramLines (key : DurationKey) (times : List ℚ) :
    (histogramLines (sampleOf repr) (leText repr)
      (key, histogramOf durationBucketsMs times)).Pairwise Apart := by
  have hsorted : durationBucketsMs.Pairwise (· ≤ ·) := by decide
  have htexts : (durationBucketsMs.map (leText repr)).Nodup ∧
      "+Inf" ∉ durationBucketsMs.map (leText repr) := by
    rw [leText_bucket]
    decide
  have hle : ∀ a b : String, a ≠ b →
      durationLabels key ++ [("le", a)] ≠ durationLabels key ++ [("le", b)] := by
    intro a b hab heq
    have hlast := List.append_cancel_left heq
    exact hab (Prod.mk.inj (List.cons.inj hlast).1).2
  simp only [histogramLines, cumulative_histogramOf hsorted, List.map_map]
  rw [List.pairwise_append]
  refine ⟨?_, ?_, ?_⟩
  · rw [List.pairwise_map]
    have hdistinct : durationBucketsMs.Pairwise fun a b => leText repr a ≠ leText repr b :=
      List.pairwise_map.mp htexts.1
    exact hdistinct.imp fun hab => apart_of_labels (hle _ _ hab)
  · simp only [List.pairwise_cons, List.mem_cons, List.not_mem_nil, or_false, forall_eq_or_imp,
      forall_eq, List.Pairwise.nil, IsEmpty.forall_iff, implies_true, and_true]
    exact ⟨⟨apart_of_name (by decide), apart_of_name (by decide)⟩, apart_of_name (by decide)⟩
  · intro s hs t ht
    obtain ⟨bound, hbound, rfl⟩ := List.mem_map.mp hs
    simp only [List.mem_cons, List.not_mem_nil, or_false] at ht
    rcases ht with rfl | rfl | rfl
    · refine apart_of_labels (hle _ _ ?_)
      intro heq
      exact htexts.2 (List.mem_map.mpr ⟨bound, hbound, heq⟩)
    · exact apart_of_name (by decide)
    · exact apart_of_name (by decide)

/-- Every row says whose it is. -/
theorem labels_of_mem_histogramLines {entry : DurationKey × Histogram} {s : Sample}
    (h : s ∈ histogramLines (sampleOf repr) (leText repr) entry) :
    ∃ name ∈ [durationMs ++ "_bucket", durationMs ++ "_sum", durationMs ++ "_count"], ∃ rest v,
      s = sampleOf repr name (durationLabels entry.1 ++ rest) v := by
  simp only [histogramLines, List.mem_append, List.mem_map, List.mem_cons, List.not_mem_nil,
    or_false] at h
  rcases h with ⟨row, -, rfl⟩ | rfl | rfl | rfl
  · exact ⟨durationMs ++ "_bucket", by simp, _, _, rfl⟩
  · exact ⟨durationMs ++ "_bucket", by simp, _, _, rfl⟩
  · exact ⟨durationMs ++ "_sum", by simp, [], _, by rw [List.append_nil]⟩
  · exact ⟨durationMs ++ "_count", by simp, [], _, by rw [List.append_nil]⟩

/-- Samples of certain families. -/
def Named (repr : ℚ → List Char) (names : List String) (samples : List Sample) : Prop :=
  ∀ s ∈ samples, ∃ name ∈ names, ∃ labels v, s = sampleOf repr name labels v

theorem Named.append {names names' : List String} {before after : List Sample}
    (h : Named repr names before) (h' : Named repr names' after) :
    Named repr (names ++ names') (before ++ after) := by
  intro s hs
  rcases List.mem_append.mp hs with hbefore | hafter
  · obtain ⟨name, hname, hs⟩ := h s hbefore
    exact ⟨name, List.mem_append_left _ hname, hs⟩
  · obtain ⟨name, hname, hs⟩ := h' s hafter
    exact ⟨name, List.mem_append_right _ hname, hs⟩

/-- Different families have different names. -/
theorem Named.apart {names names' : List String} {before after : List Sample}
    (h : Named repr names before) (h' : Named repr names' after)
    (hnames : ∀ name ∈ names, name ∉ names') : ∀ s ∈ before, ∀ t ∈ after, Apart s t := by
  intro s hs t ht
  obtain ⟨name, hname, labels, v, rfl⟩ := h s hs
  obtain ⟨name', hname', labels', v', rfl⟩ := h' t ht
  exact apart_of_name fun heq => hnames name hname (heq ▸ hname')

theorem named_map {α : Type} (name : String) (labels : α → List (String × String)) (v : α → ℚ)
    (list : List α) :
    Named repr [name] (list.map fun a => sampleOf repr name (labels a) (v a)) := by
  intro s hs
  obtain ⟨a, -, rfl⟩ := List.mem_map.mp hs
  exact ⟨name, List.mem_singleton_self name, _, _, rfl⟩

theorem named_histograms (list : List (DurationKey × Histogram)) :
    Named repr [durationMs ++ "_bucket", durationMs ++ "_sum", durationMs ++ "_count"]
      (list.flatMap (histogramLines (sampleOf repr) (leText repr))) := by
  intro s hs
  obtain ⟨entry, -, hline⟩ := List.mem_flatMap.mp hs
  obtain ⟨name, hname, rest, v, rfl⟩ := labels_of_mem_histogramLines hline
  exact ⟨name, hname, _, _, rfl⟩

theorem named_breakers (list : List BreakerGauge) :
    Named repr [breakerState] (list.filterMap fun gauge =>
      (breakerStateCode gauge.state).map fun (code : ℕ) =>
        sampleOf repr breakerState (pairLabels gauge.key) code) := by
  intro s hs
  obtain ⟨gauge, -, hcode⟩ := List.mem_filterMap.mp hs
  obtain ⟨code, -, rfl⟩ := Option.map_eq_some_iff.mp hcode
  exact ⟨breakerState, List.mem_singleton_self _, _, _, rfl⟩

/-- **No series is told twice.** -/
theorem pairwise_samplesOf (h : Tells m durationBucketsMs events)
    (hbreakers : (breakers.map (·.key)).Nodup) (hquota : (quota.map (·.key)).Nodup) :
    (samplesOf repr m breakers quota).Pairwise Apart := by
  have hdurations : ((sortedBy (fun entry => (durationLabels entry.1).map (·.2))
      (items m.durations)).flatMap
        (histogramLines (sampleOf repr) (leText repr))).Pairwise Apart := by
    rw [List.pairwise_flatMap]
    constructor
    · rintro ⟨key, histogram⟩ hentry
      have hlookup := mem_sortedBy.mp hentry
      rw [h.durations] at hlookup
      split at hlookup
      next => cases hlookup
      next =>
        have hsame : histogram = histogramOf durationBucketsMs (observed key events) :=
          (Option.some.inj hlookup).symm
        rw [hsame]
        exact pairwise_histogramLines key _
    · refine (pairwise_sortedBy _ m.durations).imp ?_
      intro a b hab s hs t ht
      obtain ⟨name, -, rest, v, rfl⟩ := labels_of_mem_histogramLines hs
      obtain ⟨name', -, rest', v', rfl⟩ := labels_of_mem_histogramLines ht
      refine apart_of_labels ?_
      intro heq
      exact hab (durationLabels_injective (List.append_inj heq rfl).1)
  have hgauges : ((sortedBy (fun gauge => [gauge.provider, gauge.model]) breakers).filterMap
      fun gauge => (breakerStateCode gauge.state).map fun (code : ℕ) =>
        sampleOf repr breakerState (pairLabels gauge.key) code).Pairwise Apart := by
    rw [List.pairwise_filterMap]
    have hkeys : (sortedBy (fun gauge => [gauge.provider, gauge.model]) breakers).Pairwise
        fun a b => a.key ≠ b.key :=
      (List.mergeSort_perm _ _).symm.pairwise (List.pairwise_map.mp hbreakers) fun h => h.symm
    refine hkeys.imp ?_
    intro a b hab s hs t ht
    obtain ⟨code, -, rfl⟩ := Option.map_eq_some_iff.mp hs
    obtain ⟨code', -, rfl⟩ := Option.map_eq_some_iff.mp ht
    exact apart_of_labels fun heq => hab (pairLabels_injective heq)
  have hwindows : ((sortedBy (fun gauge => [gauge.provider, gauge.model, gauge.window]) quota).map
      fun gauge => sampleOf repr quotaRemaining
        (pairLabels (gauge.provider, gauge.model) ++ [("window", gauge.window)])
        gauge.remaining).Pairwise Apart := by
    rw [List.pairwise_map]
    have hkeys : (sortedBy (fun gauge => [gauge.provider, gauge.model, gauge.window])
        quota).Pairwise fun a b => a.key ≠ b.key :=
      (List.mergeSort_perm _ _).symm.pairwise (List.pairwise_map.mp hquota) fun h => h.symm
    refine hkeys.imp ?_
    intro a b hab
    refine apart_of_labels ?_
    intro heq
    obtain ⟨hpair, hwindow⟩ := List.append_inj heq rfl
    exact hab (Prod.ext (pairLabels_injective hpair)
      (Prod.mk.inj (List.cons.inj hwindow).1).2)
  have hrequests : ((sortedBy (fun entry => entry.1.labels.map (·.2)) (items m.requests)).map
      fun entry => sampleOf repr requestsTotal entry.1.labels entry.2).Pairwise Apart := by
    rw [List.pairwise_map]
    refine (pairwise_sortedBy _ m.requests).imp ?_
    rintro ⟨⟨provider, model, status, keyPool⟩, n⟩ ⟨⟨provider', model', status', keyPool'⟩, n'⟩ hab
    refine apart_of_labels ?_
    intro heq
    simp only [RequestKey.labels, List.cons.injEq, Prod.mk.injEq, true_and, and_true] at heq
    obtain ⟨rfl, rfl, rfl, rfl⟩ := heq
    exact hab rfl
  have hopens : ((sortedBy (fun entry => (pairLabels entry.1).map (·.2))
      (items m.breakerFailOpen)).map fun entry =>
        sampleOf repr breakerFailOpenTotal (pairLabels entry.1) entry.2).Pairwise Apart := by
    rw [List.pairwise_map]
    exact (pairwise_sortedBy _ m.breakerFailOpen).imp fun hab =>
      apart_of_labels fun heq => hab (pairLabels_injective heq)
  have hlast := fun (gauges : List BreakerGauge) (windows : List QuotaGauge) =>
    (@named_breakers repr gauges).append (@named_map repr _ quotaRemaining
      (fun gauge => pairLabels (gauge.provider, gauge.model) ++ [("window", gauge.window)])
      (fun gauge => gauge.remaining) windows)
  have hbehind := fun (entries : List (Pair × ℕ)) gauges windows =>
    (@named_map repr _ breakerFailOpenTotal (fun entry => pairLabels entry.1)
      (fun entry => entry.2) entries).append (hlast gauges windows)
  have hrest := fun (histograms : List (DurationKey × Histogram)) entries gauges windows =>
    (@named_histograms repr histograms).append (hbehind entries gauges windows)
  refine List.pairwise_append.mpr ⟨hrequests, List.pairwise_append.mpr ⟨hdurations,
    List.pairwise_append.mpr ⟨hopens, List.pairwise_append.mpr ⟨hgauges, hwindows, ?_⟩, ?_⟩,
      ?_⟩, ?_⟩
  · exact (@named_breakers repr _).apart (named_map _ _ _ _) (by decide)
  · exact (named_map _ _ _ _).apart (hlast _ _) (by decide)
  · exact (@named_histograms repr _).apart (hbehind _ _ _) (by decide)
  · exact (named_map _ _ _ _).apart (hrest _ _ _ _) (by decide)

end

/-! ## A scrape -/

section

variable (repr : ℚ → List Char) (T : Quota.Tracker) (read : ModelSpec → Reading)
  (registry : ProviderRegistry)

/-- **A scraper reads what has happened.** Whatever the worker has been through and whatever is read
of the fleet, the answer of the endpoint is a text that can be read, no series is in it twice, and
its samples are those that may be told: for each series of requests how many there were, for each
series of durations how many of them were not above a bound, how many there were and what they sum
up to, and no series that nothing has happened to. -/
theorem scrape_metrics (hrepr : ∀ q, '\n' ∉ repr q) (events : List Event) :
    ∃ samples,
      scrape (metrics T read repr registry
        (events.foldl MetricsRegistry.take (.new durationBucketsMs))) = some samples ∧
      samples.Pairwise Apart ∧
      ∀ s, s ∈ samples ↔
        Told repr events (gather T read registry).breakers (gather T read registry).quota s := by
  have htells : Tells (events.foldl MetricsRegistry.take (.new durationBucketsMs))
      durationBucketsMs events := by
    have hrun := tells_run durationBucketsMs events
    have hsorted : durationBucketsMs.mergeSort = durationBucketsMs :=
      List.mergeSort_of_pairwise (by decide)
    rwa [hsorted] at hrun
  have hsingle := @single_gather T read registry
  exact ⟨_, scrape_renderExposition hrepr,
    pairwise_samplesOf htells hsingle.breakers hsingle.quota, fun s => mem_samplesOf htells⟩

end

/-- What is written of a half. -/
def halves (q : ℚ) : List Char := Json.writeInt q.floor ++ ['.', '5']

/-- Two answers of one model, of which one took half a millisecond longer than twelve. -/
def twoTurns : List Event :=
  [.request (some "groq") (some "m \"1\"") "ok" (some "shared"),
    .duration (some "groq") .complete 12.5,
    .request (some "groq") (some "m \"1\"") "ok" (some "shared"),
    .duration (some "groq") .complete 25]

theorem scrape_metrics_twoTurns :
    ∃ samples,
      scrape (metrics { limits := fun _ _ => none, effectiveLimit := fun _ n => n
                        perceptionLimit := fun _ _ n => n, pacific := Quota.utc }
        (fun _ => { peek := none, stored := none }) halves
        { specs := [], internalSlots := [], privateKeyOnlySlots := []
          specs_nodup := List.nodup_nil }
        (twoTurns.foldl MetricsRegistry.take (.new durationBucketsMs))) = some samples ∧
      sampleOf halves requestsTotal [("provider", "groq"), ("model", "m \"1\""), ("status", "ok"),
        ("key_pool", "shared")] 2 ∈ samples ∧
      sampleOf halves (durationMs ++ "_sum") [("provider", "groq"), ("mode", "complete")] 37.5 ∈
        samples := by
  have hhalves : ∀ q, '\n' ∉ halves q := by
    intro q hmem
    rcases List.mem_append.mp hmem with hwhole | hhalf
    · exact absurd (Json.isNumeral_writeInt hwhole) (by decide)
    · exact absurd hhalf (by decide)
  obtain ⟨samples, hread, -, htold⟩ := scrape_metrics halves _ _ _ hhalves twoTurns
  have hrequests : asked Event.request? ⟨"groq", "m \"1\"", "ok", "shared"⟩ twoTurns ≠ 0 := by
    decide
  have hdurations : observed ("groq", .complete) twoTurns ≠ [] := by decide
  have htotal : total (observed ("groq", .complete) twoTurns) = 37.5 := by decide +kernel
  refine ⟨samples, hread, (htold _).mpr (.requests _ hrequests), ?_⟩
  rw [← htotal]
  exact (htold _).mpr (.sum _ hdurations)

end Metrics

end LlmGateway
