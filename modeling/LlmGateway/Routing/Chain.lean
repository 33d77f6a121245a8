import LlmGateway.Routing.Ranking
import Mathlib.Algebra.Order.Ring.Rat

/-!
# The candidate chain

What a request is answered with: which models, in which order, and when the
candidates of the slot that was asked for stand before all others.
-/

namespace LlmGateway

namespace Selection

open Lists

/-! ## The chain before it is ranked -/

/-- What a named slot lists. -/
def ProviderRegistry.listed (registry : ProviderRegistry) (slot : String) : List ModelSpec :=
  (registry.specs.lookup slot).getD []

/-- What follows a named slot's own candidates. -/
def spill (registry : ProviderRegistry) (named : List ModelSpec) : List ModelSpec :=
  (firsts (·.key) registry.shared).filter fun spec => spec.key ∉ named.map (·.key)

/-- Config order. -/
def configOrder (registry : ProviderRegistry) (requested : String) : List ModelSpec :=
  if requested = auto then firsts (·.key) registry.shared
  else registry.listed requested ++ spill registry (registry.listed requested)

section

variable {τ : Type} [LinearOrder τ] {registry : ProviderRegistry} {requested : String}

theorem ProviderRegistry.listed_of_candidates {slot : String} {specs : List ModelSpec}
    (h : registry.candidates slot = .ok specs) : registry.listed slot = specs := by
  rw [candidates_eq_ok_iff, ← lookup_eq_some_iff_mem registry.specs_nodup] at h
  rw [listed, h]
  rfl

theorem mem_spill {named : List ModelSpec} {spec : ModelSpec} (h : spec ∈ spill registry named) :
    spec ∈ registry.shared ∧ spec.key ∉ named.map (·.key) := by
  obtain ⟨hmem, hkey⟩ := List.mem_filter.mp h
  exact ⟨mem_of_mem_firsts hmem, by simpa using hkey⟩

theorem mem_keys_spill {named : List ModelSpec} {pair : Pair} :
    pair ∈ (spill registry named).map (·.key) ↔
      registry.Routes pair ∧ pair ∉ named.map (·.key) := by
  rw [← ProviderRegistry.mem_keys_shared, ← mem_keys_firsts registry.shared]
  constructor
  · intro h
    obtain ⟨spec, hspec, rfl⟩ := List.mem_map.mp h
    obtain ⟨hmem, hkey⟩ := List.mem_filter.mp hspec
    exact ⟨List.mem_map_of_mem hmem, by simpa using hkey⟩
  · rintro ⟨h, hkey⟩
    obtain ⟨spec, hspec, rfl⟩ := List.mem_map.mp h
    exact List.mem_map_of_mem (List.mem_filter.mpr ⟨hspec, by simpa using hkey⟩)

theorem nodup_spill (named : List ModelSpec) : ((spill registry named).map (·.key)).Nodup :=
  (nodup_firsts registry.shared).sublist (List.filter_sublist.map _)

/-- A request the table knows is answered with its ranked chain. -/
theorem candidates_eq (latency : Option (LatencySnapshot τ))
    (h : requested = auto ∨ requested ∈ registry.specs.map (·.1)) :
    candidates registry requested none latency =
      .ok (rank (configOrder registry requested) latency) := by
  by_cases hauto : requested = auto
  · simp [candidates, fleet_eq, hauto, configOrder, bind, Except.bind, pure, Except.pure]
  · obtain ⟨named, hnamed⟩ := ProviderRegistry.exists_candidates (h.resolve_left hauto)
    have hlisted := ProviderRegistry.listed_of_candidates hnamed
    simp [candidates, fleet_eq, hauto, hnamed, configOrder, hlisted, spill, bind, Except.bind, pure,
      Except.pure]

theorem candidates_unknown (latency : Option (LatencySnapshot τ)) (hauto : requested ≠ auto)
    (h : requested ∉ registry.specs.map (·.1)) :
    candidates registry requested none latency =
      .error (.unroutable requested (registry.specs.map (·.1))) := by
  simp [candidates, fleet_eq, hauto, ProviderRegistry.candidates_of_not_mem h, bind, Except.bind]

/-- A pin is found in the slots there are, or it is none of their models. -/
theorem resolvePinIn_cases {slots : List String} (pinned : String)
    (h : ∀ slot ∈ slots, slot ∈ registry.specs.map (·.1)) :
    (∃ spec, resolvePinIn registry pinned slots = .ok spec ∧ pinName spec = pinned ∧
      ∃ slot ∈ slots, ∃ specs, registry.candidates slot = .ok specs ∧ spec ∈ specs) ∨
    (resolvePinIn registry pinned slots = .error (.notRoutable pinned) ∧
      ∀ slot ∈ slots, ∀ specs, registry.candidates slot = .ok specs →
        ∀ spec ∈ specs, pinName spec ≠ pinned) := by
  induction slots with
  | nil => exact .inr ⟨rfl, by simp⟩
  | cons slot slots ih =>
    obtain ⟨specs, hspecs⟩ := ProviderRegistry.exists_candidates (h slot List.mem_cons_self)
    cases hfind : specs.find? (pinName · = pinned) with
    | some spec =>
      left
      refine ⟨spec, ?_, by simpa using List.find?_some hfind, slot, List.mem_cons_self, specs,
        hspecs, List.mem_of_find?_eq_some hfind⟩
      simp [resolvePinIn, hspecs, hfind, bind, Except.bind, pure, Except.pure]
    | none =>
      have hstep : resolvePinIn registry pinned (slot :: slots) =
          resolvePinIn registry pinned slots := by
        simp only [resolvePinIn, hspecs, hfind, bind, Except.bind]
      rw [hstep]
      rcases ih fun slot hslot => h slot (List.mem_cons_of_mem _ hslot) with
        ⟨spec, hok, hname, slot', hslot', hrest⟩ | ⟨herr, hnone⟩
      · exact .inl ⟨spec, hok, hname, slot', List.mem_cons_of_mem _ hslot', hrest⟩
      · refine .inr ⟨herr, fun slot' hslot' specs' hspecs' spec hspec => ?_⟩
        rcases List.mem_cons.mp hslot' with rfl | hslot'
        · obtain rfl := Except.ok.inj (hspecs.symm.trans hspecs')
          simpa using List.find?_eq_none.mp hfind spec hspec
        · exact hnone slot' hslot' specs' hspecs' spec hspec

/-! ## Whether a named slot leads -/

/-- No candidate of another slot stands before one of the named slot's own. -/
def Leads (named chain : List ModelSpec) : Prop :=
  chain.Pairwise fun a b => b.key ∈ named.map (·.key) → a.key ∈ named.map (·.key)

omit [LinearOrder τ] in
theorem ranking_congr {latency : Option (LatencySnapshot τ)} {a b : ModelSpec}
    (h : a.key = b.key) : ranking latency a = ranking latency b := by
  cases latency with
  | none => rfl
  | some latency => simp [ranking, LatencySnapshot.rankingFor, h]

instance (named chain : List ModelSpec) : Decidable (Leads named chain) :=
  inferInstanceAs (Decidable (List.Pairwise _ _))

/-- Where no spilled candidate beats one of the slot's own, ranking stays on each side. -/
theorem rank_append {named others : List ModelSpec} {latency : Option (LatencySnapshot τ)}
    (h : ∀ a ∈ named, ∀ b ∈ others, ∀ t u,
      ranking latency a = some t → ranking latency b = some u → t ≤ u) :
    rank (named ++ others) latency = rank named latency ++ rank others latency := by
  cases latency with
  | none => rfl
  | some latency =>
    have hle : ∀ a ∈ named.filter latency.ranks, ∀ b ∈ others.filter latency.ranks,
        latency.grade a ≤ latency.grade b := by
      intro a ha b hb
      obtain ⟨ha, hranks⟩ := List.mem_filter.mp ha
      obtain ⟨hb, hranks'⟩ := List.mem_filter.mp hb
      obtain ⟨t, ht⟩ := Option.isSome_iff_exists.mp hranks
      obtain ⟨u, hu⟩ := Option.isSome_iff_exists.mp hranks'
      rw [LatencySnapshot.grade, LatencySnapshot.grade, ht, hu]
      exact WithBot.coe_le_coe.mpr (h a ha b hb t u ht hu)
    rw [rank_some, rank_some, rank_some, List.filter_append, insertionSort_append _ hle]
    exact refill_append (List.perm_insertionSort _ _).length_eq _ _

/-- The named slot's own candidates come first exactly when none of the rest of the fleet has a
better latency than one of them. -/
theorem leads_iff {named : List ModelSpec} (hauto : requested ≠ auto)
    (hnamed : registry.candidates requested = .ok named) (latency : Option (LatencySnapshot τ)) :
    (∃ chain, candidates registry requested none latency = .ok chain ∧ Leads named chain) ↔
      ∀ own ∈ named, ∀ other ∈ registry.shared, other.key ∉ named.map (·.key) →
        ∀ t u, ranking latency own = some t → ranking latency other = some u → t ≤ u := by
  have hmem : requested ∈ registry.specs.map (·.1) :=
    List.mem_map_of_mem (ProviderRegistry.candidates_eq_ok_iff.mp hnamed)
  have horder : configOrder registry requested = named ++ spill registry named := by
    rw [configOrder, if_neg hauto, ProviderRegistry.listed_of_candidates hnamed]
  rw [candidates_eq latency (.inr hmem), horder]
  constructor
  · rintro ⟨chain, hchain, hleads⟩ own hown other hother hkey t u ht hu
    obtain rfl := Except.ok.inj hchain
    -- the fleet has the pair once, under some slot
    have hspill : other.key ∈ (spill registry named).map (·.key) := by
      refine mem_keys_spill.mpr ⟨?_, hkey⟩
      exact ProviderRegistry.mem_keys_shared.mp (List.mem_map_of_mem hother)
    obtain ⟨other', hother', heq⟩ := List.mem_map.mp hspill
    have hu' : ranking latency other' = some u := (ranking_congr heq).trans hu
    have hkey' : other'.key ∉ named.map (·.key) := heq ▸ hkey
    have hne : own ≠ other' := by
      rintro rfl
      exact hkey' (List.mem_map_of_mem hown)
    have hpair := (pairwise_rank (named ++ spill registry named) latency).and hleads
    rcases rel_or_of_pairwise hpair (mem_rank.mpr (List.mem_append_left _ hown))
      (mem_rank.mpr (List.mem_append_right _ hother')) hne with hbefore | hafter
    · exact hbefore.1 t u ht hu'
    · exact absurd (hafter.2 (List.mem_map_of_mem hown)) hkey'
  · intro h
    refine ⟨_, rfl, ?_⟩
    have hle : ∀ a ∈ named, ∀ b ∈ spill registry named, ∀ t u,
        ranking latency a = some t → ranking latency b = some u → t ≤ u := by
      intro a ha b hb
      obtain ⟨hshared, hkey⟩ := mem_spill hb
      exact h a ha b hshared hkey
    rw [rank_append hle, Leads, List.pairwise_append]
    refine ⟨?_, ?_, ?_⟩
    · refine List.pairwise_of_forall_mem_list fun a ha b _ _ => ?_
      exact List.mem_map_of_mem (mem_rank.mp ha)
    · refine List.pairwise_of_forall_mem_list fun a _ b hb hown => ?_
      exact absurd hown (mem_spill (mem_rank.mp hb)).2
    · intro a ha b hb hown
      exact absurd hown (mem_spill (mem_rank.mp hb)).2

end

section

/-- One model under a slot's name. -/
def specOf (slot provider model : String) : ModelSpec :=
  { slot, provider, model, contextWindow := 8192 }

/-- Two slots, with a model each. -/
def twoSlots : ProviderRegistry where
  specs := [("general", [specOf "general" "gemini" "flash"]),
    ("fast", [specOf "fast" "groq" "small"])]
  internalSlots := []
  privateKeyOnlySlots := []
  specs_nodup := by decide

/-- A snapshot with enough samples of two models. -/
def timed (a : Pair) (t : ℚ) (b : Pair) (u : ℚ) : LatencySnapshot ℚ where
  entries pair := if pair = a then some ⟨t, 9⟩ else if pair = b then some ⟨u, 9⟩ else none
  minSamples := 5

/-- A foreign model that answers sooner takes the first place of the slot that was asked for. -/
theorem not_leads :
    ¬ ∀ (registry : ProviderRegistry) (requested : String) (named : List ModelSpec)
      (latency : Option (LatencySnapshot ℚ)), requested ≠ auto →
      registry.candidates requested = .ok named →
      ∃ chain, candidates registry requested none latency = .ok chain ∧ Leads named chain := by
  intro h
  obtain ⟨chain, hchain, hleads⟩ := h twoSlots "fast" [specOf "fast" "groq" "small"]
    (some (timed ("groq", "small") 900 ("gemini", "flash") 120)) (by decide) rfl
  have hrank : candidates twoSlots "fast" none
      (some (timed ("groq", "small") 900 ("gemini", "flash") 120)) =
      .ok [specOf "general" "gemini" "flash", specOf "fast" "groq" "small"] := by rfl
  obtain rfl := Except.ok.inj (hrank.symm.trans hchain)
  revert hleads
  decide

theorem leads_reading :
    (∃ chain, candidates twoSlots "fast" none
      (some (timed ("groq", "small") 120 ("gemini", "flash") 900)) = .ok chain ∧
      Leads [specOf "fast" "groq" "small"] chain) ↔
      ∀ own ∈ [specOf "fast" "groq" "small"], ∀ other ∈ twoSlots.shared,
        other.key ∉ [specOf "fast" "groq" "small"].map (·.key) → ∀ t u,
          ranking (some (timed ("groq", "small") 120 ("gemini", "flash") 900)) own = some t →
          ranking (some (timed ("groq", "small") 120 ("gemini", "flash") 900)) other = some u →
          t ≤ u :=
  leads_iff (by decide) rfl _

end

/-! ## Whether the chain is a permutation of config order -/

section

variable {τ : Type} [LinearOrder τ] {registry : ProviderRegistry} {requested : String}

/-- What is promised of a chain. -/
structure Faithful (registry : ProviderRegistry) (requested : String)
    (latency : Option (LatencySnapshot τ)) (chain : List ModelSpec) : Prop where
  nodup : (chain.map (·.key)).Nodup
  keys : ∀ pair, pair ∈ chain.map (·.key) ↔
    (requested ≠ auto ∧ registry.Names requested pair) ∨ registry.Routes pair
  perm : chain.Perm (configOrder registry requested)
  /-- Without enough samples a candidate keeps its index. -/
  kept : ∀ (i : Nat) spec, (configOrder registry requested)[i]? = some spec →
    ranking latency spec = none → chain[i]? = some spec
  sorted : chain.Pairwise fun a b => ∀ t u,
    ranking latency a = some t → ranking latency b = some u → t ≤ u
  ties : ∀ t, chain.filter (ranking latency · = some t) =
    (configOrder registry requested).filter (ranking latency · = some t)

/-- What is promised of every selection. -/
def Selects (registry : ProviderRegistry) (requested : String) (pinned : Option String)
    (latency : Option (LatencySnapshot τ)) : Prop :=
  match pinned with
  | some pin =>
    (∃ spec, candidates registry requested pinned latency = .ok [spec] ∧ registry.Offers spec ∧
      pinName spec = pin) ∨
    (candidates registry requested pinned latency = .error (.notRoutable pin) ∧
      ∀ spec, registry.Offers spec → pinName spec ≠ pin)
  | none =>
    (∃ chain, candidates registry requested pinned latency = .ok chain ∧
      Faithful registry requested latency chain) ∨
    (requested ≠ auto ∧ requested ∉ registry.specs.map (·.1) ∧
      candidates registry requested pinned latency =
        .error (.unroutable requested (registry.specs.map (·.1))))

theorem selects_pinned (pin : String) (latency : Option (LatencySnapshot τ)) :
    Selects registry requested (some pin) latency := by
  have hslots : ∀ slot ∈ registry.slots, slot ∈ registry.specs.map (·.1) :=
    fun slot hslot => (ProviderRegistry.mem_slots.mp hslot).1
  rcases resolvePinIn_cases pin hslots with
    ⟨spec, hok, hname, slot, hslot, specs, hspecs, hspec⟩ | ⟨herr, hnone⟩
  · left
    refine ⟨spec, ?_, ⟨slot, hslot, specs, hspecs, hspec⟩, hname⟩
    simp [candidates, resolvePin, hok, bind, Except.bind, pure, Except.pure]
  · right
    refine ⟨by simp [candidates, resolvePin, herr, bind, Except.bind], ?_⟩
    rintro spec ⟨slot, hslot, specs, hspecs, hspec⟩
    exact hnone slot hslot specs hspecs spec hspec

theorem mem_keys_configOrder {pair : Pair} :
    pair ∈ (configOrder registry requested).map (·.key) ↔
      (requested ≠ auto ∧ registry.Names requested pair) ∨ registry.Routes pair := by
  by_cases hauto : requested = auto
  · rw [configOrder, if_pos hauto, mem_keys_firsts, ProviderRegistry.mem_keys_shared]
    simp [hauto]
  · have hnames : registry.Names requested pair ↔
        pair ∈ (registry.listed requested).map (·.key) := by
      constructor
      · rintro ⟨specs, hspecs, hpair⟩
        rwa [ProviderRegistry.listed_of_candidates hspecs]
      · intro hpair
        cases hlookup : registry.specs.lookup requested with
        | none => simp [ProviderRegistry.listed, hlookup] at hpair
        | some specs =>
          have hmem := (lookup_eq_some_iff_mem registry.specs_nodup).mp hlookup
          have hspecs := ProviderRegistry.candidates_eq_ok_iff.mpr hmem
          exact ⟨specs, hspecs, by rwa [ProviderRegistry.listed_of_candidates hspecs] at hpair⟩
    rw [configOrder, if_neg hauto, List.map_append, List.mem_append, mem_keys_spill, hnames]
    have hdec := Classical.em (pair ∈ (registry.listed requested).map (·.key))
    tauto

/-- Only the named slot's own list can hold a pair twice. -/
theorem nodup_configOrder_iff :
    ((configOrder registry requested).map (·.key)).Nodup ↔
      (requested ≠ auto → ((registry.listed requested).map (·.key)).Nodup) := by
  by_cases hauto : requested = auto
  · rw [configOrder, if_pos hauto]
    exact iff_of_true (nodup_firsts _) fun h => absurd hauto h
  · rw [configOrder, if_neg hauto, List.map_append, List.nodup_append]
    constructor
    · intro h _
      exact h.1
    · intro h
      refine ⟨h hauto, nodup_spill _, fun pair hpair pair' hpair' heq => ?_⟩
      exact (mem_keys_spill.mp hpair').2 (heq ▸ hpair)

theorem faithful_rank_iff (latency : Option (LatencySnapshot τ)) :
    Faithful registry requested latency (rank (configOrder registry requested) latency) ↔
      ((configOrder registry requested).map (·.key)).Nodup := by
  have hperm := perm_rank (configOrder registry requested) latency
  constructor
  · intro h
    exact (hperm.map (·.key)).nodup_iff.mp h.nodup
  · intro h
    exact
      { nodup := (hperm.map (·.key)).nodup_iff.mpr h
        keys := fun pair => (hperm.map (·.key)).mem_iff.trans mem_keys_configOrder
        perm := hperm
        kept := fun _ _ hi hspec => getElem?_rank hi hspec
        sorted := pairwise_rank _ latency
        ties := ties_rank _ latency }

/-- Selection is faithful unless the slot that is asked for lists a pair twice. -/
theorem selects_iff (registry : ProviderRegistry) (requested : String) (pinned : Option String)
    (latency : Option (LatencySnapshot τ)) :
    Selects registry requested pinned latency ↔
      (pinned = none → requested ≠ auto → ∀ named,
        registry.candidates requested = .ok named → (named.map (·.key)).Nodup) := by
  cases pinned with
  | some pin => exact iff_of_true (selects_pinned pin latency) fun h => by cases h
  | none =>
    by_cases hknown : requested = auto ∨ requested ∈ registry.specs.map (·.1)
    · have hchain := candidates_eq latency hknown
      have hlisted : (requested ≠ auto → ((registry.listed requested).map (·.key)).Nodup) ↔
          (requested ≠ auto → ∀ named,
            registry.candidates requested = .ok named → (named.map (·.key)).Nodup) := by
        refine imp_congr_right fun hauto => ?_
        obtain ⟨named, hnamed⟩ := ProviderRegistry.exists_candidates (hknown.resolve_left hauto)
        rw [ProviderRegistry.listed_of_candidates hnamed, hnamed]
        constructor
        · intro h named' hnamed'
          obtain rfl := Except.ok.inj hnamed'
          exact h
        · intro h
          exact h named rfl
      have hfaithful : Faithful registry requested latency
          (rank (configOrder registry requested) latency) ↔ _ :=
        (faithful_rank_iff latency).trans nodup_configOrder_iff
      constructor
      · rintro (⟨chain, hok, hchain'⟩ | ⟨hauto, hmem, -⟩) -
        · obtain rfl := Except.ok.inj (hchain.symm.trans hok)
          exact hlisted.mp (hfaithful.mp hchain')
        · exact absurd hknown (by rintro (h | h); exacts [hauto h, hmem h])
      · intro h
        exact .inl ⟨_, hchain, hfaithful.mpr (hlisted.mpr (h rfl))⟩
    · -- A slot that is not configured is refused, and lists nothing.
      obtain ⟨hauto, hmem⟩ := not_or.mp hknown
      refine iff_of_true (.inr ⟨hauto, hmem, candidates_unknown latency hauto hmem⟩) ?_
      intro _ _ named hnamed
      rw [ProviderRegistry.candidates_of_not_mem hmem] at hnamed
      cases hnamed

end

/-- A slot that lists one model twice. -/
def twice : ProviderRegistry where
  specs := [("general", [specOf "general" "groq" "big", specOf "general" "groq" "big"])]
  internalSlots := []
  privateKeyOnlySlots := []
  specs_nodup := by decide

/-- Asked for by its name, such a slot gives a chain with the model in it twice. -/
theorem not_selects :
    ¬ ∀ (registry : ProviderRegistry) (requested : String) (pinned : Option String)
      (latency : Option (LatencySnapshot ℚ)), Selects registry requested pinned latency := by
  intro h
  rcases h twice "general" none none with ⟨chain, hok, hfaithful⟩ | ⟨-, hmem, -⟩
  · have hchain : candidates (τ := ℚ) twice "general" none none =
        .ok [specOf "general" "groq" "big", specOf "general" "groq" "big"] := by rfl
    obtain rfl := Except.ok.inj (hchain.symm.trans hok)
    exact absurd hfaithful.nodup (by decide)
  · exact hmem (by decide)

end Selection

end LlmGateway
