import LlmGateway.Lists.Seats
import LlmGateway.Providers.Types
import Mathlib.Order.Defs.LinearOrder

/-!
# Selecting the candidates of a request

The ordered chain the router walks, as a function of the slot table, the
request and a latency snapshot. A pin is the one model it names; a named slot
comes with its own candidates and the rest of the fleet behind them; `auto` is
the fleet.
-/

namespace LlmGateway

namespace Selection

open Lists

/-- `AUTO`. -/
def auto : String := "auto"

/-- `(provider, model)`. -/
abbrev Pair : Type := String × String

instance : LawfulBEq Pair := inferInstance

/-! ## The slot table -/

/-- What a lookup in the table raises. -/
inductive UnknownSlot where
  | unroutable (slot : String) (available : List String)
  | notRoutable (pinned : String)
  deriving DecidableEq, Repr

/-- `ProviderRegistry`, as far as selection reads it. -/
structure ProviderRegistry where
  /-- The slots in config order, each with its candidates in failover order. -/
  specs : List (String × List ModelSpec)
  internalSlots : List String
  privateKeyOnlySlots : List String
  /-- The table is a dictionary. -/
  specs_nodup : (specs.map (·.1)).Nodup

namespace ProviderRegistry

variable (registry : ProviderRegistry)

/-- Every routable, client-facing slot name. -/
def slots : List String := (registry.specs.map (·.1)).filter (· ∉ registry.internalSlots)

def requiresPrivateKey (slot : String) : Bool := slot ∈ registry.privateKeyOnlySlots

/-- The slot's candidates in failover order. -/
def candidates (slot : String) : Except UnknownSlot (List ModelSpec) :=
  match registry.specs.lookup slot with
  | some specs => .ok specs
  | none => .error (.unroutable slot (registry.specs.map (·.1)))

end ProviderRegistry

/-! ## Latency -/

/-- One candidate's number, and how much evidence is behind it. -/
structure LatencySample (τ : Type) where
  ewmaMs : τ
  samples : Nat

/-- One mode's view of the latency table. -/
structure LatencySnapshot (τ : Type) where
  entries : Pair → Option (LatencySample τ)
  minSamples : Nat

section

variable {τ : Type}

/-- The candidate's EWMA, or `none` if it is unranked. -/
def LatencySnapshot.rankingFor (latency : LatencySnapshot τ) (spec : ModelSpec) : Option τ :=
  match latency.entries spec.key with
  | none => none
  | some sample => if sample.samples < latency.minSamples then none else some sample.ewmaMs

end

/-! ## The chain -/

/-- One spec's turn in `_fleet`: `flattened` and `seen`. -/
def collect : List ModelSpec × List Pair → ModelSpec → List ModelSpec × List Pair
  | (flattened, seen), spec =>
    if spec.key ∈ seen then (flattened, seen)
    else (flattened ++ [spec], seen ++ [spec.key])

/-- One slot's turn in `_fleet`. -/
def collectSlot (registry : ProviderRegistry) (acc : List ModelSpec × List Pair) (slot : String) :
    Except UnknownSlot (List ModelSpec × List Pair) :=
  if registry.requiresPrivateKey slot then return acc
  else return (← registry.candidates slot).foldl collect acc

/-- `_fleet`. -/
def fleet (registry : ProviderRegistry) : Except UnknownSlot (List ModelSpec) := do
  let (flattened, _) ← registry.slots.foldlM (collectSlot registry) ([], [])
  return flattened

/-- What a pin calls a model. -/
def pinName (spec : ModelSpec) : String := s!"{spec.provider}/{spec.model}"

/-- The loop of `_resolve_pin`. -/
def resolvePinIn (registry : ProviderRegistry) (pinned : String) :
    List String → Except UnknownSlot ModelSpec
  | [] => .error (.notRoutable pinned)
  | slot :: slots => do
    let specs ← registry.candidates slot
    match specs.find? (pinName · = pinned) with
    | some spec => return spec
    | none => resolvePinIn registry pinned slots

/-- `_resolve_pin`. -/
def resolvePin (registry : ProviderRegistry) (pinned : String) : Except UnknownSlot ModelSpec :=
  resolvePinIn registry pinned registry.slots

section

variable {τ : Type} [LinearOrder τ]

/-- An entry of `measured`. -/
structure Measured (τ : Type) where
  index : Nat
  ewmaMs : τ
  spec : ModelSpec

/-- The candidates the snapshot has an opinion about, from an index on. -/
def measuredFrom (latency : LatencySnapshot τ) (start : Nat) (chain : List ModelSpec) :
    List (Measured τ) :=
  (chain.zipIdx start).filterMap fun (spec, index) =>
    (latency.rankingFor spec).map fun ewmaMs => { index, ewmaMs, spec }

/-- `_rank`. -/
def rank (chain : List ModelSpec) : Option (LatencySnapshot τ) → List ModelSpec
  | none => chain
  | some latency =>
    let measured := measuredFrom latency 0 chain
    if measured.length < 2 then chain
    else
      -- `sorted` is stable, and so is this
      let ordered := measured.insertionSort (·.ewmaMs ≤ ·.ewmaMs)
      (measured.zip ordered).foldl (fun result (seat, next) => result.set seat.index next.spec)
        chain

/-- `candidates`. -/
def candidates (registry : ProviderRegistry) (requested : String) (pinned : Option String)
    (latency : Option (LatencySnapshot τ)) : Except UnknownSlot (List ModelSpec) :=
  match pinned with
  | some pinned => return [← resolvePin registry pinned]
  | none => do
    let fleet ← fleet registry
    if requested = auto then return rank fleet latency
    let named ← registry.candidates requested
    return rank (named ++ fleet.filter fun spec => spec.key ∉ named.map (·.key)) latency

end

/-! ## What the table lists -/

namespace ProviderRegistry

variable (registry : ProviderRegistry)

/-- Whether a slot is one `auto` may choose from. -/
def isShared (slot : String) : Bool :=
  decide (slot ∉ registry.internalSlots) && !registry.requiresPrivateKey slot

/-- Everything those slots list, in config order. -/
def shared : List ModelSpec :=
  (registry.specs.filter fun entry => registry.isShared entry.1).flatMap (·.2)

/-- Some client-facing slot lists the model. -/
def Offers (spec : ModelSpec) : Prop :=
  ∃ slot ∈ registry.slots, ∃ specs, registry.candidates slot = .ok specs ∧ spec ∈ specs

/-- Some slot that does not require a private key lists the pair. -/
def Routes (pair : Pair) : Prop :=
  ∃ slot ∈ registry.slots, registry.requiresPrivateKey slot = false ∧
    ∃ specs, registry.candidates slot = .ok specs ∧ pair ∈ specs.map (·.key)

/-- The slot lists the pair. -/
def Names (slot : String) (pair : Pair) : Prop :=
  ∃ specs, registry.candidates slot = .ok specs ∧ pair ∈ specs.map (·.key)

variable {registry}

theorem candidates_eq_ok_iff {slot : String} {specs : List ModelSpec} :
    registry.candidates slot = .ok specs ↔ (slot, specs) ∈ registry.specs := by
  rw [← lookup_eq_some_iff_mem registry.specs_nodup, candidates]
  cases registry.specs.lookup slot <;> simp

theorem candidates_of_not_mem {slot : String} (h : slot ∉ registry.specs.map (·.1)) :
    registry.candidates slot = .error (.unroutable slot (registry.specs.map (·.1))) := by
  have hnone : registry.specs.lookup slot = none := by
    rw [List.lookup_eq_none_iff]
    intro entry hentry
    have hne : slot ≠ entry.1 := by
      rintro rfl
      exact h (List.mem_map_of_mem hentry)
    exact bne_iff_ne.mpr hne
  rw [candidates, hnone]

theorem exists_candidates {slot : String} (h : slot ∈ registry.specs.map (·.1)) :
    ∃ specs, registry.candidates slot = .ok specs := by
  obtain ⟨⟨slot, specs⟩, hmem, rfl⟩ := List.mem_map.mp h
  exact ⟨specs, candidates_eq_ok_iff.mpr hmem⟩

theorem mem_slots {slot : String} :
    slot ∈ registry.slots ↔ slot ∈ registry.specs.map (·.1) ∧ slot ∉ registry.internalSlots := by
  rw [slots, List.mem_filter, decide_eq_true_iff]

theorem mem_keys_shared {pair : Pair} :
    pair ∈ registry.shared.map (·.key) ↔ registry.Routes pair := by
  simp only [shared, List.mem_map, List.mem_flatMap, List.mem_filter, Routes, mem_slots,
    candidates_eq_ok_iff, isShared, Bool.and_eq_true, decide_eq_true_iff, Bool.not_eq_true']
  constructor
  · rintro ⟨spec, ⟨⟨slot, specs⟩, ⟨hmem, hpublic, hprivate⟩, hspec⟩, rfl⟩
    exact ⟨slot, ⟨⟨(slot, specs), hmem, rfl⟩, hpublic⟩, hprivate, specs, hmem, spec, hspec, rfl⟩
  · rintro ⟨slot, ⟨-, hpublic⟩, hprivate, specs, hmem, spec, hspec, rfl⟩
    exact ⟨spec, ⟨(slot, specs), ⟨hmem, hpublic, hprivate⟩, hspec⟩, rfl⟩

end ProviderRegistry

/-! ## The fleet -/

/-- What `flattened` and `seen` are after a list of specs. -/
theorem foldl_collect (specs flattened : List ModelSpec) (seen : List Pair) :
    specs.foldl collect (flattened, seen) =
      (flattened ++ firstsFrom (·.key) seen specs,
        seen ++ (firstsFrom (·.key) seen specs).map (·.key)) := by
  induction specs generalizing flattened seen with
  | nil => simp [firstsFrom]
  | cons spec specs ih =>
    rw [List.foldl_cons, collect, firstsFrom]
    split
    · exact ih flattened seen
    · have hseen : firstsFrom ModelSpec.key (seen ++ [spec.key]) specs =
          firstsFrom ModelSpec.key (spec.key :: seen) specs := by
        refine firstsFrom_congr (fun k => ?_) specs
        simp only [List.mem_append, List.mem_cons, List.not_mem_nil, or_false]
        exact or_comm
      rw [ih, hseen]
      simp

/-- The part of a table `auto` may choose from. -/
def sharedOf (registry : ProviderRegistry) (entries : List (String × List ModelSpec)) :
    List ModelSpec :=
  (entries.filter fun entry => registry.isShared entry.1).flatMap (·.2)

/-- The loop over the slots never raises: each of them is in the table. -/
theorem foldlM_collectSlot (registry : ProviderRegistry)
    {entries : List (String × List ModelSpec)} (h : ∀ entry ∈ entries, entry ∈ registry.specs)
    (flattened : List ModelSpec) (seen : List Pair) :
    ((entries.map (·.1)).filter (· ∉ registry.internalSlots)).foldlM (collectSlot registry)
        (flattened, seen) =
      .ok (flattened ++ firstsFrom (·.key) seen (sharedOf registry entries),
        seen ++ (firstsFrom (·.key) seen (sharedOf registry entries)).map (·.key)) := by
  induction entries generalizing flattened seen with
  | nil => simp [sharedOf, firstsFrom, pure, Except.pure]
  | cons entry entries ih =>
    obtain ⟨slot, specs⟩ := entry
    have hrest : ∀ entry ∈ entries, entry ∈ registry.specs :=
      fun entry hentry => h entry (List.mem_cons_of_mem _ hentry)
    have hcand : registry.candidates slot = .ok specs :=
      ProviderRegistry.candidates_eq_ok_iff.mpr (h _ List.mem_cons_self)
    by_cases hinternal : slot ∈ registry.internalSlots
    · -- An internal slot is not among those the loop goes through.
      have hshared : registry.isShared slot = false := by
        simp [ProviderRegistry.isShared, hinternal]
      have hsame : sharedOf registry ((slot, specs) :: entries) = sharedOf registry entries := by
        simp [sharedOf, hshared]
      rw [hsame, List.map_cons, List.filter_cons_of_neg (by simpa using hinternal)]
      exact ih hrest flattened seen
    · rw [List.map_cons, List.filter_cons_of_pos (by simpa using hinternal), List.foldlM_cons]
      cases hkey : registry.requiresPrivateKey slot with
      | true =>
        have hshared : registry.isShared slot = false := by
          simp [ProviderRegistry.isShared, hkey]
        have hsame : sharedOf registry ((slot, specs) :: entries) = sharedOf registry entries := by
          simp [sharedOf, hshared]
        rw [collectSlot, if_pos hkey, hsame]
        exact ih hrest flattened seen
      | false =>
        have hshared : registry.isShared slot = true := by
          simp [ProviderRegistry.isShared, hkey, hinternal]
        have happ : sharedOf registry ((slot, specs) :: entries) =
            specs ++ sharedOf registry entries := by
          simp [sharedOf, hshared]
        -- The pairs seen are appended; which come first makes no difference.
        have hseen : firstsFrom (·.key) (seen ++ (firstsFrom (·.key) seen specs).map (·.key))
            (sharedOf registry entries) =
            firstsFrom (·.key) ((firstsFrom (·.key) seen specs).map (·.key) ++ seen)
              (sharedOf registry entries) := by
          refine firstsFrom_congr (fun k => ?_) _
          simp only [List.mem_append]
          exact or_comm
        rw [collectSlot, if_neg (by simp [hkey]), hcand]
        show List.foldlM _ (specs.foldl collect (flattened, seen)) _ = _
        rw [foldl_collect, ih hrest, happ, firstsFrom_append, hseen]
        simp

/-- `_fleet` is every shared candidate, once, in config order. -/
theorem fleet_eq (registry : ProviderRegistry) :
    fleet registry = .ok (firsts (·.key) registry.shared) := by
  have hmem : ∀ entry ∈ registry.specs, entry ∈ registry.specs := fun _ h => h
  have hloop := foldlM_collectSlot registry hmem [] []
  rw [fleet, ProviderRegistry.slots, hloop]
  rfl

end Selection

end LlmGateway
