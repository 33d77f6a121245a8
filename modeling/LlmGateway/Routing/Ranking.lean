import LlmGateway.Routing.Selection
import Mathlib.Order.WithBot

/-!
# Ranking by latency

What `_rank` does to a chain: the candidates the snapshot has an opinion about
are sorted among the places they hold, ties in chain order, and nothing else
moves.
-/

namespace LlmGateway

namespace Selection

open Lists

section

variable {τ : Type} {latency : LatencySnapshot τ}

namespace LatencySnapshot

/-- Whether the snapshot has an opinion about a candidate. -/
def ranks (latency : LatencySnapshot τ) (spec : ModelSpec) : Bool :=
  (latency.rankingFor spec).isSome

/-- The ranking, an unranked candidate below all others. -/
def grade (latency : LatencySnapshot τ) (spec : ModelSpec) : WithBot τ := latency.rankingFor spec

end LatencySnapshot

theorem measuredFrom_cons_of_ranks {spec : ModelSpec} {ewmaMs : τ}
    (h : latency.rankingFor spec = some ewmaMs) (start : Nat) (chain : List ModelSpec) :
    measuredFrom latency start (spec :: chain) =
      { index := start, ewmaMs, spec } :: measuredFrom latency (start + 1) chain := by
  simp [measuredFrom, List.zipIdx_cons, h]

theorem measuredFrom_cons_of_not {spec : ModelSpec} (h : latency.rankingFor spec = none)
    (start : Nat) (chain : List ModelSpec) :
    measuredFrom latency start (spec :: chain) = measuredFrom latency (start + 1) chain := by
  simp [measuredFrom, List.zipIdx_cons, h]

/-- What is measured, in chain order. -/
theorem map_spec_measuredFrom (start : Nat) (chain : List ModelSpec) :
    (measuredFrom latency start chain).map (·.spec) = chain.filter latency.ranks := by
  induction chain generalizing start with
  | nil => rfl
  | cons spec chain ih =>
    cases h : latency.rankingFor spec with
    | none =>
      rw [measuredFrom_cons_of_not h, List.filter_cons_of_neg (by simp [LatencySnapshot.ranks, h]),
        ih]
    | some ewmaMs =>
      rw [measuredFrom_cons_of_ranks h, List.map_cons,
        List.filter_cons_of_pos (by simp [LatencySnapshot.ranks, h]), ih]

theorem rankingFor_of_mem_measuredFrom {start : Nat} {chain : List ModelSpec} {m : Measured τ}
    (h : m ∈ measuredFrom latency start chain) : latency.rankingFor m.spec = some m.ewmaMs := by
  obtain ⟨⟨spec, index⟩, -, hm⟩ := List.mem_filterMap.mp h
  obtain ⟨ewmaMs, hewma, rfl⟩ := Option.map_eq_some_iff.mp hm
  exact hewma

/-- Writing back fills the seats of what is measured. -/
theorem foldl_set (before chain : List ModelSpec) (nexts : List (Measured τ)) :
    ((measuredFrom latency before.length chain).zip nexts).foldl
        (fun result (seat, next) => result.set seat.index next.spec) (before ++ chain) =
      before ++ refill latency.ranks chain (nexts.map (·.spec)) := by
  induction chain generalizing before nexts with
  | nil => simp [measuredFrom, refill]
  | cons spec chain ih =>
    have hnext : ∀ spec : ModelSpec, before.length + 1 = (before ++ [spec]).length := by simp
    cases h : latency.rankingFor spec with
    | none =>
      have hranks : latency.ranks spec = false := by simp [LatencySnapshot.ranks, h]
      rw [measuredFrom_cons_of_not h, refill_of_not hranks, hnext spec]
      have hih := ih (before ++ [spec]) nexts
      rw [List.append_assoc, List.append_assoc] at hih
      exact hih
    | some ewmaMs =>
      have hranks : latency.ranks spec = true := by simp [LatencySnapshot.ranks, h]
      cases nexts with
      | nil => simp
      | cons next nexts =>
        -- the seat is the first of what is left of the chain
        have hset : (before ++ spec :: chain).set before.length next.spec =
            before ++ [next.spec] ++ chain := by simp
        rw [measuredFrom_cons_of_ranks h, List.zip_cons_cons, List.foldl_cons]
        dsimp only
        rw [hset, hnext next.spec, ih, List.map_cons, refill, if_pos hranks, List.append_assoc]
        rfl

end

section

variable {τ : Type} [LinearOrder τ] {latency : LatencySnapshot τ}

theorem map_spec_insertionSort (start : Nat) (chain : List ModelSpec) :
    ((measuredFrom latency start chain).insertionSort (·.ewmaMs ≤ ·.ewmaMs)).map (·.spec) =
      (chain.filter latency.ranks).insertionSort (latency.grade · ≤ latency.grade ·) := by
  have hle : ∀ a ∈ measuredFrom latency start chain, ∀ b ∈ measuredFrom latency start chain,
      a.ewmaMs ≤ b.ewmaMs ↔ latency.grade a.spec ≤ latency.grade b.spec := by
    intro a ha b hb
    rw [LatencySnapshot.grade, LatencySnapshot.grade, rankingFor_of_mem_measuredFrom ha,
      rankingFor_of_mem_measuredFrom hb]
    exact WithBot.coe_le_coe.symm
  rw [← map_spec_measuredFrom start]
  exact List.map_insertionSort _ _ _ _ hle

/-- `_rank` sorts what is measured among the seats it holds. -/
theorem rank_some (chain : List ModelSpec) (latency : LatencySnapshot τ) :
    rank chain (some latency) = refill latency.ranks chain
      ((chain.filter latency.ranks).insertionSort (latency.grade · ≤ latency.grade ·)) := by
  have hlen : (measuredFrom latency 0 chain).length = (chain.filter latency.ranks).length := by
    rw [← map_spec_measuredFrom 0, List.length_map]
  rw [rank]
  split
  next hfew =>
    -- one opinion cannot reorder anything against itself
    have hsorted : (chain.filter latency.ranks).insertionSort (latency.grade · ≤ latency.grade ·) =
        chain.filter latency.ranks := by
      match hms : chain.filter latency.ranks with
      | [] => rfl
      | [spec] => rfl
      | _ :: _ :: _ =>
        rw [hms] at hlen
        simp only [List.length_cons] at hlen
        omega
    rw [hsorted, refill_filter]
  next =>
    rw [← map_spec_insertionSort 0]
    exact foldl_set [] chain _

/-- What the snapshot says of a candidate, if one was taken. -/
def ranking (latency : Option (LatencySnapshot τ)) (spec : ModelSpec) : Option τ :=
  latency.bind (·.rankingFor spec)

theorem perm_rank (chain : List ModelSpec) (latency : Option (LatencySnapshot τ)) :
    (rank chain latency).Perm chain := by
  cases latency with
  | none => exact List.Perm.refl _
  | some latency =>
    rw [rank_some]
    exact refill_perm (List.perm_insertionSort _ _)

theorem mem_rank {chain : List ModelSpec} {latency : Option (LatencySnapshot τ)}
    {spec : ModelSpec} : spec ∈ rank chain latency ↔ spec ∈ chain :=
  (perm_rank chain latency).mem_iff

/-- An unranked candidate keeps its index. -/
theorem getElem?_rank {chain : List ModelSpec} {latency : Option (LatencySnapshot τ)} {i : Nat}
    {spec : ModelSpec} (hi : chain[i]? = some spec) (hspec : ranking latency spec = none) :
    (rank chain latency)[i]? = some spec := by
  cases latency with
  | none => exact hi
  | some latency =>
    have hranks : latency.ranks spec = false := by
      rw [LatencySnapshot.ranks, show latency.rankingFor spec = none from hspec]
      rfl
    rw [rank_some]
    exact getElem?_refill _ hi hranks

/-- What is measured in a ranked chain. -/
theorem filter_rank (chain : List ModelSpec) (latency : LatencySnapshot τ) :
    (rank chain (some latency)).filter latency.ranks =
      (chain.filter latency.ranks).insertionSort (latency.grade · ≤ latency.grade ·) := by
  have hperm := List.perm_insertionSort (latency.grade · ≤ latency.grade ·)
    (chain.filter latency.ranks)
  rw [rank_some]
  refine filter_refill hperm.length_eq fun spec hspec => ?_
  exact (List.mem_filter.mp (hperm.mem_iff.mp hspec)).2

/-- The measured candidates come in the order of their latencies. -/
theorem pairwise_rank (chain : List ModelSpec) (latency : Option (LatencySnapshot τ)) :
    (rank chain latency).Pairwise fun a b => ∀ t u,
      ranking latency a = some t → ranking latency b = some u → t ≤ u := by
  cases latency with
  | none =>
    refine List.pairwise_of_forall fun a b t u ht _ => ?_
    cases ht
  | some latency =>
    have hsorted : ((rank chain (some latency)).filter latency.ranks).Pairwise
        (latency.grade · ≤ latency.grade ·) := by
      rw [filter_rank]
      exact pairwise_insertionSort latency.grade _
    rw [List.pairwise_filter] at hsorted
    refine hsorted.imp fun {a b} hab t u ht hu => ?_
    have ht' : latency.rankingFor a = some t := ht
    have hu' : latency.rankingFor b = some u := hu
    have hle := hab (by rw [LatencySnapshot.ranks, ht']; rfl)
      (by rw [LatencySnapshot.ranks, hu']; rfl)
    rw [LatencySnapshot.grade, LatencySnapshot.grade, ht', hu'] at hle
    exact WithBot.coe_le_coe.mp hle

/-- Candidates of one latency keep their order. -/
theorem ties_rank (chain : List ModelSpec) (latency : Option (LatencySnapshot τ)) (t : τ) :
    (rank chain latency).filter (ranking latency · = some t) =
      chain.filter (ranking latency · = some t) := by
  cases latency with
  | none => rfl
  | some latency =>
    have hsplit : ∀ xs : List ModelSpec, xs.filter (ranking (some latency) · = some t) =
        (xs.filter latency.ranks).filter (latency.grade · = (t : WithBot τ)) := by
      intro xs
      rw [List.filter_filter]
      refine List.filter_congr fun spec _ => ?_
      rw [Bool.eq_iff_iff, Bool.and_eq_true, decide_eq_true_iff, decide_eq_true_iff]
      constructor
      · intro h
        have h' : latency.rankingFor spec = some t := h
        exact ⟨h', by rw [LatencySnapshot.ranks, h']; rfl⟩
      · rintro ⟨h, -⟩
        exact h
    rw [hsplit, hsplit, filter_rank, filter_insertionSort]

end

end Selection

end LlmGateway
