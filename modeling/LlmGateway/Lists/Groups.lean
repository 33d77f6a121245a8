import Mathlib.Algebra.BigOperators.Group.List.Basic
import Mathlib.Algebra.Order.Ring.Int
import Mathlib.Data.List.Dedup
import Mathlib.Order.Monotone.Basic

/-!
# Joins, groups and counts

Entries are joined to keys, those of a key are grouped, and counted. Where each entry
has one key the counts of the groups add up to the count of all.
-/

namespace LlmGateway

section

variable {α β : Type}

/-! ## Counting -/

/-- **Counted once**: where each entry counted belongs to one key, and no other entry to any,
the counts by key add up. -/
theorem sum_countP {keys : List β} {entries : List α} {on : β → α → Bool} {p : α → Bool}
    (h : ∀ a ∈ entries, keys.countP (on · a) = if p a then 1 else 0) :
    (keys.map fun b => entries.countP (on b)).sum = entries.countP p := by
  induction entries with
  | nil => simp
  | cons a entries ih =>
    have hhead := h a List.mem_cons_self
    have hrest := ih fun a' ha' => h a' (List.mem_cons_of_mem _ ha')
    have hsplit : (keys.map fun b => (a :: entries).countP (on b)).sum =
        (keys.map fun b => entries.countP (on b)).sum + keys.countP (on · a) := by
      clear h ih hhead hrest
      induction keys with
      | nil => rfl
      | cons b keys ih =>
        rw [List.map_cons, List.sum_cons, List.map_cons, List.sum_cons, ih, List.countP_cons,
          List.countP_cons]
        omega
    rw [hsplit, hrest, hhead, List.countP_cons]

/-- So do the counts of what has some property. -/
theorem sum_countP_filter {keys : List β} {entries : List α} {on : β → α → Bool} {p : α → Bool}
    (h : ∀ a ∈ entries, keys.countP (on · a) = if p a then 1 else 0) (q : α → Bool) :
    (keys.map fun b => (entries.filter (on b)).countP q).sum = (entries.filter p).countP q := by
  have hswap : ∀ p : α → Bool, (entries.filter p).countP q = (entries.filter q).countP p := by
    intro p
    rw [List.countP_filter, List.countP_filter]
    exact List.countP_congr fun a _ => by rw [Bool.and_comm]
  simp only [hswap]
  exact sum_countP fun a ha => h a (List.mem_of_mem_filter ha)

/-- **Half-open intervals between edges that do not fall tile what lies between the first edge and
the last.** -/
theorem countP_between {γ : Type} [LinearOrder γ] {edge : ℕ → γ} (hedge : Monotone edge) (n : ℕ)
    (x : γ) : (List.range n).countP (fun i => decide (edge i ≤ x ∧ x < edge (i + 1))) =
      if edge 0 ≤ x ∧ x < edge n then 1 else 0 := by
  induction n with
  | zero =>
    have hempty : ¬ (edge 0 ≤ x ∧ x < edge 0) := fun h => absurd h.1 (not_le.mpr h.2)
    rw [if_neg hempty]
    rfl
  | succ n ih =>
    rw [List.range_succ, List.countP_append, ih, List.countP_singleton]
    have hzero : edge 0 ≤ edge n := hedge (Nat.zero_le n)
    have hstep : edge n ≤ edge (n + 1) := hedge (Nat.le_succ n)
    simp only [decide_eq_true_eq]
    by_cases hlast : edge n ≤ x
    · -- In the last interval, if in any.
      have hbefore : ¬ (edge 0 ≤ x ∧ x < edge n) := fun h => absurd hlast (not_le.mpr h.2)
      have hwhole : edge n ≤ x ∧ x < edge (n + 1) ↔ edge 0 ≤ x ∧ x < edge (n + 1) :=
        and_congr_left fun _ => iff_of_true hlast (hzero.trans hlast)
      rw [if_neg hbefore, zero_add, if_congr hwhole rfl rfl]
    · have hlt : x < edge n := not_le.mp hlast
      have hnot : ¬ (edge n ≤ x ∧ x < edge (n + 1)) := fun h => hlast h.1
      have hwhole : edge 0 ≤ x ∧ x < edge n ↔ edge 0 ≤ x ∧ x < edge (n + 1) :=
        and_congr_right fun _ => iff_of_true hlt (hlt.trans_le hstep)
      rw [if_neg hnot, add_zero, if_congr hwhole rfl rfl]

/-! ## Joining and grouping -/

/-- What is joined to a key: its entries, or, where there are none, nothing. -/
def joinedTo (on : β → α → Bool) (entries : List α) (b : β) : List (β × Option α) :=
  match entries.filter (on b) with
  | [] => [(b, none)]
  | found => found.map fun a => (b, some a)

/-- The left join of keys and entries. -/
def leftJoin (on : β → α → Bool) (keys : List β) (entries : List α) : List (β × Option α) :=
  keys.flatMap (joinedTo on entries)

section

variable {on : β → α → Bool} {entries : List α} {b : β}

theorem fst_of_mem_joinedTo {e : β × Option α} (h : e ∈ joinedTo on entries b) : e.1 = b := by
  unfold joinedTo at h
  split at h
  · rw [List.mem_singleton.mp h]
  · obtain ⟨a, -, rfl⟩ := List.mem_map.mp h
    rfl

theorem joinedTo_ne_nil : joinedTo on entries b ≠ [] := by
  unfold joinedTo
  split
  · exact List.cons_ne_nil _ _
  next hne => exact fun h => hne (List.map_eq_nil_iff.mp h)

theorem filterMap_joinedTo : (joinedTo on entries b).filterMap (·.2) = entries.filter (on b) := by
  unfold joinedTo
  split
  next h => rw [h, List.filterMap_cons_none rfl, List.filterMap_nil]
  next => rw [List.filterMap_map, Function.comp_def, List.filterMap_some]

end

variable [DecidableEq β]

/-- The keys of a join, each once. -/
def groupKeys (joined : List (β × Option α)) : List β := (joined.map (·.1)).dedup

/-- The entries of a join under a key. -/
def group (joined : List (β × Option α)) (b : β) : List α :=
  (joined.filter (·.1 = b)).filterMap (·.2)

/-- A left join loses no key. -/
theorem mem_groupKeys_leftJoin {on : β → α → Bool} {keys : List β} {entries : List α} {b : β} :
    b ∈ groupKeys (leftJoin on keys entries) ↔ b ∈ keys := by
  rw [groupKeys, List.mem_dedup, List.mem_map]
  constructor
  · rintro ⟨e, he, rfl⟩
    obtain ⟨b, hb, he⟩ := List.mem_flatMap.mp he
    exact fst_of_mem_joinedTo he ▸ hb
  · intro hb
    have hne : joinedTo on entries b ≠ [] := joinedTo_ne_nil
    obtain ⟨e, he⟩ := List.exists_mem_of_ne_nil _ hne
    exact ⟨e, List.mem_flatMap.mpr ⟨b, hb, he⟩, fst_of_mem_joinedTo he⟩

/-- **What is joined to a key is its group.** -/
theorem group_leftJoin {on : β → α → Bool} {keys : List β} {entries : List α} (hkeys : keys.Nodup)
    (b : β) :
    group (leftJoin on keys entries) b = if b ∈ keys then entries.filter (on b) else [] := by
  induction keys with
  | nil => rfl
  | cons b' keys ih =>
    obtain ⟨hnot, hkeys⟩ := List.nodup_cons.mp hkeys
    have hcons : group (leftJoin on (b' :: keys) entries) b =
        ((joinedTo on entries b').filter (·.1 = b)).filterMap (·.2) ++
          group (leftJoin on keys entries) b := by
      rw [group, leftJoin, List.flatMap_cons, List.filter_append, List.filterMap_append]
      rfl
    rw [hcons, ih hkeys]
    by_cases heq : b' = b
    · -- The key does not come again, so that its group is complete.
      subst heq
      have hall : (joinedTo on entries b').filter (·.1 = b') = joinedTo on entries b' :=
        List.filter_eq_self.mpr fun e he => decide_eq_true (fst_of_mem_joinedTo he)
      rw [hall, filterMap_joinedTo, if_neg hnot, if_pos List.mem_cons_self, List.append_nil]
    · have hnone : (joinedTo on entries b').filter (·.1 = b) = [] :=
        List.filter_eq_nil_iff.mpr fun e he => by
          rw [decide_eq_true_eq, fst_of_mem_joinedTo he]
          exact heq
      have hmem : b ∈ b' :: keys ↔ b ∈ keys := by
        rw [List.mem_cons, or_iff_right (Ne.symm heq)]
      rw [hnone, List.filterMap_nil, List.nil_append, if_congr hmem rfl rfl]

end

end LlmGateway
