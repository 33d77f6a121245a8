import Mathlib.Data.List.Basic
import Mathlib.Data.List.Pairwise
import Mathlib.Data.List.Sort

/-!
# First occurrences, and sorting some entries among their own seats

Two operations on a list and what each keeps of it. `firsts` drops every entry
whose key has been seen; `reseat` sorts the entries that have a grade and puts
them back into the seats they held, so that every other entry stays where it
is.
-/

namespace LlmGateway

namespace Lists

variable {α β κ : Type*}

/-! ## Tables -/

/-- In a table with each key once, a lookup finds the entry there is. -/
theorem lookup_eq_some_iff_mem [DecidableEq κ] {table : List (κ × α)}
    (h : (table.map (·.1)).Nodup) {k : κ} {x : α} :
    table.lookup k = some x ↔ (k, x) ∈ table := by
  induction table with
  | nil => simp
  | cons entry table ih =>
    obtain ⟨k', x'⟩ := entry
    rw [List.map_cons, List.nodup_cons] at h
    rw [List.lookup_cons, List.mem_cons, Prod.mk.injEq]
    by_cases hk : k = k'
    · subst hk
      have hfresh : (k, x) ∉ table := by
        intro hmem
        exact h.1 (List.mem_map.mpr ⟨(k, x), hmem, rfl⟩)
      simp [hfresh, eq_comm]
    · rw [beq_eq_false_iff_ne.mpr hk]
      simp [hk, ih h.2]

/-! ## Pairs -/

/-- Of two entries of a pairwise list, one stands before the other. -/
theorem rel_or_of_pairwise {R : α → α → Prop} {xs : List α} (h : xs.Pairwise R) {a b : α}
    (ha : a ∈ xs) (hb : b ∈ xs) (hne : a ≠ b) : R a b ∨ R b a := by
  have hsymm : Std.Symm fun a b => R a b ∨ R b a := ⟨fun _ _ => Or.symm⟩
  have hpair : xs.Pairwise fun a b => R a b ∨ R b a := h.imp Or.inl
  exact hpair.forall ha hb hne

/-! ## First occurrences -/

section Firsts

variable [DecidableEq κ] (key : α → κ)

/-- The entries of a list whose key is not among `seen`, each key once. -/
def firstsFrom (seen : List κ) : List α → List α
  | [] => []
  | x :: xs =>
    if key x ∈ seen then firstsFrom seen xs else x :: firstsFrom (key x :: seen) xs

/-- The first entry of each key. -/
def firsts (xs : List α) : List α := firstsFrom key [] xs

variable {key}

theorem firstsFrom_congr {seen seen' : List κ} (h : ∀ k, k ∈ seen ↔ k ∈ seen') (xs : List α) :
    firstsFrom key seen xs = firstsFrom key seen' xs := by
  induction xs generalizing seen seen' with
  | nil => rfl
  | cons x xs ih =>
    have hcons : ∀ k, k ∈ key x :: seen ↔ k ∈ key x :: seen' := by
      intro k
      simp only [List.mem_cons, h k]
    simp only [firstsFrom, h (key x), ih h, ih hcons]

theorem firstsFrom_sublist (seen : List κ) (xs : List α) :
    (firstsFrom key seen xs).Sublist xs := by
  induction xs generalizing seen with
  | nil => exact List.Sublist.refl _
  | cons x xs ih =>
    rw [firstsFrom]
    split
    · exact (ih seen).cons x
    · exact (ih _).cons_cons x

/-- The keys that are left are those of the list that had not been seen. -/
theorem mem_keys_firstsFrom {seen : List κ} {xs : List α} {k : κ} :
    k ∈ (firstsFrom key seen xs).map key ↔ k ∈ xs.map key ∧ k ∉ seen := by
  induction xs generalizing seen with
  | nil => simp [firstsFrom]
  | cons x xs ih =>
    rw [firstsFrom]
    by_cases hx : key x ∈ seen
    · rw [if_pos hx, ih, List.map_cons, List.mem_cons]
      constructor
      · rintro ⟨hk, hseen⟩
        exact ⟨.inr hk, hseen⟩
      · rintro ⟨rfl | hk, hseen⟩
        · exact absurd hx hseen
        · exact ⟨hk, hseen⟩
    · rw [if_neg hx, List.map_cons, List.map_cons, List.mem_cons, List.mem_cons, ih, List.mem_cons]
      constructor
      · rintro (rfl | ⟨hk, hseen⟩)
        · exact ⟨.inl rfl, hx⟩
        · exact ⟨.inr hk, fun h => hseen (.inr h)⟩
      · rintro ⟨rfl | hk, hseen⟩
        · exact .inl rfl
        · by_cases hkx : k = key x
          · exact .inl hkx
          · exact .inr ⟨hk, by rintro (h | h); exacts [hkx h, hseen h]⟩

theorem nodup_firstsFrom (seen : List κ) (xs : List α) :
    ((firstsFrom key seen xs).map key).Nodup := by
  induction xs generalizing seen with
  | nil => exact List.nodup_nil
  | cons x xs ih =>
    rw [firstsFrom]
    split
    · exact ih seen
    · rw [List.map_cons, List.nodup_cons, mem_keys_firstsFrom]
      exact ⟨fun h => h.2 List.mem_cons_self, ih _⟩

theorem mem_keys_firsts (xs : List α) {k : κ} :
    k ∈ (firsts key xs).map key ↔ k ∈ xs.map key := by
  simp [firsts, mem_keys_firstsFrom]

theorem nodup_firsts (xs : List α) : ((firsts key xs).map key).Nodup := nodup_firstsFrom [] xs

theorem mem_of_mem_firsts {xs : List α} {x : α} (h : x ∈ firsts key xs) : x ∈ xs :=
  (firstsFrom_sublist [] xs).subset h

/-- One after the other, what the first list showed is seen by the second. -/
theorem firstsFrom_append (seen : List κ) (xs ys : List α) :
    firstsFrom key seen (xs ++ ys) =
      firstsFrom key seen xs ++ firstsFrom key ((firstsFrom key seen xs).map key ++ seen) ys := by
  induction xs generalizing seen with
  | nil => rfl
  | cons x xs ih =>
    rw [List.cons_append, firstsFrom, firstsFrom]
    split
    · exact ih seen
    · rw [ih, List.cons_append, List.map_cons]
      congr 2
      refine firstsFrom_congr (fun k => ?_) ys
      simp only [List.mem_append, List.mem_cons]
      tauto

end Firsts

/-! ## Filling seats -/

/-- The entries that satisfy `p` replaced, in order, by those of another list. -/
def refill (p : α → Bool) : List α → List α → List α
  | [], _ => []
  | x :: xs, [] => x :: xs
  | x :: xs, y :: ys => if p x then y :: refill p xs ys else x :: refill p xs (y :: ys)

section Refill

variable {p : α → Bool}

@[simp] theorem refill_nil (xs : List α) : refill p xs [] = xs := by cases xs <;> rfl

theorem refill_of_not {x : α} (hx : p x = false) (xs ys : List α) :
    refill p (x :: xs) ys = x :: refill p xs ys := by
  cases ys with
  | nil => simp
  | cons y ys => simp [refill, hx]

/-- Whoever sat there may sit there. -/
theorem refill_filter (xs : List α) : refill p xs (xs.filter p) = xs := by
  induction xs with
  | nil => rfl
  | cons x xs ih =>
    cases hx : p x with
    | false => rw [List.filter_cons_of_neg (by simp [hx]), refill_of_not hx, ih]
    | true => rw [List.filter_cons_of_pos hx, refill, if_pos hx, ih]

/-- Seats of the first part are filled first. -/
theorem refill_append {xs ys : List α} (h : ys.length = (xs.filter p).length)
    (xs' ys' : List α) :
    refill p (xs ++ xs') (ys ++ ys') = refill p xs ys ++ refill p xs' ys' := by
  induction xs generalizing ys with
  | nil =>
    have hnil : ys = [] := List.eq_nil_of_length_eq_zero h
    rw [hnil]
    rfl
  | cons x xs ih =>
    cases hx : p x with
    | false =>
      rw [List.cons_append, refill_of_not hx, refill_of_not hx, List.cons_append]
      rw [List.filter_cons_of_neg (by simp [hx])] at h
      rw [ih h]
    | true =>
      rw [List.filter_cons_of_pos hx, List.length_cons] at h
      obtain ⟨y, ys, rfl⟩ := List.exists_cons_of_length_eq_add_one h
      have hys : ys.length = (xs.filter p).length := by simpa using h
      simp only [List.cons_append, refill, hx, if_true, ih hys]

/-- What does not satisfy `p` keeps its index. -/
theorem getElem?_refill {xs : List α} (ys : List α) {i : Nat} {x : α} (hi : xs[i]? = some x)
    (hx : p x = false) : (refill p xs ys)[i]? = some x := by
  induction xs generalizing ys i with
  | nil => simp at hi
  | cons z xs ih =>
    cases ys with
    | nil => simpa using hi
    | cons y ys =>
      rw [refill]
      cases i with
      | zero =>
        have hz : z = x := by simpa using hi
        rw [hz, hx]
        simp
      | succ i =>
        rw [List.getElem?_cons_succ] at hi
        split
        · rw [List.getElem?_cons_succ]
          exact ih ys hi
        · rw [List.getElem?_cons_succ]
          exact ih (y :: ys) hi

/-- What is put into the seats is found in them. -/
theorem filter_refill {xs ys : List α} (h : ys.length = (xs.filter p).length)
    (hys : ∀ y ∈ ys, p y) : (refill p xs ys).filter p = ys := by
  induction xs generalizing ys with
  | nil =>
    rw [List.eq_nil_of_length_eq_zero h]
    rfl
  | cons x xs ih =>
    cases hx : p x with
    | false =>
      rw [List.filter_cons_of_neg (by simp [hx])] at h
      rw [refill_of_not hx, List.filter_cons_of_neg (by simp [hx])]
      exact ih h hys
    | true =>
      rw [List.filter_cons_of_pos hx, List.length_cons] at h
      obtain ⟨y, ys, rfl⟩ := List.exists_cons_of_length_eq_add_one h
      have hlen : ys.length = (xs.filter p).length := by simpa using h
      rw [refill, if_pos hx, List.filter_cons_of_pos (hys y List.mem_cons_self),
        ih hlen fun z hz => hys z (List.mem_cons_of_mem y hz)]

/-- The others are those there were. -/
theorem filter_not_refill {xs ys : List α} (hys : ∀ y ∈ ys, p y)
    (h : ys.length = (xs.filter p).length) :
    (refill p xs ys).filter (fun x => !p x) = xs.filter fun x => !p x := by
  induction xs generalizing ys with
  | nil => rfl
  | cons x xs ih =>
    cases hx : p x with
    | false =>
      rw [List.filter_cons_of_neg (by simp [hx])] at h
      rw [refill_of_not hx, List.filter_cons_of_pos (by simp [hx]),
        List.filter_cons_of_pos (by simp [hx]), ih hys h]
    | true =>
      rw [List.filter_cons_of_pos hx, List.length_cons] at h
      obtain ⟨y, ys, rfl⟩ := List.exists_cons_of_length_eq_add_one h
      have hlen : ys.length = (xs.filter p).length := by simpa using h
      rw [refill, if_pos hx, List.filter_cons_of_neg (by simp [hys y List.mem_cons_self]),
        List.filter_cons_of_neg (by simp [hx]),
        ih (fun z hz => hys z (List.mem_cons_of_mem y hz)) hlen]

/-- Filling the seats with a permutation of what sat there permutes the list. -/
theorem refill_perm {xs ys : List α} (h : ys.Perm (xs.filter p)) : (refill p xs ys).Perm xs := by
  have hys : ∀ y ∈ ys, p y := fun y hy => (List.mem_filter.mp (h.mem_iff.mp hy)).2
  have hsplit := List.filter_append_perm p (refill p xs ys)
  rw [filter_refill h.length_eq hys, filter_not_refill hys h.length_eq] at hsplit
  exact hsplit.symm.trans ((h.append_right _).trans (List.filter_append_perm p xs))

end Refill

/-! ## Stable sorting -/

section Stable

variable [LinearOrder β] (grade : α → β)

theorem orderedInsert_append (x : α) (xs : List α) {ys : List α}
    (h : ∀ y ∈ ys, grade x ≤ grade y) :
    (xs ++ ys).orderedInsert (grade · ≤ grade ·) x =
      xs.orderedInsert (grade · ≤ grade ·) x ++ ys := by
  induction xs with
  | nil =>
    cases ys with
    | nil => rfl
    | cons y ys => simp [h y List.mem_cons_self]
  | cons z xs ih =>
    by_cases hz : grade x ≤ grade z
    · simp [hz]
    · simp [hz, ih]

/-- Where all of one list comes before all of another, each is sorted by itself. -/
theorem insertionSort_append {xs ys : List α} (h : ∀ x ∈ xs, ∀ y ∈ ys, grade x ≤ grade y) :
    (xs ++ ys).insertionSort (grade · ≤ grade ·) =
      xs.insertionSort (grade · ≤ grade ·) ++ ys.insertionSort (grade · ≤ grade ·) := by
  induction xs with
  | nil => rfl
  | cons x xs ih =>
    have hx : ∀ y ∈ ys.insertionSort (grade · ≤ grade ·), grade x ≤ grade y := by
      intro y hy
      exact h x List.mem_cons_self y (List.mem_insertionSort _ |>.mp hy)
    rw [List.cons_append, List.insertionSort_cons, List.insertionSort_cons,
      ih fun z hz => h z (List.mem_cons_of_mem x hz), orderedInsert_append grade x _ hx]

/-- Entries of one grade keep their order. -/
theorem filter_insertionSort (xs : List α) (b : β) :
    (xs.insertionSort (grade · ≤ grade ·)).filter (grade · = b) = xs.filter (grade · = b) := by
  have hpair : (xs.filter (grade · = b)).Pairwise (grade · ≤ grade ·) := by
    refine List.pairwise_of_forall_mem_list fun x hx y hy => ?_
    have hgx : grade x = b := by simpa using (List.mem_filter.mp hx).2
    have hgy : grade y = b := by simpa using (List.mem_filter.mp hy).2
    exact (hgx.trans hgy.symm).le
  have hsub : (xs.filter (grade · = b)).Sublist (xs.insertionSort (grade · ≤ grade ·)) :=
    List.sublist_insertionSort hpair List.filter_sublist
  have hsub' := hsub.filter (grade · = b)
  rw [List.filter_filter] at hsub'
  simp only [Bool.and_self] at hsub'
  have hlen := ((List.perm_insertionSort (grade · ≤ grade ·) xs).filter (grade · = b)).length_eq
  exact (hsub'.eq_of_length hlen.symm).symm

theorem pairwise_insertionSort (xs : List α) :
    (xs.insertionSort (grade · ≤ grade ·)).Pairwise (grade · ≤ grade ·) := by
  have htrans : IsTrans α (grade · ≤ grade ·) := ⟨fun _ _ _ => le_trans⟩
  have htotal : Std.Total (α := α) (grade · ≤ grade ·) := ⟨fun x y => le_total (grade x) (grade y)⟩
  exact List.pairwise_insertionSort _ xs

end Stable

end Lists

end LlmGateway
