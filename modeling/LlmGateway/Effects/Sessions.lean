import Mathlib.Data.List.Nodup
import Mathlib.Logic.Function.Basic

/-!
# Sessions over shared tables

Any number of sessions write to one set of tables. What a session has written is
its own until it commits; a rollback forgets it. The rows of a table are updated,
struck out and added to, and `mem_foldl_apply` says where each row of a commit comes
from. A unique column stays one in whatever order the sessions commit.
-/

namespace Effects

/-- The committed tables, and what each session has written and not committed. -/
structure Sessions (ι τ ω : Type) where
  tables : τ
  pending : ι → List ω := fun _ => []

namespace Sessions

section

variable {ι τ ω : Type} [DecidableEq ι] (apply : τ → ω → τ) (s : Sessions ι τ ω) (w : ω) {i j : ι}

def push (s : Sessions ι τ ω) (i : ι) (w : ω) : Sessions ι τ ω :=
  { s with pending := Function.update s.pending i (s.pending i ++ [w]) }

def rollback (s : Sessions ι τ ω) (i : ι) : Sessions ι τ ω :=
  { s with pending := Function.update s.pending i [] }

def commit (apply : τ → ω → τ) (s : Sessions ι τ ω) (i : ι) : Sessions ι τ ω where
  tables := (s.pending i).foldl apply s.tables
  pending := Function.update s.pending i []

@[simp] theorem push_tables : (s.push i w).tables = s.tables := rfl

@[simp] theorem push_pending_self : (s.push i w).pending i = s.pending i ++ [w] :=
  Function.update_self ..

theorem push_pending_of_ne (h : j ≠ i) : (s.push i w).pending j = s.pending j :=
  Function.update_of_ne h ..

@[simp] theorem rollback_tables : (s.rollback i).tables = s.tables := rfl

@[simp] theorem rollback_pending_self : (s.rollback i).pending i = [] := Function.update_self ..

theorem rollback_pending_of_ne (h : j ≠ i) : (s.rollback i).pending j = s.pending j :=
  Function.update_of_ne h ..

@[simp] theorem commit_tables :
    (s.commit apply i).tables = (s.pending i).foldl apply s.tables := rfl

@[simp] theorem commit_pending_self : (s.commit apply i).pending i = [] := Function.update_self ..

theorem commit_pending_of_ne (h : j ≠ i) : (s.commit apply i).pending j = s.pending j :=
  Function.update_of_ne h ..

variable {s w} {apply}

theorem mem_pending_push {v : ω} (h : v ∈ (s.push i w).pending j) :
    v ∈ s.pending j ∨ (j = i ∧ v = w) := by
  by_cases hj : j = i
  · rw [hj, push_pending_self, List.mem_append, List.mem_singleton] at h
    rcases h with hold | hnew
    · exact .inl (hj ▸ hold)
    · exact .inr ⟨hj, hnew⟩
  · rw [push_pending_of_ne s w hj] at h
    exact .inl h

/-- What is left to be written when a session has ended. -/
theorem mem_pending_rollback {v : ω} (h : v ∈ (s.rollback i).pending j) : v ∈ s.pending j := by
  by_cases hj : j = i
  · rw [hj, rollback_pending_self] at h
    exact absurd h List.not_mem_nil
  · rwa [rollback_pending_of_ne s hj] at h

theorem mem_pending_commit {v : ω} (h : v ∈ (s.commit apply i).pending j) : v ∈ s.pending j := by
  by_cases hj : j = i
  · rw [hj, commit_pending_self] at h
    exact absurd h List.not_mem_nil
  · rwa [commit_pending_of_ne apply s hj] at h

/-- A write that is committed at once, by a session that has written nothing else. -/
theorem commit_push (h : s.pending = fun _ => []) :
    (s.push i w).commit apply i = { tables := apply s.tables w } := by
  obtain ⟨t, pending⟩ := s
  obtain rfl := h
  simp [push, commit]

end

end Sessions

/-! ## Rows -/

/-- What a write does to a row, if the row is to stay, and the row that it adds. -/
structure Rows (ρ ω : Type) where
  update : ω → ρ → Option ρ
  insert : ω → Option ρ

namespace Rows

variable {ρ ω κ : Type} (T : Rows ρ ω)

/-- The rows after one write. -/
def apply (rows : List ρ) (w : ω) : List ρ := rows.filterMap (T.update w) ++ (T.insert w).toList

/-- What becomes of a row. -/
def updates (ws : List ω) (row : ρ) : Option ρ := ws.foldlM (fun row w => T.update w row) row

/-- The rows that are added. -/
def inserts (ws : List ω) : List ρ := ws.filterMap T.insert

variable {T}

theorem mem_apply {rows : List ρ} {w : ω} {row' : ρ} :
    row' ∈ T.apply rows w ↔
      (∃ row ∈ rows, T.update w row = some row') ∨ T.insert w = some row' := by
  rw [apply, List.mem_append, List.mem_filterMap, Option.mem_toList]

theorem updates_cons {w : ω} {ws : List ω} {row row' : ρ} :
    T.updates (w :: ws) row = some row' ↔
      ∃ next, T.update w row = some next ∧ T.updates ws next = some row' :=
  Option.bind_eq_some_iff

/-- **Where a row comes from**: it was there, or one of the writes added it, and it has gone
through all of the writes since. -/
theorem mem_foldl_apply {ws : List ω} {rows : List ρ} {row' : ρ} :
    row' ∈ ws.foldl T.apply rows ↔ (∃ row ∈ rows, T.updates ws row = some row') ∨
      ∃ before w after row, ws = before ++ w :: after ∧ T.insert w = some row ∧
        T.updates after row = some row' := by
  induction ws generalizing rows with
  | nil => simp [updates]
  | cons w ws ih =>
    rw [List.foldl_cons, ih]
    constructor
    · rintro (⟨row, hrow, hlater⟩ | ⟨before, v, after, row, rfl, hinsert, hlater⟩)
      · rcases mem_apply.mp hrow with ⟨old, hold, hupdate⟩ | hinsert
        · exact .inl ⟨old, hold, updates_cons.mpr ⟨row, hupdate, hlater⟩⟩
        · exact .inr ⟨[], w, ws, row, rfl, hinsert, hlater⟩
      · exact .inr ⟨w :: before, v, after, row, rfl, hinsert, hlater⟩
    · rintro (⟨row, hrow, hall⟩ | ⟨before, v, after, row, hsplit, hinsert, hlater⟩)
      · obtain ⟨next, hupdate, hlater⟩ := updates_cons.mp hall
        exact .inl ⟨next, mem_apply.mpr (.inl ⟨row, hrow, hupdate⟩), hlater⟩
      · rcases List.cons_eq_append_iff.mp hsplit with ⟨rfl, hhead⟩ | ⟨before, rfl, htail⟩
        · obtain ⟨rfl, rfl⟩ := List.cons.inj hhead
          exact .inl ⟨row, mem_apply.mpr (.inr hinsert), hlater⟩
        · exact .inr ⟨before, v, after, row, htail, hinsert, hlater⟩

/-- What one update keeps all of them keep. -/
theorem rel_updates {R : ρ → ρ → Prop} (hrefl : ∀ row, R row row)
    (htrans : ∀ row next row', R row next → R next row' → R row row')
    (h : ∀ w row row', T.update w row = some row' → R row row') {ws : List ω} {row row' : ρ}
    (hall : T.updates ws row = some row') : R row row' := by
  induction ws generalizing row with
  | nil =>
    obtain rfl := Option.some.inj hall
    exact hrefl row
  | cons w ws ih =>
    obtain ⟨next, hupdate, hlater⟩ := updates_cons.mp hall
    exact htrans row next row' (h w row next hupdate) (ih hlater)

/-- Where nothing is struck out every row has become something. -/
theorem isSome_updates (h : ∀ w row, (T.update w row).isSome) (ws : List ω) (row : ρ) :
    ∃ row', T.updates ws row = some row' := by
  induction ws generalizing row with
  | nil => exact ⟨row, rfl⟩
  | cons w ws ih =>
    obtain ⟨next, hupdate⟩ := Option.isSome_iff_exists.mp (h w row)
    obtain ⟨row', hlater⟩ := ih next
    exact ⟨row', updates_cons.mpr ⟨next, hupdate, hlater⟩⟩

/-- The same rows, seen from a record of many tables. -/
theorem rows_foldl {τ : Type} {apply : τ → ω → τ} (r : τ → List ρ)
    (h : ∀ t w, r (apply t w) = T.apply (r t) w) (ws : List ω) (t : τ) :
    r (ws.foldl apply t) = ws.foldl T.apply (r t) := by
  induction ws generalizing t with
  | nil => rfl
  | cons w ws ih => rw [List.foldl_cons, List.foldl_cons, ih, h]

/-! ## Keys -/

/-- Each write is about the rows of one key. -/
structure Local (T : Rows ρ ω) (key : ρ → κ) (keyOf : ω → κ) : Prop where
  fixed : ∀ w row row', T.update w row = some row' → key row' = key row
  skips : ∀ w row, key row ≠ keyOf w → T.update w row = some row
  inserts : ∀ w row, T.insert w = some row → key row = keyOf w

/-- **What becomes of some of the keys** is what the writes about them make of their rows. -/
theorem Local.filter_apply {key : ρ → κ} {keyOf : ω → κ} (h : T.Local key keyOf) (p : κ → Bool)
    (rows : List ρ) (w : ω) :
    (T.apply rows w).filter (p ∘ key) =
      if p (keyOf w) then T.apply (rows.filter (p ∘ key)) w else rows.filter (p ∘ key) := by
  have hrows : (rows.filterMap (T.update w)).filter (p ∘ key) =
      (rows.filter (p ∘ key)).filterMap (T.update w) := by
    induction rows with
    | nil => rfl
    | cons row rows ih =>
      cases hupdate : T.update w row with
      | none =>
        rw [List.filterMap_cons_none hupdate, ih, List.filter_cons]
        split
        · rw [List.filterMap_cons_none hupdate]
        · rfl
      | some row' =>
        rw [List.filterMap_cons_some hupdate, List.filter_cons, List.filter_cons, ih]
        simp only [Function.comp_apply, h.fixed w row row' hupdate]
        split
        · rw [List.filterMap_cons_some hupdate]
        · rfl
  rw [apply, List.filter_append, hrows]
  split
  · rename_i hkey
    congr 1
    cases hinsert : T.insert w with
    | none => rfl
    | some row =>
      have : p (key row) = true := by rwa [h.inserts w row hinsert]
      simp [this]
  · rename_i hkey
    have hnone : (T.insert w).toList.filter (p ∘ key) = [] := by
      cases hinsert : T.insert w with
      | none => rfl
      | some row =>
        have : ¬ p (key row) = true := by rwa [h.inserts w row hinsert]
        simp [this]
    rw [hnone, List.append_nil]
    -- A write about another key leaves each of these rows.
    have hid : (rows.filter (p ∘ key)).filterMap (T.update w) =
        (rows.filter (p ∘ key)).filterMap some := by
      refine List.filterMap_congr fun row hrow => h.skips w row fun heq => hkey ?_
      rw [← heq]
      exact (List.mem_filter.mp hrow).2
    rw [hid, List.filterMap_some]

theorem Local.filter_foldl_apply {key : ρ → κ} {keyOf : ω → κ} (h : T.Local key keyOf)
    (p : κ → Bool) (ws : List ω) (rows : List ρ) :
    (ws.foldl T.apply rows).filter (p ∘ key) =
      (ws.filter (p ∘ keyOf)).foldl T.apply (rows.filter (p ∘ key)) := by
  induction ws generalizing rows with
  | nil => rfl
  | cons w ws ih =>
    rw [List.foldl_cons, ih, h.filter_apply, List.filter_cons]
    simp only [Function.comp_apply]
    split
    · rw [List.foldl_cons]
    · rfl

/-! ## Unique columns -/

/-- A column that no update touches. -/
def Fixed (T : Rows ρ ω) (column : ρ → κ) : Prop :=
  ∀ w row row', T.update w row = some row' → column row' = column row

theorem Fixed.filterMap {column : ρ → κ} (h : T.Fixed column) (w : ω) (rows : List ρ) :
    ((rows.filterMap (T.update w)).map column).Sublist (rows.map column) := by
  induction rows with
  | nil => exact List.Sublist.slnil
  | cons row rows ih =>
    cases hupdate : T.update w row with
    | none =>
      rw [List.filterMap_cons_none hupdate]
      exact ih.cons _
    | some row' =>
      rw [List.filterMap_cons_some hupdate, List.map_cons, List.map_cons, h w row row' hupdate]
      exact ih.cons_cons _

/-- The values of such a column when a session commits. -/
theorem Fixed.foldl_apply {column : ρ → κ} (h : T.Fixed column) (ws : List ω) (rows : List ρ) :
    ((ws.foldl T.apply rows).map column).Sublist ((rows ++ T.inserts ws).map column) := by
  induction ws generalizing rows with
  | nil =>
    rw [inserts, List.filterMap_nil, List.append_nil]
    exact List.Sublist.refl _
  | cons w ws ih =>
    have hinserts : T.inserts (w :: ws) = (T.insert w).toList ++ T.inserts ws := by
      unfold inserts
      cases hinsert : T.insert w with
      | none => rw [List.filterMap_cons_none hinsert, Option.toList_none, List.nil_append]
      | some row => rw [List.filterMap_cons_some hinsert, Option.toList_some, List.singleton_append]
    have hlater := ih (T.apply rows w)
    rw [apply, List.append_assoc, ← hinserts, List.map_append] at hlater
    rw [List.map_append]
    exact hlater.trans ((h.filterMap w rows).append_right _)

/-- A unique column, also when any one session commits. -/
structure Unique {ι : Type} (T : Rows ρ ω) (column : ρ → κ) (rows : List ρ)
    (pending : ι → List ω) : Prop where
  once : ∀ i, ((rows ++ T.inserts (pending i)).map column).Nodup
  apart : ∀ i j, i ≠ j → ∀ row ∈ T.inserts (pending i), ∀ row' ∈ T.inserts (pending j),
    column row ≠ column row'

/-- A value that nobody has taken. -/
def Free {ι : Type} (T : Rows ρ ω) (column : ρ → κ) (value : κ) (rows : List ρ)
    (pending : ι → List ω) : Prop :=
  (∀ row ∈ rows, column row ≠ value) ∧ ∀ j, ∀ row ∈ T.inserts (pending j), column row ≠ value

section

variable {ι τ : Type} [DecidableEq ι] {column : ρ → κ} {s : Sessions ι τ ω} {i : ι}
  {apply : τ → ω → τ} {r : τ → List ρ}

theorem mem_inserts {ws : List ω} {row : ρ} :
    row ∈ T.inserts ws ↔ ∃ w ∈ ws, T.insert w = some row := List.mem_filterMap

theorem mem_inserts_of_subset {ws ws' : List ω} (h : ∀ w ∈ ws, w ∈ ws') {row : ρ}
    (hrow : row ∈ T.inserts ws) : row ∈ T.inserts ws' := by
  obtain ⟨w, hw, hinsert⟩ := mem_inserts.mp hrow
  exact mem_inserts.mpr ⟨w, h w hw, hinsert⟩

theorem Unique.rollback (h : T.Unique column (r s.tables) s.pending) :
    T.Unique column (r (s.rollback i).tables) (s.rollback i).pending := by
  have hless : ∀ j, ∀ w ∈ (s.rollback i).pending j, w ∈ s.pending j := fun j w hw =>
    Sessions.mem_pending_rollback hw
  constructor
  · intro j
    by_cases hj : j = i
    · have hrows := h.once i
      rw [List.map_append] at hrows
      rw [hj, Sessions.rollback_pending_self, inserts, List.filterMap_nil, List.append_nil]
      exact hrows.of_append_left
    · rw [Sessions.rollback_pending_of_ne s hj]
      exact h.once j
  · intro j k hne row hrow row' hrow'
    exact h.apart j k hne row (mem_inserts_of_subset (hless j) hrow) row'
      (mem_inserts_of_subset (hless k) hrow')

theorem Unique.commit (hfixed : T.Fixed column)
    (hrows : ∀ t w, r (apply t w) = T.apply (r t) w)
    (h : T.Unique column (r s.tables) s.pending) :
    T.Unique column (r (s.commit apply i).tables) (s.commit apply i).pending := by
  have hless : ∀ j, ∀ w ∈ (s.commit apply i).pending j, w ∈ s.pending j := fun j w hw =>
    Sessions.mem_pending_commit hw
  have hcommit : ((r (s.commit apply i).tables).map column).Sublist
      ((r s.tables ++ T.inserts (s.pending i)).map column) := by
    rw [Sessions.commit_tables, rows_foldl r hrows]
    exact hfixed.foldl_apply _ _
  constructor
  · intro j
    by_cases hj : j = i
    · rw [hj, Sessions.commit_pending_self, inserts, List.filterMap_nil, List.append_nil]
      exact hcommit.nodup (h.once i)
    · have hown := h.once j
      rw [List.map_append, List.nodup_append'] at hown
      rw [Sessions.commit_pending_of_ne apply s hj, List.map_append, List.nodup_append']
      refine ⟨hcommit.nodup (h.once i), hown.2.1, ?_⟩
      intro value hvalue hlater
      have hbefore := hcommit.subset hvalue
      rw [List.map_append] at hbefore
      rcases List.mem_append.mp hbefore with hold | hnew
      · exact hown.2.2 hold hlater
      · obtain ⟨row, hrow, rfl⟩ := List.mem_map.mp hnew
        obtain ⟨row', hrow', heq⟩ := List.mem_map.mp hlater
        exact h.apart i j (Ne.symm hj) row hrow row' hrow' heq.symm
  · intro j k hne row hrow row' hrow'
    exact h.apart j k hne row (mem_inserts_of_subset (hless j) hrow) row'
      (mem_inserts_of_subset (hless k) hrow')

/-- An update is not seen by a unique column, and an insert waits until its value is free. -/
theorem Unique.push (h : T.Unique column (r s.tables) s.pending) {w : ω}
    (hfree : ∀ row, T.insert w = some row →
      T.Free column (column row) (r s.tables) s.pending) :
    T.Unique column (r (s.push i w).tables) (s.push i w).pending := by
  have hmem : ∀ j, ∀ row ∈ T.inserts ((s.push i w).pending j),
      row ∈ T.inserts (s.pending j) ∨ (j = i ∧ T.insert w = some row) := by
    intro j row hrow
    obtain ⟨v, hv, hinsert⟩ := mem_inserts.mp hrow
    rcases Sessions.mem_pending_push hv with hold | ⟨hj, rfl⟩
    · exact .inl (mem_inserts.mpr ⟨v, hold, hinsert⟩)
    · exact .inr ⟨hj, hinsert⟩
  constructor
  · intro j
    by_cases hj : j = i
    · rw [hj, Sessions.push_pending_self, Sessions.push_tables]
      cases hinsert : T.insert w with
      | none =>
        rw [inserts, List.filterMap_append, List.filterMap_cons_none hinsert, List.filterMap_nil,
          List.append_nil]
        exact h.once i
      | some row =>
        obtain ⟨hcommitted, hpending⟩ := hfree row hinsert
        rw [inserts, List.filterMap_append, List.filterMap_cons_some hinsert, List.filterMap_nil,
          ← List.append_assoc, List.map_append, List.nodup_append']
        refine ⟨h.once i, List.nodup_singleton _, ?_⟩
        intro value hvalue hnew
        obtain rfl := List.mem_singleton.mp hnew
        obtain ⟨row', hrow', heq⟩ := List.mem_map.mp hvalue
        rcases List.mem_append.mp hrow' with hold | hown
        · exact hcommitted row' hold heq
        · exact hpending i row' hown heq
    · rw [Sessions.push_pending_of_ne s w hj]
      exact h.once j
  · intro j k hne row hrow row' hrow'
    rcases hmem j row hrow with hold | ⟨rfl, hnew⟩
    · rcases hmem k row' hrow' with hold' | ⟨rfl, hnew'⟩
      · exact h.apart j k hne row hold row' hold'
      · exact (hfree row' hnew').2 j row hold
    · rcases hmem k row' hrow' with hold' | ⟨hk, -⟩
      · exact Ne.symm ((hfree row hnew).2 k row' hold')
      · exact absurd hk.symm hne

omit [DecidableEq ι] in
/-- Two rows with one value, of which one is committed and neither is another session's. -/
theorem Unique.eq_of_column {rows : List ρ} {pending : ι → List ω}
    (h : T.Unique column rows pending) {row row' : ρ} (hrow : row ∈ rows)
    (hrow' : row' ∈ rows ++ T.inserts (pending i)) (heq : column row' = column row) : row' = row :=
  List.inj_on_of_nodup_map (h.once i) hrow' (List.mem_append_left _ hrow) heq

end

end Rows

end Effects
