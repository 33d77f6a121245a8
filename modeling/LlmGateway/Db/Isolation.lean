import LlmGateway.Db.Conversations
import LlmGateway.Effects.Unwinding

/-!
# No user sees another

Whatever the sessions of all users do to the conversations, in any order, a user is
answered as if there were no other user: not by a row, not by a count, not by having
to wait. An id that is another's is answered like one that nobody has.
-/

namespace LlmGateway

namespace Conversations

open Effects

/-! ## The table -/

theorem Change.key_apply {change : Change} {thread thread' : Thread}
    (h : change.apply thread = some thread') : thread'.key = thread.key := by
  cases change with
  | insert title preferredSlot clock =>
    cases h
    rfl
  | update values clock =>
    obtain rfl := Option.some.inj h
    split
    · cases values with
      | _ => rfl
    · rfl
  | delete => cases h
  | append rows =>
    cases h
    rfl

/-- Each write is about one thread. -/
theorem table_local : table.Local Thread.key Write.key where
  fixed := by
    intro w thread thread' h
    change (if thread.key = w.key then w.change.apply thread else some thread) = some thread' at h
    split at h
    · exact Change.key_apply h
    · cases h
      rfl
  skips w thread h := if_neg h
  inserts := by
    rintro ⟨key, change⟩ thread h
    cases change with
    | insert title preferredSlot clock =>
      cases h
      rfl
    | update values clock => cases h
    | delete => cases h
    | append rows => cases h

/-! ## Locks -/

section

variable {ι : Type} [DecidableEq ι] {user : ι → String} {db db' : Db ι} {i j : ι} {v : View ι}
  {event : ι × Op}

/-- What a session has written and locked is its user's, and it has locked all that it has
written. -/
structure Kept (user : ι → String) (db : Db ι) : Prop where
  locked : ∀ i, ∀ w ∈ db.pending i, db.holder w.key = some i
  owned : ∀ key i, db.holder key = some i → key.2 = user i

/-- The id that a statement is the first to use. -/
def Op.draws : Op → Option String
  | .create id _ _ _ => some id
  | _ => none

/-- A statement changes no row that another session has, and adds one only where it creates it. -/
theorem respond_write {op : Op} {answer : Answer} {id : String} {change : Change}
    (h : respond v op = (answer, .write id change)) :
    v.locked id = false ∧ (change.isInsert = true → op.draws = some id) := by
  have hchange : ∀ {id' found c}, c.isInsert = false →
      v.change id' found c = (answer, .write id change) →
        v.locked id = false ∧ (change.isInsert = true → op.draws = some id) := by
    intro id' found c hold h
    unfold View.change at h
    split at h
    · cases h
    · split at h
      · cases h
      · rename_i hlocked
        cases h
        exact ⟨Bool.not_eq_true _ ▸ hlocked, fun hnew => absurd hnew (by simp [hold])⟩
  cases op with
  | create id' title preferredSlot clock =>
    change create v id' title preferredSlot clock = _ at h
    unfold create at h
    split at h
    · cases h
    · rename_i hlocked
      cases h
      exact ⟨Bool.not_eq_true _ ▸ hlocked, fun _ => rfl⟩
  | touch id' preferredSlot clock => exact hchange rfl h
  | setPinned id' model clock => exact hchange rfl h
  | rename id' title clock => exact hchange rfl h
  | delete id' => exact hchange rfl h
  | append id' draft =>
    change append v id' draft = _ at h
    unfold append at h
    split at h
    · cases h
    · split at h
      · cases h
      · rename_i hlocked
        split at h
        · cases h
        · cases h
          exact ⟨Bool.not_eq_true _ ▸ hlocked, fun hnew => nomatch hnew⟩
  | getOwned id' => cases h
  | listForUser limit offset => cases h
  | history id' => cases h
  | page id' beforeSeq limit => cases h
  | commit => cases h
  | rollback => cases h

/-- Only an end of the transaction ends it. -/
theorem respond_ends {op : Op} {answer : Answer} {effect : Effect}
    (h : respond v op = (answer, effect)) :
    (effect = .commit → op = .commit) ∧ (effect = .rollback → op = .rollback) := by
  have hchange : ∀ {id' found c}, v.change id' found c = (answer, effect) →
      effect ≠ .commit ∧ effect ≠ .rollback := by
    intro id' found c h
    unfold View.change at h
    split_ifs at h <;> cases h <;> exact ⟨nofun, nofun⟩
  have hneither : effect ≠ .commit ∧ effect ≠ .rollback →
      (effect = .commit → op = .commit) ∧ (effect = .rollback → op = .rollback) :=
    fun hne => ⟨fun heq => absurd heq hne.1, fun heq => absurd heq hne.2⟩
  cases op with
  | create id' title preferredSlot clock =>
    change create v id' title preferredSlot clock = _ at h
    unfold create at h
    split_ifs at h <;> cases h <;> exact ⟨nofun, nofun⟩
  | touch id' preferredSlot clock => exact hneither (hchange h)
  | setPinned id' model clock => exact hneither (hchange h)
  | rename id' title clock => exact hneither (hchange h)
  | delete id' => exact hneither (hchange h)
  | append id' draft =>
    change append v id' draft = _ at h
    unfold append at h
    split at h
    · cases h
      exact ⟨nofun, nofun⟩
    · split at h
      · cases h
        exact ⟨nofun, nofun⟩
      · split at h <;> cases h <;> exact ⟨nofun, nofun⟩
  | commit =>
    cases h
    exact ⟨fun _ => rfl, nofun⟩
  | rollback =>
    cases h
    exact ⟨nofun, fun _ => rfl⟩
  | _ =>
    cases h
    exact ⟨nofun, nofun⟩

/-- The row of a lock is free or the session's own. -/
theorem holder_of_not_locked {id : String} (h : (db.view user i).locked id = false) :
    db.holder (id, user i) = none ∨ db.holder (id, user i) = some i := by
  unfold View.locked Db.view at h
  cases hholder : db.holder (id, user i) with
  | none => exact .inl rfl
  | some j =>
    dsimp only at h
    rw [hholder] at h
    have hj : j = i := by simpa using h
    exact .inr (by rw [hj])

/-- **What a step can do**: nothing, a change of a row that no other session has, or the end of the
session's transaction. -/
inductive Moves (user : ι → String) (db : Db ι) (event : ι × Op) : Db ι → Prop
  | stays : Moves user db event db
  | writes (id : String) (change : Change)
      (hfree : db.holder (id, user event.1) = none ∨ db.holder (id, user event.1) = some event.1)
      (hnew : change.isInsert = true → event.2.draws = some id) :
      Moves user db event (db.carry user event.1 (.write id change))
  | commits (h : event.2 = .commit) : Moves user db event (db.carry user event.1 .commit)
  | undoes (failed : Bool) (h : failed = false → event.2 = .rollback) : Moves user db event
      { db.release event.1 with
        toSessions := db.rollback event.1, failed := Function.update db.failed event.1 failed }

theorem step_moves (user : ι → String) (db : Db ι) (event : ι × Op) :
    Moves user db event (db.step user event).2 := by
  unfold Db.step
  split
  rename_i answer effect heq
  split at heq
  · cases heq
    exact .stays
  · obtain ⟨hcommit, hrollback⟩ := respond_ends heq
    cases effect with
    | nothing => exact .stays
    | write id change =>
      obtain ⟨hlocked, hnew⟩ := respond_write heq
      exact .writes id change (holder_of_not_locked hlocked) hnew
    | fail => exact .undoes true nofun
    | commit => exact .commits (hcommit rfl)
    | rollback => exact .undoes false fun _ => hrollback rfl

/-- What is left to a session when another has gone on. -/
theorem Moves.pending_of_ne (h : Moves user db event db') (hne : j ≠ event.1) :
    db'.pending j = db.pending j := by
  cases h with
  | stays => rfl
  | writes id change _ _ => exact Sessions.push_pending_of_ne _ _ hne
  | commits _ => exact Sessions.commit_pending_of_ne _ _ hne
  | undoes failed _ => exact Sessions.rollback_pending_of_ne _ hne

/-- Nor does it lose a lock, or have its rows locked. -/
theorem Moves.holder_of_ne (h : Moves user db event db') (hne : j ≠ event.1) {key : Key}
    (hj : db.holder key = some j) : db'.holder key = some j := by
  have hrelease : (db.release event.1).holder key = some j := by
    unfold Db.release
    dsimp only
    rw [hj, if_neg (fun heq => hne (Option.some.inj heq))]
  cases h with
  | stays => exact hj
  | writes id change hfree _ =>
    have hkey : key ≠ (id, user event.1) := by
      rintro rfl
      rw [hj] at hfree
      rcases hfree with hfree | hfree
      · cases hfree
      · exact hne (Option.some.inj hfree)
    exact (Function.update_of_ne hkey _ _).trans hj
  | commits _ => exact hrelease
  | undoes failed _ => exact hrelease

theorem Kept.step (h : Kept user db) (event : ι × Op) : Kept user (db.step user event).2 := by
  have hmoves := step_moves user db event
  generalize (db.step user event).2 = db' at hmoves ⊢
  obtain ⟨i, op⟩ := event
  constructor
  · intro j w hw
    by_cases hj : j = i
    · subst hj
      cases hmoves with
      | stays => exact h.locked j w hw
      | writes id change hfree _ =>
        rcases Sessions.mem_pending_push hw with hold | ⟨-, rfl⟩
        · by_cases hkey : w.key = (id, user j)
          · rw [hkey]
            exact Function.update_self ..
          · exact (Function.update_of_ne hkey _ _).trans (h.locked j w hold)
        · exact Function.update_self ..
      | commits _ =>
        have hnone : (db.commit table.apply j).pending j = [] := Sessions.commit_pending_self ..
        exact absurd (hnone ▸ hw) List.not_mem_nil
      | undoes failed _ =>
        have hnone : (db.rollback j).pending j = [] := Sessions.rollback_pending_self ..
        exact absurd (hnone ▸ hw) List.not_mem_nil
    · rw [hmoves.pending_of_ne hj] at hw
      exact hmoves.holder_of_ne hj (h.locked j w hw)
  · intro key j hholder
    have hrelease : (db.release i).holder key = some j → key.2 = user j := by
      intro hr
      unfold Db.release at hr
      dsimp only at hr
      split at hr
      · cases hr
      · exact h.owned key j hr
    cases hmoves with
    | stays => exact h.owned key j hholder
    | writes id change hfree _ =>
      by_cases hkey : key = (id, user i)
      · subst hkey
        have hself : (db.lock i (id, user i)).holder (id, user i) = some i :=
          Function.update_self ..
        have heq : i = j := Option.some.inj (hself.symm.trans hholder)
        rw [heq]
      · exact h.owned key j ((Function.update_of_ne hkey _ _).symm.trans hholder)
    | commits _ => exact hrelease hholder
    | undoes failed _ => exact hrelease hholder

end

/-! ## In a user's eyes -/

section

variable {ι : Type} [DecidableEq ι] {user : ι → String} {u : String} {db db' : Db ι} {i : ι}

/-- A user's threads. -/
def threadsOf (u : String) (rows : List Thread) : List Thread := rows.filter (·.userId = u)

/-- Two databases that differ in nothing that is the user's. -/
structure Alike (user : ι → String) (u : String) (db db' : Db ι) : Prop where
  rows : threadsOf u db.tables = threadsOf u db'.tables
  pending : ∀ i, user i = u → db.pending i = db'.pending i
  failed : ∀ i, user i = u → db.failed i = db'.failed i
  holder : ∀ id, db.holder (id, u) = db'.holder (id, u)

omit [DecidableEq ι] in
theorem Alike.refl (user : ι → String) (u : String) (db : Db ι) : Alike user u db db :=
  ⟨rfl, fun _ _ => rfl, fun _ _ => rfl, fun _ => rfl⟩

/-- A user's threads after some writes: only the writes of the user's own sessions matter. -/
theorem threadsOf_foldl (u : String) (ws : List Write) (rows : List Thread) :
    threadsOf u (ws.foldl table.apply rows) =
      (ws.filter (·.key.2 = u)).foldl table.apply (threadsOf u rows) :=
  table_local.filter_foldl_apply (fun key => decide (key.2 = u)) ws rows

omit [DecidableEq ι] in
theorem Kept.key_of_pending (h : Kept user db) {w : Write} (hw : w ∈ db.pending i) :
    w.key.2 = user i := h.owned _ _ (h.locked i w hw)

omit [DecidableEq ι] in
theorem Kept.filter_own (h : Kept user db) (hi : user i = u) :
    (db.pending i).filter (·.key.2 = u) = db.pending i := by
  refine List.filter_eq_self.mpr fun w hw => ?_
  rw [decide_eq_true_eq, ← hi]
  exact h.key_of_pending hw

omit [DecidableEq ι] in
theorem Kept.filter_other (h : Kept user db) (hi : user i ≠ u) :
    (db.pending i).filter (·.key.2 = u) = [] := by
  refine List.filter_eq_nil_iff.mpr fun w hw => ?_
  rw [decide_eq_true_eq, h.key_of_pending hw]
  exact hi

omit [DecidableEq ι] in
theorem Alike.view (h : Alike user u db db') (hkept : Kept user db) (hkept' : Kept user db')
    (hi : user i = u) : db.view user i = db'.view user i := by
  have hrows : threadsOf u (db.seen i) = threadsOf u (db'.seen i) := by
    unfold Db.seen
    rw [threadsOf_foldl, threadsOf_foldl, hkept.filter_own hi, hkept'.filter_own hi, h.rows,
      h.pending i hi]
  unfold Db.view
  rw [hi]
  congr 1
  funext id
  exact h.holder id

/-- The same effect on both. -/
theorem Alike.carry (h : Alike user u db db') (hkept : Kept user db) (hkept' : Kept user db')
    (hi : user i = u) (effect : Effect) :
    Alike user u (db.carry user i effect) (db'.carry user i effect) := by
  have hrelease : ∀ id, (db.release i).holder (id, u) = (db'.release i).holder (id, u) := by
    intro id
    unfold Db.release
    dsimp only
    rw [h.holder id]
  have hfailed : ∀ value j, user j = u → Function.update db.failed i value j =
      Function.update db'.failed i value j := by
    intro value j hj
    rw [Function.update_apply, Function.update_apply, h.failed j hj]
  have hdropped : ∀ j, user j = u → (db.rollback i).pending j = (db'.rollback i).pending j := by
    intro j hj
    by_cases hji : j = i
    · rw [hji, Sessions.rollback_pending_self, Sessions.rollback_pending_self]
    · rw [Sessions.rollback_pending_of_ne _ hji, Sessions.rollback_pending_of_ne _ hji,
        h.pending j hj]
  cases effect with
  | nothing => exact h
  | write id change =>
    refine ⟨h.rows, fun j hj => ?_, h.failed, fun id' => ?_⟩
    · by_cases hji : j = i
      · subst hji
        have hself := Sessions.push_pending_self db.toSessions (i := j) ⟨(id, user j), change⟩
        have hself' := Sessions.push_pending_self db'.toSessions (i := j) ⟨(id, user j), change⟩
        exact hself.trans (by rw [h.pending j hj]; exact hself'.symm)
      · have hne := Sessions.push_pending_of_ne db.toSessions ⟨(id, user i), change⟩ hji
        have hne' := Sessions.push_pending_of_ne db'.toSessions ⟨(id, user i), change⟩ hji
        exact hne.trans ((h.pending j hj).trans hne'.symm)
    · change Function.update db.holder _ _ _ = Function.update db'.holder _ _ _
      rw [Function.update_apply, Function.update_apply, h.holder id']
  | fail => exact ⟨h.rows, hdropped, hfailed true, hrelease⟩
  | commit =>
    refine ⟨?_, fun j hj => ?_, h.failed, hrelease⟩
    · change threadsOf u ((db.pending i).foldl table.apply db.tables) =
        threadsOf u ((db'.pending i).foldl table.apply db'.tables)
      rw [threadsOf_foldl, threadsOf_foldl, hkept.filter_own hi, hkept'.filter_own hi, h.rows,
        h.pending i hi]
    · change (db.commit table.apply i).pending j = (db'.commit table.apply i).pending j
      by_cases hji : j = i
      · rw [hji, Sessions.commit_pending_self, Sessions.commit_pending_self]
      · rw [Sessions.commit_pending_of_ne _ _ hji, Sessions.commit_pending_of_ne _ _ hji,
          h.pending j hj]
  | rollback => exact ⟨h.rows, hdropped, hfailed false, hrelease⟩

omit [DecidableEq ι] in
theorem Alike.trans {db'' : Db ι} (h : Alike user u db db') (h' : Alike user u db' db'') :
    Alike user u db db'' :=
  ⟨h.rows.trans h'.rows, fun i hi => (h.pending i hi).trans (h'.pending i hi),
    fun i hi => (h.failed i hi).trans (h'.failed i hi),
    fun id => (h.holder id).trans (h'.holder id)⟩

/-- A step on behalf of somebody else. -/
theorem Moves.alike {event : ι × Op} (h : Moves user db event db') (hkept : Kept user db)
    (hi : user event.1 ≠ u) : Alike user u db' db := by
  obtain ⟨i, op⟩ := event
  have hne : ∀ j, user j = u → j ≠ i := by
    rintro j hj rfl
    exact hi hj
  have hrelease : ∀ id, (db.release i).holder (id, u) = db.holder (id, u) := by
    intro id
    unfold Db.release
    dsimp only
    split
    · rename_i hholder
      exact absurd (hkept.owned _ _ hholder).symm hi
    · rfl
  cases h with
  | stays => exact .refl user u db
  | writes id change _ _ =>
    refine ⟨rfl, fun j hj => Sessions.push_pending_of_ne _ _ (hne j hj), fun _ _ => rfl,
      fun id' => ?_⟩
    refine Function.update_of_ne (fun heq => hi ?_) _ _
    exact (congrArg Prod.snd heq).symm
  | commits _ =>
    refine ⟨?_, fun j hj => Sessions.commit_pending_of_ne _ _ (hne j hj), fun _ _ => rfl, hrelease⟩
    change threadsOf u ((db.pending i).foldl table.apply db.tables) = _
    rw [threadsOf_foldl, hkept.filter_other hi, List.foldl_nil]
  | undoes failed _ =>
    exact ⟨rfl, fun j hj => Sessions.rollback_pending_of_ne _ (hne j hj),
      fun j hj => Function.update_of_ne (hne j hj) _ _, hrelease⟩

/-- Whether a statement is one of the user's. -/
def isOf (user : ι → String) (u : String) (event : ι × Op) : Bool := user event.1 = u

theorem unwinds (user : ι → String) (u : String) :
    Unwinds (Db.step user) (isOf user u) (Kept user) (Alike user u) where
  keeps db event hkept := hkept.step event
  alike := by
    intro db db' event hkept hkept' hown halike
    have hi : user event.1 = u := of_decide_eq_true hown
    have hview := halike.view hkept hkept' hi
    have hfailed := halike.failed event.1 hi
    unfold Db.step
    rw [hview, hfailed]
    exact ⟨rfl, halike.carry hkept hkept' hi _⟩
  unseen := by
    intro db db' event hkept hkept' hother halike
    have hi : user event.1 ≠ u := of_decide_eq_false hother
    exact ((step_moves user db event).alike hkept hi).trans halike

/-- The database before anything has been done. -/
def start (ι : Type) : Db ι := { tables := [] }

omit [DecidableEq ι] in
theorem kept_start (user : ι → String) : Kept user (start ι) :=
  ⟨fun _ _ h => absurd h List.not_mem_nil, fun _ _ h => nomatch h⟩

end

end Conversations

end LlmGateway
