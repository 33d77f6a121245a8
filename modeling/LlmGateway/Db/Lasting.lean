import LlmGateway.Db.Isolation

/-!
# What a user is told stays so

A thread that was pinned, or deleted, stays so from the commit on, whatever the other
sessions do meanwhile and afterwards. Up to the commit it is the lock that keeps the
others from the row; behind it no statement moves a pin, and no id is drawn twice.
-/

namespace LlmGateway

namespace Conversations

open Effects

section

variable {ι : Type} [DecidableEq ι] {user : ι → String} {db db' : Db ι} {i j : ι} {key : Key}
  {event : ι × Op} {P : Thread → Prop}

/-! ## Ids are drawn once -/

/-- The thread that a statement is the first to name. -/
def drawn (user : ι → String) (event : ι × Op) : Option Key :=
  event.2.draws.map fun id => (id, user event.1)

/-- What is stored or about to be was drawn. -/
structure Drawn (past : List Key) (db : Db ι) : Prop where
  stored : ∀ thread ∈ db.tables, thread.key ∈ past
  pending : ∀ i, ∀ w ∈ db.pending i, w.change.isInsert = true → w.key ∈ past

theorem insert_eq_some {w : Write} {thread : Thread} (h : table.insert w = some thread) :
    w.change.isInsert = true ∧ thread.key = w.key := by
  refine ⟨?_, table_local.inserts w thread h⟩
  obtain ⟨key, change⟩ := w
  cases change with
  | insert title preferredSlot clock => rfl
  | update values clock => cases h
  | delete => cases h
  | append rows => cases h

theorem key_of_updates {ws : List Write} {thread thread' : Thread}
    (h : table.updates ws thread = some thread') : thread'.key = thread.key := by
  refine Rows.rel_updates (R := fun row row' : Thread => row'.key = row.key) (fun _ => rfl)
    (fun row next row' hnext hlast => ?_) (fun w row row' => table_local.fixed w row row') h
  exact hlast.trans hnext

/-- Where a key comes from. -/
theorem key_of_foldl {ws : List Write} {rows : List Thread} {thread : Thread}
    (h : thread ∈ ws.foldl table.apply rows) : (∃ old ∈ rows, old.key = thread.key) ∨
      ∃ w ∈ ws, w.change.isInsert = true ∧ w.key = thread.key := by
  rcases Rows.mem_foldl_apply.mp h with ⟨old, hold, hlater⟩ |
    ⟨before, w, later, new, rfl, hw, hlater⟩
  · exact .inl ⟨old, hold, (key_of_updates hlater).symm⟩
  · obtain ⟨hnew, hkey⟩ := insert_eq_some hw
    refine .inr ⟨w, List.mem_append_right _ List.mem_cons_self, hnew, ?_⟩
    rw [key_of_updates hlater, hkey]

/-- Every thread is there once, in the eyes of every session. -/
structure Single (past : List Key) (db : Db ι) : Prop where
  known : Drawn past db
  unique : table.Unique Thread.key db.tables db.pending

theorem Moves.single {past : List Key} (h : Moves user db event db') (hsingle : Single past db)
    (hnew : ∀ key, drawn user event = some key → key ∉ past) :
    Single (past ++ (drawn user event).toList) db' := by
  obtain ⟨hdrawn, hunique⟩ := hsingle
  have hmono : ∀ {key}, key ∈ past → key ∈ past ++ (drawn user event).toList :=
    fun h => List.mem_append_left _ h
  cases h with
  | stays =>
    exact ⟨⟨fun t ht => hmono (hdrawn.stored t ht),
      fun i w hw hins => hmono (hdrawn.pending i w hw hins)⟩, hunique⟩
  | writes id change _ hdraws =>
    have hkey : change.isInsert = true → drawn user event = some (id, user event.1) := by
      intro hins
      rw [drawn, hdraws hins]
      rfl
    refine ⟨⟨fun t ht => hmono (hdrawn.stored t ht), fun i w hw hins => ?_⟩, ?_⟩
    · rcases Sessions.mem_pending_push hw with hold | ⟨-, rfl⟩
      · exact hmono (hdrawn.pending i w hold hins)
      · rw [hkey hins]
        exact List.mem_append_right _ (List.mem_singleton_self _)
    · refine Rows.Unique.push (r := fun rows => rows) hunique fun row hrow => ?_
      obtain ⟨hins, hrowkey⟩ := insert_eq_some hrow
      have hfresh := hnew _ (hkey hins)
      rw [hrowkey]
      refine ⟨fun other hother (heq : other.key = (id, user event.1)) => hfresh ?_,
        fun j other hother (heq : other.key = (id, user event.1)) => hfresh ?_⟩
      · rw [← heq]
        exact hdrawn.stored other hother
      · obtain ⟨w, hw, hinsert⟩ := Rows.mem_inserts.mp hother
        obtain ⟨hwins, hwkey⟩ := insert_eq_some hinsert
        rw [← heq, hwkey]
        exact hdrawn.pending j w hw hwins
  | commits _ =>
    refine ⟨⟨fun t ht => ?_, fun i w hw hins =>
      hmono (hdrawn.pending i w (Sessions.mem_pending_commit hw) hins)⟩,
      Rows.Unique.commit (r := fun rows => rows) table_local.fixed (fun _ _ => rfl) hunique⟩
    rcases key_of_foldl ht with ⟨old, hold, hkey⟩ | ⟨w, hw, hins, hkey⟩
    · exact hmono (hkey ▸ hdrawn.stored old hold)
    · exact hmono (hkey ▸ hdrawn.pending _ w hw hins)
  | undoes failed _ =>
    exact ⟨⟨fun t ht => hmono (hdrawn.stored t ht), fun i w hw hins =>
      hmono (hdrawn.pending i w (Sessions.mem_pending_rollback hw) hins)⟩,
      Rows.Unique.rollback (r := fun rows => rows) hunique⟩

omit [DecidableEq ι] in
theorem single_start : Single [] (start ι) where
  known := ⟨fun _ h => absurd h List.not_mem_nil, fun _ _ h => absurd h List.not_mem_nil⟩
  unique := ⟨fun _ => List.nodup_nil, fun _ _ _ _ h => absurd h List.not_mem_nil⟩

/-- Over a run that draws no id twice. -/
theorem Single.run {past : List Key} (h : Single past db) {events : List (ι × Op)}
    (hnodup : (past ++ events.filterMap (drawn user)).Nodup) :
    Single (past ++ events.filterMap (drawn user)) (after (Db.step user) db events) := by
  induction events generalizing past db with
  | nil =>
    rw [List.filterMap_nil, List.append_nil]
    exact h
  | cons event events ih =>
    have hcons : (event :: events).filterMap (drawn user) =
        (drawn user event).toList ++ events.filterMap (drawn user) := by
      cases hevent : drawn user event with
      | none => rw [List.filterMap_cons_none hevent, Option.toList_none, List.nil_append]
      | some key =>
        rw [List.filterMap_cons_some hevent, Option.toList_some, List.singleton_append]
    rw [hcons, ← List.append_assoc] at hnodup ⊢
    refine ih ((step_moves user db event).single h fun key hkey hpast => ?_) hnodup
    rw [hkey, List.append_assoc, List.nodup_append'] at hnodup
    exact hnodup.2.2 hpast (by simp)

/-! ## Under the lock, and behind the commit -/

/-- Of every thread with a key. -/
def Holds (key : Key) (P : Thread → Prop) (rows : List Thread) : Prop :=
  ∀ thread ∈ rows, thread.key = key → P thread

/-- What no statement takes from a thread. -/
def Stable (P : Thread → Prop) : Prop :=
  ∀ change : Change, ∀ thread thread' : Thread, change.apply thread = some thread' →
    P thread → P thread'

/-- A pin never moves. -/
theorem stable_pinned (model : String) : Stable fun thread => thread.pinnedModel = some model := by
  intro change thread thread' h hpinned
  cases change with
  | insert title preferredSlot clock =>
    cases h
    exact hpinned
  | delete => cases h
  | append rows =>
    cases h
    exact hpinned
  | update values clock =>
    obtain rfl := Option.some.inj h
    split
    · rename_i hfits
      cases values with
      | touch preferredSlot => exact hpinned
      | rename title => exact hpinned
      | pin other =>
        -- The statement fits a thread that is pinned already only if it is pinned to the same.
        rw [Values.fits, hpinned] at hfits
        have hsame : model = other := by simpa using hfits
        exact congrArg some hsame.symm
    · exact hpinned

/-- Nothing is added under the key. -/
def Quiet (key : Key) (ws : List Write) : Prop :=
  ∀ w ∈ ws, w.key = key → w.change.isInsert = false

theorem Holds.apply (hstable : Stable P) {rows : List Thread} (h : Holds key P rows) {w : Write}
    (hquiet : w.key = key → w.change.isInsert = false) : Holds key P (table.apply rows w) := by
  intro thread hthread hkey
  rcases Rows.mem_apply.mp hthread with ⟨old, hold, hupdate⟩ | hinsert
  · have hsame := table_local.fixed w old thread hupdate
    have hbefore := h old hold (hsame.symm.trans hkey)
    change (if old.key = w.key then w.change.apply old else some old) = some thread at hupdate
    split at hupdate
    · exact hstable w.change old thread hupdate hbefore
    · cases hupdate
      exact hbefore
  · obtain ⟨hnew, hwkey⟩ := insert_eq_some hinsert
    rw [hquiet (hwkey.symm.trans hkey)] at hnew
    cases hnew

theorem Holds.foldl (hstable : Stable P) {rows : List Thread} (h : Holds key P rows)
    {ws : List Write} (hquiet : Quiet key ws) : Holds key P (ws.foldl table.apply rows) := by
  induction ws generalizing rows with
  | nil => exact h
  | cons w ws ih =>
    refine ih (h.apply hstable (hquiet w List.mem_cons_self)) fun other hother => ?_
    exact hquiet other (List.mem_cons_of_mem _ hother)

/-- Only the rows with the key matter. -/
theorem Holds.congr {rows rows' : List Thread}
    (h : rows.filter (·.key = key) = rows'.filter (·.key = key)) :
    Holds key P rows ↔ Holds key P rows' := by
  have hmem : ∀ thread, thread.key = key → (thread ∈ rows ↔ thread ∈ rows') := by
    intro thread hkey
    have := congrArg (thread ∈ ·) h
    simpa [hkey] using this
  exact forall_congr' fun thread => ⟨fun h ht hkey => h ((hmem thread hkey).mpr ht) hkey,
    fun h ht hkey => h ((hmem thread hkey).mp ht) hkey⟩

/-- Stored for good. -/
structure Lasts (key : Key) (P : Thread → Prop) (db : Db ι) : Prop where
  holds : Holds key P db.tables
  quiet : ∀ i, Quiet key (db.pending i)

omit [DecidableEq ι] in
theorem Lasts.seen (hstable : Stable P) (h : Lasts key P db) (i : ι) : Holds key P (db.seen i) :=
  h.holds.foldl hstable (h.quiet i)

theorem Moves.lasts (hstable : Stable P) (h : Moves user db event db') (hlasts : Lasts key P db)
    (hnew : drawn user event ≠ some key) : Lasts key P db' := by
  cases h with
  | stays => exact hlasts
  | writes id change _ hdraws =>
    refine ⟨hlasts.holds, fun i w hw hkey => ?_⟩
    rcases Sessions.mem_pending_push hw with hold | ⟨-, rfl⟩
    · exact hlasts.quiet i w hold hkey
    · rw [← Bool.not_eq_true]
      intro hins
      refine hnew ?_
      rw [drawn, hdraws hins, ← hkey]
      rfl
  | commits _ =>
    exact ⟨hlasts.holds.foldl hstable (hlasts.quiet event.1),
      fun i w hw => hlasts.quiet i w (Sessions.mem_pending_commit hw)⟩
  | undoes failed _ =>
    exact ⟨hlasts.holds, fun i w hw => hlasts.quiet i w (Sessions.mem_pending_rollback hw)⟩

/-- So in the eyes of the session that has the lock. -/
structure Underway (key : Key) (P : Thread → Prop) (i : ι) (db : Db ι) : Prop where
  locked : db.holder key = some i
  holds : Holds key P (db.seen i)

/-- The commit of that session makes it last. -/
theorem Underway.commit (h : Underway key P i db) (hkept : Kept user db) :
    Lasts key P (db.carry user i .commit) where
  holds := h.holds
  quiet := by
    intro j w hw hkey
    have hpending : w ∈ db.pending j := Sessions.mem_pending_commit hw
    have hholder := hkept.locked j w hpending
    rw [hkey, h.locked] at hholder
    obtain rfl := Option.some.inj hholder
    have hnone : (db.commit table.apply i).pending i = [] := Sessions.commit_pending_self ..
    exact absurd (hnone ▸ hw) List.not_mem_nil

/-- Up to then, only a flush of its own that fails can undo it. -/
theorem Moves.underway (hstable : Stable P) (h : Moves user db event db') (hkept : Kept user db)
    (hunder : Underway key P i db) (hnew : drawn user event ≠ some key)
    (hends : event.1 = i → event.2 ≠ .commit ∧ event.2 ≠ .rollback) :
    db'.failed i = true ∨ Underway key P i db' := by
  by_cases hi : i = event.1
  · subst hi
    obtain ⟨hcommit, hrollback⟩ := hends rfl
    cases h with
    | stays => exact .inr hunder
    | writes id change hfree hdraws =>
      refine .inr ⟨?_, ?_⟩
      · by_cases hkey : key = (id, user event.1)
        · rw [hkey]
          exact Function.update_self ..
        · exact (Function.update_of_ne hkey _ _).trans hunder.locked
      · have hpending := Sessions.push_pending_self db.toSessions (i := event.1)
          ⟨(id, user event.1), change⟩
        change Holds key P (((db.push event.1 ⟨(id, user event.1), change⟩).pending event.1).foldl
          table.apply db.tables)
        rw [hpending, List.foldl_append]
        refine hunder.holds.apply hstable fun hkey => ?_
        rw [← Bool.not_eq_true]
        intro hins
        refine hnew ?_
        rw [drawn, hdraws hins, ← hkey]
        rfl
    | commits h => exact absurd h hcommit
    | undoes failed h =>
      cases failed with
      | true => exact .inl (Function.update_self ..)
      | false => exact absurd (h rfl) hrollback
  · have hpending := h.pending_of_ne hi
    have hholder := h.holder_of_ne hi hunder.locked
    refine .inr ⟨hholder, ?_⟩
    -- The other session has written nothing about the row, which is locked.
    have htables : db'.tables.filter (·.key = key) = db.tables.filter (·.key = key) := by
      cases h with
      | stays => rfl
      | writes id change _ _ => rfl
      | undoes failed _ => rfl
      | commits _ =>
        have hnone : (db.pending event.1).filter (·.key = key) = [] := by
          refine List.filter_eq_nil_iff.mpr fun w hw => ?_
          rw [decide_eq_true_eq]
          rintro rfl
          have hother := hkept.locked event.1 w hw
          rw [hunder.locked] at hother
          exact hi (Option.some.inj hother)
        have hfilter := table_local.filter_foldl_apply (fun k => decide (k = key))
          (db.pending event.1) db.tables
        exact hfilter.trans (by
          change ((db.pending event.1).filter (·.key = key)).foldl table.apply _ = _
          rw [hnone]
          rfl)
    refine (Holds.congr ?_).mp hunder.holds
    have hbefore := table_local.filter_foldl_apply (fun k => decide (k = key)) (db.pending i)
      db.tables
    have hafter := table_local.filter_foldl_apply (fun k => decide (k = key)) (db'.pending i)
      db'.tables
    refine hbefore.trans (Eq.trans ?_ hafter.symm)
    change _ = List.foldl _ (db'.tables.filter (·.key = key)) _
    rw [htables, hpending]
    rfl

/-! ## From the answer on -/

/-- A failed flush is not forgotten before the rollback. -/
theorem Moves.failed (h : Moves user db event db') (hfailed : db.failed i = true)
    (hends : event.1 = i → event.2 ≠ .commit ∧ event.2 ≠ .rollback) : db'.failed i = true := by
  cases h with
  | stays => exact hfailed
  | writes id change _ _ => exact hfailed
  | commits _ => exact hfailed
  | undoes failed h =>
    by_cases hi : i = event.1
    · subst hi
      cases failed with
      | true => exact Function.update_self ..
      | false => exact absurd (h rfl) (hends rfl).2
    · exact (Function.update_of_ne hi _ _).trans hfailed

/-- **Once it is so in the eyes of a session that has the lock, and that session commits, it is so
for good.** -/
theorem Underway.lasts (hstable : Stable P) (h : Underway key P i db) (hkept : Kept user db)
    {middle later : List (ι × Op)}
    (hmiddle : ∀ event ∈ middle, event.1 = i → event.2 ≠ .commit ∧ event.2 ≠ .rollback)
    (hdrawn : ∀ event ∈ middle ++ (i, .commit) :: later, drawn user event ≠ some key)
    (hcommit : (Db.step user (after (Db.step user) db middle) (i, .commit)).1 = .ended) :
    Lasts key P (after (Db.step user) db (middle ++ (i, .commit) :: later)) := by
  have hunder : Kept user (after (Db.step user) db middle) ∧
      ((after (Db.step user) db middle).failed i = true ∨
        Underway key P i (after (Db.step user) db middle)) := by
    refine after_keeps_of (J := fun db => Kept user db ∧
      (db.failed i = true ∨ Underway key P i db)) (A := fun event =>
        drawn user event ≠ some key ∧ (event.1 = i → event.2 ≠ .commit ∧ event.2 ≠ .rollback))
      (fun db event hok hinv => ⟨hinv.1.step event, ?_⟩) ⟨hkept, .inr h⟩ fun event hevent =>
        ⟨hdrawn event (List.mem_append_left _ hevent), hmiddle event hevent⟩
    rcases hinv.2 with hfailed | hunder
    · exact .inl ((step_moves user db event).failed hfailed hok.2)
    · exact (step_moves user db event).underway hstable hinv.1 hunder hok.1 hok.2
  rw [after_append, after_cons]
  generalize after (Db.step user) db middle = db₁ at hunder hcommit ⊢
  obtain ⟨hkept₁, hfailed | hunder⟩ := hunder
  · -- The commit of a session whose flush has failed is refused.
    simp only [Db.step, hfailed] at hcommit
    cases hcommit
  · have hstep : (Db.step user db₁ (i, .commit)).2 = db₁.carry user i .commit := by
      by_cases hfailed : db₁.failed i = true
      · simp only [Db.step, hfailed] at hcommit
        cases hcommit
      · simp [Db.step, hfailed, respond]
    rw [hstep]
    refine after_keeps_of (J := Lasts key P) (A := fun event => drawn user event ≠ some key)
      (fun db event hok hlasts => (step_moves user db event).lasts hstable hlasts hok)
      (hunder.commit hkept₁) fun event hevent => ?_
    exact hdrawn event (List.mem_append_right _ (List.mem_cons_of_mem _ hevent))

/-- A statement that has changed a row. -/
theorem step_matched {op : Op} {id : String} {found : Bool} {change : Change}
    (hop : op ≠ .rollback)
    (hrespond : respond (db.view user i) op = (db.view user i).change id found change)
    (h : (db.step user (i, op)).1 = .matched true) :
    found = true ∧ (db.step user (i, op)).2 = db.carry user i (.write id change) := by
  have hstep : db.step user (i, op) =
      if db.failed i = true then (.pendingRollback, db)
      else (((db.view user i).change id found change).1,
        db.carry user i ((db.view user i).change id found change).2) := by
    unfold Db.step
    rw [hrespond]
    by_cases hfailed : db.failed i = true
    · simp [hfailed, hop, Db.carry]
    · simp [hfailed]
  rw [hstep] at h ⊢
  split at h
  · cases h
  · rename_i hfailed
    rw [if_neg hfailed]
    unfold View.change at h ⊢
    split at h
    · cases h
    · rename_i hfound
      split at h
      · cases h
      · rename_i hlocked
        rw [if_neg hfound, if_neg hlocked]
        exact ⟨by simpa using hfound, rfl⟩

/-- What the session sees behind its change. -/
theorem seen_carry (id : String) (change : Change) :
    (db.carry user i (.write id change)).seen i =
      table.apply (db.seen i) ⟨(id, user i), change⟩ := by
  have hpending := Sessions.push_pending_self db.toSessions (i := i) ⟨(id, user i), change⟩
  change ((db.push i ⟨(id, user i), change⟩).pending i).foldl table.apply db.tables = _
  rw [hpending, List.foldl_append]
  rfl

omit [DecidableEq ι] in
/-- A session sees every thread once. -/
theorem Single.nodup_seen {past : List Key} (h : Single past db) (i : ι) :
    ((db.seen i).map Thread.key).Nodup :=
  (Rows.Fixed.foldl_apply table_local.fixed _ _).nodup (h.unique.once i)

omit [DecidableEq ι] in
theorem Single.mem_past {past : List Key} (h : Single past db) {thread : Thread}
    (hthread : thread ∈ db.seen i) : thread.key ∈ past := by
  rcases key_of_foldl hthread with ⟨old, hold, hkey⟩ | ⟨w, hw, hins, hkey⟩
  · exact hkey ▸ h.known.stored old hold
  · exact hkey ▸ h.known.pending i w hw hins

omit [DecidableEq ι] in
/-- The rows of a view are the session's. -/
theorem mem_view {thread : Thread} (h : thread ∈ (db.view user i).rows) :
    thread ∈ db.seen i ∧ thread.userId = user i := by
  obtain ⟨hseen, huser⟩ := List.mem_filter.mp h
  exact ⟨hseen, of_decide_eq_true huser⟩

/-- A pin that was answered is there. -/
theorem underway_setPinned {past : List Key} (hsingle : Single past db) {id model : String}
    {clock : Seconds} (h : (db.step user (i, .setPinned id model clock)).1 = .matched true) :
    (id, user i) ∈ past ∧ Underway (id, user i) (fun thread => thread.pinnedModel = some model) i
      (db.step user (i, .setPinned id model clock)).2 := by
  have hrespond : respond (db.view user i) (.setPinned id model clock) =
      (db.view user i).change id _ (.update (.pin model) clock) := rfl
  obtain ⟨hfound, hstep⟩ := step_matched (by exact nofun) hrespond h
  obtain ⟨thread, hthread, hfits⟩ := List.any_eq_true.mp hfound
  obtain ⟨hid, hfits⟩ := of_decide_eq_true hfits
  obtain ⟨hseen, huser⟩ := mem_view hthread
  have hkey : thread.key = (id, user i) := Prod.ext hid huser
  refine ⟨hkey ▸ hsingle.mem_past hseen, ?_⟩
  rw [hstep]
  refine ⟨Function.update_self .., ?_⟩
  rw [seen_carry]
  intro new hnew hnewkey
  rcases Rows.mem_apply.mp hnew with ⟨old, hold, hupdate⟩ | hinsert
  · have hsame := table_local.fixed _ old new hupdate
    -- There is one thread with the key, the one that was found.
    have heq : old = thread := List.inj_on_of_nodup_map (hsingle.nodup_seen i) hold hseen
      (hsame.symm.trans (hnewkey.trans hkey.symm))
    subst heq
    change (if old.key = (id, user i) then Change.apply old (.update (.pin model) clock)
      else some old) = some new at hupdate
    rw [if_pos hkey, Change.apply, if_pos hfits] at hupdate
    cases hupdate
    rfl
  · cases hinsert

/-- A deletion that was answered has left nothing. -/
theorem underway_delete {past : List Key} (hsingle : Single past db) {id : String}
    (h : (db.step user (i, .delete id)).1 = .matched true) :
    (id, user i) ∈ past ∧
      Underway (id, user i) (fun _ => False) i (db.step user (i, .delete id)).2 := by
  have hrespond : respond (db.view user i) (.delete id) =
      (db.view user i).change id _ .delete := rfl
  obtain ⟨hfound, hstep⟩ := step_matched (by exact nofun) hrespond h
  obtain ⟨thread, hthread, hid⟩ := List.any_eq_true.mp hfound
  obtain ⟨hseen, huser⟩ := mem_view hthread
  have hkey : thread.key = (id, user i) := Prod.ext (of_decide_eq_true hid) huser
  refine ⟨hkey ▸ hsingle.mem_past hseen, ?_⟩
  rw [hstep]
  refine ⟨Function.update_self .., ?_⟩
  rw [seen_carry]
  intro new hnew hnewkey
  rcases Rows.mem_apply.mp hnew with ⟨old, hold, hupdate⟩ | hinsert
  · have hsame := table_local.fixed _ old new hupdate
    change (if old.key = (id, user i) then Change.apply old .delete else some old) = some new
      at hupdate
    rw [if_pos (hsame.symm.trans hnewkey)] at hupdate
    cases hupdate
  · cases hinsert

/-! ## The runs -/

/-- What a session has asked, been answered, and committed. -/
structure Committed (user : ι → String) (before : List (ι × Op)) (i : ι) (op : Op)
    (middle later : List (ι × Op)) : Prop where
  /-- The database draws no id twice. -/
  fresh : ((before ++ (i, op) :: (middle ++ (i, .commit) :: later)).filterMap (drawn user)).Nodup
  answered : (Db.step user (after (Db.step user) (start ι) before) (i, op)).1 = .matched true
  /-- Meanwhile the session neither commits nor gives up. -/
  held : ∀ event ∈ middle, event.1 = i → event.2 ≠ .commit ∧ event.2 ≠ .rollback
  committed : (Db.step user (after (Db.step user) (start ι) (before ++ (i, op) :: middle))
    (i, .commit)).1 = .ended

/-- Where a run with such a statement leads to. -/
def Committed.last (user : ι → String) (before : List (ι × Op)) (i : ι) (op : Op)
    (middle later : List (ι × Op)) : Db ι :=
  after (Db.step user) (start ι) (before ++ (i, op) :: (middle ++ (i, .commit) :: later))

theorem Committed.lasts {before middle later : List (ι × Op)} {op : Op}
    (h : Committed user before i op middle later) (hstable : Stable P)
    (hunder : ∀ past db, Single past db → (db.step user (i, op)).1 = .matched true →
      key ∈ past ∧ Underway key P i (db.step user (i, op)).2) :
    Lasts key P (Committed.last user before i op middle later) := by
  have hnodup := h.fresh
  rw [List.filterMap_append, List.nodup_append'] at hnodup
  obtain ⟨hbefore, -, hapart⟩ := hnodup
  have hsingle : Single ([] ++ before.filterMap (drawn user))
      (after (Db.step user) (start ι) before) := single_start.run (by simpa using hbefore)
  rw [List.nil_append] at hsingle
  obtain ⟨hpast, hunderway⟩ := hunder _ _ hsingle h.answered
  have hkept : Kept user (after (Db.step user) (start ι) before) :=
    after_keeps (fun db event hkept => hkept.step event) (kept_start user) before
  have hcommit := h.committed
  rw [after_append, after_cons] at hcommit
  rw [Committed.last, after_append, after_cons]
  refine hunderway.lasts hstable (hkept.step (i, op)) h.held (fun event hevent heq => ?_) hcommit
  -- The id of the thread was drawn before.
  refine hapart hpast (List.mem_filterMap.mpr ⟨event, List.mem_cons_of_mem _ hevent, heq⟩)

/-- **A pin stays, and so does a deletion.** Once a session was answered that it has pinned a
thread, or deleted it, and has committed, no session of any user sees the thread pinned otherwise,
or sees the deleted one again, whatever all of them do in between and from then on. -/
theorem committed_lasts (user : ι → String) (before middle later : List (ι × Op)) (i : ι)
    (id : String) :
    (∀ model clock, Committed user before i (.setPinned id model clock) middle later →
        ∀ j, ∀ thread ∈
            (Committed.last user before i (.setPinned id model clock) middle later).seen j,
          thread.key = (id, user i) → thread.pinnedModel = some model) ∧
      (Committed user before i (.delete id) middle later →
        ∀ j, ∀ thread ∈ (Committed.last user before i (.delete id) middle later).seen j,
          thread.key ≠ (id, user i)) := by
  constructor
  · intro model clock h j
    have hlasts := h.lasts (stable_pinned model) fun past db hsingle hanswer =>
      underway_setPinned hsingle hanswer
    exact hlasts.seen (stable_pinned model) j
  · intro h j
    have hstable : Stable fun _ => False := fun _ _ _ _ hfalse => hfalse
    have hlasts := h.lasts hstable fun past db hsingle hanswer => underway_delete hsingle hanswer
    exact hlasts.seen hstable j

/-- Two users with a thread each: one pins, tries to pin otherwise and at last deletes, while the
other deletes at once. -/
theorem committed_lasts_ada :
    let user : Bool → String := fun i => if i then "ada" else "bob"
    let before : List (Bool × Op) := [(true, .create "t" none "auto" 1), (true, .commit)]
    let middle : List (Bool × Op) :=
      [(false, .create "s" none "fast" 2), (false, .commit), (false, .delete "s")]
    let later : List (Bool × Op) := [(true, .setPinned "t" "groq/small" 4), (true, .commit)]
    (∀ j, ∀ thread ∈
        (Committed.last user before true (.setPinned "t" "gemini/flash" 3) middle later).seen j,
      thread.key = ("t", "ada") → thread.pinnedModel = some "gemini/flash") ∧
      ∀ j, ∀ thread ∈ (Committed.last user before true (.delete "t") middle later).seen j,
        thread.key ≠ ("t", "ada") :=
  ⟨(committed_lasts _ _ _ _ true "t").1 "gemini/flash" 3
    { fresh := by decide, answered := rfl, held := by decide, committed := rfl },
    (committed_lasts _ _ _ _ true "t").2
      { fresh := by decide, answered := rfl, held := by decide, committed := rfl }⟩

end

end Conversations

end LlmGateway
