import LlmGateway.Db.Messages

/-!
# Walking back through a conversation

A reader asks for the newest page, and from then on for the page behind the oldest
message it holds, until there is no cursor to go on from. Meanwhile the
conversation is written to: each page is read from whatever is committed by then.
Rows are only ever added, behind all that are there, so the messages before a
cursor are the ones that were there when it was handed out.
-/

namespace LlmGateway

namespace Messages

/-! ## Reading -/

/-- `list_page_for_conversation`, with its join on the owner and with what reading the rows back
may raise. -/
def readPage (owner : String) (rows : List Row) (userId : String) (beforeSeq : Option Int)
    (limit : Int) : Except AppendError MessagePage := do
  let joined := if userId = owner then rows else []
  let page := listPageForConversation joined beforeSeq limit
  let messages ← page.messages.mapM toCanonical
  return { page with messages }

/-- An operation of a session that appends. The blocks of a message have been parsed by the time it
is appended. -/
structure Write where
  op : Op
  readable : match op with
    | .append _ draft => Readable draft.content
    | .commit | .rollback => True

/-- What a run of writes leaves. -/
def Table.written (owner : String) (table : Table) (writes : List Write) : Table :=
  table.run owner (writes.map (·.op))

/-- One page that is asked for, and what is written before the next one is. -/
structure Ask where
  limit : Int
  meanwhile : List Write

/-- **The walk**: the pages in the order they are read, up to one without a cursor. There is no
answer when the asking stops earlier. -/
def walk (owner userId : String) (table : Table) (beforeSeq : Option Int) :
    List Ask → Except AppendError (Option (List MessagePage))
  | [] => return none
  | ask :: asks => do
    let page ← readPage owner table.stored userId beforeSeq ask.limit
    match page.nextBeforeSeq with
    | none => return some [page]
    | some seq =>
      let pages ← walk owner userId (table.written owner ask.meanwhile) (some seq) asks
      return pages.map (page :: ·)

/-- What has been seen, oldest page first. -/
def visited (pages : List MessagePage) : List Row := pages.reverse.flatMap (·.messages)

/-! ## What is written meanwhile -/

section

variable {owner : String} {rows : List Row} {table : Table}

/-- What is appended can be read back if what is given can. -/
theorem append_readable (owner : String) (h : Sound rows) (hrows : ∀ row ∈ rows, Readable row.content)
    (userId : String) {draft : Draft} (hdraft : Readable draft.content) :
    ∀ row ∈ (Messages.append owner rows userId draft).2, Readable row.content := by
  unfold Messages.append
  cases haccept : accept owner rows userId draft with
  | error e => exact hrows
  | ok row =>
    dsimp only
    cases violated rows row with
    | some constraint => exact hrows
    | none =>
      obtain ⟨-, hrow, -⟩ := (accept_eq_ok_iff h).mp haccept
      intro other hother
      rcases List.mem_append.mp hother with hold | hnew
      · exact hrows other hold
      · have hcontent : row.content = draft.content := by
          rw [hrow]
          rfl
        rw [List.mem_singleton.mp hnew, hcontent]
        exact hdraft

/-- What every write keeps. -/
structure Table.Kept (table : Table) : Prop where
  sound : table.Sound
  /-- A transaction adds to what is committed. -/
  grown : table.stored <+: table.pending
  readable : ∀ row ∈ table.pending, Readable row.content

theorem kept_start : Table.Kept {} where
  sound := ⟨sound_nil, sound_nil⟩
  grown := List.prefix_rfl
  readable _ hrow := absurd hrow List.not_mem_nil

theorem Table.Kept.stored_readable (h : table.Kept) : ∀ row ∈ table.stored, Readable row.content :=
  fun row hrow => h.readable row (h.grown.subset hrow)

theorem Table.Kept.restored (h : table.Kept) (failed : Bool) :
    Table.Kept { table with pending := table.stored, failed } where
  sound := ⟨h.sound.stored, h.sound.stored⟩
  grown := List.prefix_rfl
  readable := h.stored_readable

/-- **One write** keeps what is committed where it is. -/
theorem Table.Kept.step (h : table.Kept) (owner : String) (write : Write) :
    (table.step owner write.op).Kept ∧ table.stored <+: (table.step owner write.op).stored := by
  obtain ⟨op, hreadable⟩ := write
  cases op with
  | append userId draft =>
    simp only [Table.step]
    split
    · exact ⟨h, List.prefix_rfl⟩
    · split
      next => exact ⟨h.restored true, List.prefix_rfl⟩
      next heq =>
        have hsound := h.sound.pending.append owner userId draft
        have hrows := append_readable owner h.sound.pending h.readable userId hreadable
        have hgrown : table.pending <+: (Messages.append owner table.pending userId draft).2 := by
          rcases append_cases owner table.pending userId draft with hkept | ⟨row, hadded, -⟩
          · exact hkept.symm ▸ List.prefix_rfl
          · rw [hadded]
            exact List.prefix_append _ _
        rw [heq] at hsound hrows hgrown
        exact ⟨⟨⟨h.sound.stored, hsound⟩, h.grown.trans hgrown, hrows⟩, List.prefix_rfl⟩
  | commit =>
    simp only [Table.step]
    split
    · exact ⟨h, List.prefix_rfl⟩
    · exact ⟨⟨⟨h.sound.pending, h.sound.pending⟩, List.prefix_rfl, h.readable⟩, h.grown⟩
  | rollback => exact ⟨h.restored false, List.prefix_rfl⟩

theorem Table.Kept.written (h : table.Kept) (owner : String) (writes : List Write) :
    (table.written owner writes).Kept ∧ table.stored <+: (table.written owner writes).stored := by
  induction writes generalizing table with
  | nil => exact ⟨h, List.prefix_rfl⟩
  | cons write writes ih =>
    obtain ⟨hstep, hgrown⟩ := h.step owner write
    obtain ⟨hkept, hmore⟩ := ih hstep
    exact ⟨hkept, hgrown.trans hmore⟩

/-! ## One page -/

/-- **A page is without a cursor exactly when nothing is left behind it**, whatever the rows are. -/
theorem nextBeforeSeq_eq_none_iff (rows : List Row) (beforeSeq : Option Int) (limit : Int) :
    (listPageForConversation rows beforeSeq limit).nextBeforeSeq = none ↔
      (listPageForConversation rows beforeSeq limit).hasMore = false := by
  rw [listPageForConversation_eq]
  generalize List.mergeSort _ _ = newest
  have hpos := pageLength_pos limit
  unfold pageOf
  by_cases hmore : pageLength limit < (newest.take (pageLength limit + 1)).length
  · -- There is more only if the page is full, and so it has a message to go on from.
    have hlength : 0 < newest.length := by
      rw [List.length_take] at hmore
      omega
    have hnonempty : ((newest.take (pageLength limit + 1)).take (pageLength limit)).reverse ≠ [] := by
      rw [← List.length_pos_iff, List.length_reverse, List.length_take, List.length_take]
      omega
    simp only [hmore, if_true, decide_true, Bool.true_eq_false, iff_false]
    rw [Option.map_eq_none_iff, List.head?_eq_none_iff]
    exact hnonempty
  · simp only [hmore, if_false, decide_false]

/-- No message of a conversation is empty. -/
theorem Sound.content_ne_nil (h : Sound rows) : ∀ row ∈ rows, row.content ≠ [] := by
  induction rows using List.reverseRecOn with
  | nil => exact fun row hrow => absurd hrow List.not_mem_nil
  | append_singleton before last ih =>
    intro row hrow
    rcases List.mem_append.mp hrow with hbefore | hlast
    · exact ih h.initial row hbefore
    · rw [List.mem_singleton.mp hlast]
      exact Messages.content_ne_nil (h.initial.concat_iff.mp h).1

/-- What is read of rows that can all be read back. -/
theorem readPage_eq_ok (owner : String) (hrows : Sound rows) (hreadable : ∀ row ∈ rows, Readable row.content) {k : ℕ}
    {beforeSeq : Option Int}
    (hasked : rows.filter (fun row => beforeSeq.all (row.seq < ·)) = rows.take k)
    (hk : k ≤ rows.length) (limit : Int) :
    readPage owner rows owner beforeSeq limit = .ok
      { messages := (rows.take k).drop (k - pageLength limit)
        hasMore := decide (pageLength limit < k)
        nextBeforeSeq :=
          if pageLength limit < k then some ((k - pageLength limit : ℕ) : Int) else none } := by
  have hcanonical : ∀ row ∈ (rows.take k).drop (k - pageLength limit),
      toCanonical row = .ok (id row) := by
    intro row hrow
    have hmem : row ∈ rows := List.mem_of_mem_take (List.mem_of_mem_drop hrow)
    exact toCanonical_eq_ok (hrows.content_ne_nil row hmem) (hreadable row hmem)
  unfold readPage
  dsimp only
  rw [if_pos rfl, hrows.page hasked hk limit]
  dsimp only
  rw [mapM_eq_ok hcanonical, List.map_id]
  rfl

/-! ## The whole walk -/

theorem visited_cons (page : MessagePage) (pages : List MessagePage) :
    visited (page :: pages) = visited pages ++ page.messages := by
  simp [visited]

/-- The walk ends with a page that has no cursor. -/
theorem walk_cons_last {beforeSeq : Option Int} {ask : Ask} {page : MessagePage}
    (hread : readPage owner table.stored owner beforeSeq ask.limit = .ok page)
    (hcursor : page.nextBeforeSeq = none) (asks : List Ask) :
    walk owner owner table beforeSeq (ask :: asks) = .ok (some [page]) := by
  rw [walk]
  refine bind_eq_ok_iff.mpr ⟨page, hread, ?_⟩
  rw [hcursor]
  rfl

/-- The walk goes on from the cursor of a page. -/
theorem walk_cons_more {beforeSeq : Option Int} {ask : Ask} {page : MessagePage} {seq : Int}
    (hread : readPage owner table.stored owner beforeSeq ask.limit = .ok page)
    (hcursor : page.nextBeforeSeq = some seq) {asks : List Ask} {pages : List MessagePage}
    (hwalk : walk owner owner (table.written owner ask.meanwhile) (some seq) asks =
      .ok (some pages)) :
    walk owner owner table beforeSeq (ask :: asks) = .ok (some (page :: pages)) := by
  rw [walk]
  refine bind_eq_ok_iff.mpr ⟨page, hread, ?_⟩
  rw [hcursor]
  exact bind_eq_ok_iff.mpr ⟨some pages, hwalk, rfl⟩

/-- **A walk from a cursor** sees the messages before it, one page after the other, with one page
for every message at most. -/
theorem Table.Kept.walk_eq_ok (h : table.Kept) (owner : String) {k : ℕ} {beforeSeq : Option Int}
    (hasked : table.stored.filter (fun row => beforeSeq.all (row.seq < ·)) = table.stored.take k)
    (hk : k ≤ table.stored.length) (asks : List Ask) (hone : 1 ≤ asks.length)
    (hasks : k ≤ asks.length) :
    ∃ pages, walk owner owner table beforeSeq asks = .ok (some pages) ∧
      visited pages = table.stored.take k := by
  -- The table grows from ask to ask, but only behind the messages that are still to be seen.
  induction asks generalizing table beforeSeq k with
  | nil => exact absurd hone (by simp)
  | cons ask asks ih =>
    have hpos := pageLength_pos ask.limit
    have hread := readPage_eq_ok owner h.sound.stored h.stored_readable hasked hk ask.limit
    by_cases hmore : pageLength ask.limit < k
    · obtain ⟨hkept, hgrown⟩ := h.written owner ask.meanwhile
      obtain ⟨added, hadded⟩ := hgrown
      have hlength : table.stored.length ≤ (table.written owner ask.meanwhile).stored.length := by
        rw [← hadded, List.length_append]
        omega
      rw [List.length_cons] at hasks
      obtain ⟨pages, hwalk, hseen⟩ := ih hkept
        (hkept.sound.stored.filter_before (k - pageLength ask.limit)) (by omega) (by omega) (by omega)
      have hsame : (table.written owner ask.meanwhile).stored.take (k - pageLength ask.limit) =
          (table.stored.take k).take (k - pageLength ask.limit) := by
        rw [← hadded, List.take_append_of_le_length (by omega), List.take_take,
          Nat.min_eq_left (Nat.sub_le _ _)]
      refine ⟨_, walk_cons_more hread (if_pos hmore) hwalk, ?_⟩
      rw [visited_cons, hseen, hsame, List.take_append_drop]
    · refine ⟨_, walk_cons_last hread (if_neg hmore) asks, ?_⟩
      have hall : k - pageLength ask.limit = 0 := by omega
      simp [visited, hall]

end

/-- **Paging covers a conversation once.** Whatever has been written before, however long the pages
are that are asked for and whatever is written between two of them: the walk from the newest page
comes to an end, after one page for each message at most, and has by then seen each message that
was there when it set out, once and in order. A page is without a cursor exactly when there is
nothing more. -/
theorem list_page_walk (owner : String) (before : List Write) (asks : ℕ → Ask) :
    let table := Table.written owner {} before
    (∃ pages,
      walk owner owner table none ((List.range (max 1 table.stored.length)).map asks) =
        .ok (some pages) ∧
      (visited pages).Perm table.stored ∧
      (visited pages).Pairwise fun row later => row.seq < later.seq) ∧
    ∀ (rows : List Row) (userId : String) (beforeSeq : Option Int) (limit : Int),
      match readPage owner rows userId beforeSeq limit with
      | .ok page => page.nextBeforeSeq = none ↔ page.hasMore = false
      | .error _ => True := by
  intro table
  constructor
  · have hkept : table.Kept := (kept_start.written owner before).1
    have hasked : table.stored.filter (fun row => (none : Option Int).all (row.seq < ·)) =
        table.stored.take table.stored.length := by
      simp
    obtain ⟨pages, hwalk, hseen⟩ := hkept.walk_eq_ok owner hasked le_rfl
      ((List.range (max 1 table.stored.length)).map asks) (by simp) (by simp)
    rw [List.take_length] at hseen
    refine ⟨pages, hwalk, ?_, ?_⟩
    · rw [hseen]
    · rw [hseen]
      exact hkept.sound.stored.ordered
  · intro rows userId beforeSeq limit
    cases hread : readPage owner rows userId beforeSeq limit with
    | error e => trivial
    | ok page =>
      obtain ⟨messages, -, hpage⟩ := bind_eq_ok_iff.mp hread
      rw [← Except.ok.inj hpage]
      exact nextBeforeSeq_eq_none_iff _ beforeSeq limit

end Messages

end LlmGateway
