import LlmGateway.Effects.Checked
import LlmGateway.Memory.Canonical
import Mathlib.Data.List.Induction
import Mathlib.Data.List.Sort

/-!
# The rows of a conversation

`append` and the reads beside it, over the rows one conversation has in
`messages`. Whoever appends holds the lock on the conversation up to the end of
the transaction, so the transactions that append come one after the other. What
they store is what `validate` accepts, and nothing that it accepts is out of
their reach.
-/

namespace LlmGateway

namespace Messages

/-- One row of a conversation. -/
structure Row extends CanonicalMessage where
  id : String
  deriving DecidableEq, Repr

/-- What `append` is asked to store. The id is the caller's, or the database's own. -/
structure Draft where
  role : Role
  content : List ContentBlock
  «meta» : MessageMeta := {}
  id : String
  deriving DecidableEq, Repr

/-- The constraints of the table. -/
inductive Constraint where
  | primaryKey
  | uniqueSeq
  | seqNonNegative
  | contentNonEmptyArray
  | systemMessageIsFirst
  | oneSystemPerConversation
  deriving DecidableEq, Repr

inductive AppendError where
  /-- `conversation_not_found`. -/
  | notFound
  | violation (violation : InvariantViolation)
  /-- The row cannot be read back. -/
  | unreadable (message : String)
  | constraint (constraint : Constraint)
  /-- An earlier flush failed, and the transaction has not been rolled back. -/
  | pendingRollback
  deriving DecidableEq, Repr

/-! ## Reading -/

/-- `parse_block`, of a block that has the shape of one. -/
def parseBlock : ContentBlock → Except AppendError ContentBlock
  | .omissionMarker omittedCount reason =>
    if omittedCount < 1 then throw (.unreadable "omission_marker.omitted_count must be at least 1")
    else return .omissionMarker omittedCount reason
  | block => return block

/-- `parse_content`. -/
def parseContent (content : List ContentBlock) : Except AppendError (List ContentBlock) := do
  if content.isEmpty then throw (.violation .emptyContent)
  content.mapM parseBlock

/-- `to_canonical`: the row, once its content has been parsed. -/
def toCanonical (row : Row) : Except AppendError Row := do
  let content ← parseContent row.content
  return { row with content }

/-- `get_last`: the row with the greatest number. -/
def getLast (rows : List Row) : Option Row := rows.maxOn? (·.seq)

/-- `list_for_conversation`, oldest first. -/
def listForConversation (rows : List Row) : List Row :=
  rows.mergeSort fun row later => row.seq ≤ later.seq

/-- `MAX_PAGE_SIZE`. -/
def maxPageSize : Int := 200

/-- One page of history, oldest first within the page. -/
structure MessagePage where
  messages : List Row
  hasMore : Bool
  nextBeforeSeq : Option Int
  deriving DecidableEq, Repr

/-- `list_page_for_conversation`. -/
def listPageForConversation (rows : List Row) (beforeSeq : Option Int) (limit : Int) :
    MessagePage :=
  let clamped := (max 1 (min limit maxPageSize)).toNat
  let asked := rows.filter fun row => beforeSeq.all (row.seq < ·)
  let newestFirst := asked.mergeSort fun row earlier => earlier.seq ≤ row.seq
  let fetched := newestFirst.take (clamped + 1)
  let hasMore := clamped < fetched.length
  let messages := (fetched.take clamped).reverse
  { messages, hasMore
    nextBeforeSeq := if hasMore then messages.head?.map (·.seq) else none }

/-! ## Appending -/

/-- The constraint an insert runs into, if there is one. -/
def violated (rows : List Row) (row : Row) : Option Constraint :=
  if rows.any (·.id = row.id) then some .primaryKey
  else if rows.any (·.seq = row.seq) then some .uniqueSeq
  else if row.seq < 0 then some .seqNonNegative
  else if row.content.isEmpty then some .contentNonEmptyArray
  else if row.role = .system ∧ row.seq ≠ 0 then some .systemMessageIsFirst
  else if row.role = .system ∧ rows.any (·.role = .system) then some .oneSystemPerConversation
  else none

/-- The number of the message that comes behind `previous`. -/
def nextSeq : Option CanonicalMessage → Int
  | none => 0
  | some tail => tail.seq + 1

/-- The row `append` comes to insert, behind its lock. -/
def accept (owner : String) (rows : List Row) (userId : String) (draft : Draft) :
    Except AppendError Row := do
  if userId ≠ owner then throw .notFound
  let previous := (getLast rows).map (·.toCanonicalMessage)
  let seq := nextSeq previous
  (validateMessage draft.role draft.content draft.meta seq).mapError .violation
  (validateAppend previous draft.role seq).mapError .violation
  return { draft with seq }

/-- **`append`**: what it returns, and the rows it leaves to its transaction. -/
def append (owner : String) (rows : List Row) (userId : String) (draft : Draft) :
    Except AppendError Row × List Row :=
  match accept owner rows userId draft with
  | .error e => (.error e, rows)
  | .ok row =>
    match violated rows row with
    | some constraint => (.error (.constraint constraint), rows)
    | none => (toCanonical row, rows ++ [row])

/-! ## Transactions -/

/-- The rows that are committed, and the rows as the transaction that holds the lock sees them. -/
structure Table where
  stored : List Row := []
  pending : List Row := []
  /-- A flush of the transaction has failed. -/
  failed : Bool := false
  deriving DecidableEq, Repr

/-- What a session asks of the conversation. -/
inductive Op where
  | append (userId : String) (draft : Draft)
  | commit
  | rollback
  deriving DecidableEq, Repr

/-- What an operation leaves. A constraint that is violated undoes the transaction it is in. -/
def Table.step (owner : String) (table : Table) : Op → Table
  | .append userId draft =>
    if table.failed then table
    else match Messages.append owner table.pending userId draft with
      | (.error (.constraint _), _) => { table with pending := table.stored, failed := true }
      | (_, rows) => { table with pending := rows }
  | .commit => if table.failed then table else { table with stored := table.pending }
  | .rollback => { table with pending := table.stored, failed := false }

/-- What a run of operations leaves. -/
def Table.run (owner : String) (table : Table) (ops : List Op) : Table :=
  ops.foldl (Table.step owner) table

/-- Appends one behind the other, each of which has to succeed. -/
def appendAll (owner : String) (rows : List Row) : List Draft → Except AppendError (List Row)
  | [] => return rows
  | draft :: drafts =>
    match Messages.append owner rows owner draft with
    | (.error e, _) => throw e
    | (.ok _, rows) => appendAll owner rows drafts

/-! ## What `validate` accepts -/

section

variable {seen : List Int} {previous : Option CanonicalMessage} {message : CanonicalMessage}

/-- A message that is valid on its own says something. -/
theorem content_ne_nil {role : Role} {content : List ContentBlock} {«meta» : MessageMeta} {seq : Int}
    (h : validateMessage role content «meta» seq = .ok ()) : content ≠ [] := by
  unfold validateMessage at h
  dsimp only at h
  have hcheck := ((check_eq_ok_iff rfl).mp h).1
  intro hempty
  exact hcheck (by rw [hempty]; rfl)

/-- What may come behind a message. -/
theorem validateAppend_ok_iff {role : Role} {seq : Int} :
    validateAppend previous role seq = .ok () ↔ match previous with
      | none => seq = 0
      | some tail => seq = tail.seq + 1 ∧ role ≠ .system ∧
          ¬ (role = .assistant ∧ tail.role = .assistant) := by
  cases previous with
  | none => exact last_check_eq_ok_iff.trans not_not
  | some tail =>
    refine (check_eq_ok_iff rfl).trans (and_congr not_not ?_)
    exact (check_eq_ok_iff rfl).trans (and_congr Iff.rfl last_check_eq_ok_iff)

/-- The loop of `validate` asks for a new number; that they come in order is `validate_append`'s
to say. -/
theorem validateNext_ok_iff : validateNext seen previous message = .ok () ↔
    message.seq ∉ seen ∧
      validateMessage message.role message.content message.meta message.seq = .ok () ∧
      validateAppend previous message.role message.seq = .ok () := by
  have hrest : (do
        validateMessage message.role message.content message.meta message.seq
        validateAppend previous message.role message.seq) = Except.ok () ↔
      validateMessage message.role message.content message.meta message.seq = .ok () ∧
        validateAppend previous message.role message.seq = .ok () := by
    rw [bind_eq_ok_iff]
    exact ⟨fun ⟨_, h⟩ => h, fun h => ⟨(), h⟩⟩
  refine (check_eq_ok_iff rfl).trans (and_congr Iff.rfl ?_)
  cases previous with
  | none =>
    refine (check_eq_ok_iff rfl).trans ((and_congr not_not hrest).trans ?_)
    refine ⟨fun h => h.2, fun h => ⟨?_, h⟩⟩
    have happend := validateAppend_ok_iff.mp h.2
    exact happend
  | some tail =>
    refine (check_eq_ok_iff rfl).trans ((and_congr Iff.rfl hrest).trans ?_)
    refine ⟨fun h => h.2, fun h => ⟨?_, h⟩⟩
    have happend := (validateAppend_ok_iff.mp h.2).1
    omega

/-- The loop over two stretches of a history. -/
theorem validateFrom_append_iff (before after : List CanonicalMessage) :
    validateFrom seen previous (before ++ after) = .ok () ↔
      validateFrom seen previous before = .ok () ∧
        validateFrom ((before.map (·.seq)).reverse ++ seen) (before.getLast?.or previous) after
          = .ok () := by
  induction before generalizing seen previous with
  | nil => exact ⟨fun h => ⟨rfl, h⟩, fun h => h.2⟩
  | cons message before ih =>
    have hlast : (message :: before).getLast?.or previous = before.getLast?.or (some message) := by
      cases before with
      | nil => rfl
      | cons next before => simp [List.getLast?_cons]
    simp only [List.cons_append, validateFrom, bind_eq_ok_iff, ih, hlast, List.map_cons,
      List.reverse_cons, List.append_assoc]
    constructor
    · rintro ⟨_, hnext, hbefore, hafter⟩
      exact ⟨⟨(), hnext, hbefore⟩, hafter⟩
    · rintro ⟨⟨_, hnext, hbefore⟩, hafter⟩
      exact ⟨(), hnext, hbefore, hafter⟩

/-- **The numbers of a history that is accepted** run on without a gap. -/
theorem seqs_of_validateFrom {messages : List CanonicalMessage}
    (h : validateFrom seen previous messages = .ok ()) :
    messages.map (·.seq) =
      (List.range messages.length).map fun i : ℕ => nextSeq previous + (i : Int) := by
  induction messages generalizing seen previous with
  | nil => rfl
  | cons message messages ih =>
    obtain ⟨_, hnext, hrest⟩ := bind_eq_ok_iff.mp h
    have happend := validateAppend_ok_iff.mp (validateNext_ok_iff.mp hnext).2.2
    have hseq : message.seq = nextSeq previous := by
      cases previous with
      | none => exact happend
      | some tail => exact happend.1
    rw [List.map_cons, ih hrest, List.length_cons, List.range_succ_eq_map, List.map_cons,
      List.map_map]
    refine congrArg₂ _ (by simpa using hseq) (List.map_congr_left fun i _ => ?_)
    have hstep : nextSeq (some message) = message.seq + 1 := rfl
    simp only [Function.comp_apply, hstep, hseq]
    push_cast
    omega

end

/-! ## Sound rows -/

/-- **Sound rows**: in the order they were stored, a history that `validate` accepts. -/
def Sound (rows : List Row) : Prop := validate (rows.map (·.toCanonicalMessage)) = .ok ()

section

variable {rows : List Row} {row : Row}

theorem sound_nil : Sound [] := rfl

/-- The rows are numbered by their places. -/
theorem Sound.seqs (h : Sound rows) :
    rows.map (·.seq) = (List.range rows.length).map fun i : ℕ => (i : Int) := by
  have hseqs := seqs_of_validateFrom h
  simpa [nextSeq, Function.comp_def] using hseqs

theorem Sound.ordered (h : Sound rows) : rows.Pairwise fun row later => row.seq < later.seq := by
  have hpairwise : (rows.map (·.seq)).Pairwise (· < ·) := by
    rw [h.seqs, List.pairwise_map]
    exact List.pairwise_lt_range.imp fun hlt => by exact_mod_cast hlt
  exact List.pairwise_map.mp hpairwise

/-- The history of a conversation is its rows as they were stored. -/
theorem Sound.listForConversation (h : Sound rows) : listForConversation rows = rows := by
  refine List.mergeSort_of_pairwise (h.ordered.imp fun hlt => ?_)
  simpa using hlt.le

/-- The greatest number is the last row's. -/
theorem Sound.getLast (h : Sound rows) : getLast rows = rows.getLast? := by
  rcases List.eq_nil_or_concat rows with rfl | ⟨before, last, rfl⟩
  · rfl
  · have hordered := h.ordered
    rw [List.concat_eq_append, List.pairwise_append] at hordered
    rw [List.concat_eq_append, List.getLast?_concat, Messages.getLast, List.maxOn?_append,
      List.maxOn?_singleton]
    cases hmax : before.maxOn? (·.seq) with
    | none => rfl
    | some greatest =>
      have hbelow := hordered.2.2 greatest (List.maxOn?_mem hmax) last (List.mem_singleton_self _)
      exact congrArg some (maxOn_eq_right (not_le.mpr hbelow))

theorem Sound.nextSeq (h : Sound rows) :
    nextSeq (rows.getLast?.map (·.toCanonicalMessage)) = rows.length := by
  rcases List.eq_nil_or_concat rows with rfl | ⟨before, last, rfl⟩
  · rfl
  · have hseqs := h.seqs
    rw [List.concat_eq_append, List.map_append, List.length_append, List.length_singleton,
      List.range_succ, List.map_append] at hseqs
    have hlast := (List.append_inj' hseqs rfl).2
    have hseq : last.seq = before.length := (List.cons_eq_cons.mp hlast).1
    rw [List.concat_eq_append, List.getLast?_concat]
    change last.seq + 1 = _
    rw [hseq, List.length_append, List.length_singleton]
    push_cast
    rfl

/-- **What a sound history may go on with.** -/
theorem Sound.concat_iff (h : Sound rows) : Sound (rows ++ [row]) ↔
    validateMessage row.role row.content row.meta row.seq = .ok () ∧
      validateAppend (rows.getLast?.map (·.toCanonicalMessage)) row.role row.seq = .ok () := by
  have hlast : ((rows.map (·.toCanonicalMessage)).getLast?.or none) =
      rows.getLast?.map (·.toCanonicalMessage) := by
    rw [Option.or_none, List.getLast?_map]
  have hsplit := @validateFrom_append_iff [] none (rows.map (·.toCanonicalMessage))
    [row.toCanonicalMessage]
  unfold Sound validate
  rw [List.map_append, List.map_cons, List.map_nil, hsplit, hlast]
  have hone : ∀ seen previous, validateFrom seen previous [row.toCanonicalMessage] = .ok () ↔
      validateNext seen previous row.toCanonicalMessage = .ok () := by
    intro seen previous
    rw [validateFrom, bind_eq_ok_iff]
    exact ⟨fun ⟨_, hnext, _⟩ => hnext, fun hnext => ⟨(), hnext, rfl⟩⟩
  rw [hone, validateNext_ok_iff]
  refine ⟨fun hall => hall.2.2, fun hchecks => ⟨h, ?_, hchecks⟩⟩
  -- The number it is given is above all that are there.
  have hseq : row.seq = rows.length := by
    rw [← h.nextSeq]
    have happend := validateAppend_ok_iff.mp hchecks.2
    cases htail : rows.getLast?.map (·.toCanonicalMessage) with
    | none =>
      rw [htail] at happend
      exact happend
    | some tail =>
      rw [htail] at happend
      exact happend.1
  intro hmem
  rw [List.append_nil, List.mem_reverse, List.map_map] at hmem
  change row.seq ∈ rows.map (·.seq) at hmem
  rw [h.seqs] at hmem
  obtain ⟨i, hi, heq⟩ := List.mem_map.mp hmem
  have hlt := List.mem_range.mp hi
  omega

/-- A sound history was sound before. -/
theorem Sound.initial {after : List Row} (h : Sound (rows ++ after)) : Sound rows := by
  unfold Sound validate at h ⊢
  rw [List.map_append, validateFrom_append_iff] at h
  exact h.1

theorem Sound.seq_of_concat (h : Sound (rows ++ [row])) : row.seq = rows.length := by
  have hseqs := h.seqs
  rw [List.map_append, List.length_append, List.length_singleton, List.range_succ,
    List.map_append] at hseqs
  exact (List.cons_eq_cons.mp (List.append_inj' hseqs (by simp)).2).1

/-! ## What `append` stores -/

/-- The row of a draft. -/
def Draft.numbered (draft : Draft) (seq : Int) : Row := { draft with seq }

/-- **Who is admitted**: the owner, with whatever the history may go on with. -/
theorem accept_eq_ok_iff (h : Sound rows) {owner userId : String} {draft : Draft} :
    accept owner rows userId draft = .ok row ↔
      userId = owner ∧ row = draft.numbered rows.length ∧ Sound (rows ++ [row]) := by
  have hmap : ∀ x : Except InvariantViolation Unit,
      x.mapError AppendError.violation = .ok () ↔ x = .ok () := by
    intro x
    cases x with
    | error e => exact ⟨fun hx => (nomatch hx), fun hx => (nomatch hx)⟩
    | ok a => exact ⟨fun _ => rfl, fun _ => rfl⟩
  unfold accept
  refine (check_eq_ok_iff rfl).trans (and_congr not_not ?_)
  dsimp only
  rw [h.getLast, h.nextSeq]
  constructor
  · intro haccept
    obtain ⟨_, hmessage, haccept⟩ := bind_eq_ok_iff.mp haccept
    obtain ⟨_, happend, haccept⟩ := bind_eq_ok_iff.mp haccept
    obtain rfl := Except.ok.inj haccept
    exact ⟨rfl, h.concat_iff.mpr ⟨(hmap _).mp hmessage, (hmap _).mp happend⟩⟩
  · rintro ⟨rfl, hsound⟩
    obtain ⟨hmessage, happend⟩ := h.concat_iff.mp hsound
    refine bind_eq_ok_iff.mpr ⟨(), (hmap _).mpr hmessage, ?_⟩
    exact bind_eq_ok_iff.mpr ⟨(), (hmap _).mpr happend, rfl⟩

/-- Of the table's constraints only the primary key is left for what has been validated. -/
theorem violated_eq_none (h : Sound (rows ++ [row])) (hid : row.id ∉ rows.map (·.id)) :
    violated rows row = none := by
  have hseq := h.seq_of_concat
  obtain ⟨hmessage, happend⟩ := h.initial.concat_iff.mp h
  have hfresh : rows.any (·.seq = row.seq) = false := by
    rw [List.any_eq_false]
    intro other hother
    have hmem : other.seq ∈ rows.map (·.seq) := List.mem_map_of_mem hother
    rw [h.initial.seqs] at hmem
    obtain ⟨i, hi, heq⟩ := List.mem_map.mp hmem
    have hlt := List.mem_range.mp hi
    simp only [decide_eq_true_eq]
    omega
  have hcontent : row.content.isEmpty = false := by
    exact List.isEmpty_eq_false_iff.mpr (content_ne_nil hmessage)
  have hsystem : row.role = .system → rows = [] := by
    intro hrole
    cases hlast : rows.getLast? with
    | none => exact List.getLast?_eq_none_iff.mp hlast
    | some tail =>
      rw [hlast] at happend
      exact absurd hrole (validateAppend_ok_iff.mp happend).2.1
  have hnew : rows.any (·.id = row.id) = false := by
    rw [List.any_eq_false]
    intro other hother
    simp only [decide_eq_true_eq]
    exact fun heq => hid (heq ▸ List.mem_map_of_mem hother)
  unfold violated
  rw [hnew, hfresh, hcontent]
  by_cases hrole : row.role = .system
  · obtain rfl := hsystem hrole
    simp at hseq
    simp [hseq]
  · have hnonneg : ¬ row.seq < 0 := by omega
    simp [hrole, hnonneg]

/-- Whatever is appended, the rows stay sound. -/
theorem Sound.append (h : Sound rows) (owner userId : String) (draft : Draft) :
    Sound (Messages.append owner rows userId draft).2 := by
  unfold Messages.append
  cases haccept : accept owner rows userId draft with
  | error e => exact h
  | ok row =>
    dsimp only
    cases violated rows row with
    | some constraint => exact h
    | none => exact ((accept_eq_ok_iff h).mp haccept).2.2

/-- A row is added, under an id of its own, or none is. -/
theorem append_cases (owner : String) (rows : List Row) (userId : String) (draft : Draft) :
    (Messages.append owner rows userId draft).2 = rows ∨
      ∃ row, (Messages.append owner rows userId draft).2 = rows ++ [row] ∧
        row.id ∉ rows.map (·.id) := by
  unfold Messages.append
  cases accept owner rows userId draft with
  | error e => exact .inl rfl
  | ok row =>
    dsimp only
    cases hviolated : violated rows row with
    | some constraint => exact .inl rfl
    | none =>
      refine .inr ⟨row, rfl, fun hmem => ?_⟩
      have hany : rows.any (·.id = row.id) = true := by simpa using hmem
      rw [violated, if_pos hany] at hviolated
      cases hviolated

/-! ## Pages -/

/-- How many messages fit on a page. -/
def pageLength (limit : Int) : ℕ := (max 1 (min limit maxPageSize)).toNat

theorem pageLength_pos (limit : Int) : 0 < pageLength limit := by
  unfold pageLength
  omega

/-- The messages before one are those that were stored before it. -/
theorem Sound.filter_before (h : Sound rows) (k : ℕ) :
    rows.filter (fun row => (some (k : Int)).all (row.seq < ·)) = rows.take k := by
  induction rows using List.reverseRecOn with
  | nil => simp
  | append_singleton before last ih =>
    have hseq := h.seq_of_concat
    have hlast : (some (k : Int)).all (last.seq < ·) = decide (before.length < k) := by
      simp [hseq]
    rw [List.filter_append, ih h.initial, List.filter_singleton, hlast]
    by_cases hk : before.length < k
    · rw [decide_eq_true hk, List.take_of_length_le hk.le,
        List.take_of_length_le (by rw [List.length_append]; exact hk)]
      rfl
    · rw [decide_eq_false hk, List.take_append_of_le_length (not_lt.mp hk)]
      exact List.append_nil _

/-- A message is numbered by its place. -/
theorem Sound.seq_getElem (h : Sound rows) {i : ℕ} (hi : i < rows.length) :
    rows[i]?.map (·.seq) = some (i : Int) := by
  rw [← List.getElem?_map, h.seqs, List.getElem?_map, List.getElem?_range hi]
  rfl

/-- Newest first, sound rows are the other way round. -/
theorem Sound.newestFirst (h : Sound rows) :
    rows.mergeSort (fun row earlier => decide (earlier.seq ≤ row.seq)) = rows.reverse := by
  have hinj : ∀ row ∈ rows, ∀ other ∈ rows, row.seq = other.seq → row = other := by
    have hnodup : (rows.map (·.seq)).Nodup :=
      List.pairwise_map.mpr (h.ordered.imp fun hlt => hlt.ne)
    exact fun row hrow other hother => List.inj_on_of_nodup_map hnodup hrow hother
  have hsorted : (rows.mergeSort fun row earlier => decide (earlier.seq ≤ row.seq)).Pairwise
      fun row earlier => decide (earlier.seq ≤ row.seq) = true := by
    refine List.pairwise_mergeSort ?_ ?_ rows
    · intro row earlier earliest hle hle'
      simp only [decide_eq_true_eq] at hle hle' ⊢
      omega
    · intro row earlier
      simp only [Bool.or_eq_true, decide_eq_true_eq]
      omega
  have hreverse : rows.reverse.Pairwise fun row earlier => decide (earlier.seq ≤ row.seq) = true :=
    List.pairwise_reverse.mpr (h.ordered.imp fun hlt => decide_eq_true hlt.le)
  refine List.Perm.eq_of_pairwise (fun row other hrow hother hle hge => ?_) hsorted hreverse
    ((List.mergeSort_perm _ _).trans (List.reverse_perm _).symm)
  have hmem := (List.mergeSort_perm _ _).mem_iff.mp hrow
  exact hinj row hmem other (List.mem_reverse.mp hother)
    (le_antisymm (of_decide_eq_true hge) (of_decide_eq_true hle))

/-- A page, once the messages before its cursor are there, newest first. -/
def pageOf (newestFirst : List Row) (length : ℕ) : MessagePage :=
  let fetched := newestFirst.take (length + 1)
  let messages := (fetched.take length).reverse
  { messages, hasMore := length < fetched.length
    nextBeforeSeq := if length < fetched.length then messages.head?.map (·.seq) else none }

theorem listPageForConversation_eq (rows : List Row) (beforeSeq : Option Int) (limit : Int) :
    listPageForConversation rows beforeSeq limit =
      pageOf ((rows.filter fun row => beforeSeq.all (row.seq < ·)).mergeSort
        fun row earlier => earlier.seq ≤ row.seq) (pageLength limit) := rfl

/-- **A page** is the newest of the messages before its cursor, and its own cursor is the place of
the oldest on it. -/
theorem Sound.page (h : Sound rows) {k : ℕ} {beforeSeq : Option Int}
    (hasked : rows.filter (fun row => beforeSeq.all (row.seq < ·)) = rows.take k)
    (hk : k ≤ rows.length) (limit : Int) :
    listPageForConversation rows beforeSeq limit =
      { messages := (rows.take k).drop (k - pageLength limit)
        hasMore := decide (pageLength limit < k)
        nextBeforeSeq :=
          if pageLength limit < k then some ((k - pageLength limit : ℕ) : Int) else none } := by
  have htake : Sound (rows.take k) := by
    rw [← List.take_append_drop k rows] at h
    exact h.initial
  have hlength : (rows.take k).length = k := List.length_take_of_le hk
  rw [listPageForConversation_eq, hasked, htake.newestFirst]
  generalize hnewest : (rows.take k).reverse = newest
  have hfetched : (newest.take (pageLength limit + 1)).length = min (pageLength limit + 1) k := by
    rw [List.length_take, ← hnewest, List.length_reverse, hlength]
  have hmore : pageLength limit < (newest.take (pageLength limit + 1)).length ↔
      pageLength limit < k := by
    rw [hfetched]
    omega
  have hmessages : ((newest.take (pageLength limit + 1)).take (pageLength limit)).reverse =
      (rows.take k).drop (k - pageLength limit) := by
    rw [List.take_take, Nat.min_eq_left (Nat.le_succ _), ← hnewest, List.take_reverse,
      List.reverse_reverse, hlength]
  unfold pageOf
  simp only [hmore, hmessages]
  congr 1
  split
  next hlt =>
    have hpos := pageLength_pos limit
    rw [List.head?_drop, List.getElem?_take_of_lt (by omega)]
    exact h.seq_getElem (by omega)
  next => rfl

/-! ## What transactions store -/

/-- What every operation keeps. -/
structure Table.Sound (table : Table) : Prop where
  stored : Messages.Sound table.stored
  pending : Messages.Sound table.pending

theorem Table.Sound.step {table : Table} (h : table.Sound) (owner : String) (op : Op) :
    (table.step owner op).Sound := by
  cases op with
  | append userId draft =>
    simp only [Table.step]
    split
    · exact h
    · split
      next => exact ⟨h.stored, h.stored⟩
      next heq =>
        have hrows := h.pending.append owner userId draft
        rw [heq] at hrows
        exact ⟨h.stored, hrows⟩
  | commit =>
    simp only [Table.step]
    split
    · exact h
    · exact ⟨h.pending, h.pending⟩
  | rollback => exact ⟨h.stored, h.stored⟩

theorem Table.Sound.run {table : Table} (h : table.Sound) (owner : String) (ops : List Op) :
    (table.run owner ops).Sound := by
  induction ops generalizing table with
  | nil => exact h
  | cons op ops ih => exact ih (h.step owner op)

/-! ## What can be stored -/

/-- Blocks that can be read back. -/
def Readable (content : List ContentBlock) : Prop := ∀ block ∈ content, parseBlock block = .ok block

instance (content : List ContentBlock) : Decidable (Readable content) := by
  unfold Readable
  infer_instance

/-- A row with such a content is read back as it is. -/
theorem toCanonical_eq_ok (hcontent : row.content ≠ []) (h : Readable row.content) :
    toCanonical row = .ok row := by
  have hempty : row.content.isEmpty = false := List.isEmpty_eq_false_iff.mpr hcontent
  have hparse : parseContent row.content = .ok row.content := by
    unfold parseContent
    rw [hempty]
    exact (mapM_eq_ok (g := id) h).trans (congrArg Except.ok (List.map_id _))
  unfold toCanonical
  rw [hparse]
  rfl

/-- What a row was made from. -/
def Row.draft (row : Row) : Draft := { row with }

/-- The next message of a sound history is appended. -/
theorem append_eq_ok (owner : String) (h : Sound (rows ++ [row])) (hid : row.id ∉ rows.map (·.id))
    (hcontent : Readable row.content) :
    Messages.append owner rows owner row.draft = (.ok row, rows ++ [row]) := by
  have hseq := h.seq_of_concat
  have hrow : row = row.draft.numbered rows.length := by
    rw [← hseq]
    rfl
  have haccept : accept owner rows owner row.draft = .ok row :=
    (accept_eq_ok_iff h.initial).mpr ⟨rfl, hrow, h⟩
  have hnonempty : row.content ≠ [] := content_ne_nil (h.initial.concat_iff.mp h).1
  unfold Messages.append
  rw [haccept]
  dsimp only
  rw [violated_eq_none h hid, toCanonical_eq_ok hnonempty hcontent]

/-- The rest of a sound history is appended message by message. -/
theorem appendAll_eq_ok (owner : String) {after : List Row} (h : Sound (rows ++ after))
    (hids : ((rows ++ after).map (·.id)).Nodup) (hcontent : ∀ row ∈ after, Readable row.content) :
    appendAll owner rows (after.map (·.draft)) = .ok (rows ++ after) := by
  induction after generalizing rows with
  | nil => rw [List.append_nil]; rfl
  | cons row after ih =>
    have hassoc : rows ++ row :: after = (rows ++ [row]) ++ after := by simp
    rw [hassoc] at h hids ⊢
    have hfresh : row.id ∉ rows.map (·.id) := by
      rw [List.map_append, List.map_append] at hids
      have hdisjoint := (List.nodup_append.mp (List.nodup_append.mp hids).1).2.2
      intro hmem
      exact hdisjoint _ hmem _ List.mem_cons_self rfl
    rw [List.map_cons, appendAll,
      append_eq_ok owner h.initial hfresh (hcontent row List.mem_cons_self)]
    exact ih h hids fun other hother => hcontent other (List.mem_cons_of_mem _ hother)

end

/-- A question and its answer. -/
def exchange : List Row :=
  [{ role := .user, content := [.text "hello"], seq := 0, id := "u" },
    { role := .assistant, content := [.text "hi"], seq := 1, id := "a"
      «meta» := { providerUsed := some "groq" } }]

end Messages

end LlmGateway
