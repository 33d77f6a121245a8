import LlmGateway.Db.Paging
import LlmGateway.Effects.Sessions
import Mathlib.Data.String.Basic

/-!
# The conversations of many users

The statements of the conversation and message repositories, run by any number of
sessions on behalf of any number of users. A statement reads what is committed and
what its own session has written, and no row but its user's; a row that it changes is
locked up to the end of the transaction. A thread is kept with its messages, which
belong to it by a foreign key that cascades.
-/

namespace LlmGateway

namespace Conversations

open Effects

/-! ## Rows -/

/-- A row of `conversations`. -/
structure Conversation where
  id : String
  userId : String
  title : Option String
  preferredSlot : String
  pinnedModel : Option String := none
  createdAt : Seconds
  updatedAt : Seconds
  deriving DecidableEq

/-- A conversation and its messages. -/
structure Thread extends Conversation where
  messages : List Messages.Row := []
  deriving DecidableEq

/-- The id of a conversation and its user's. -/
abbrev Key : Type := String × String

def Thread.key (thread : Thread) : Key := (thread.id, thread.userId)

/-- The values that an `UPDATE` sets beside `updated_at`. -/
inductive Values where
  | touch (preferredSlot : Option String)
  | pin (model : String)
  | rename (title : Option String)
  deriving DecidableEq

/-- What its `WHERE` asks of a row beside whose it is: `pinned_model IS NULL OR pinned_model =
:model`. -/
def Values.fits (thread : Thread) : Values → Bool
  | .pin model => thread.pinnedModel.all (· = model)
  | .touch _ | .rename _ => true

def Thread.set (thread : Thread) (clock : Seconds) : Values → Thread
  | .touch preferredSlot =>
    { thread with updatedAt := clock, preferredSlot := preferredSlot.getD thread.preferredSlot }
  | .pin model => { thread with updatedAt := clock, pinnedModel := some model }
  | .rename title => { thread with updatedAt := clock, title }

/-- What is done to a thread. -/
inductive Change where
  | insert (title : Option String) (preferredSlot : String) (clock : Seconds)
  | update (values : Values) (clock : Seconds)
  | delete
  | append (rows : List Messages.Row)
  deriving DecidableEq

def Change.isInsert : Change → Bool
  | .insert _ _ _ => true
  | .update _ _ | .delete | .append _ => false

structure Write where
  key : Key
  change : Change
  deriving DecidableEq

/-- A new thread. -/
def newThread (key : Key) (title : Option String) (preferredSlot : String) (clock : Seconds) :
    Thread :=
  { id := key.1, userId := key.2, title, preferredSlot, createdAt := clock, updatedAt := clock }

def Change.apply (thread : Thread) : Change → Option Thread
  | .insert _ _ _ => some thread
  | .update values clock => some (if values.fits thread then thread.set clock values else thread)
  | .delete => none
  | .append rows => some { thread with messages := thread.messages ++ rows }

def table : Rows Thread Write where
  update w thread := if thread.key = w.key then w.change.apply thread else some thread
  insert w := match w.change with
    | .insert title preferredSlot clock => some (newThread w.key title preferredSlot clock)
    | .update _ _ | .delete | .append _ => none

/-! ## Statements -/

/-- What a session may ask. The time is the server's, and so are the ids of what is created. -/
inductive Op where
  | create (id : String) (title : Option String) (preferredSlot : String) (clock : Seconds)
  | getOwned (id : String)
  | listForUser (limit offset : ℤ)
  | touch (id : String) (preferredSlot : Option String) (clock : Seconds)
  | setPinned (id model : String) (clock : Seconds)
  | rename (id : String) (title : Option String) (clock : Seconds)
  | delete (id : String)
  | append (id : String) (draft : Messages.Draft)
  | history (id : String)
  | page (id : String) (beforeSeq : Option ℤ) (limit : ℤ)
  | commit
  | rollback
  deriving DecidableEq

inductive Answer where
  | created (conversation : Conversation)
  | found (conversation : Option Conversation)
  | listed (conversations : List Conversation)
  /-- `result.rowcount > 0`. -/
  | matched (any : Bool)
  | appended (row : Except Messages.AppendError Messages.Row)
  | history (rows : Except Messages.AppendError (List Messages.Row))
  | page (page : Except Messages.AppendError Messages.MessagePage)
  | ended
  /-- The row is locked by another session. The statement is asked again. -/
  | waits
  /-- `PendingRollbackError`. -/
  | pendingRollback

/-- What a statement does to the database. -/
inductive Effect where
  | nothing
  /-- The row is locked and changed. -/
  | write (id : String) (change : Change)
  /-- A flush has failed. -/
  | fail
  | commit
  | rollback
  deriving DecidableEq

/-- What a statement has before it. -/
structure View (ι : Type) where
  user : String
  session : ι
  /-- The user's threads, as the session sees them. -/
  rows : List Thread
  /-- Who has locked them. -/
  holder : String → Option ι

section

variable {ι : Type} [DecidableEq ι] (v : View ι)

namespace View

/-- Another session has the row. -/
def locked (id : String) : Bool := (v.holder id).any (· ≠ v.session)

/-- A statement that changes the rows it has found. -/
def change (id : String) (found : Bool) (change : Change) : Answer × Effect :=
  if found = false then (.matched false, .nothing)
  else if v.locked id then (.waits, .nothing)
  else (.matched true, .write id change)

def thread (id : String) : Option Thread := v.rows.find? (·.id = id)

end View

/-- `create`. -/
def create (id : String) (title : Option String) (preferredSlot : String) (clock : Seconds) :
    Answer × Effect :=
  if v.locked id then (.waits, .nothing)
  else (.created (newThread (id, v.user) title preferredSlot clock).toConversation,
    .write id (.insert title preferredSlot clock))

/-- `get_owned`. -/
def getOwned (id : String) : Answer × Effect :=
  (.found ((v.thread id).map (·.toConversation)), .nothing)

/-- `MAX_PAGE_SIZE`. -/
def maxPageSize : ℤ := 200

/-- `ORDER BY updated_at DESC, id DESC`. -/
def laterFirst (thread other : Thread) : Bool :=
  decide (other.updatedAt < thread.updatedAt) ||
    (decide (other.updatedAt = thread.updatedAt) && decide (other.id ≤ thread.id))

/-- `list_for_user`. -/
def listForUser (limit offset : ℤ) : Answer × Effect :=
  let rows := (v.rows.mergeSort laterFirst).map (·.toConversation)
  (.listed ((rows.drop (max 0 offset).toNat).take (max 1 (min limit maxPageSize)).toNat), .nothing)

/-- An `UPDATE` of the user's row with an id. -/
def update (id : String) (values : Values) (clock : Seconds) : Answer × Effect :=
  v.change id (v.rows.any fun thread => thread.id = id ∧ values.fits thread)
    (.update values clock)

/-- `touch`. -/
def touch (id : String) (preferredSlot : Option String) (clock : Seconds) : Answer × Effect :=
  update v id (.touch preferredSlot) clock

/-- `set_pinned`. -/
def setPinned (id model : String) (clock : Seconds) : Answer × Effect :=
  update v id (.pin model) clock

/-- `rename`. -/
def rename (id : String) (title : Option String) (clock : Seconds) : Answer × Effect :=
  update v id (.rename title) clock

/-- `delete`. -/
def delete (id : String) : Answer × Effect :=
  v.change id (v.rows.any (·.id = id)) .delete

/-- `messages.append`: the lock comes first, and stays whatever the message turns out to be. -/
def append (id : String) (draft : Messages.Draft) : Answer × Effect :=
  match v.thread id with
  | none => (.appended (.error .notFound), .nothing)
  | some thread =>
    if v.locked id then (.waits, .nothing)
    else
      match Messages.append v.user thread.messages v.user draft with
      | (.error (.constraint violated), _) =>
        (.appended (.error (.constraint violated)), .fail)
      | (answer, rows) =>
        (.appended answer, .write id (.append (rows.drop thread.messages.length)))

/-- The messages of the user's thread with an id. -/
def messagesOf (id : String) : List Messages.Row := ((v.thread id).map (·.messages)).getD []

/-- `list_for_conversation`. -/
def history (id : String) : Answer × Effect :=
  (.history ((Messages.listForConversation (messagesOf v id)).mapM Messages.toCanonical), .nothing)

/-- `list_page_for_conversation`. -/
def page (id : String) (beforeSeq : Option ℤ) (limit : ℤ) : Answer × Effect :=
  (.page (Messages.readPage v.user (messagesOf v id) v.user beforeSeq limit), .nothing)

/-- What a statement answers and does. -/
def respond : Op → Answer × Effect
  | .create id title preferredSlot clock => create v id title preferredSlot clock
  | .getOwned id => getOwned v id
  | .listForUser limit offset => listForUser v limit offset
  | .touch id preferredSlot clock => touch v id preferredSlot clock
  | .setPinned id model clock => setPinned v id model clock
  | .rename id title clock => rename v id title clock
  | .delete id => delete v id
  | .append id draft => append v id draft
  | .history id => history v id
  | .page id beforeSeq limit => page v id beforeSeq limit
  | .commit => (.ended, .commit)
  | .rollback => (.ended, .rollback)

end

/-! ## The database -/

/-- The tables, what each session has written, and the locks. -/
structure Db (ι : Type) extends Sessions ι (List Thread) Write where
  holder : Key → Option ι := fun _ => none
  failed : ι → Bool := fun _ => false

namespace Db

variable {ι : Type} [DecidableEq ι] (user : ι → String) (db : Db ι) (i : ι)

/-- The rows as a session sees them. -/
def seen : List Thread := (db.pending i).foldl table.apply db.tables

def view : View ι where
  user := user i
  session := i
  rows := (db.seen i).filter (·.userId = user i)
  holder id := db.holder (id, user i)

def lock (key : Key) : Db ι := { db with holder := Function.update db.holder key (some i) }

/-- The end of a transaction lets go of its locks. -/
def release : Db ι :=
  { db with holder := fun key => if db.holder key = some i then none else db.holder key }

def carry : Effect → Db ι
  | .nothing => db
  | .write id change =>
    { db.lock i (id, user i) with toSessions := db.push i ⟨(id, user i), change⟩ }
  | .fail =>
    { db.release i with toSessions := db.rollback i, failed := Function.update db.failed i true }
  | .commit => { db.release i with toSessions := db.commit table.apply i }
  | .rollback =>
    { db.release i with toSessions := db.rollback i, failed := Function.update db.failed i false }

/-- **One statement of one session.** Once a flush has failed, nothing goes on before a rollback. -/
def step (event : ι × Op) : Answer × Db ι :=
  let (answer, effect) := if db.failed event.1 ∧ event.2 ≠ .rollback
    then (.pendingRollback, .nothing) else respond (db.view user event.1) event.2
  (answer, db.carry user event.1 effect)

end Db

end Conversations

end LlmGateway
