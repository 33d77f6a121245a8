import LlmGateway.Quota.Windows
import Mathlib.Logic.Function.Basic
import Mathlib.Algebra.BigOperators.Group.List.Basic

/-!
# The quota scripts

`reserve.lua`, `commit.lua` and `release.lua` over the keys they touch: counters
and reservation hashes, each with the instant it expires. A script runs to its
end before another command, so each is one function of the database.
-/

namespace LlmGateway

namespace Quota

/-! ## Folds of updates -/

/-- What a fold of updates leaves at one key: only the entries for it matter. -/
theorem foldl_update_apply {κ β γ : Type} [DecidableEq κ] (key : β → κ) (f : γ → β → γ)
    (bs : List β) (m : κ → γ) (k : κ) :
    bs.foldl (fun m b => Function.update m (key b) (f (m (key b)) b)) m k =
      (bs.filter (key · = k)).foldl f (m k) := by
  induction bs generalizing m with
  | nil => rfl
  | cons b bs ih =>
    rw [List.foldl_cons, ih, List.filter_cons]
    by_cases hk : key b = k
    · subst hk
      simp
    · simp [hk, Function.update_of_ne (Ne.symm hk)]

/-! ## The database -/

/-- A counter: its value, and when it expires. -/
structure Counter where
  value : ℤ
  deadline : Option Seconds := none
  deriving DecidableEq, Repr

/-- What a counter reads, a missing one zero. -/
def used (slot : Option Counter) : ℤ := (slot.map (·.value)).getD 0

/-- A reservation hash: an amount for each window (zero where it has no such
field), and the request it was taken for. -/
structure Held where
  amounts : QuotaWindow → ℤ := fun _ => 0
  requestId : Option String := none
  deadline : Option Seconds := none

/-- Still there at an instant: a key is gone once its deadline has passed. -/
def alive (deadline : Option Seconds) (now : Seconds) : Bool :=
  match deadline with
  | none => true
  | some d => decide (now ≤ d)

/-- The live keys of quota, and the server's time. -/
structure Db where
  clock : Seconds := 0
  counters : String → Option Counter := fun _ => none
  held : String → Option Held := fun _ => none

namespace Db

/-- Time goes by up to an instant, and with it the keys that expire. -/
def waitUntil (db : Db) (t : Seconds) : Db where
  clock := max db.clock t
  counters k := (db.counters k).filter fun c => alive c.deadline (max db.clock t)
  held k := (db.held k).filter fun h => alive h.deadline (max db.clock t)

/-- `GET`. -/
def get (db : Db) (k : String) : ℤ := used (db.counters k)

/-- `INCRBY`, which creates a missing counter without a TTL. -/
def incrby (db : Db) (k : String) (d : ℤ) : Db :=
  { db with
    counters := Function.update db.counters k
      (some { value := db.get k + d, deadline := (db.counters k).bind (·.deadline) }) }

/-- `EXPIRE` of a counter. -/
def expire (db : Db) (k : String) (ttl : ℤ) : Db :=
  { db with
    counters := Function.update db.counters k
      ((db.counters k).map fun c => { c with deadline := some (db.clock + ttl) }) }

/-- `TTL`: the whole seconds left, rounded; negative without a key or a
deadline. -/
def ttl (db : Db) (k : String) : ℤ :=
  match db.counters k with
  | none => -2
  | some c => match c.deadline with
    | none => -1
    | some d => max 0 ⌊d - db.clock + 1 / 2⌋

/-- `HINCRBY` on a reservation hash. -/
def hincrby (db : Db) (k : String) (w : QuotaWindow) (d : ℤ) : Db :=
  { db with
    held := Function.update db.held k
      (some { (db.held k).getD {} with
        amounts := Function.update ((db.held k).getD {}).amounts w
          (((db.held k).getD {}).amounts w + d) }) }

/-- `HSETNX` of the request id, then `EXPIRE` of the hash. -/
def sealHeld (db : Db) (k requestId : String) (ttl : ℤ) : Db :=
  { db with
    held := Function.update db.held k
      (some { (db.held k).getD {} with
        requestId := ((db.held k).getD {}).requestId <|> some requestId
        deadline := some (db.clock + ttl) }) }

/-- `DEL` of a reservation hash. -/
def del (db : Db) (k : String) : Db := { db with held := Function.update db.held k none }

end Db

/-! ## reserve.lua -/

/-- A block of its arguments, with the counter's key. -/
structure Block where
  name : QuotaWindow
  limit : ℤ
  cost : ℤ
  ttl : ℤ
  refresh : Bool
  key : String
  deriving DecidableEq, Repr

/-- Its replies. -/
inductive ReserveReply where
  | reserved
  | blocked (window : QuotaWindow) (ttlRemaining : ℤ)
  deriving DecidableEq, Repr

/-- Pass 2 for one window. -/
def spend (reservationKey : String) (db : Db) (b : Block) : Db :=
  let db := db.incrby b.key b.cost
  -- Refreshed, created by this call, or without the TTL it should have.
  let db := if b.refresh ∨ db.get b.key = b.cost ∨ db.ttl b.key < 0 then db.expire b.key b.ttl
    else db
  db.hincrby reservationKey b.name b.cost

/-- `reserve.lua`: every window is checked before any is spent. -/
def reserveLua (db : Db) (reservationKey : String) (blocks : List Block) (reservationTtl : ℤ)
    (requestId : String) : ReserveReply × Db :=
  match blocks.find? fun b => b.limit < db.get b.key + b.cost with
  | some b => (.blocked b.name (max 0 (db.ttl b.key)), db)
  | none =>
    (.reserved,
      (blocks.foldl (spend reservationKey) db).sealHeld reservationKey requestId reservationTtl)

/-! ## commit.lua and release.lua -/

/-- Give back, clamped at zero. -/
def Db.refund (db : Db) (k : String) (amount : ℤ) : Db :=
  let db := db.incrby k (-amount)
  if db.get k < 0 then db.incrby k (-db.get k) else db

/-- A block of the arguments of a commit, with the counter's key. -/
structure Correction where
  name : QuotaWindow
  actual : ℤ
  ttl : ℤ
  refresh : Bool
  key : String
  deriving DecidableEq, Repr

/-- The correction of one token window. -/
def correct (amounts : QuotaWindow → ℤ) (db : Db) (c : Correction) : Db :=
  let delta := c.actual - amounts c.name
  if 0 < delta then
    -- An upward correction may create the counter.
    let db := db.incrby c.key delta
    if c.refresh ∨ db.ttl c.key < 0 then db.expire c.key c.ttl else db
  else if delta < 0 ∧ (db.counters c.key).isSome then db.refund c.key (-delta)
  else db

/-- `commit.lua`: whether it was applied. -/
def commitLua (db : Db) (reservationKey : String) (corrections : List Correction) : Bool × Db :=
  match db.held reservationKey with
  | none => (false, db)
  | some h => (true, (corrections.foldl (correct h.amounts) db).del reservationKey)

/-- What one window gets back on a release. -/
def giveBack (amounts : QuotaWindow → ℤ) (db : Db) (w : QuotaWindow × String) : Db :=
  if 0 < amounts w.1 ∧ (db.counters w.2).isSome then db.refund w.2 (amounts w.1) else db

/-- `release.lua`: whether anything was released. -/
def releaseLua (db : Db) (reservationKey : String) (windows : List (QuotaWindow × String)) :
    Bool × Db :=
  match db.held reservationKey with
  | none => (false, db)
  | some h => (true, (windows.foldl (giveBack h.amounts) db).del reservationKey)

/-! ## What the scripts do to a counter -/

/-- A counter after pass 2. -/
def spent (clock : Seconds) (slot : Option Counter) (b : Block) : Counter :=
  let value := used slot + b.cost
  let deadline := slot.bind (·.deadline)
  { value
    deadline := if b.refresh ∨ value = b.cost ∨ deadline = none then some (clock + b.ttl)
      else deadline }

/-- A counter after its correction from `reserved`. -/
def corrected (clock : Seconds) (reserved : ℤ) (slot : Option Counter) (c : Correction) :
    Option Counter :=
  if 0 < c.actual - reserved then
    let deadline := slot.bind (·.deadline)
    some
      { value := used slot + (c.actual - reserved)
        deadline := if c.refresh ∨ deadline = none then some (clock + c.ttl) else deadline }
  else if c.actual - reserved < 0 then
    slot.map fun x => { x with value := max 0 (x.value + (c.actual - reserved)) }
  else slot

/-- A counter that gets `amount` back. -/
def returned (amount : ℤ) (slot : Option Counter) : Option Counter :=
  if 0 < amount then slot.map fun x => { x with value := max 0 (x.value - amount) } else slot

section

variable {db : Db} {reservationKey : String} {amounts : QuotaWindow → ℤ}

theorem Db.ttl_neg_iff {k : String} :
    db.ttl k < 0 ↔ (db.counters k).bind (·.deadline) = none := by
  unfold Db.ttl
  cases db.counters k with
  | none => simp
  | some c =>
    obtain ⟨value, deadline⟩ := c
    cases deadline <;> simp

theorem spend_counters {b : Block} : (spend reservationKey db b).counters =
    Function.update db.counters b.key (some (spent db.clock (db.counters b.key) b)) := by
  have hget : (db.incrby b.key b.cost).get b.key = db.get b.key + b.cost := by
    simp [Db.get, Db.incrby, used]
  have httl : (db.incrby b.key b.cost).ttl b.key < 0 ↔
      (db.counters b.key).bind (·.deadline) = none := by
    rw [Db.ttl_neg_iff]
    simp [Db.incrby]
  dsimp only [spend, spent]
  simp only [hget, httl]
  by_cases hset : b.refresh ∨ db.get b.key + b.cost = b.cost ∨
      (db.counters b.key).bind (·.deadline) = none
  · rw [if_pos hset, if_pos (c := _ ∨ used _ + _ = _ ∨ _) hset]
    simp only [Db.hincrby, Db.expire, Db.incrby, Function.update_self, Function.update_idem]
    rfl
  · rw [if_neg hset, if_neg (c := _ ∨ used _ + _ = _ ∨ _) hset]
    rfl

theorem spend_clock {b : Block} : (spend reservationKey db b).clock = db.clock := by
  dsimp only [spend]
  split <;> rfl

theorem spend_held {b : Block} : (spend reservationKey db b).held =
    (db.hincrby reservationKey b.name b.cost).held := by
  dsimp only [spend]
  split <;> rfl

theorem Db.refund_counters {k : String} {amount : ℤ} {x : Counter} (hx : db.counters k = some x) :
    (db.refund k amount).counters =
      Function.update db.counters k (some { x with value := max 0 (x.value - amount) }) := by
  have hget : (db.incrby k (-amount)).get k = x.value - amount := by
    simp [Db.get, Db.incrby, used, hx, sub_eq_add_neg]
  dsimp only [Db.refund]
  rw [hget]
  by_cases hneg : x.value - amount < 0
  · rw [if_pos hneg]
    simp only [Db.incrby, Function.update_self, Function.update_idem, Db.get, used, hx]
    congr 2
    simp only [Option.map_some, Option.getD_some, Option.bind_some, Counter.mk.injEq, and_true]
    omega
  · rw [if_neg hneg]
    simp only [Db.incrby, Db.get, used, hx]
    congr 2
    simp only [Option.map_some, Option.getD_some, Option.bind_some, Counter.mk.injEq, and_true]
    omega

theorem Db.refund_clock {k : String} {amount : ℤ} : (db.refund k amount).clock = db.clock := by
  dsimp only [Db.refund]
  split <;> rfl

theorem Db.refund_held {k : String} {amount : ℤ} : (db.refund k amount).held = db.held := by
  dsimp only [Db.refund]
  split <;> rfl

theorem correct_counters {c : Correction} : (correct amounts db c).counters =
    Function.update db.counters c.key
      (corrected db.clock (amounts c.name) (db.counters c.key) c) := by
  have httl : (db.incrby c.key (c.actual - amounts c.name)).ttl c.key < 0 ↔
      (db.counters c.key).bind (·.deadline) = none := by
    rw [Db.ttl_neg_iff]
    simp [Db.incrby]
  dsimp only [correct, corrected]
  simp only [httl]
  by_cases hup : 0 < c.actual - amounts c.name
  · rw [if_pos hup, if_pos hup]
    by_cases hset : c.refresh ∨ (db.counters c.key).bind (·.deadline) = none
    · rw [if_pos hset, if_pos hset]
      simp only [Db.expire, Db.incrby, Function.update_self, Function.update_idem]
      rfl
    · rw [if_neg hset, if_neg hset]
      rfl
  · rw [if_neg hup, if_neg hup]
    by_cases hdown : c.actual - amounts c.name < 0
    · rw [if_pos hdown]
      cases hx : db.counters c.key with
      | none => simp [hx]
      | some x =>
        rw [if_pos ⟨hdown, rfl⟩, Db.refund_counters hx]
        simp only [Option.map_some, sub_neg_eq_add]
    · rw [if_neg hdown, if_neg (fun h => hdown h.1), Function.update_eq_self]

theorem correct_clock {c : Correction} : (correct amounts db c).clock = db.clock := by
  dsimp only [correct]
  split_ifs
  · rfl
  · rfl
  · exact Db.refund_clock
  · rfl

theorem giveBack_counters {w : QuotaWindow × String} : (giveBack amounts db w).counters =
    Function.update db.counters w.2 (returned (amounts w.1) (db.counters w.2)) := by
  unfold giveBack returned
  by_cases hpos : 0 < amounts w.1
  · rw [if_pos hpos]
    cases hx : db.counters w.2 with
    | none => simp [hx]
    | some x =>
      rw [if_pos ⟨hpos, rfl⟩, Db.refund_counters hx]
      rfl
  · rw [if_neg hpos, if_neg (fun h => hpos h.1), Function.update_eq_self]

theorem giveBack_clock {w : QuotaWindow × String} :
    (giveBack amounts db w).clock = db.clock := by
  unfold giveBack
  split
  · exact Db.refund_clock
  · rfl

end

/-- What a block-by-block pass leaves at one counter. -/
theorem foldl_counters {β : Type} {op : Db → β → Db} (key : β → String)
    (f : Seconds → Option Counter → β → Option Counter)
    (hop : ∀ db b, (op db b).counters =
      Function.update db.counters (key b) (f db.clock (db.counters (key b)) b))
    (hclock : ∀ db b, (op db b).clock = db.clock) (bs : List β) (db : Db) (k : String) :
    (bs.foldl op db).counters k =
      (bs.filter (key · = k)).foldl (f db.clock) (db.counters k) := by
  rw [← foldl_update_apply key (f db.clock) bs db.counters k]
  induction bs generalizing db with
  | nil => rfl
  | cons b bs ih =>
    rw [List.foldl_cons, List.foldl_cons, ih, hop, hclock]

/-! ## What the scripts do to a hash -/

/-- The amounts under a key. -/
def Db.amounts (db : Db) (k : String) : QuotaWindow → ℤ := ((db.held k).getD {}).amounts

theorem foldl_clock {β : Type} {op : Db → β → Db} (hclock : ∀ db b, (op db b).clock = db.clock)
    (bs : List β) (db : Db) : (bs.foldl op db).clock = db.clock := by
  induction bs generalizing db with
  | nil => rfl
  | cons b bs ih => rw [List.foldl_cons, ih, hclock]

/-- Pass 2 adds up the costs, window by window. -/
theorem foldl_spend_amounts (reservationKey : String) (bs : List Block) (db : Db)
    (w : QuotaWindow) :
    (bs.foldl (spend reservationKey) db).amounts reservationKey w =
      db.amounts reservationKey w + ((bs.filter (·.name = w)).map (·.cost)).sum := by
  induction bs generalizing db with
  | nil => simp
  | cons b bs ih =>
    rw [List.foldl_cons, ih, List.filter_cons]
    have hstep : (spend reservationKey db b).amounts reservationKey w =
        db.amounts reservationKey w + if b.name = w then b.cost else 0 := by
      rw [Db.amounts, spend_held]
      simp only [Db.hincrby, Function.update_self, Option.getD_some, Db.amounts]
      by_cases hw : b.name = w
      · subst hw
        simp
      · simp [hw, Function.update_of_ne (Ne.symm hw)]
    rw [hstep]
    by_cases hw : b.name = w
    · simp [hw, add_assoc]
    · simp [hw]

/-- And writes no other hash. -/
theorem foldl_spend_held_of_ne {reservationKey key : String} (hne : key ≠ reservationKey)
    (bs : List Block) (db : Db) :
    (bs.foldl (spend reservationKey) db).held key = db.held key := by
  induction bs generalizing db with
  | nil => rfl
  | cons b bs ih =>
    rw [List.foldl_cons, ih, spend_held]
    exact Function.update_of_ne hne _ _

theorem correct_held {amounts : QuotaWindow → ℤ} {db : Db} {c : Correction} :
    (correct amounts db c).held = db.held := by
  dsimp only [correct]
  split_ifs
  · rfl
  · rfl
  · exact Db.refund_held
  · rfl

theorem giveBack_held {amounts : QuotaWindow → ℤ} {db : Db} {w : QuotaWindow × String} :
    (giveBack amounts db w).held = db.held := by
  unfold giveBack
  split
  · exact Db.refund_held
  · rfl

theorem foldl_held {β : Type} {op : Db → β → Db} (hheld : ∀ db b, (op db b).held = db.held)
    (bs : List β) (db : Db) : (bs.foldl op db).held = db.held := by
  induction bs generalizing db with
  | nil => rfl
  | cons b bs ih => rw [List.foldl_cons, ih, hheld]

end Quota

end LlmGateway
