import LlmGateway.Effects.Keyspace
import LlmGateway.Effects.Order
import LlmGateway.Perception.Chain
import Mathlib.Algebra.Order.Ring.Rat
import Mathlib.Tactic.NormNum

/-!
# Who deletes a lock

Any number of extractions, of any files, over one Redis, their commands in any
order, while locks expire. A release reads the lock, compares the token, and
deletes in a command of its own: what it deletes is its own unless the lock went
between the two, and somebody else was granted it.
-/

namespace LlmGateway

namespace Perception

namespace Lane

open Effects

/-- `EXTRACTION_LOCK_TTL_S`. -/
def extractionLockTtlS : ℚ := 60

variable {ι : Type}

/-- The locks in Redis: under the hash of a file, the token of who holds it. -/
abbrev Locks (ι : Type) : Type := Keyspace ι String String

/-- The questions that have nothing to do with a lock. -/
def Ask.Unlocked : Ask → Prop
  | .uuid4 | .lockSet _ _ | .lockGet _ | .lockDelete _ => False
  | _ => True

/-- Redis, answering extraction `i`, and whatever else that one is answered. A command that fails
may have been carried out. -/
inductive Locking (tokens : ι → String) (i : ι) : World iface (Locks ι)
  | named {s : Locks ι} : Locking tokens i s .uuid4 (tokens i) s
  | took {s : Locks ι} {fileHash token : String} (h : s.entries fileHash = none) :
      Locking tokens i s (.lockSet fileHash token) (Except.ok true)
        (s.set i fileHash token extractionLockTtlS)
  | taken {s : Locks ι} {fileHash token : String} (h : s.entries fileHash ≠ none) :
      Locking tokens i s (.lockSet fileHash token) (Except.ok false) s
  | tookUnheard {s : Locks ι} {fileHash token : String} (h : s.entries fileHash = none)
      (e : Fault) : Locking tokens i s (.lockSet fileHash token) (Except.error e)
        (s.set i fileHash token extractionLockTtlS)
  | unset {s : Locks ι} {fileHash token : String} (e : Fault) :
      Locking tokens i s (.lockSet fileHash token) (Except.error e) s
  | got {s : Locks ι} {fileHash : String} :
      Locking tokens i s (.lockGet fileHash) (Except.ok (s.read fileHash)) s
  | unread {s : Locks ι} {fileHash : String} (e : Fault) :
      Locking tokens i s (.lockGet fileHash) (Except.error e) s
  | deleted {s : Locks ι} {fileHash : String} (r : Except Fault Unit) :
      Locking tokens i s (.lockDelete fileHash) r (s.del fileHash)
  | undeleted {s : Locks ι} {fileHash : String} (e : Fault) :
      Locking tokens i s (.lockDelete fileHash) (Except.error e) s
  | beside {s : Locks ι} {q : Ask} (h : q.Unlocked) (a : Ans q) : Locking tokens i s q a s

/-- A call of `extract_with_llm`. -/
structure Call where
  cfg : Config
  fileHash : String
  sizeBytes : Nat

def Call.run (call : Call) : Eff (Option Extraction) :=
  extractWithLlm call.cfg call.fileHash call.sizeBytes

/-- Calls that have not begun, over the locks earlier ones left. -/
def extracting (calls : ι → Call) (clock : ℚ) (earlier : String → Option (Entry ι String)) :
    Pool ι iface Fault (Option Extraction) (Locks ι) :=
  ⟨⟨clock, earlier⟩, fun i => (calls i).run⟩

/-! ## The order of a call's commands -/

/-- What a call has to go by: its token, and the lock in which it has just read it. -/
structure Sighting where
  token : Option String := none
  mine : Option String := none

def sighted (t : Sighting) : Event iface → Sighting
  | ⟨.uuid4, token⟩ => { token := some token }
  | ⟨.lockGet fileHash, .ok current⟩ =>
    { t with mine := if current = t.token then some fileHash else none }
  | _ => { t with mine := none }

/-- A lock is taken with the token, and deleted right after the token was read in it. -/
def MayLock (t : Sighting) : Ask → Prop
  | .lockSet _ token => t.token = some token
  | .lockDelete fileHash => t.token ≠ none ∧ t.mine = some fileHash
  | _ => True

section

variable {cfg : Config} {fileHash token : String} {sizeBytes : Nat} {chain : List Candidate}
  {t : Sighting} {α : Type}

/-- Nothing but the lock is asked of the lock. -/
theorem follows_unlocked {p : Eff α} (hp : p.Asks Ask.Unlocked) (ht : t.token = some token) :
    p.Follows sighted MayLock (fun _ (t' : Sighting) => t'.token = some token) t := by
  refine Prog.Follows.of_asks (L := fun t : Sighting => t.token = some token) hp
    (fun t q hq ht => ?_) ht
  cases q <;> first | exact ⟨trivial, fun _ => ht⟩ | exact hq.elim

theorem asks_walk : (walk cfg fileHash sizeBytes chain).Asks Ask.Unlocked := by
  refine Prog.asks_embed (Prog.Asks.mapError ?_ _)
  exact Prog.asks_of_forall fun _ => trivial

theorem asks_loadCached_unlocked : (loadCached cfg fileHash).Asks Ask.Unlocked :=
  asks_loadCached trivial trivial (fun _ => trivial) fun _ => trivial

theorem asks_underLock : (underLock cfg fileHash sizeBytes chain).Asks Ask.Unlocked := by
  refine Prog.Asks.bind asks_loadCached_unlocked fun cached => ?_
  split
  · trivial
  · exact asks_walk

theorem asks_awaitWinner : ∀ polls, (awaitWinner cfg fileHash polls).Asks Ask.Unlocked
  | 0 => trivial
  | polls + 1 => by
    refine Prog.Asks.bind ⟨trivial, fun _ => Prog.asks_ofExcept _⟩ fun _ => ?_
    refine Prog.Asks.bind asks_loadCached_unlocked fun found => ?_
    split
    · exact ⟨trivial, fun _ => trivial⟩
    · exact asks_awaitWinner polls

/-- A handler that goes on from a log line. -/
theorem follows_orLog {p : Eff α} {line : LogLine} {a : α} {K : Except Fault α → Sighting → Prop}
    (h : p.Follows sighted MayLock (fun r t' => match r with
      | .error .redis => K (.ok a) { t' with mine := none }
      | r => K r t') t) : (orLog p line a).Follows sighted MayLock K t := by
  refine Prog.Follows.bind (Prog.Follows.attempt (h.mono fun r t' hK => ?_))
  match r with
  | .ok b => exact hK
  | .error .redis => exact ⟨trivial, fun _ => hK⟩
  | .error (.exn e) => exact hK
  | .error (.fileUnreadable _ _) => exact hK

theorem follows_acquire (ht : t.token = some token) :
    (acquire cfg fileHash token).Follows sighted MayLock
      (fun _ (t' : Sighting) => t'.token = some token) t := by
  unfold acquire
  split
  · refine follows_orLog (Prog.Follows.bind (Prog.Follows.ask ht fun won => ?_))
    refine Prog.Follows.ofExcept ?_
    match won with
    | .ok won => exact ht
    | .error .redis => exact ht
    | .error (.exn e) => exact ht
    | .error (.fileUnreadable _ _) => exact ht
  · exact ht

/-- **A release deletes what it has just read its token in.** -/
theorem follows_release (held : Bool) (ht : t.token = some token) :
    (release cfg fileHash token held).Follows sighted MayLock (fun _ _ => True) t := by
  unfold release
  split
  · refine follows_orLog (Prog.Follows.bind (Prog.Follows.ask trivial fun current => ?_))
    refine Prog.Follows.ofExcept ?_
    match current with
    | .error .redis => trivial
    | .error (.exn e) => trivial
    | .error (.fileUnreadable _ _) => trivial
    | .ok current =>
      dsimp only
      split
      next hmine =>
        refine Prog.Follows.ask ⟨?_, ?_⟩ fun r => ?_
        · simp [sighted, ht]
        · simp [sighted, ht, hmine]
        · refine Prog.Follows.ofExcept ?_
          match r with
          | .ok () => trivial
          | .error .redis => trivial
          | .error (.exn e) => trivial
          | .error (.fileUnreadable _ _) => trivial
      next => trivial
  · trivial

/-- Under the lock, and behind it. -/
theorem follows_finally (held : Bool) (ht : t.token = some token) :
    (finally' (underLock cfg fileHash sizeBytes chain)
      (release cfg fileHash token held)).Follows sighted MayLock (fun _ _ => True) t := by
  refine Prog.Follows.bind (Prog.Follows.attempt ((follows_unlocked asks_underLock ht).mono
    fun r t' ht' => ?_))
  refine Prog.Follows.bind ((follows_release held ht').mono fun r' t'' _ => ?_)
  match r' with
  | .error e => trivial
  | .ok () => exact Prog.Follows.ofExcept trivial

theorem follows_behindLock (goOn held : Bool) (ht : t.token = some token) :
    (behindLock cfg fileHash token sizeBytes chain goOn held).Follows sighted MayLock
      (fun _ _ => True) t := by
  cases goOn with
  | true => exact follows_finally held ht
  | false =>
    refine Prog.Follows.bind ((follows_unlocked (asks_awaitWinner _) ht).mono fun r t' ht' => ?_)
    match r with
    | .error e => trivial
    | .ok (some waited) => trivial
    | .ok none => exact Prog.Follows.ask trivial fun _ => follows_finally held ht'

theorem follows_extractWithLlm :
    (extractWithLlm cfg fileHash sizeBytes).Follows sighted MayLock (fun _ _ => True) {} := by
  refine Prog.Follows.bind (Prog.Follows.ask trivial fun chain => ?_)
  match chain with
  | none => exact ⟨trivial, fun _ => trivial⟩
  | some chain =>
    refine Prog.Follows.bind (Prog.Follows.ask trivial fun token => ?_)
    refine Prog.Follows.bind ((follows_acquire (t := { token := some token }) rfl).mono
      fun r t' ht' => ?_)
    match r with
    | .error e => trivial
    | .ok (goOn, held) => exact follows_behindLock goOn held ht'

end

/-! ## Over runs -/

/-- What one command does to the lock of a file: nothing, it takes it, or it deletes it. -/
theorem Locking.entries {tokens : ι → String} {i : ι} {s s' : Locks ι} {q : Ask} {a : Ans q}
    (h : Locking tokens i s q a s') (fileHash : String) :
    s'.entries fileHash = s.entries fileHash ∨
      (s.entries fileHash = none ∧ ∃ token, q = .lockSet fileHash token) ∨
      (s'.entries fileHash = none ∧ q = .lockDelete fileHash) := by
  have hset : ∀ (key token : String), s.entries key = none → q = .lockSet key token →
      (s.set i key token extractionLockTtlS).entries fileHash = s.entries fileHash ∨
        (s.entries fileHash = none ∧ ∃ token, q = .lockSet fileHash token) ∨
        ((s.set i key token extractionLockTtlS).entries fileHash = none ∧
          q = .lockDelete fileHash) := by
    intro key token hfree hq
    by_cases hkey : fileHash = key
    · subst hkey
      exact .inr (.inl ⟨hfree, token, hq⟩)
    · exact .inl (Keyspace.entries_set_of_ne _ _ _ _ hkey)
  cases h with
  | named => exact .inl rfl
  | took hfree => exact hset _ _ hfree rfl
  | taken _ => exact .inl rfl
  | tookUnheard hfree _ => exact hset _ _ hfree rfl
  | unset _ => exact .inl rfl
  | got => exact .inl rfl
  | unread _ => exact .inl rfl
  | @deleted _ key _ =>
    by_cases hkey : fileHash = key
    · subst hkey
      exact .inr (.inr ⟨Keyspace.entries_del_self _, rfl⟩)
    · exact .inl (Keyspace.entries_del_of_ne _ hkey)
  | undeleted _ => exact .inl rfl
  | beside _ _ => exact .inl rfl

/-- **While a release has yet to delete the lock it found its own**, nobody is granted that lock
once it is gone. -/
def Unraced (c c' : Pool ι iface Fault (Option Extraction) (Locks ι)) : Prop :=
  ∀ i fileHash, (c.prog i).question = some (.lockDelete fileHash) →
    c.store.entries fileHash = none → c'.store.entries fileHash = none

/-- What is about to be deleted is its deleter's own. -/
structure Owned (tokens : ι → String) (t : ι → Sighting)
    (c : Pool ι iface Fault (Option Extraction) (Locks ι)) : Prop where
  named : ∀ i token, (t i).token = some token → token = tokens i
  own : ∀ i fileHash, (c.prog i).question = some (.lockDelete fileHash) →
    ∀ e, c.store.entries fileHash = some e → e.value = tokens i

section

variable [DecidableEq ι] {tokens : ι → String} {calls : ι → Call}
  {c c' : Pool ι iface Fault (Option Extraction) (Locks ι)} {t : ι → Sighting} {i : ι} {q : Ask}
  {k : Ans q → Eff (Option Extraction)} {a : Ans q} {s : Locks ι}

omit [DecidableEq ι] in
/-- A token is the one the call was named by. -/
theorem Locking.named_sighted {seen : Sighting} {s' : Locks ι} (hw : Locking tokens i s q a s')
    (h : ∀ token, seen.token = some token → token = tokens i) :
    ∀ token, (sighted seen ⟨q, a⟩).token = some token → token = tokens i := by
  cases hw with
  | named => exact fun token htoken => (Option.some.inj htoken).symm
  | beside hq a => cases q <;> first | exact h | exact hq.elim
  | took _ => exact h
  | taken _ => exact h
  | tookUnheard _ _ => exact h
  | unset _ => exact h
  | got => exact h
  | unread _ => exact h
  | deleted _ => exact h
  | undeleted _ => exact h

omit [DecidableEq ι] in
/-- A lock is seen to be one's own by reading one's token there. -/
theorem Locking.read_of_mine {seen : Sighting} {s' : Locks ι} {fileHash : String}
    (hw : Locking tokens i s q a s') (h : (sighted seen ⟨q, a⟩).mine = some fileHash) :
    s' = s ∧ s.read fileHash = seen.token ∧ (sighted seen ⟨q, a⟩).token = seen.token := by
  cases hw with
  | @got _ key =>
    have hmine : (if s.read key = seen.token then some key else none) = some fileHash := h
    split at hmine
    next heq =>
      obtain rfl := Option.some.inj hmine
      exact ⟨rfl, heq, rfl⟩
    next => cases hmine
  | beside hq a => cases q <;> first | exact hq.elim | cases h
  | named => cases h
  | took _ => cases h
  | taken _ => cases h
  | tookUnheard _ _ => cases h
  | unset _ => cases h
  | unread _ => cases h
  | deleted _ => cases h
  | undeleted _ => cases h

theorem Owned.answered
    (hfollows : ∀ j, (c.prog j).Follows sighted MayLock (fun _ _ => True) (t j))
    (h : Owned tokens t c) (hp : c.prog i = .ask q k) (hw : Locking tokens i c.store q a s)
    (hok : Unraced c (c.answered i k a s)) :
    Owned tokens (Function.update t i (sighted (t i) ⟨q, a⟩)) (c.answered i k a s) := by
  have hself : (c.answered i k a s).prog i = k a := Function.update_self _ _ _
  have hnext := hfollows i
  rw [hp] at hnext
  refine ⟨fun j token htoken => ?_, fun j fileHash hj e he => ?_⟩
  · by_cases hij : j = i
    · subst hij
      rw [Function.update_self] at htoken
      exact hw.named_sighted (h.named j) token htoken
    · rw [Function.update_of_ne hij] at htoken
      exact h.named j token htoken
  · by_cases hij : j = i
    · -- It deletes because it has just read its own token there.
      subst hij
      rw [hself] at hj
      obtain ⟨k', hk'⟩ := Prog.exists_of_question hj
      have hmay := hnext.2 a
      rw [hk'] at hmay
      obtain ⟨htoken, hmine⟩ := hmay.1
      obtain ⟨rfl, hread, hsame⟩ := hw.read_of_mine hmine
      have he' : c.store.entries fileHash = some e := he
      rw [Keyspace.read, he', Option.map_some] at hread
      exact h.named j e.value hread.symm
    · have hother : (c.answered i k a s).prog j = c.prog j := Function.update_of_ne hij _ _
      have hlate := hok j fileHash (hother ▸ hj)
      rw [hother] at hj
      rcases hw.entries fileHash with hsame | ⟨hfree, -⟩ | ⟨hgone, -⟩
      · exact h.own j fileHash hj e (hsame ▸ he)
      · have hnone : s.entries fileHash = none := hlate hfree
        cases hnone.symm.trans he
      · cases hgone.symm.trans he

omit [DecidableEq ι] in
theorem Owned.passes (h : Owned tokens t c) (hp : Keyspace.Passes c.store s) :
    Owned tokens t ⟨s, c.prog⟩ := by
  refine ⟨h.named, fun i fileHash hi e he => ?_⟩
  cases hp with
  | tick _ => exact h.own i fileHash hi e he
  | @expires key _ _ _ =>
    have he' : (c.store.del key).entries fileHash = some e := he
    by_cases hkey : fileHash = key
    · subst hkey
      rw [Keyspace.entries_del_self] at he'
      cases he'
    · rw [Keyspace.entries_del_of_ne _ hkey] at he'
      exact h.own i fileHash hi e he'

/-- **No call deletes another's lock** in every run in which no lock that is gone is granted anew
while a release, having found it its own, has yet to delete it: whatever command comes next, a lock
with a token that is not the caller's own stays as it is. -/
theorem locks_spared (tokens : ι → String) (calls : ι → Call) (clock : ℚ)
    (earlier : String → Option (Entry ι String))
    {c : Pool ι iface Fault (Option Extraction) (Locks ι)}
    (h : Pool.Fair (Locking tokens) Keyspace.Passes Unraced (extracting calls clock earlier) c)
    {i : ι} {q : Ask} {k : Ans q → Eff (Option Extraction)} {a : Ans q} {s : Locks ι}
    (hp : c.prog i = .ask q k) (hw : Locking tokens i c.store q a s) {fileHash : String}
    {e : Entry ι String} (he : c.store.entries fileHash = some e) (hother : e.value ≠ tokens i) :
    s.entries fileHash = some e := by
  have hfollows : ∀ i, ((extracting calls clock earlier).prog i).Follows sighted MayLock
      (fun _ _ => True) {} := fun i => follows_extractWithLlm
  have hstart : Owned tokens (fun _ => {}) (extracting calls clock earlier) :=
    ⟨fun _ _ htoken => (nomatch htoken), fun _ _ hi => (nomatch hi)⟩
  obtain ⟨t, -, howned⟩ := h.follows hfollows hstart
    (fun t c i q k a s hfollows hJ hp hw hok => hJ.answered hfollows hp hw hok)
    (fun t c s _ hJ he _ => hJ.passes he)
  rcases hw.entries fileHash with hsame | ⟨hfree, -⟩ | ⟨-, hdelete⟩
  · exact hsame.trans he
  · cases hfree.symm.trans he
  · -- What it deletes is its own.
    refine absurd (howned.own i fileHash ?_ e he) hother
    rw [hp]
    exact congrArg some hdelete

end

/-! ## Two calls for one file -/

/-- Each reads the same file, with nobody to ask. -/
def twice (_ : Fin 2) : Call := ⟨{ grade := fun _ => .low }, "4f1c", 9⟩

/-- Their tokens. -/
def marks (i : Fin 2) : String := if i = 0 then "a" else "b"

/-- The first call has found its lock its own, and the second is about to take one. -/
theorem releasing : ∃ c : Pool (Fin 2) iface Fault (Option Extraction) (Locks (Fin 2)),
    Pool.Fair (Locking marks) Keyspace.Passes Unraced (extracting twice 0 fun _ => none) c ∧
      (∃ k, c.prog 0 = .ask (.lockDelete "4f1c") k) ∧
      (∃ k, c.prog 1 = .ask (.lockSet "4f1c" "b") k) ∧ c.store.clock = 0 ∧
      c.store.entries "4f1c" = some ⟨"a", 0 + extractionLockTtlS, some 0⟩ := by
  have hstart : Pool.Fair (Locking marks) Keyspace.Passes Unraced
      (extracting twice 0 fun _ => none) (extracting twice 0 fun _ => none) := .start
  have hchain := Pool.Fair.act hstart (i := 0) rfl (.beside (q := .candidates) trivial (some []))
    fun _ _ _ h => h
  have hnamed := Pool.Fair.act hchain (i := 0) rfl .named fun _ _ _ h => h
  have htook := Pool.Fair.act hnamed (i := 0) rfl (.took rfl) (by
    -- Nobody is releasing yet.
    intro j fileHash hj
    match j with
    | 0 => cases hj
    | 1 => cases hj)
  have hmissed := Pool.Fair.act htook (i := 0) rfl
    (.beside (q := .redisGet "4f1c") trivial (Except.ok none)) fun _ _ _ h => h
  have hunread := Pool.Fair.act hmissed (i := 0) rfl
    (.beside (q := .rowGet "4f1c") trivial (Except.ok none)) fun _ _ _ h => h
  have hwalked := Pool.Fair.act hunread (i := 0) rfl
    (.beside (q := .walk (.log (.chainExhausted "4f1c" 0))) trivial ()) fun _ _ _ h => h
  have hfound := Pool.Fair.act hwalked (i := 0) rfl .got fun _ _ _ h => h
  have hchain' := Pool.Fair.act hfound (i := 1) rfl (.beside (q := .candidates) trivial (some []))
    fun _ _ _ h => h
  have hnamed' := Pool.Fair.act hchain' (i := 1) rfl .named fun _ _ _ h => h
  exact ⟨_, hnamed', ⟨_, rfl⟩, ⟨_, rfl⟩, rfl, Keyspace.entries_set_self _ _ _ _⟩

/-- While the first has its lock, the second leaves it alone. -/
theorem locks_spared_releasing : ∃ c : Pool (Fin 2) iface Fault (Option Extraction) (Locks (Fin 2)),
    Pool.Fair (Locking marks) Keyspace.Passes Unraced (extracting twice 0 fun _ => none) c ∧
      ∀ a s, Locking marks 1 c.store (.lockSet "4f1c" "b") a s →
        s.entries "4f1c" = some ⟨"a", 0 + extractionLockTtlS, some 0⟩ := by
  obtain ⟨c, hfair, -, ⟨k, hk⟩, -, he⟩ := releasing
  exact ⟨c, hfair, fun a s hw => locks_spared marks twice 0 _ hfair hk hw he (by decide)⟩

/-- **A release can delete another's lock**: its own expires when it has read its token in it, the
other call is granted the lock, and that is the one deleted. -/
theorem not_locks_spared : ¬ ∀ (c : Pool (Fin 2) iface Fault (Option Extraction) (Locks (Fin 2))),
    Pool.Reach (Locking marks) Keyspace.Passes (extracting twice 0 fun _ => none) c →
      ∀ (i : Fin 2) (q : Ask) (k : Ans q → Eff (Option Extraction)) (a : Ans q)
        (s : Locks (Fin 2)), c.prog i = .ask q k → Locking marks i c.store q a s →
        ∀ (fileHash : String) (e : Entry (Fin 2) String), c.store.entries fileHash = some e →
          e.value ≠ marks i → s.entries fileHash = some e := by
  intro h
  obtain ⟨c, hfair, ⟨k, hk⟩, ⟨k', hk'⟩, hclock, he⟩ := releasing
  have hlate := Pool.Reach.env hfair.reach (.tick (t := 60) (by rw [hclock]; norm_num))
  have hgone := Pool.Reach.env hlate (.expires (k := "4f1c") he (by norm_num [extractionLockTtlS]))
  have htook := Pool.Reach.act hgone (i := 1) hk' (.took (Keyspace.entries_del_self _))
  have hother : ("b" : String) ≠ marks 0 := by
    show ("b" : String) ≠ "a"
    decide
  have hspared := h _ htook 0 (.lockDelete "4f1c") k (Except.ok ()) _
    ((Function.update_of_ne (show (0 : Fin 2) ≠ 1 by decide) (k' (Except.ok true)) _).trans hk)
    (.deleted (Except.ok ())) "4f1c" ⟨"b", 60 + extractionLockTtlS, some 1⟩
    (Keyspace.entries_set_self _ _ _ _) hother
  rw [Keyspace.entries_del_self] at hspared
  cases hspared

end Lane

end Perception

end LlmGateway
