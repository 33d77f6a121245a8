import LlmGateway.Cache.Idempotency
import Mathlib.Algebra.Order.Ring.Rat
import Mathlib.Tactic.NormNum

/-!
# Who holds a key

Any number of requests over one Redis, each with its own key, their commands
in any order. The request that took a key with `SET NX` is alone with it for as
long as its entry lasts; a claim that is granted because a `GET` found nothing
has no entry, and settles another's.
-/

namespace LlmGateway

namespace Idempotency

open Effects Json

variable {F ι : Type}

abbrev Store (F ι : Type) : Type := Keyspace ι String (Text F)

/-- Redis, answering every command of request `i`, and whatever the request comes to. -/
inductive Answers (i : ι) : World (iface F) (Store F ι)
  | took {s : Store F ι} {key : String} {value : Text F} {nx : Bool} {ex : ℕ}
      (h : nx = true → s.entries key = none) :
      Answers i s (.set key value nx ex) (Except.ok true) (s.set i key value ex)
  | taken {s : Store F ι} {key : String} {value : Text F} {ex : ℕ} (h : s.entries key ≠ none) :
      Answers i s (.set key value true ex) (Except.ok false) s
  | got {s : Store F ι} {key : String} : Answers i s (.get key) (Except.ok (s.read key)) s
  | deleted {s : Store F ι} {key : String} :
      Answers i s (.delete key) (Except.ok (if (s.entries key).isSome then 1 else 0)) (s.del key)
  | served {s : Store F ι} (answer : Option (List (String × Value F) × Option String)) :
      Answers i s .serve answer s

/-- Requests that have not begun, over what earlier ones left. -/
def callers (tickets : ι → ClaimTicket) (clock : ℚ)
    (earlier : String → Option (Envelope F × ℚ)) : Pool ι (iface F) Exn Unit (Store F ι) :=
  ⟨⟨clock, fun key => (earlier key).map fun (envelope, deadline) =>
    ⟨.json envelope.toJson, deadline, none⟩⟩, fun i => (tickets i).request⟩

/-! ## Holding a claim -/

namespace Ask

/-- It settles a claim. -/
def settles : Ask F → Bool
  | .set _ _ nx _ => !nx
  | .delete _ => true
  | .get _ | .serve => false

/-- Only a request whose claim was granted and is not settled asks this. -/
def holders : Ask F → Bool
  | .serve => true
  | q => q.settles

end Ask

/-- The request's claim is outstanding. -/
def Outstanding (p : Eff F Unit) : Prop := ∃ q, p.question = some q ∧ q.holders = true

/-- It is about to settle its claim. -/
def Settling (p : Eff F Unit) : Prop := ∃ q, p.question = some q ∧ q.settles = true

variable (tickets : ι → ClaimTicket) (c c' : Pool ι (iface F) Exn Unit (Store F ι))

/-- **Mutual exclusion.** -/
structure Exclusive : Prop where
  /-- No two requests hold one key. -/
  alone : ∀ i j, Outstanding (c.prog i) → Outstanding (c.prog j) →
    (tickets i).redisKey = (tickets j).redisKey → i = j
  /-- What a request completes or releases is the entry of its own claim. -/
  own : ∀ i, Settling (c.prog i) →
    ∀ e, c.store.entries (tickets i).redisKey = some e → e.author = some i

/-- No claim is granted because its `GET` found nothing. -/
def Found : Prop :=
  ∀ i key, (c.prog i).question = some (.get key) → Outstanding (c'.prog i) →
    c.store.entries key ≠ none

/-- No entry goes by itself while the claim that wrote it is outstanding. -/
def Lasting : Prop :=
  c'.prog = c.prog → ∀ i e, Outstanding (c.prog i) →
    c.store.entries (tickets i).redisKey = some e → e.author = some i →
      c'.store.entries (tickets i).redisKey ≠ none

variable {tickets c c'}

/-! ## What a request can do -/

namespace ClaimTicket

variable (ticket : ClaimTicket)

/-- A claim that was refused the key. -/
def collided : Eff F (ClaimResult F) := do
  let commands ← (do let raw ← get ticket.redisKey; return some raw : Eff F _).attempt
  ticket.verdict commands

/-- A request that was. -/
def refused : Eff F Unit := do
  let result ← ticket.collided
  ticket.proceed result

/-- The command a request settles its claim with. -/
def settlement : Option (List (String × Value F) × Option String) → Ask F
  | some (response, cacheStatus) =>
    .set ticket.redisKey (.json (ticket.finished response cacheStatus).toJson) false ttlS
  | none => .delete ticket.redisKey

/-- Where a request stands. -/
inductive Stage : Eff F Unit → Prop
  | fresh : Stage ticket.request
  | refused : Stage ticket.refused
  | serving : Stage (ticket.proceed .claimed)
  | settling (answer : Option (List (String × Value F) × Option String)) :
      Stage (ticket.settle answer)
  | ended : Stage (.ret ())

variable {ticket}

theorem question_settle (answer : Option (List (String × Value F) × Option String)) :
    (ticket.settle answer).question = some (ticket.settlement answer) := by
  cases answer <;> rfl

theorem settles_settlement (answer : Option (List (String × Value F) × Option String)) :
    (ticket.settlement answer).settles = true := by
  cases answer <;> rfl

/-- A granted claim of what was read is of nothing, or of what cannot be read. -/
theorem outstanding_proceed_classify {raw : Option (Text F)}
    (h : Outstanding (ticket.proceed (ticket.classify raw))) :
    raw = none ∨ ∃ text e, raw = some text ∧ Envelope.fromJson text = .error e := by
  cases raw with
  | none => exact .inl rfl
  | some text =>
    refine .inr ⟨text, ?_⟩
    cases hread : Envelope.fromJson text with
    | error e => exact ⟨e, rfl, rfl⟩
    | ok stored =>
      simp only [classify, hread] at h
      obtain ⟨q, hq, -⟩ := h
      split at hq
      · cases hq
      · split at hq <;> cases hq

/-- What one command of a request does. -/
inductive Step (i : ι) (s : Store F ι) (ticket : ClaimTicket) :
    Eff F Unit → Store F ι → Eff F Unit → Prop
  | took (h : s.entries ticket.redisKey = none) :
      Step i s ticket ticket.request
        (s.set i ticket.redisKey (.json ticket.pending.toJson) ttlS) (ticket.proceed .claimed)
  | taken : Step i s ticket ticket.request s ticket.refused
  | got : Step i s ticket ticket.refused s
      (ticket.proceed (ticket.classify (s.read ticket.redisKey)))
  | served (answer : Option (List (String × Value F) × Option String)) :
      Step i s ticket (ticket.proceed .claimed) s (ticket.settle answer)
  | completed (response : List (String × Value F)) (cacheStatus : Option String) :
      Step i s ticket (ticket.complete response cacheStatus)
        (s.set i ticket.redisKey (.json (ticket.finished response cacheStatus).toJson) ttlS)
        (.ret ())
  | released : Step i s ticket ticket.release (s.del ticket.redisKey) (.ret ())

/-- **One command of a request**, answered. -/
theorem Stage.step {i : ι} {s s' : Store F ι} {q : Ask F} {k : Ans q → Eff F Unit} {a : Ans q}
    (h : Stage ticket (.ask q k)) (hw : Answers i s q a s') :
    Step i s ticket (.ask q k) s' (k a) := by
  generalize hp : (.ask q k : Eff F Unit) = p at h ⊢
  cases h with
  | fresh =>
    obtain ⟨rfl, hk⟩ := Prog.ask.inj hp
    obtain rfl := eq_of_heq hk
    cases hw with
    | took hfree => exact .took (hfree rfl)
    | taken _ => exact .taken
  | refused =>
    obtain ⟨rfl, hk⟩ := Prog.ask.inj hp
    obtain rfl := eq_of_heq hk
    cases hw with
    | got => exact .got
  | serving =>
    obtain ⟨rfl, hk⟩ := Prog.ask.inj hp
    obtain rfl := eq_of_heq hk
    cases hw
    exact .served _
  | settling answer =>
    cases answer with
    | some pair =>
      obtain ⟨response, cacheStatus⟩ := pair
      obtain ⟨rfl, hk⟩ := Prog.ask.inj hp
      obtain rfl := eq_of_heq hk
      cases hw with
      | took _ => exact .completed response cacheStatus
    | none =>
      obtain ⟨rfl, hk⟩ := Prog.ask.inj hp
      obtain rfl := eq_of_heq hk
      cases hw with
      | deleted => exact .released
  | ended => cases hp

section

variable {i : ι} {s s' : Store F ι} {p p' : Eff F Unit}

/-- A stored envelope. -/
def Readable (_ : String) (e : Entry ι (Text F)) : Prop :=
  ∃ envelope : Envelope F, e.value = .json envelope.toJson

theorem stage_proceed (result : ClaimResult F) : Stage ticket (ticket.proceed result) := by
  cases result with
  | claimed => exact .serving
  | replay _ => exact .ended
  | inFlight _ => exact .ended
  | fingerprintMismatch _ => exact .ended

theorem Step.stage (h : Step i s ticket p s' p') : Stage ticket p' := by
  cases h with
  | took _ => exact .serving
  | taken => exact .refused
  | got => exact stage_proceed _
  | served answer => exact .settling answer
  | completed _ _ => exact .ended
  | released => exact .ended

theorem Step.readable (h : Step i s ticket p s' p') (hs : s.Holds Readable) :
    s'.Holds Readable := by
  cases h with
  | took _ => exact hs.set ⟨_, rfl⟩
  | taken => exact hs
  | got => exact hs
  | served _ => exact hs
  | completed _ _ => exact hs.set ⟨_, rfl⟩
  | released => exact hs.del

theorem settling_settle (answer : Option (List (String × Value F) × Option String)) :
    Settling (ticket.settle answer) :=
  ⟨_, question_settle answer, settles_settlement answer⟩

/-- **A request leaves another's entry alone**, if what it settles is its own. -/
theorem Step.spares (h : Step i s ticket p s' p')
    (hown : Settling p → ∀ e, s.entries ticket.redisKey = some e → e.author = some i)
    {j : ι} (hij : j ≠ i) {key : String} {e : Entry ι (Text F)} (he : s.entries key = some e)
    (hj : e.author = some j) : s'.entries key = some e := by
  have hne : Settling p → key ≠ ticket.redisKey := by
    intro hp hkey
    have hi := hown hp e (hkey ▸ he)
    exact hij (Option.some.inj (hj.symm.trans hi))
  cases h with
  | took hfree =>
    have hkey : key ≠ ticket.redisKey := fun heq => by
      rw [heq, hfree] at he
      cases he
    rw [Keyspace.entries_set_of_ne _ _ _ _ hkey]
    exact he
  | taken => exact he
  | got => exact he
  | served _ => exact he
  | completed response cacheStatus =>
    rw [Keyspace.entries_set_of_ne _ _ _ _ (hne (settling_settle (some (response, cacheStatus))))]
    exact he
  | released =>
    rw [Keyspace.entries_del_of_ne _ (hne (settling_settle none))]
    exact he

theorem not_outstanding_ret : ¬ Outstanding (.ret () : Eff F Unit) := fun ⟨_, hq, _⟩ => nomatch hq

/-- **A request whose claim is outstanding has its entry**, if its `GET` did not get it the claim. -/
theorem Step.holds (h : Step i s ticket p s' p') (hs : s.Holds Readable)
    (hfound : p.question = some (.get ticket.redisKey) → Outstanding p' →
      s.entries ticket.redisKey ≠ none)
    (hheld : Outstanding p → ∃ e, s.entries ticket.redisKey = some e ∧ e.author = some i)
    (hp' : Outstanding p') : ∃ e, s'.entries ticket.redisKey = some e ∧ e.author = some i := by
  cases h with
  | took _ => exact ⟨_, Keyspace.entries_set_self _ _ _ _, rfl⟩
  | taken =>
    obtain ⟨q, hq, hholders⟩ := hp'
    cases hq
    cases hholders
  | got =>
    have hsome := hfound rfl hp'
    obtain ⟨e, he⟩ := Option.ne_none_iff_exists'.mp hsome
    obtain ⟨envelope, henvelope⟩ := hs _ e he
    have hread : s.read ticket.redisKey = some (.json envelope.toJson) := by
      rw [Keyspace.read, he, Option.map_some, henvelope]
    -- What is there is an envelope, and no envelope grants a claim.
    rcases outstanding_proceed_classify hp' with hnone | ⟨text, err, htext, herr⟩
    · rw [hread] at hnone
      cases hnone
    · rw [hread] at htext
      obtain rfl := Option.some.inj htext
      rw [Envelope.fromJson_toJson] at herr
      cases herr
  | served _ => exact hheld ⟨.serve, rfl, rfl⟩
  | completed _ _ => exact absurd hp' not_outstanding_ret
  | released => exact absurd hp' not_outstanding_ret

end

end ClaimTicket

/-! ## Over runs -/

theorem Settling.outstanding {p : Eff F Unit} (h : Settling p) : Outstanding p := by
  obtain ⟨q, hq, hsettles⟩ := h
  refine ⟨q, hq, ?_⟩
  cases q with
  | serve => rfl
  | get key => cases hsettles
  | set key value nx ex => exact hsettles
  | delete key => rfl

/-- **What a run keeps**: whoever holds a key has its entry there. -/
structure Kept (tickets : ι → ClaimTicket) (c : Pool ι (iface F) Exn Unit (Store F ι)) : Prop where
  stage : ∀ i, (tickets i).Stage (c.prog i)
  readable : c.store.Holds ClaimTicket.Readable
  held : ∀ i, Outstanding (c.prog i) →
    ∃ e, c.store.entries (tickets i).redisKey = some e ∧ e.author = some i

theorem Kept.own (h : Kept tickets c) (i : ι) (hi : Settling (c.prog i)) (e : Entry ι (Text F))
    (he : c.store.entries (tickets i).redisKey = some e) : e.author = some i := by
  obtain ⟨e', he', hauthor⟩ := h.held i hi.outstanding
  obtain rfl := Option.some.inj (he'.symm.trans he)
  exact hauthor

theorem Kept.exclusive (h : Kept tickets c) : Exclusive tickets c where
  alone i j hi hj hkey := by
    obtain ⟨e, he, hauthor⟩ := h.held i hi
    obtain ⟨e', he', hauthor'⟩ := h.held j hj
    rw [hkey] at he
    obtain rfl := Option.some.inj (he.symm.trans he')
    exact Option.some.inj (hauthor.symm.trans hauthor')
  own := h.own

theorem kept_callers (tickets : ι → ClaimTicket) (clock : ℚ)
    (earlier : String → Option (Envelope F × ℚ)) : Kept tickets (callers tickets clock earlier) where
  stage i := .fresh
  readable key e he := by
    obtain ⟨⟨envelope, deadline⟩, -, rfl⟩ := Option.map_eq_some_iff.mp he
    exact ⟨envelope, rfl⟩
  held i hi := by
    obtain ⟨q, hq, hholders⟩ := hi
    cases hq
    cases hholders

section

variable [DecidableEq ι]

theorem Kept.answered {i : ι} {q : Ask F} {k : Ans q → Eff F Unit} {a : Ans q} {s : Store F ι}
    (h : Kept tickets c) (hp : c.prog i = .ask q k) (hw : Answers i c.store q a s)
    (hfound : Found c (c.answered i k a s)) : Kept tickets (c.answered i k a s) := by
  have hstage := h.stage i
  have hown := h.own i
  have hheld := h.held i
  rw [hp] at hstage hown hheld
  have hstep := hstage.step hw
  have hself : (c.answered i k a s).prog i = k a := Function.update_self _ _ _
  have hother : ∀ j, j ≠ i → (c.answered i k a s).prog j = c.prog j := fun j hj =>
    Function.update_of_ne hj _ _
  refine ⟨fun j => ?_, hstep.readable h.readable, fun j hj => ?_⟩
  · by_cases hij : j = i
    · subst hij
      rw [hself]
      exact hstep.stage
    · rw [hother j hij]
      exact h.stage j
  · by_cases hij : j = i
    · subst hij
      rw [hself] at hj
      refine hstep.holds h.readable (fun hq hk => ?_) hheld hj
      refine hfound j _ ?_ (hself ▸ hk)
      rw [hp]
      exact hq
    · rw [hother j hij] at hj
      obtain ⟨e, he, hauthor⟩ := h.held j hj
      exact ⟨e, hstep.spares hown hij he hauthor, hauthor⟩

omit [DecidableEq ι] in
theorem Kept.passes {s : Store F ι} (h : Kept tickets c) (hp : Keyspace.Passes c.store s)
    (hlasting : Lasting tickets c ⟨s, c.prog⟩) : Kept tickets ⟨s, c.prog⟩ := by
  refine ⟨h.stage, h.readable.passes hp, fun i hi => ?_⟩
  obtain ⟨e, he, hauthor⟩ := h.held i hi
  have hstays := hlasting rfl i e hi he hauthor
  cases hp with
  | tick _ => exact ⟨e, he, hauthor⟩
  | @expires key _ _ _ =>
    have hne : (tickets i).redisKey ≠ key := fun heq => hstays (by rw [heq]; simp)
    exact ⟨e, (Keyspace.entries_del_of_ne _ hne).trans he, hauthor⟩

/-- **A claim excludes every other of its key** in every run in which no claim is granted because
its `GET` found nothing, and no entry goes by itself while its claim is outstanding. -/
theorem claims_exclude (tickets : ι → ClaimTicket) (clock : ℚ)
    (earlier : String → Option (Envelope F × ℚ)) {c : Pool ι (iface F) Exn Unit (Store F ι)}
    (h : Pool.Fair Answers Keyspace.Passes (fun c c' => Found c c' ∧ Lasting tickets c c')
      (callers tickets clock earlier) c) : Exclusive tickets c := by
  have hkept : Kept tickets c := h.invariant (kept_callers tickets clock earlier)
    (fun c i q k a s hk hp hw hok => hk.answered hp hw hok.1)
    (fun c s hk hp hok => hk.passes hp hok.2)
  exact hkept.exclusive

/-! ## Steps that are as they should be -/

omit [DecidableEq ι] in
/-- Time and the TTL grant no claim. -/
theorem found_beside (c : Pool ι (iface F) Exn Unit (Store F ι)) (s : Store F ι) :
    Found c ⟨s, c.prog⟩ := by
  intro i key hq hout
  obtain ⟨q, hq', hholders⟩ := hout
  obtain rfl := Option.some.inj (hq.symm.trans hq')
  cases hholders

/-- Nor does a command other than a `GET`. -/
theorem found_answered {i : ι} {q : Ask F} {k : Ans q → Eff F Unit} (hp : c.prog i = .ask q k)
    (hq : ∀ key, q ≠ .get key) (a : Ans q) (s : Store F ι) : Found c (c.answered i k a s) := by
  intro j key hget hout
  by_cases hij : j = i
  · subst hij
    rw [hp] at hget
    exact absurd (Option.some.inj hget) (hq key)
  · have hother : (c.answered i k a s).prog j = c.prog j := Function.update_of_ne hij _ _
    rw [hother] at hout
    exact found_beside c s j key hget hout

/-- A command lets no entry go by itself. -/
theorem lasting_answered (tickets : ι → ClaimTicket) {i : ι} {q : Ask F} {k : Ans q → Eff F Unit}
    (hp : c.prog i = .ask q k) (a : Ans q) (s : Store F ι) :
    Lasting tickets c (c.answered i k a s) := by
  intro hsame
  have hself : (c.answered i k a s).prog i = k a := Function.update_self _ _ _
  have hback : k a = c.prog i := hself.symm.trans (congrFun hsame i)
  exact absurd hback (Prog.ne_ask_self hp a)

/-- Three requests with one key. -/
def retry (_ : Fin 3) : ClaimTicket := ⟨"k", "u", "f", "r", false⟩

/-- One of them takes the key and the next is refused it. -/
theorem claims_exclude_refused :
    ∃ c : Pool (Fin 3) (iface Unit) Exn Unit (Store Unit (Fin 3)),
      Exclusive retry c ∧ Outstanding (c.prog 0) ∧ ¬ Outstanding (c.prog 1) := by
  have hstart : Pool.Fair Answers Keyspace.Passes (fun c c' => Found c c' ∧ Lasting retry c c')
      (callers (F := Unit) retry 0 fun _ => none) (callers retry 0 fun _ => none) := .start
  have htook := Pool.Fair.act hstart (i := 0) rfl (.took fun _ => rfl)
    ⟨found_answered rfl (fun _ h => by cases h) _ _, lasting_answered retry rfl _ _⟩
  have hrefused := Pool.Fair.act htook (i := 1) rfl (.taken (by simp [Pool.answered, retry]))
    ⟨found_answered rfl (fun _ h => by cases h) _ _, lasting_answered retry rfl _ _⟩
  refine ⟨_, claims_exclude retry 0 (fun _ => none) hrefused, ⟨.serve, rfl, rfl⟩, ?_⟩
  rintro ⟨q, hq, hholders⟩
  cases hq
  cases hholders

/-- The holder releases between another's two commands: that one is granted the claim
without an entry, and a third takes the key beside it. -/
theorem released_beside : ∃ c : Pool (Fin 3) (iface Unit) Exn Unit (Store Unit (Fin 3)),
    Pool.Fair Answers Keyspace.Passes (Lasting retry) (callers retry 0 fun _ => none) c ∧
      Outstanding (c.prog 1) ∧ Outstanding (c.prog 2) := by
  have hstart : Pool.Fair Answers Keyspace.Passes (Lasting retry)
      (callers (F := Unit) retry 0 fun _ => none) (callers retry 0 fun _ => none) := .start
  have htook := Pool.Fair.act hstart (i := 0) rfl (.took fun _ => rfl)
    (lasting_answered retry rfl _ _)
  have hrefused := Pool.Fair.act htook (i := 1) rfl (.taken (by simp [Pool.answered, retry]))
    (lasting_answered retry rfl _ _)
  have hfailed := Pool.Fair.act hrefused (i := 0) rfl (.served none)
    (lasting_answered retry rfl _ _)
  have hreleased := Pool.Fair.act hfailed (i := 0) rfl .deleted (lasting_answered retry rfl _ _)
  have hgranted := Pool.Fair.act hreleased (i := 1) rfl .got (lasting_answered retry rfl _ _)
  have hbeside := Pool.Fair.act hgranted (i := 2) rfl
    (.took fun _ => by simp [Pool.answered, retry]) (lasting_answered retry rfl _ _)
  exact ⟨_, hbeside, ⟨.serve, rfl, rfl⟩, ⟨.serve, rfl, rfl⟩⟩

/-- The holder takes longer than the entry lasts. -/
theorem expired_beside : ∃ c : Pool (Fin 3) (iface Unit) Exn Unit (Store Unit (Fin 3)),
    Pool.Fair Answers Keyspace.Passes Found (callers retry 0 fun _ => none) c ∧
      Outstanding (c.prog 0) ∧ Outstanding (c.prog 1) := by
  have hstart : Pool.Fair Answers Keyspace.Passes Found
      (callers (F := Unit) retry 0 fun _ => none) (callers retry 0 fun _ => none) := .start
  have htook := Pool.Fair.act hstart (i := 0) rfl (.took fun _ => rfl)
    (found_answered rfl (fun _ h => by cases h) _ _)
  have hlate := Pool.Fair.env htook (.tick (t := 86400) (by norm_num [Pool.answered, callers]))
    (found_beside _ _)
  have hexpired := Pool.Fair.env hlate (.expires (k := (retry 0).redisKey)
    (e := ⟨.json (retry 0).pending.toJson, 0 + ttlS, some 0⟩)
    (by simp [Pool.answered, callers]) (by norm_num [ttlS])) (found_beside _ _)
  have hbeside := Pool.Fair.act hexpired (i := 1) rfl
    (.took fun _ => by simp [retry]) (found_answered rfl (fun _ h => by cases h) _ _)
  exact ⟨_, hbeside, ⟨.serve, rfl, rfl⟩, ⟨.serve, rfl, rfl⟩⟩

/-- **Two requests can hold one key**: a claim may be granted on a `GET` that found nothing, and
an entry may expire before its claim is settled. Either is enough. -/
theorem not_claims_exclude :
    (¬ ∀ c : Pool (Fin 3) (iface Unit) Exn Unit (Store Unit (Fin 3)),
      Pool.Reach Answers Keyspace.Passes (callers retry 0 fun _ => none) c → Exclusive retry c) ∧
    (¬ ∀ c : Pool (Fin 3) (iface Unit) Exn Unit (Store Unit (Fin 3)),
      Pool.Fair Answers Keyspace.Passes (Lasting retry) (callers retry 0 fun _ => none) c →
        Exclusive retry c) ∧
    ¬ ∀ c : Pool (Fin 3) (iface Unit) Exn Unit (Store Unit (Fin 3)),
      Pool.Fair Answers Keyspace.Passes Found (callers retry 0 fun _ => none) c →
        Exclusive retry c := by
  obtain ⟨c, hfair, h₁, h₂⟩ := released_beside
  obtain ⟨d, hfair', h₀, h₁'⟩ := expired_beside
  refine ⟨fun h => ?_, fun h => ?_, fun h => ?_⟩
  · have hsame := (h c hfair.reach).alone 1 2 h₁ h₂ rfl
    cases hsame
  · have hsame := (h c hfair).alone 1 2 h₁ h₂ rfl
    cases hsame
  · have hsame := (h d hfair').alone 0 1 h₀ h₁' rfl
    cases hsame

end

end Idempotency

end LlmGateway
