import LlmGateway.Effects.Order
import LlmGateway.Perception.Upgrade

/-!
# The fast copy of a reading

Postgres has a row for each file, and replaces only a local reading. Redis has
a copy, which readers prefer and which every persist writes second, whatever
Postgres said. Here any number of chains run over both, their commands in any
order.
-/

namespace LlmGateway

namespace Perception

namespace Lane

open Effects

/-! ## Persisting -/

/-- The questions of the lane, and the two writes of a persist. -/
inductive StoreAsk where
  | lane (q : Ask)
  /-- `extractions_repo.upsert`, and the commit. -/
  | upsert (extraction : Extraction)
  /-- A question of the write behind it. -/
  | second (q : Ask)

def StoreAns : StoreAsk → Type
  | .lane q => Ans q
  | .upsert _ => Except Fault Unit
  | .second q => Ans q

/-- The interface of the lane over its two stores. -/
abbrev stores : Iface := ⟨StoreAsk, StoreAns⟩

/-- `persist`: Postgres first, Redis second. -/
def persist (cfg : Config) (extraction : Extraction) : Prog stores Fault Unit := do
  .ask (.upsert extraction) .ofExcept
  (cache cfg extraction).embed .second fun _ a => a

/-- What the walk sees of a persist that failed. -/
def Fault.raised : Fault → Exn
  | .exn e => e
  | .redis => .other "RedisError"
  | .fileUnreadable _ _ => .other "FileUnreadable"

/-- A question of the lane over the two stores. -/
def expand (cfg : Config) : (q : Ask) → Prog stores Fault (Ans q)
  | .persistLocal extraction => (persist cfg extraction).attempt
  | .walk (.persist extraction) => do
    let r ← ((persist cfg extraction).attempt : Prog stores Fault (Except Fault Unit))
    return r.mapError Fault.raised
  | q => .ask (.lane q) .ret

/-! ## The two stores -/

/-- The rows of `file_extractions`, and the copies in Redis. -/
structure Shelf where
  rows : String → Option FileExtraction := fun _ => none
  copies : String → Option Extraction := fun _ => none

/-- The row of a reading. -/
def rowOf (extraction : Extraction) : FileExtraction where
  fileHash := extraction.fileHash
  text := extraction.text
  extractedByProvider := extraction.provider
  extractedByModel := extraction.model
  extractionConfidence := extraction.confidence.name
  tier := extraction.tier

namespace Shelf

/-- `upsert`: a row is inserted, or replaces a local one. -/
def upsert (s : Shelf) (extraction : Extraction) : Shelf :=
  if (s.rows extraction.fileHash).all (·.tier = "local") then
    { s with rows := Function.update s.rows extraction.fileHash (some (rowOf extraction)) }
  else s

/-- `SET extract:{hash}`. -/
def set (s : Shelf) (extraction : Extraction) : Shelf :=
  { s with copies := Function.update s.copies extraction.fileHash (some extraction) }

/-- A copy goes: it expires, or is evicted. -/
inductive Loses (s : Shelf) : Shelf → Prop
  | copy (fileHash : String) :
      Loses s { s with copies := Function.update s.copies fileHash none }

end Shelf

/-- The questions that have nothing to do with the two stores. -/
def Ask.Beside : Ask → Prop
  | .redisGet _ | .rowGet _ | .redisSet _ => False
  | _ => True

/-- The two stores, and whatever else a chain is answered. A command that fails may have been
carried out. -/
inductive Keeping : World iface Shelf
  | got {s : Shelf} {fileHash : String} :
      Keeping s (.redisGet fileHash) (Except.ok ((s.copies fileHash).map some)) s
  | ungot {s : Shelf} {fileHash : String} (e : Fault) :
      Keeping s (.redisGet fileHash) (Except.error e) s
  | row {s : Shelf} {fileHash : String} :
      Keeping s (.rowGet fileHash) (Except.ok (s.rows fileHash)) s
  | unread {s : Shelf} {fileHash : String} (e : Fault) :
      Keeping s (.rowGet fileHash) (Except.error e) s
  | set {s : Shelf} {extraction : Extraction} (r : Except Fault Unit) :
      Keeping s (.redisSet extraction) r (s.set extraction)
  | unset {s : Shelf} {extraction : Extraction} (e : Fault) :
      Keeping s (.redisSet extraction) (Except.error e) s
  | beside {s : Shelf} {q : Ask} (h : q.Beside) (a : Ans q) : Keeping s q a s

inductive Shelving : World stores Shelf
  | lane {s s' : Shelf} {q : Ask} {a : Ans q} (h : Keeping s q a s') :
      Shelving s (.lane q) a s'
  | second {s s' : Shelf} {q : Ask} {a : Ans q} (h : Keeping s q a s') :
      Shelving s (.second q) a s'
  | upserted {s : Shelf} {extraction : Extraction} (r : Except Fault Unit) :
      Shelving s (.upsert extraction) r (s.upsert extraction)
  | unwritten {s : Shelf} {extraction : Extraction} (e : Fault) :
      Shelving s (.upsert extraction) (Except.error e) s

/-- A call of `_run_chain`, in a process that has a Redis. -/
structure Chain where
  cfg : Config
  ref : FileRef
  spec : RenderSpec
  nativeWanted : Bool
  wired : cfg.redis = true

def Chain.run (chain : Chain) : Prog stores Fault Reading :=
  (runChain chain.cfg chain.ref chain.spec chain.nativeWanted).inline (expand chain.cfg)

variable {ι : Type}

/-- Chains that have not begun. -/
def reading (chains : ι → Chain) (shelf : Shelf) : Pool ι stores Fault Reading Shelf :=
  ⟨shelf, fun i => (chains i).run⟩

/-! ## The order of a persist's writes -/

/-- The reading of which Postgres has acknowledged the row, and Redis has yet to get the copy. -/
def owed (_ : Option Extraction) : Event stores → Option Extraction
  | ⟨.upsert extraction, .ok ()⟩ => some extraction
  | _ => none

/-- What is owed is asked next. -/
def Pays (t : Option Extraction) (q : StoreAsk) : Prop :=
  ∀ extraction, t = some extraction → q = .second (.redisSet extraction)

section

variable {cfg : Config}

theorem pays_none (q : StoreAsk) : Pays none q := fun _ h => nomatch h

/-- **A persist goes on from its row to its copy.** -/
theorem follows_persist (hredis : cfg.redis = true) (extraction : Extraction)
    (t : Option Extraction) (ht : t = none) :
    (persist cfg extraction).Follows owed Pays (fun _ t' => t' = none) t := by
  subst ht
  refine Prog.Follows.bind (Prog.Follows.ask (pays_none _) fun r => Prog.Follows.ofExcept ?_)
  match r with
  | .error e => rfl
  | .ok () =>
    show ((cache cfg extraction).embed StoreAsk.second fun _ a => a).Follows owed Pays
      (fun _ t' => t' = none) (some extraction)
    rw [cache, if_pos hredis]
    refine Prog.Follows.ask (fun e he => ?_) fun r => ?_
    · rw [Option.some.inj he]
    · match r with
      | .ok () => rfl
      | .error .redis => exact ⟨pays_none _, fun _ => rfl⟩
      | .error (.exn e) => rfl
      | .error (.fileUnreadable _ _) => rfl

theorem follows_expand (hredis : cfg.redis = true) (q : Ask) (t : Option Extraction)
    (ht : t = none) : (expand cfg q).Follows owed Pays (fun _ t' => t' = none) t := by
  have hask : (Prog.ask (.lane q) .ret : Prog stores Fault (Ans q)).Follows owed Pays
      (fun _ t' => t' = none) t := by
    subst ht
    exact Prog.Follows.ask (pays_none _) fun _ => rfl
  cases q with
  | persistLocal extraction => exact Prog.Follows.attempt (follows_persist hredis extraction t ht)
  | walk q =>
    cases q with
    | persist extraction =>
      refine Prog.Follows.bind (Prog.Follows.attempt ?_)
      exact (follows_persist hredis extraction t ht).mono fun r t' ht' => ht'
    | _ => exact hask
  | _ => exact hask

theorem follows_run (chain : Chain) :
    chain.run.Follows owed Pays (fun _ t' => t' = none) none :=
  Prog.Follows.inline (follows_expand chain.wired) rfl

/-- What is owed is the next question. -/
theorem question_of_owed {p : Prog stores Fault Reading} {extraction : Extraction}
    (h : p.Follows owed Pays (fun _ t' => t' = none) (some extraction)) :
    p.question = some (.second (.redisSet extraction)) := by
  cases p with
  | ret a => cases h
  | raise e => cases h
  | ask q k => exact congrArg some (h.1 extraction rfl)

end

/-! ## Over runs -/

namespace Shelf

variable {s : Shelf} {fileHash : String} {extraction : Extraction}

/-- Postgres holds a model's reading. -/
def Better (s : Shelf) (fileHash : String) : Prop :=
  ∃ row, s.rows fileHash = some row ∧ row.tier = "llm"

/-- Redis holds a reading that is not a model's. -/
def Worse (s : Shelf) (fileHash : String) : Prop :=
  ∃ extraction, s.copies fileHash = some extraction ∧ extraction.tier ≠ "llm"

theorem copies_upsert : (s.upsert extraction).copies = s.copies := by
  unfold upsert
  split <;> rfl

/-- A model's row was there, or is the one that was written. -/
theorem Better.of_upsert (h : (s.upsert extraction).Better fileHash) :
    s.Better fileHash ∨ (fileHash = extraction.fileHash ∧ extraction.tier = "llm") := by
  unfold upsert at h
  split at h
  · obtain ⟨row, hrow, htier⟩ := h
    by_cases hkey : fileHash = extraction.fileHash
    · subst hkey
      have hrow' : some (rowOf extraction) = some row :=
        (Function.update_self extraction.fileHash _ s.rows).symm.trans hrow
      obtain rfl := Option.some.inj hrow'
      exact .inr ⟨rfl, htier⟩
    · exact .inl ⟨row, (Function.update_of_ne hkey _ s.rows).symm.trans hrow, htier⟩
  · exact .inl h

theorem Worse.of_set (h : (s.set extraction).Worse fileHash) :
    (fileHash = extraction.fileHash ∧ extraction.tier ≠ "llm") ∨
      (fileHash ≠ extraction.fileHash ∧ s.Worse fileHash) := by
  obtain ⟨e, he, htier⟩ := h
  by_cases hkey : fileHash = extraction.fileHash
  · subst hkey
    have he' : some extraction = some e :=
      (Function.update_self extraction.fileHash _ s.copies).symm.trans he
    obtain rfl := Option.some.inj he'
    exact .inl ⟨rfl, htier⟩
  · exact .inr ⟨hkey, e, (Function.update_of_ne hkey _ s.copies).symm.trans he, htier⟩

theorem Worse.of_loses {s' : Shelf} (hl : Loses s s') (h : s'.Worse fileHash) :
    s.Worse fileHash := by
  obtain ⟨key⟩ := hl
  obtain ⟨e, he, htier⟩ := h
  by_cases hkey : fileHash = key
  · subst hkey
    have hnone : none = some e := (Function.update_self fileHash _ s.copies).symm.trans he
    cases hnone
  · exact ⟨e, (Function.update_of_ne hkey _ s.copies).symm.trans he, htier⟩

end Shelf

/-- A persist of a model's reading is between its two writes. -/
def OnItsWay (c : Pool ι stores Fault Reading Shelf) (fileHash : String) : Prop :=
  ∃ i extraction, (c.prog i).question = some (.second (.redisSet extraction)) ∧
    extraction.fileHash = fileHash ∧ extraction.tier = "llm"

/-- **What hides no reading**: while Postgres holds a model's reading and none is on its way to
Redis, no other is put there; and a persist of a model's reading, once the row is there, fails only
where Redis holds no other, or one more is on its way. -/
structure Unhiding (c c' : Pool ι stores Fault Reading Shelf) : Prop where
  above : ∀ fileHash, c.store.Better fileHash → ¬ OnItsWay c fileHash →
    c'.store.Worse fileHash → c.store.Worse fileHash
  upserted : ∀ i extraction k e, c.prog i = .ask (.upsert extraction) k →
    c'.prog i = k (Except.error e) → extraction.tier = "llm" →
    c'.store.Better extraction.fileHash → c.store.Worse extraction.fileHash →
    OnItsWay c' extraction.fileHash
  set : ∀ i extraction k e, c.prog i = .ask (.second (.redisSet extraction)) k →
    c'.prog i = k (Except.error e) → extraction.tier = "llm" →
    c'.store.copies = c.store.copies → c.store.Worse extraction.fileHash →
    OnItsWay c' extraction.fileHash

/-- Redis holds another's reading above a model's only while that one's copy is on its way. -/
def Covered (c : Pool ι stores Fault Reading Shelf) : Prop :=
  ∀ fileHash, c.store.Better fileHash → c.store.Worse fileHash → OnItsWay c fileHash

section

variable [DecidableEq ι] {c : Pool ι stores Fault Reading Shelf} {i : ι} {q : StoreAsk}
  {k : StoreAns q → Prog stores Fault Reading} {a : StoreAns q} {s : Shelf} {fileHash : String}

/-- A copy is on its way until it is sent. -/
theorem OnItsWay.answered (h : OnItsWay c fileHash) (hp : c.prog i = .ask q k)
    (hq : ∀ extraction : Extraction, q = .second (.redisSet extraction) →
      extraction.tier = "llm" → extraction.fileHash ≠ fileHash) :
    OnItsWay (c.answered i k a s) fileHash := by
  obtain ⟨j, extraction, hj, hhash, htier⟩ := h
  by_cases hij : j = i
  · subst hij
    rw [hp] at hj
    exact absurd hhash (hq extraction (Option.some.inj hj) htier)
  · refine ⟨j, extraction, ?_, hhash, htier⟩
    rw [show (c.answered i k a s).prog j = c.prog j from Function.update_of_ne hij _ _]
    exact hj

/-- The command of a chain that is carried out by a SET, whoever sends it. -/
theorem Covered.set {extraction : Extraction} (h : Covered c) (hp : c.prog i = .ask q k)
    (hq : q = .lane (.redisSet extraction) ∨ q = .second (.redisSet extraction))
    (hok : Unhiding c (c.answered i k a (c.store.set extraction))) :
    Covered (c.answered i k a (c.store.set extraction)) := by
  intro fileHash hbetter hworse
  have hsent : ∀ e : Extraction, q = .second (.redisSet e) → e = extraction := by
    intro e he
    rcases hq with hq | hq
    · cases hq.symm.trans he
    · cases hq.symm.trans he
      rfl
  rcases hworse.of_set with ⟨rfl, htier⟩ | ⟨hkey, hworse'⟩
  · have hway : OnItsWay c extraction.fileHash := by
      by_contra hnone
      exact hnone (h _ hbetter (hok.above _ hbetter hnone hworse))
    refine hway.answered hp fun e he hllm => ?_
    obtain rfl := hsent e he
    exact absurd hllm htier
  · refine (h _ hbetter hworse').answered hp fun e he _ => ?_
    obtain rfl := hsent e he
    exact Ne.symm hkey

/-- A command that leaves the stores alone, unless it is a copy that misses Redis. -/
theorem Covered.same (h : Covered c) (hp : c.prog i = .ask q k)
    (hq : ∀ extraction : Extraction, q = .second (.redisSet extraction) →
      extraction.tier = "llm" → c.store.Worse extraction.fileHash →
        OnItsWay (c.answered i k a c.store) extraction.fileHash) :
    Covered (c.answered i k a c.store) := by
  intro fileHash hbetter hworse
  by_cases hsent : ∃ extraction : Extraction, q = .second (.redisSet extraction) ∧
      extraction.tier = "llm" ∧ extraction.fileHash = fileHash
  · obtain ⟨extraction, he, htier, rfl⟩ := hsent
    exact hq extraction he htier hworse
  · refine (h _ hbetter hworse).answered hp fun extraction he htier hhash => ?_
    exact hsent ⟨extraction, he, htier, hhash⟩

/-- A row, acknowledged or not. -/
theorem Covered.upserted {extraction : Extraction}
    {k : Except Fault Unit → Prog stores Fault Reading} {r : Except Fault Unit}
    (hnext : (k r).Follows owed Pays (fun _ t' => t' = none)
      (owed none ⟨.upsert extraction, r⟩))
    (h : Covered c) (hp : c.prog i = .ask (.upsert extraction) k)
    (hok : Unhiding c (Pool.answered (I := stores) (q := .upsert extraction) c i k r
      (c.store.upsert extraction))) :
    Covered (Pool.answered (I := stores) (q := .upsert extraction) c i k r
      (c.store.upsert extraction)) := by
  intro fileHash hbetter hworse
  have hworse' : c.store.Worse fileHash := by
    obtain ⟨e, he, htier⟩ := hworse
    exact ⟨e, (congrFun Shelf.copies_upsert fileHash).symm.trans he, htier⟩
  rcases hbetter.of_upsert with hwas | ⟨rfl, htier⟩
  · exact (h _ hwas hworse').answered hp fun e he => nomatch he
  · have hself : (Pool.answered (I := stores) (q := .upsert extraction) c i k r
        (c.store.upsert extraction)).prog i = k r := Function.update_self _ _ _
    match r with
    | .ok () =>
      refine ⟨i, extraction, ?_, rfl, htier⟩
      rw [hself]
      exact question_of_owed hnext
    | .error e => exact hok.upserted i extraction k e hp hself htier hbetter hworse'

theorem Covered.answered {t : ι → Option Extraction}
    (hfollows : ∀ j, (c.prog j).Follows owed Pays (fun _ t' => t' = none) (t j))
    (h : Covered c) (hp : c.prog i = .ask q k) (hw : Shelving c.store q a s)
    (hok : Unhiding c (c.answered i k a s)) : Covered (c.answered i k a s) := by
  have hnext := hfollows i
  rw [hp] at hnext
  cases hw with
  | upserted r => exact Covered.upserted (hnext.2 r) h hp hok
  | unwritten e => exact h.same hp fun _ he => nomatch he
  | lane hw =>
    cases hw with
    | set r => exact h.set hp (.inl rfl) hok
    | _ => exact h.same hp fun _ he => nomatch he
  | second hw =>
    cases hw with
    | set r => exact h.set hp (.inr rfl) hok
    | unset e =>
      refine h.same hp fun extraction he htier hworse => ?_
      cases he
      exact hok.set i _ k e hp (Function.update_self _ _ _) htier rfl hworse
    | beside hq a =>
      refine h.same hp fun extraction he => ?_
      cases he
      exact hq.elim
    | _ => exact h.same hp fun _ he => nomatch he

omit [DecidableEq ι] in
theorem Covered.loses (h : Covered c) (hl : c.store.Loses s) : Covered ⟨s, c.prog⟩ := by
  intro fileHash hbetter hworse
  obtain ⟨key⟩ := hl
  exact h fileHash hbetter (Shelf.Worse.of_loses (.copy key) hworse)

/-- **The fast copy hides no better reading** in every run whose steps are all `Unhiding`: whenever
Postgres holds a model's reading and no persist of one is between its two writes, Redis holds
nothing or a model's reading. -/
theorem copies_fair (chains : ι → Chain) {shelf : Shelf}
    (hshelf : ∀ fileHash, shelf.Better fileHash → ¬ shelf.Worse fileHash)
    {c : Pool ι stores Fault Reading Shelf}
    (h : Pool.Fair (fun _ => Shelving) Shelf.Loses Unhiding (reading chains shelf) c)
    {fileHash : String} (hbetter : c.store.Better fileHash) (hdone : ¬ OnItsWay c fileHash) :
    ∀ extraction, c.store.copies fileHash = some extraction → extraction.tier = "llm" := by
  have hstart : Covered (reading chains shelf) :=
    fun fileHash hbetter hworse => absurd hworse (hshelf fileHash hbetter)
  have hcovered : Covered c := by
    have hfollows : ∀ i, ((reading chains shelf).prog i).Follows owed Pays
        (fun _ t' => t' = none) none := fun i => follows_run (chains i)
    obtain ⟨t, -, hcovered⟩ := h.follows (J := fun _ => Covered) hfollows hstart
      (fun t c i q k a s hfollows hJ hp hw hok => hJ.answered hfollows hp hw hok)
      (fun t c s _ hJ he _ => hJ.loses he)
    exact hcovered
  intro extraction hcopy
  by_contra htier
  exact hdone (hcovered fileHash hbetter ⟨extraction, hcopy, htier⟩)

end

/-! ## Two chains for one file -/

/-- The provider, when it is down. -/
def down : ProviderError := ⟨.unavailable, "down", "v", "m", none⟩

/-- Over the two stores: a healthy candidate for one chain, none for the other, and a file that
can be read locally. -/
def answers (failing : Bool) (s : Shelf) : (q : Ask) → Ans q × Shelf
  | .redisGet fileHash => (.ok ((s.copies fileHash).map some), s)
  | .rowGet fileHash => (.ok (s.rows fileHash), s)
  | .redisSet extraction => (.ok (), s.set extraction)
  | .extractLocally _ _ _ => (.ok (some ocr), s)
  | .walk (.complete spec payload key) =>
    (if failing then .error (.provider down) else healthy (.walk (.complete spec payload key)), s)
  | q => (healthy q, s)

def storeAnswers (failing : Bool) (s : Shelf) : (q : StoreAsk) → StoreAns q × Shelf
  | .lane q => answers failing s q
  | .second q => answers failing s q
  | .upsert extraction => (.ok (), s.upsert extraction)

/-- A command of one of the two, answered. -/
def turn (failing : Bool) : Move Bool stores Shelf := .turn failing (storeAnswers failing)

def scanChain : Chain := ⟨plainConfig, scan, reader, false, rfl⟩

/-- Postgres has the model's reading, and Redis nothing. -/
def rowOnly : Shelf where
  rows fileHash := if fileHash = "h" then some (rowOf sharp) else none

/-- Where no local reading is in Redis before or after, a command hides nothing. -/
theorem unhiding_of_not_worse {c c' : Pool ι stores Fault Reading Shelf}
    (h : ∀ fileHash, ¬ c.store.Worse fileHash) (h' : ∀ fileHash, ¬ c'.store.Worse fileHash) :
    Unhiding c c' where
  above fileHash _ _ hworse := absurd hworse (h' fileHash)
  upserted _ _ _ _ _ _ _ _ hworse := absurd hworse (h _)
  set _ _ _ _ _ _ _ _ hworse := absurd hworse (h _)

/-- A copy that was lost is made anew from the row. -/
theorem copies_fair_refill : ∃ c : Pool Bool stores Fault Reading Shelf,
    Pool.Fair (fun _ => Shelving) Shelf.Loses Unhiding (reading (fun _ => scanChain) rowOnly) c ∧
      c.store.copies "h" = some sharp ∧
      ∀ extraction, c.store.copies "h" = some extraction → extraction.tier = "llm" := by
  have hnone : ∀ fileHash, ¬ rowOnly.Worse fileHash := fun fileHash ⟨_, h, _⟩ => nomatch h
  have hsharp : ∀ fileHash, ¬ (rowOnly.set sharp).Worse fileHash := by
    intro fileHash h
    rcases h.of_set with ⟨-, htier⟩ | ⟨-, hworse⟩
    · exact htier rfl
    · exact hnone fileHash hworse
  have hstart : Pool.Fair (fun _ => Shelving) Shelf.Loses Unhiding
      (reading (fun _ : Bool => scanChain) rowOnly) (reading (fun _ => scanChain) rowOnly) := .start
  have hmissed := Pool.Fair.act hstart (i := true) rfl (.lane .got)
    (unhiding_of_not_worse hnone hnone)
  have hfound := Pool.Fair.act hmissed (i := true) rfl (.lane .row)
    (unhiding_of_not_worse hnone hnone)
  have hset := Pool.Fair.act hfound (i := true) rfl (.lane (.set (.ok ())))
    (unhiding_of_not_worse hnone hsharp)
  refine ⟨_, hset, rfl, copies_fair _ (fun fileHash _ => hnone fileHash) hset
    ⟨rowOf sharp, rfl, rfl⟩ ?_⟩
  rintro ⟨i, extraction, hq, -⟩
  cases i <;> cases hq

/-- The first chain is overtaken while it reads the file locally. -/
def overtaken : List (Move Bool stores Shelf) :=
  List.replicate 19 (turn true) ++ List.replicate 20 (turn false) ++ List.replicate 2 (turn true)

theorem keeping_answers (failing : Bool) (s : Shelf) (q : Ask) :
    Keeping s q (answers failing s q).1 (answers failing s q).2 := by
  cases q with
  | redisGet fileHash => exact .got
  | rowGet fileHash => exact .row
  | redisSet extraction => exact .set _
  | walk q =>
    cases q <;> refine .beside ?_ _ <;> trivial
  | _ =>
    refine .beside ?_ _
    trivial

theorem shelving_answers (failing : Bool) (s : Shelf) (q : StoreAsk) :
    Shelving s q (storeAnswers failing s q).1 (storeAnswers failing s q).2 := by
  cases q with
  | lane q => exact .lane (keeping_answers failing s q)
  | second q => exact .second (keeping_answers failing s q)
  | upsert extraction => exact .upserted _

/-- **A refused downgrade leaves its text in Redis**: the row is the model's, both chains have
returned, and the copy is the local reading. -/
theorem not_copies_fair : ¬ ∀ c : Pool Bool stores Fault Reading Shelf,
    Pool.Reach (fun _ => Shelving) Shelf.Loses (reading (fun _ => scanChain) {}) c →
      ∀ fileHash, c.store.Better fileHash →
        (∀ i extraction, (c.prog i).question ≠ some (.second (.redisSet extraction))) →
        ∀ extraction, c.store.copies fileHash = some extraction → extraction.tier = "llm" := by
  intro h
  have hadmits : ∀ m ∈ overtaken, Pool.Admits (fun _ => Shelving) Shelf.Loses m := by
    intro m hm
    obtain ⟨failing, rfl⟩ : ∃ failing, m = turn failing := by
      simp only [overtaken, List.mem_append, List.mem_replicate] at hm
      rcases hm with (⟨-, rfl⟩ | ⟨-, rfl⟩) | ⟨-, rfl⟩ <;> exact ⟨_, rfl⟩
    exact fun s q => shelving_answers failing s q
  have hreach := Pool.reach_of_moves overtaken hadmits
    (.start : Pool.Reach _ _ (reading (fun _ => scanChain) {}) _)
  have hended : ∀ i, ((overtaken.foldl Pool.move
      (reading (fun _ => scanChain) {})).prog i).question = none := by
    intro i
    cases i <;> rfl
  have hlocal := h _ hreach "h" ⟨rowOf sharp, rfl, rfl⟩
    (fun i extraction hi => nomatch (hended i).symm.trans hi) ocr rfl
  exact absurd hlocal (by decide)

end Lane

end Perception

end LlmGateway
