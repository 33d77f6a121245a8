import LlmGateway.Quota.Hints
import LlmGateway.Quota.Lifetimes

/-!
# Hints among other calls

What a hint read may have changed when it writes: the counter may have been
charged, and it may have expired. The first lowers it again, the second leaves
it without an expiry.
-/

namespace LlmGateway

namespace Quota

namespace Hints

open Effects

/-! ## What a program is about to write -/

/-- The counter a program sets next, before it reads another, and the value it is set to. -/
def imminent {α : Type} : Eff α → Option (String × ℤ)
  | .ask (.setEx k value _) _ => some (k, value)
  | .ask (.setKeepTtl k value) _ => some (k, value)
  | .ask (.ttl _) κ => imminent (κ (.ok 0))
  | _ => none

/-- The counter a program sets next and is to keep the expiry of. -/
def keeping {α : Type} : Eff α → Option String
  | .ask (.setKeepTtl k _) _ => some k
  | _ => none

/-- Whether what follows a question is sound, of a program about to write `now` that then is about
to write `next` and to keep the expiry of `kept`: a write follows a read that found no more, and a
`KEEPTTL` a positive TTL. -/
def Follows (now : Option (String × ℤ)) : (q : Ask) → Ans q → Option String →
    Option (String × ℤ) → Prop
  | .get k, a, kept, next => kept = none ∧ ∀ k' value, next = some (k', value) →
      k' = k ∧ ∃ current : Option ℤ, a = Except.ok current ∧ current.getD 0 ≤ value
  | .ttl k, a, kept, next =>
      (∀ k', kept = some k' → k' = k ∧ ∃ left : ℤ, a = Except.ok left ∧ 0 < left) ∧
        ∀ w, next = some w → now = some w
  | _, _, kept, next => kept = none ∧ next = none

/-- Every write of a program follows its reads. -/
def Careful {α : Type} : Eff α → Prop
  | .ret _ | .raise _ => True
  | .ask q κ => ∀ a, Careful (κ a) ∧
      Follows (imminent (.ask q κ)) q a (keeping (κ a)) (imminent (κ a))

section

variable {α β : Type} {p : Eff α} {f : α → Eff β}

theorem imminent_bind (hf : ∀ a, imminent (f a) = none) : imminent (p >>= f) = imminent p := by
  induction p with
  | ret a => exact hf a
  | raise e => rfl
  | ask q κ ih =>
    cases q with
    | ttl k => exact ih (.ok 0)
    | _ => rfl

theorem keeping_bind (hf : ∀ a, keeping (f a) = none) : keeping (p >>= f) = keeping p := by
  cases p with
  | ret a => exact hf a
  | raise e => rfl
  | ask q κ =>
    cases q with
    | _ => rfl

/-- What is done after a program asks nothing of its reads. -/
theorem Careful.bind (hp : Careful p)
    (hf : ∀ a, Careful (f a) ∧ imminent (f a) = none ∧ keeping (f a) = none) :
    Careful (p >>= f) := by
  have himminent : ∀ p' : Eff α, imminent (p' >>= f) = imminent p' :=
    fun p' => imminent_bind fun a => (hf a).2.1
  have hkeeping : ∀ p' : Eff α, keeping (p' >>= f) = keeping p' :=
    fun p' => keeping_bind fun a => (hf a).2.2
  induction p with
  | ret a => exact (hf a).1
  | raise e => trivial
  | ask q κ ih =>
    intro a
    obtain ⟨hcareful, hfollows⟩ := hp a
    refine ⟨ih a hcareful, ?_⟩
    have hnow : imminent (Prog.ask q fun a => κ a >>= f) = imminent (Prog.ask q κ) :=
      himminent (.ask q κ)
    change Follows (imminent (Prog.ask q fun a => κ a >>= f)) q a (keeping (κ a >>= f))
      (imminent (κ a >>= f))
    rw [hnow, himminent, hkeeping]
    exact hfollows

theorem imminent_attempt (p : Eff α) :
    imminent (p.attempt : Eff (Except Fault α)) = imminent p := by
  induction p with
  | ret a => rfl
  | raise e => rfl
  | ask q κ ih =>
    cases q with
    | ttl k => exact ih (.ok 0)
    | _ => rfl

theorem keeping_attempt (p : Eff α) : keeping (p.attempt : Eff (Except Fault α)) = keeping p := by
  cases p with
  | ret a => rfl
  | raise e => rfl
  | ask q κ =>
    cases q with
    | _ => rfl

theorem Careful.attempt (hp : Careful p) : Careful (p.attempt : Eff (Except Fault α)) := by
  induction p with
  | ret a => trivial
  | raise e => trivial
  | ask q κ ih =>
    intro a
    obtain ⟨hcareful, hfollows⟩ := hp a
    refine ⟨ih a hcareful, ?_⟩
    have hnow : imminent (Prog.ask q fun a => ((κ a).attempt : Eff (Except Fault α))) =
        imminent (Prog.ask q κ) := imminent_attempt (.ask q κ)
    rw [hnow, imminent_attempt, keeping_attempt]
    exact hfollows

/-! ## The programs of the pool -/

variable {T : Tracker}

theorem careful_set {q : Ask} {o : Ans q → Except Fault α} (hget : ∀ k, q ≠ .get k)
    (httl : ∀ k, q ≠ .ttl k) : Careful (.ask q fun a => .ofExcept (o a)) := by
  intro a
  have hend : ∀ r : Except Fault α, Careful (Prog.ofExcept r : Eff α) ∧
      keeping (Prog.ofExcept r : Eff α) = none ∧ imminent (Prog.ofExcept r : Eff α) = none := by
    intro r
    cases r with
    | error e => exact ⟨trivial, rfl, rfl⟩
    | ok b => exact ⟨trivial, rfl, rfl⟩
  obtain ⟨hcareful, hkeeping, himminent⟩ := hend (o a)
  refine ⟨hcareful, ?_⟩
  rw [hkeeping, himminent]
  cases q with
  | get k => exact absurd rfl (hget k)
  | ttl k => exact absurd rfl (httl k)
  | _ => exact ⟨rfl, rfl⟩

/-- What a hint does once it has read the TTL. -/
def writeBack (pacific : Calendar) (key : String) (window : WindowSpec) (used : ℤ) (now : Seconds)
    (left : ℤ) : Eff Unit :=
  if 0 < left then setKeepTtl key used else setEx key used (ttlS pacific window.reset now)

/-- What a hint does once it has read the counter. -/
def correctUp (pacific : Calendar) (key : String) (window : WindowSpec) (used : ℤ) (now : Seconds)
    (current : Option ℤ) : Eff Unit :=
  if used ≤ current.getD 0 then return
  else if window.reset.converging then setEx key used (ttlS pacific window.reset now)
  else ttl key >>= writeBack pacific key window used now

theorem careful_writeBack (pacific : Calendar) (key : String) (window : WindowSpec) (used : ℤ)
    (now : Seconds) (left : ℤ) :
    Careful (writeBack pacific key window used now left) ∧
      imminent (writeBack pacific key window used now left) = some (key, used) ∧
      ∀ k, keeping (writeBack pacific key window used now left) = some k → k = key ∧ 0 < left := by
  unfold writeBack
  split
  next hleft =>
    refine ⟨careful_set (fun _ h => nomatch h) (fun _ h => nomatch h), rfl, fun k h => ?_⟩
    exact ⟨(Option.some.inj h).symm, hleft⟩
  · exact ⟨careful_set (fun _ h => nomatch h) (fun _ h => nomatch h), rfl, fun _ h => nomatch h⟩

theorem careful_correctUp (pacific : Calendar) (key : String) (window : WindowSpec) (used : ℤ)
    (now : Seconds) (current : Option ℤ) :
    Careful (correctUp pacific key window used now current) ∧
      keeping (correctUp pacific key window used now current) = none ∧
      ∀ k value, imminent (correctUp pacific key window used now current) = some (k, value) →
        k = key ∧ current.getD 0 ≤ value := by
  unfold correctUp
  split
  · exact ⟨trivial, rfl, fun _ _ h => nomatch h⟩
  next hle =>
    have himminent : ∀ k value, some (key, used) = some (k, value) →
        k = key ∧ current.getD 0 ≤ value := by
      intro k value h
      cases h
      exact ⟨rfl, by omega⟩
    split
    · exact ⟨careful_set (fun _ h => nomatch h) (fun _ h => nomatch h), rfl, himminent⟩
    · have hnext : imminent (ttl key >>= writeBack pacific key window used now) =
          some (key, used) := (careful_writeBack pacific key window used now 0).2.1
      refine ⟨fun a => ?_, rfl, fun k value h => himminent k value (hnext.symm.trans h)⟩
      cases a with
      | error e =>
        refine ⟨trivial, ?_, fun w h => ?_⟩
        · intro k h
          cases h
        · cases h
      | ok left =>
        obtain ⟨hcareful, hwrite, hkeeping⟩ := careful_writeBack pacific key window used now left
        refine ⟨hcareful, fun k h => ?_, fun w h => ?_⟩
        · obtain ⟨hk, hleft⟩ := hkeeping k h
          exact ⟨hk, left, rfl, hleft⟩
        · exact hnext.trans (hwrite.symm.trans h)

theorem careful_reconcile (pacific : Calendar) (key : String) (window : WindowSpec) (used : ℤ)
    (now : Seconds) : Careful (reconcile pacific key window used now) := by
  intro a
  cases a with
  | error e => exact ⟨trivial, rfl, fun _ _ h => nomatch h⟩
  | ok current =>
    obtain ⟨hcareful, hkeeping, himminent⟩ :=
      careful_correctUp pacific key window used now current
    refine ⟨hcareful, hkeeping, fun k value h => ?_⟩
    obtain ⟨hk, hle⟩ := himminent k value h
    exact ⟨hk, current, rfl, hle⟩

theorem careful_applyOne (spec : ModelSpec) (scope : String) (costIsTokens : Bool) (remaining : ℤ)
    (reported : Option Seconds) (now : Seconds) :
    Careful (applyOne T spec scope costIsTokens remaining reported now) ∧
      imminent (applyOne T spec scope costIsTokens remaining reported now) = none ∧
      keeping (applyOne T spec scope costIsTokens remaining reported now) = none := by
  unfold applyOne
  dsimp only
  split
  · exact ⟨trivial, rfl, rfl⟩
  · refine ⟨Careful.bind (Careful.attempt (careful_reconcile _ _ _ _ _)) fun r => ?_, rfl, rfl⟩
    cases r with
    | ok _ => exact ⟨trivial, rfl, rfl⟩
    | error e => exact ⟨fun _ => ⟨trivial, rfl, rfl⟩, rfl, rfl⟩

/-- One dimension of a hint, if it is reported. -/
def dimension (T : Tracker) (spec : ModelSpec) (scope : String) (costIsTokens : Bool)
    (remaining : Option ℤ) (reported : Option Seconds) (now : Seconds) : Eff Unit :=
  match remaining with
  | some remaining => applyOne T spec scope costIsTokens remaining reported now
  | none => return

theorem applyHint_eq (spec : ModelSpec) (scope : String) (reported : QuotaHint) (now : Seconds) :
    applyHint T spec scope reported now =
      (dimension T spec scope false reported.requestsRemaining reported.requestsResetS now >>=
        fun _ => dimension T spec scope true reported.tokensRemaining reported.tokensResetS now) := by
  unfold applyHint dimension
  cases reported.requestsRemaining <;> rfl

theorem careful_dimension (spec : ModelSpec) (scope : String) (costIsTokens : Bool)
    (remaining : Option ℤ) (reported : Option Seconds) (now : Seconds) :
    Careful (dimension T spec scope costIsTokens remaining reported now) ∧
      imminent (dimension T spec scope costIsTokens remaining reported now) = none ∧
      keeping (dimension T spec scope costIsTokens remaining reported now) = none := by
  cases remaining with
  | none => exact ⟨trivial, rfl, rfl⟩
  | some remaining => exact careful_applyOne ..

/-- **Every job is careful**, and begins with no write. -/
theorem careful_job (job : Job) :
    Careful (job.run T) ∧ imminent (job.run T) = none ∧ keeping (job.run T) = none := by
  cases job with
  | hint spec scope reported now =>
    obtain ⟨hcareful, himminent, hkeeping⟩ := careful_dimension (T := T) spec scope false
      reported.requestsRemaining reported.requestsResetS now
    have htokens := careful_dimension (T := T) spec scope true reported.tokensRemaining
      reported.tokensResetS now
    rw [Job.run, applyHint_eq]
    refine ⟨hcareful.bind fun _ => htokens, ?_, ?_⟩
    · exact (imminent_bind fun _ => htokens.2.1).trans himminent
    · exact (keeping_bind fun _ => htokens.2.2).trans hkeeping
  | reserve now grants scope provider model estimatedTokens requestId =>
    exact ⟨fun _ => ⟨trivial, rfl, rfl⟩, rfl, rfl⟩
  | commit now r tokensIn tokensOut => exact ⟨fun _ => ⟨trivial, rfl, rfl⟩, rfl, rfl⟩
  | release r => exact ⟨fun _ => ⟨trivial, rfl, rfl⟩, rfl, rfl⟩

end

/-! ## A hint never lowers -/

section

variable {ι : Type} [DecidableEq ι] {T : Tracker} {c : Pool ι iface Fault Unit Db}

/-- No step lifts a counter above what a hint that has read it is about to set it to. -/
def Unraced (c c' : Pool ι iface Fault Unit Db) : Prop :=
  ∀ i k value, imminent (c.prog i) = some (k, value) → imminent (c'.prog i) = some (k, value) →
    used (c'.store.counters k) ≤ max value (used (c.store.counters k))

/-- Whoever is about to set a counter sets it to no less. -/
def Ready (c : Pool ι iface Fault Unit Db) : Prop :=
  ∀ i, Careful (c.prog i) ∧ ∀ k value, imminent (c.prog i) = some (k, value) →
    used (c.store.counters k) ≤ value

omit [DecidableEq ι] in
theorem ready_desk (db : Db) (jobs : ι → Job) : Ready (desk T db jobs) := by
  intro i
  obtain ⟨hcareful, himminent, -⟩ := careful_job (T := T) (jobs i)
  refine ⟨hcareful, fun k value h => ?_⟩
  have hnone : imminent ((desk T db jobs).prog i) = none := himminent
  rw [hnone] at h
  cases h

omit [DecidableEq ι] in
/-- What a read found is what the counter reads. -/
theorem Ready.follows {i : ι} {q : Ask} {κ : Ans q → Eff Unit} {a : Ans q} {db : Db}
    (h : Ready c) (hp : c.prog i = .ask q κ) (hw : redis T c.store q a db) {k : String} {value : ℤ}
    (hnext : imminent (κ a) = some (k, value)) : used (db.counters k) ≤ value := by
  obtain ⟨hcareful, hready⟩ := h i
  rw [hp] at hcareful hready
  obtain ⟨-, hfollows⟩ := hcareful a
  cases q with
  | get k' =>
    obtain ⟨rfl, ha⟩ := hw
    obtain ⟨rfl, current, hcurrent, hle⟩ := hfollows.2 k value hnext
    rcases ha with ha | ha
    · have hread : current = (c.store.counters k).map (·.value) :=
        Except.ok.inj (hcurrent.symm.trans ha)
      rw [hread] at hle
      exact hle
    · exact absurd (hcurrent.symm.trans ha) (by simp)
  | ttl k' =>
    obtain ⟨rfl, -⟩ := hw
    exact hready k value (hfollows.2 _ hnext)
  | _ =>
    rw [hfollows.2] at hnext
    cases hnext

theorem Ready.act {i : ι} {q : Ask} {κ : Ans q → Eff Unit} {a : Ans q} {db : Db} (h : Ready c)
    (hp : c.prog i = .ask q κ) (hw : redis T c.store q a db)
    (hok : Unraced c (c.answered i κ a db)) : Ready (c.answered i κ a db) := by
  intro j
  by_cases hj : j = i
  · subst hj
    have hprog : (c.answered j κ a db).prog j = κ a := Function.update_self _ _ _
    rw [hprog]
    obtain ⟨hcareful, -⟩ := h j
    rw [hp] at hcareful
    exact ⟨(hcareful a).1, fun k value hnext => h.follows hp hw hnext⟩
  · have hprog : (c.answered i κ a db).prog j = c.prog j := Function.update_of_ne hj _ _
    obtain ⟨hcareful, hready⟩ := h j
    rw [hprog]
    refine ⟨hcareful, fun k value hnext => ?_⟩
    have hbefore := hready k value hnext
    have hafter := hok j k value hnext (hprog ▸ hnext)
    omega

omit [DecidableEq ι] in
theorem Ready.env {db : Db} (h : Ready c) (hok : Unraced c ⟨db, c.prog⟩) :
    Ready (⟨db, c.prog⟩ : Pool ι iface Fault Unit Db) := by
  intro j
  obtain ⟨hcareful, hready⟩ := h j
  refine ⟨hcareful, fun k value hnext => ?_⟩
  have hbefore := hready k value hnext
  have hafter := hok j k value hnext hnext
  omega

/-- The commands that set a counter. -/
def Ask.sets : Ask → Bool
  | .setEx _ _ _ | .setKeepTtl _ _ => true
  | _ => false

/-- **A hint never lowers a counter** in a run in which none is lifted above what a hint that has
read it is about to set it to. -/
theorem hint_never_lowers (T : Tracker) (db₀ : Db) (jobs : ι → Job)
    (h : Pool.Fair (fun _ => redis T) passes Unraced (desk T db₀ jobs) c) {i : ι} {q : Ask}
    {κ : Ans q → Eff Unit} {a : Ans q} {db : Db} (hp : c.prog i = .ask q κ) (hq : q.sets)
    (hw : redis T c.store q a db) (k : String) :
    used (c.store.counters k) ≤ used (db.counters k) := by
  have hready : Ready c := h.invariant (ready_desk db₀ jobs)
    (fun _ _ _ _ _ _ hc hp hw hok => hc.act hp hw hok) (fun _ _ hc _ hok => hc.env hok)
  have hset : ∀ k' value (db' : Db), imminent (c.prog i) = some (k', value) →
      used (db'.counters k') = value → (∀ key, key ≠ k' → db'.counters key = c.store.counters key) →
        used (c.store.counters k) ≤ used (db'.counters k) := by
    intro k' value db' himminent hvalue hother
    by_cases hk : k = k'
    · subst hk
      rw [hvalue]
      exact (hready i).2 k value himminent
    · rw [hother k hk]
  cases q with
  | setEx k' value ttl =>
    rcases hw with ⟨-, rfl⟩ | ⟨-, rfl⟩
    · refine hset k' value _ (by rw [hp]; rfl) ?_ fun key hkey => Function.update_of_ne hkey _ _
      simp [Db.setEx, used]
    · exact le_refl _
  | setKeepTtl k' value =>
    rcases hw with ⟨-, rfl⟩ | ⟨-, rfl⟩
    · refine hset k' value _ (by rw [hp]; rfl) ?_ fun key hkey => Function.update_of_ne hkey _ _
      simp [Db.setKeepTtl, used]
    · exact le_refl _
  | _ => cases hq

end

/-- One model's minute of tokens, and a hint with a reservation beside it. -/
def minuteKey : String := quotaKey "shared" "p" "m" .tpm

def beside (remaining : ℤ) : Bool → Job
  | true => .hint ⟨"s", "p", "m", 8192⟩ "shared" { tokensRemaining := some remaining } 0
  | false => .reserve 0 (Desk.perMinute.grants (.answer none) ⟨"s", "p", "m", 8192⟩ "shared")
      "shared" "p" "m" 100 "a"

/-- What the reservation leaves. -/
def charged : Db :=
  match Desk.perMinute.reserveWindows {} 0
    (Desk.perMinute.grants (.answer none) ⟨"s", "p", "m", 8192⟩ "shared") "shared" "p" "m" 100
    "a" with
  | .ok (_, db) => db
  | .error _ => {}

theorem reserve_charged : redis Desk.perMinute {}
    (.reserve 0 (Desk.perMinute.grants (.answer none) ⟨"s", "p", "m", 8192⟩ "shared") "shared" "p"
      "m" 100 "a") () charged :=
  .inr ⟨{ allowed := true, reservation := some (Tracker.receipt (Desk.perMinute.grants (.answer none)
    ⟨"s", "p", "m", 8192⟩ "shared") "shared" "p" "m" 100 "a") }, rfl⟩

theorem unraced_of_eq {ι : Type} {c c' : Pool ι iface Fault Unit Db} (h : c'.store = c.store) :
    Unraced c c' := by
  intro i k value _ _
  rw [h]
  exact le_max_right _ _

theorem unraced_desk {ι : Type} {T : Tracker} {db : Db} {jobs : ι → Job}
    {c : Pool ι iface Fault Unit Db} : Unraced (desk T db jobs) c := by
  intro i k value h _
  have hnone : imminent ((desk T db jobs).prog i) = none := (careful_job (jobs i)).2.1
  rw [hnone] at h
  cases h

theorem charged_get : redis Desk.perMinute charged (.get minuteKey) (Except.ok (some 100)) charged :=
  ⟨rfl, .inl (congrArg Except.ok (by decide))⟩

-- so that instants are computed with
unseal Rat.add Rat.sub Rat.mul Rat.inv Rat.ofScientific

theorem charged_ttl : redis Desk.perMinute charged (.ttl minuteKey) (Except.ok (60 : ℤ)) charged :=
  ⟨rfl, .inl (congrArg Except.ok (by decide))⟩

/-- The hint reads the counter behind the reservation. -/
theorem hint_never_lowers_beside :
    used (charged.counters minuteKey) ≤ used ((charged.setKeepTtl minuteKey 900).counters minuteKey)
    := by
  have hset : redis Desk.perMinute charged (.setKeepTtl minuteKey 900) (Except.ok ())
      (charged.setKeepTtl minuteKey 900) := .inl ⟨rfl, rfl⟩
  have hstart : Pool.Fair (fun _ => redis Desk.perMinute) passes Unraced
      (desk Desk.perMinute {} (beside 100)) (desk Desk.perMinute {} (beside 100)) := .start
  have hreserved := Pool.Fair.act hstart (i := false) rfl reserve_charged unraced_desk
  have hread := Pool.Fair.act hreserved (i := true) rfl charged_get (unraced_of_eq rfl)
  have hkeep := Pool.Fair.act hread (i := true) rfl charged_ttl (unraced_of_eq rfl)
  exact hint_never_lowers Desk.perMinute {} (beside 100) hkeep (i := true) rfl rfl hset minuteKey

/-- A reservation between a hint's read and its write: the write takes it back. -/
theorem not_hint_never_lowers :
    ¬ ∀ (T : Tracker) (db₀ : Db) (jobs : Bool → Job) (c : Pool Bool iface Fault Unit Db)
      (i : Bool) (q : Ask) (κ : Ans q → Eff Unit) (a : Ans q) (db : Db) (k : String),
      Pool.Reach (fun _ => redis T) passes (desk T db₀ jobs) c → c.prog i = .ask q κ → q.sets →
        redis T c.store q a db → used (c.store.counters k) ≤ used (db.counters k) := by
  intro h
  have hfound : redis Desk.perMinute {} (.get minuteKey) (Except.ok none) {} := ⟨rfl, .inl rfl⟩
  have hset : redis Desk.perMinute charged (.setKeepTtl minuteKey 50) (Except.ok ())
      (charged.setKeepTtl minuteKey 50) := .inl ⟨rfl, rfl⟩
  have hstart : Pool.Reach (fun _ => redis Desk.perMinute) passes
      (desk Desk.perMinute {} (beside 950)) (desk Desk.perMinute {} (beside 950)) := .start
  have hread := Pool.Reach.act hstart (i := true) rfl hfound
  have hreserved := Pool.Reach.act hread (i := false) rfl reserve_charged
  have hkeep := Pool.Reach.act hreserved (i := true) rfl charged_ttl
  have hle := h Desk.perMinute {} (beside 950) _ true _ _ _ _ minuteKey hkeep rfl rfl hset
  have hbefore : used (charged.counters minuteKey) = 100 := by decide
  have hafter : used ((charged.setKeepTtl minuteKey 50).counters minuteKey) = 50 := by
    decide
  have hlowered : (100 : ℤ) ≤ 50 := hbefore ▸ hafter ▸ hle
  omega

/-! ## No counter is immortal -/

section

variable {ι : Type} [DecidableEq ι] {T : Tracker} {c : Pool ι iface Fault Unit Db}

/-- No counter goes that a hint has read a TTL of and is about to set with it. -/
def Unlapsed (c c' : Pool ι iface Fault Unit Db) : Prop :=
  ∀ i k, keeping (c.prog i) = some k → keeping (c'.prog i) = some k →
    (c.store.counters k).isSome → (c'.store.counters k).isSome

/-- There is an instant a counter is gone after. -/
def Mortal (slot : Option Counter) : Prop := ∀ x, slot = some x → x.deadline.isSome

theorem mortal_spent {clock : Seconds} {slot : Option Counter} {b : Block} (h : Mortal slot) :
    Mortal (some (spent clock slot b)) := by
  rintro _ ⟨⟩
  unfold spent
  dsimp only
  split
  · rfl
  next hkeep =>
    cases slot with
    | none => simp at hkeep
    | some x => exact h x rfl

theorem mortal_corrected {clock : Seconds} {reserved : ℤ} {slot : Option Counter} {b : Correction}
    (h : Mortal slot) : Mortal (corrected clock reserved slot b) := by
  unfold corrected
  dsimp only
  split
  · rintro _ ⟨⟩
    dsimp only
    split
    · rfl
    next hkeep =>
      cases slot with
      | none => simp at hkeep
      | some x => exact h x rfl
  · split
    · intro y hy
      obtain ⟨x, rfl, rfl⟩ := Option.map_eq_some_iff.mp hy
      exact h x rfl
    · exact h

theorem mortal_returned {amount : ℤ} {slot : Option Counter} (h : Mortal slot) :
    Mortal (returned amount slot) := by
  unfold returned
  split
  · intro y hy
    obtain ⟨x, rfl, rfl⟩ := Option.map_eq_some_iff.mp hy
    exact h x rfl
  · exact h

/-- What every command keeps, a `KEEPTTL` if its counter is there. -/
theorem mortal_redis {db db' : Db} {q : Ask} {a : Ans q} (hw : redis T db q a db')
    (hkeep : ∀ k value, q = .setKeepTtl k value → (db.counters k).isSome)
    (h : ∀ k, Mortal (db.counters k)) (k : String) : Mortal (db'.counters k) := by
  cases q with
  | get k' =>
    obtain ⟨rfl, -⟩ := hw
    exact h k
  | ttl k' =>
    obtain ⟨rfl, -⟩ := hw
    exact h k
  | setEx k' value ttl =>
    rcases hw with ⟨-, rfl⟩ | ⟨-, rfl⟩
    · by_cases hk : k = k'
      · subst hk
        intro x hx
        have hself : (db.setEx k value ttl).counters k =
            some ⟨value, some (db.clock + ttl)⟩ := Function.update_self _ _ _
        rw [hself] at hx
        cases hx
        rfl
      · have hother : (db.setEx k' value ttl).counters k = db.counters k :=
          Function.update_of_ne hk _ _
        rw [hother]
        exact h k
    · exact h k
  | setKeepTtl k' value =>
    rcases hw with ⟨-, rfl⟩ | ⟨-, rfl⟩
    · by_cases hk : k = k'
      · subst hk
        intro x hx
        have hself : (db.setKeepTtl k value).counters k =
            some ⟨value, (db.counters k).bind (·.deadline)⟩ := Function.update_self _ _ _
        rw [hself] at hx
        cases hx
        obtain ⟨y, hy⟩ := Option.isSome_iff_exists.mp (hkeep k value rfl)
        rw [hy]
        exact h k y hy
      · have hother : (db.setKeepTtl k' value).counters k = db.counters k :=
          Function.update_of_ne hk _ _
        rw [hother]
        exact h k
    · exact h k
  | reserve now grants scope provider model estimatedTokens requestId =>
    rcases hw with rfl | ⟨decision, hcall⟩
    · exact h k
    · rcases reserve_cases hcall with ⟨-, rfl⟩ | ⟨-, -, hcharged⟩
      · exact h k
      · exact hcharged.kept (fun slot g _ _ hslot => mortal_spent hslot) (h k)
  | commit now r tokensIn tokensOut =>
    rcases hw with rfl | rfl
    · exact h k
    · exact commit_kept (fun reserved slot b _ _ hslot => mortal_corrected hslot) (h k)
  | release r =>
    rcases hw with rfl | rfl
    · exact h k
    · exact release_kept (fun amount slot hslot => mortal_returned hslot) (h k)
  | hintApplyFailed window =>
    obtain rfl := hw
    exact h k

/-- Every counter is mortal, and whoever is about to keep an expiry finds it. -/
def Timely (c : Pool ι iface Fault Unit Db) : Prop :=
  (∀ k, Mortal (c.store.counters k)) ∧ ∀ i, Careful (c.prog i) ∧
    ∀ k, keeping (c.prog i) = some k → (c.store.counters k).isSome

omit [DecidableEq ι] in
theorem timely_desk (jobs : ι → Job) : Timely (desk T {} jobs) := by
  refine ⟨fun _ _ hx => (nomatch hx), fun i => ?_⟩
  obtain ⟨hcareful, -, hkeeping⟩ := careful_job (T := T) (jobs i)
  refine ⟨hcareful, fun k h => ?_⟩
  have hnone : keeping ((desk T {} jobs).prog i) = none := hkeeping
  rw [hnone] at h
  cases h

/-- A positive TTL is a counter's. -/
theorem isSome_of_ttl {db : Db} {k : String} (h : 0 < db.ttl k) : (db.counters k).isSome := by
  unfold Db.ttl at h
  cases hx : db.counters k with
  | none => simp [hx] at h
  | some x => rfl

omit [DecidableEq ι] in
theorem Timely.follows {i : ι} {q : Ask} {κ : Ans q → Eff Unit} {a : Ans q} {db : Db}
    (h : Timely c) (hp : c.prog i = .ask q κ) (hw : redis T c.store q a db) {k : String}
    (hnext : keeping (κ a) = some k) : (db.counters k).isSome := by
  obtain ⟨hcareful, -⟩ := h.2 i
  rw [hp] at hcareful
  obtain ⟨-, hfollows⟩ := hcareful a
  cases q with
  | get k' =>
    rw [hfollows.1] at hnext
    cases hnext
  | ttl k' =>
    obtain ⟨rfl, ha⟩ := hw
    obtain ⟨rfl, left, hleft, hpos⟩ := hfollows.1 k hnext
    rcases ha with ha | ha
    · have hread : left = c.store.ttl k := Except.ok.inj (hleft.symm.trans ha)
      exact isSome_of_ttl (hread ▸ hpos)
    · exact absurd (hleft.symm.trans ha) (by simp)
  | _ =>
    rw [hfollows.1] at hnext
    cases hnext

theorem Timely.act {i : ι} {q : Ask} {κ : Ans q → Eff Unit} {a : Ans q} {db : Db} (h : Timely c)
    (hp : c.prog i = .ask q κ) (hw : redis T c.store q a db)
    (hok : Unlapsed c (c.answered i κ a db)) : Timely (c.answered i κ a db) := by
  constructor
  · refine mortal_redis hw (fun k value hq => ?_) h.1
    subst hq
    exact (h.2 i).2 k (by rw [hp]; rfl)
  · intro j
    by_cases hj : j = i
    · subst hj
      have hprog : (c.answered j κ a db).prog j = κ a := Function.update_self _ _ _
      rw [hprog]
      obtain ⟨hcareful, -⟩ := h.2 j
      rw [hp] at hcareful
      exact ⟨(hcareful a).1, fun k hnext => h.follows hp hw hnext⟩
    · have hprog : (c.answered i κ a db).prog j = c.prog j := Function.update_of_ne hj _ _
      obtain ⟨hcareful, hkeeping⟩ := h.2 j
      rw [hprog]
      exact ⟨hcareful, fun k hnext => hok j k hnext (hprog ▸ hnext) (hkeeping k hnext)⟩

omit [DecidableEq ι] in
theorem Timely.env {db : Db} (h : Timely c) (he : passes c.store db)
    (hok : Unlapsed c ⟨db, c.prog⟩) : Timely (⟨db, c.prog⟩ : Pool ι iface Fault Unit Db) := by
  obtain ⟨t, rfl⟩ := he
  constructor
  · intro k x hx
    exact h.1 k x (Option.filter_eq_some_iff.mp hx).1
  · intro j
    obtain ⟨hcareful, hkeeping⟩ := h.2 j
    exact ⟨hcareful, fun k hnext => hok j k hnext hnext (hkeeping k hnext)⟩

/-- **No counter is immortal** in a run in which none goes between the TTL a hint has read and the
`KEEPTTL` that relies on it: every counter has an instant after which it is gone. -/
theorem counter_expires (T : Tracker) (jobs : ι → Job)
    (h : Pool.Fair (fun _ => redis T) passes Unlapsed (desk T {} jobs) c) {k : String}
    {x : Counter} (hx : c.store.counters k = some x) :
    ∃ deadline, x.deadline = some deadline ∧
      ∀ t, deadline < t → (c.store.waitUntil t).counters k = none := by
  have htimely : Timely c := h.invariant (timely_desk jobs)
    (fun _ _ _ _ _ _ hc hp hw hok => hc.act hp hw hok) (fun _ _ hc he hok => hc.env he hok)
  obtain ⟨deadline, hdeadline⟩ := Option.isSome_iff_exists.mp (htimely.1 k x hx)
  refine ⟨deadline, hdeadline, fun t ht => ?_⟩
  have hgone : alive x.deadline (max c.store.clock t) = false := by
    rw [hdeadline]
    exact decide_eq_false (not_le.mpr (lt_max_of_lt_right ht))
  unfold Db.waitUntil
  dsimp only
  rw [hx]
  exact Option.filter_some_neg (by simp [hgone])

end

theorem unlapsed_of_eq {ι : Type} {c c' : Pool ι iface Fault Unit Db} (h : c'.store = c.store) :
    Unlapsed c c' := by
  intro i k _ _ hx
  rw [h]
  exact hx

theorem unlapsed_desk {ι : Type} {T : Tracker} {db : Db} {jobs : ι → Job}
    {c : Pool ι iface Fault Unit Db} : Unlapsed (desk T db jobs) c := by
  intro i k h _
  have hnone : keeping ((desk T db jobs).prog i) = none := (careful_job (jobs i)).2.2
  rw [hnone] at h
  cases h

/-- Time passes between the reads of a hint, and its `KEEPTTL` finds the counter. -/
theorem counter_expires_beside :
    ∃ deadline, (some 60 : Option Seconds) = some deadline ∧
      ∀ t, deadline < t → ((charged.setKeepTtl minuteKey 900).waitUntil t).counters minuteKey =
        none := by
  have hset : redis Desk.perMinute charged (.setKeepTtl minuteKey 900) (Except.ok ())
      (charged.setKeepTtl minuteKey 900) := .inl ⟨rfl, rfl⟩
  have hstart : Pool.Fair (fun _ => redis Desk.perMinute) passes Unlapsed
      (desk Desk.perMinute {} (beside 100)) (desk Desk.perMinute {} (beside 100)) := .start
  have hreserved := Pool.Fair.act hstart (i := false) rfl reserve_charged unlapsed_desk
  have hread := Pool.Fair.act hreserved (i := true) rfl charged_get (unlapsed_of_eq rfl)
  have hkeep := Pool.Fair.act hread (i := true) rfl charged_ttl (unlapsed_of_eq rfl)
  have hwritten := Pool.Fair.act hkeep (i := true) rfl hset (fun i k hnow hnext _ => by
    cases i with
    | true => cases hnext
    | false => cases hnow)
  have hx : (charged.setKeepTtl minuteKey 900).counters minuteKey = some ⟨900, some 60⟩ := by
    decide
  exact counter_expires Desk.perMinute (beside 100) hwritten hx

/-- The counter goes between the TTL a hint reads and the `KEEPTTL` that relies on it. -/
theorem not_counter_expires :
    ¬ ∀ (T : Tracker) (jobs : Bool → Job) (c : Pool Bool iface Fault Unit Db),
      Pool.Reach (fun _ => redis T) passes (desk T {} jobs) c →
        ∀ k x, c.store.counters k = some x → x.deadline.isSome := by
  intro h
  have hset : redis Desk.perMinute (charged.waitUntil 61) (.setKeepTtl minuteKey 900)
      (Except.ok ()) ((charged.waitUntil 61).setKeepTtl minuteKey 900) := .inl ⟨rfl, rfl⟩
  have hstart : Pool.Reach (fun _ => redis Desk.perMinute) passes
      (desk Desk.perMinute {} (beside 100)) (desk Desk.perMinute {} (beside 100)) := .start
  have hreserved := Pool.Reach.act hstart (i := false) rfl reserve_charged
  have hread := Pool.Reach.act hreserved (i := true) rfl charged_get
  have hkeep := Pool.Reach.act hread (i := true) rfl charged_ttl
  have hlapsed := Pool.Reach.env hkeep ⟨61, rfl⟩
  have hwritten := Pool.Reach.act hlapsed (i := true) rfl hset
  have hx : ((charged.waitUntil 61).setKeepTtl minuteKey 900).counters minuteKey =
      some ⟨900, none⟩ := by decide
  have hmortal := h Desk.perMinute (beside 100) _ hwritten minuteKey _ hx
  cases hmortal

end Hints

end Quota

end LlmGateway
