import LlmGateway.Quota.Settlement

/-!
# The lifetimes of a token counter

Any number of attempts reserve, commit and release, and time goes by beside
them. A counter that is not there and then is begins a lifetime; a reservation
was granted in one, and is settled in whichever it finds.
-/

namespace LlmGateway

namespace Quota

open Tracker

/-! ## The run -/

/-- Where an attempt has got to with its reservation. -/
inductive Standing where
  | outstanding
  | committed (actual : ℤ)
  | released
  deriving DecidableEq, Repr

/-- A reservation granted, in a lifetime of the counter. -/
structure Grant where
  reservation : Reservation
  life : ℕ
  standing : Standing

/-- What a reservation is to count for at a counter it took: its estimate while
outstanding, its actual spend once committed. -/
def Grant.charge (k : String) (g : Grant) : ℤ :=
  if k ∈ g.reservation.counterKeys then
    match g.standing with
    | .outstanding => g.reservation.tokens
    | .committed actual => actual
    | .released => 0
  else 0

/-- What it is to count for in one lifetime. -/
def Grant.counted (k : String) (life : ℕ) (g : Grant) : ℤ :=
  if g.life = life then g.charge k else 0

/-- The database, with the history of one counter: its lifetime, the
reservations granted so far, the one each hash was last written for, and whether
a settlement has taken from a lifetime that was not its own. -/
structure Desk where
  db : Db := {}
  life : ℕ := 0
  granted : List Grant := []
  owner : String → Option ℕ := fun _ => none
  robbed : Bool := false

/-- What happens next. A call reads `now` from its own clock; a settlement is of
the `n`th reservation granted. -/
inductive Op where
  | reserve (now : Seconds) (lane : Lane) (spec : ModelSpec) (scope : String)
      (estimatedTokens : ℤ) (requestId : String)
  | commit (now : Seconds) (n : ℕ) (tokensIn tokensOut : ℤ)
  | release (n : ℕ)
  | waitUntil (t : Seconds)

namespace Desk

/-- The lifetime after a call: a new one, if the counter was not there. -/
def lifeAfter (k : String) (d : Desk) (db : Db) : ℕ :=
  if (d.db.counters k).isNone ∧ (db.counters k).isSome then d.life + 1 else d.life

/-- The `n`th reservation is settled: it is over with what it then owes, and the
database is what the script left. -/
def settle (k : String) (d : Desk) (n : ℕ) (g : Grant) (db : Db) (standing : Standing) : Desk :=
  { d with
    db
    life := d.lifeAfter k db
    granted := if g.standing = .outstanding then d.granted.set n { g with standing } else d.granted
    robbed := d.robbed ||
      decide (g.life ≠ d.life ∧ used (db.counters k) < used (d.db.counters k)) }

/-- One step. -/
def step (T : Tracker) (k : String) (d : Desk) : Op → Desk
  | .reserve now lane spec scope estimatedTokens requestId =>
    match T.reserveWindows d.db now (T.grants lane spec scope) scope spec.provider spec.model
      estimatedTokens requestId with
    | .error _ => d
    | .ok (decision, db) =>
      match decision.reservation with
      | none => { d with db }
      | some r =>
        { d with
          db
          life := d.lifeAfter k db
          granted := d.granted ++ [⟨r, d.lifeAfter k db, .outstanding⟩]
          owner := if r.windows = [] then d.owner
            else Function.update d.owner (reservationKey r) (some d.granted.length) }
  | .commit now n tokensIn tokensOut =>
    match d.granted[n]? with
    | none => d
    | some g => d.settle k n g (T.commit d.db now g.reservation tokensIn tokensOut)
        (.committed (tokensIn + tokensOut))
  | .release n =>
    match d.granted[n]? with
    | none => d
    | some g => d.settle k n g (Tracker.release d.db g.reservation) .released
  | .waitUntil t => { d with db := d.db.waitUntil t }

/-- What the current lifetime is to count. -/
def tally (k : String) (d : Desk) : ℤ := (d.granted.map (·.counted k d.life)).sum

/-- **No window is undercounted**: the live counter is at least what the
reservations of its lifetime count for, and none of another lifetime was taken
out of it. -/
structure Covered (k : String) (d : Desk) : Prop where
  counts : ∀ c, d.db.counters k = some c → d.tally k ≤ c.value
  spared : d.robbed = false

/-! ## When a step is sound -/

/-- A settlement of the `n`th reservation finds no hash but its own. -/
def FindsOwn (d : Desk) (n : ℕ) (r : Reservation) : Prop :=
  d.db.held (reservationKey r) = none ∨ d.owner (reservationKey r) = some n

/-- Settling for `owed` is sound: if its hash is still there, the live counter
is the one it was taken from, or is not lowered; if not, it was the one before
or owes no more than it took. -/
def Safe (k : String) (d : Desk) (n : ℕ) (owed : ℤ) : Prop :=
  ∀ g ∈ d.granted[n]?, d.FindsOwn n g.reservation ∧
    (g.standing = .outstanding → k ∈ g.reservation.counterKeys → ∀ c ∈ d.db.counters k,
      if (d.db.held (reservationKey g.reservation)).isSome then
        g.life = d.life ∨ g.reservation.tokens ≤ owed ∨ c.value ≤ 0
      else g.life ≠ d.life ∨ owed ≤ g.reservation.tokens)

/-- A step is sound. -/
def Sound (k : String) (d : Desk) : Op → Prop
  | .reserve _ _ spec scope _ requestId =>
    d.db.held (quotaReservation scope spec.provider spec.model requestId) = none
  | .commit _ n tokensIn tokensOut => d.Safe k n (tokensIn + tokensOut)
  | .release n => d.Safe k n 0
  | .waitUntil _ => True

/-- Every step of a run is. -/
def Steady (T : Tracker) (k : String) (d : Desk) : List Op → Prop
  | [] => True
  | op :: ops => d.Sound k op ∧ (d.step T k op).Steady T k ops

instance (d : Desk) (n : ℕ) (r : Reservation) : Decidable (d.FindsOwn n r) :=
  inferInstanceAs (Decidable (_ ∨ _))

instance (k : String) (d : Desk) (n : ℕ) (owed : ℤ) : Decidable (d.Safe k n owed) :=
  inferInstanceAs (Decidable (∀ g ∈ d.granted[n]?, _))

instance (k : String) (d : Desk) : (op : Op) → Decidable (d.Sound k op)
  | .reserve _ _ spec scope _ requestId =>
    inferInstanceAs
      (Decidable (d.db.held (quotaReservation scope spec.provider spec.model requestId) = none))
  | .commit _ n tokensIn tokensOut => inferInstanceAs (Decidable (d.Safe k n (tokensIn + tokensOut)))
  | .release n => inferInstanceAs (Decidable (d.Safe k n 0))
  | .waitUntil _ => inferInstanceAs (Decidable True)

instance decidableSteady (T : Tracker) (k : String) (d : Desk) :
    (ops : List Op) → Decidable (d.Steady T k ops)
  | [] => inferInstanceAs (Decidable True)
  | op :: ops =>
    have := decidableSteady T k (d.step T k op) ops
    inferInstanceAs (Decidable (d.Sound k op ∧ (d.step T k op).Steady T k ops))

/-- The state a run leads to. -/
def run (T : Tracker) (k : String) (ops : List Op) : Desk := ops.foldl (step T k) {}

end Desk

/-! ## How a settlement moves a counter -/

/-- A counter corrected by `delta`: one that is there stays, goes down by no more
than that, and does not go down at all on an upward correction or from zero. -/
def Moved (delta : ℤ) (slot slot' : Option Counter) : Prop :=
  match slot with
  | none => 0 ≤ used slot'
  | some x => ∃ y, slot' = some y ∧ x.value + delta ≤ y.value ∧
      (0 ≤ delta ∨ x.value ≤ 0 → x.value ≤ y.value)

theorem moved_corrected (clock : Seconds) (reserved : ℤ) (slot : Option Counter) (c : Correction) :
    Moved (c.actual - reserved) slot (corrected clock reserved slot c) := by
  dsimp only [corrected]
  cases slot with
  | none =>
    split_ifs with hup
    all_goals simp only [Moved, used, Option.map_some, Option.map_none, Option.getD_some,
      Option.getD_none]
    all_goals omega
  | some x =>
    split_ifs with hup hrefresh hdown
    · exact ⟨_, rfl, le_refl _, fun _ => by simp only [used, Option.map_some, Option.getD_some]; omega⟩
    · exact ⟨_, rfl, le_refl _, fun _ => by simp only [used, Option.map_some, Option.getD_some]; omega⟩
    · exact ⟨_, rfl, by dsimp only; omega, fun _ => by dsimp only; omega⟩
    · exact ⟨x, rfl, by omega, fun _ => le_refl _⟩

theorem moved_returned {amount : ℤ} (hamount : 0 ≤ amount) (slot : Option Counter) :
    Moved (0 - amount) slot (returned amount slot) := by
  unfold returned
  cases slot with
  | none => simp [Moved, used]
  | some x =>
    split_ifs with hpos
    · exact ⟨_, rfl, by dsimp only; omega, fun _ => by dsimp only; omega⟩
    · exact ⟨x, rfl, by omega, fun _ => le_refl _⟩

/-! ## Totals -/

section

variable {k : String} {life : ℕ} {gs : List Grant} {g g' : Grant} {n : ℕ}

/-- What a list of reservations counts for. -/
def total (k : String) (life : ℕ) (gs : List Grant) : ℤ := (gs.map (·.counted k life)).sum

theorem total_concat : total k life (gs ++ [g]) = total k life gs + g.counted k life := by
  simp [total]

theorem total_set (hg : gs[n]? = some g) :
    total k life (gs.set n g') = total k life gs + (g'.counted k life - g.counted k life) := by
  induction gs generalizing n with
  | nil => simp at hg
  | cons g₀ gs ih =>
    unfold total at ih ⊢
    cases n with
    | zero =>
      rw [List.getElem?_cons_zero, Option.some.injEq] at hg
      subst hg
      simp only [List.set_cons_zero, List.map_cons, List.sum_cons]
      omega
    | succ n =>
      rw [List.getElem?_cons_succ] at hg
      simp only [List.set_cons_succ, List.map_cons, List.sum_cons, ih hg]
      omega

/-- A new lifetime counts for nothing. -/
theorem total_of_lt (hlife : ∀ g ∈ gs, g.life < life) : total k life gs = 0 := by
  induction gs with
  | nil => rfl
  | cons g gs ih =>
    have hne : ¬ g.life = life := by
      have hlt := hlife g List.mem_cons_self
      omega
    have hrest := ih fun g' hg' => hlife g' (List.mem_cons_of_mem g hg')
    unfold total at hrest ⊢
    rw [List.map_cons, List.sum_cons, hrest, Grant.counted, if_neg hne, add_zero]

end

/-! ## The invariant -/

namespace Desk

variable {T : Tracker} {k : String} {w : QuotaWindow} {d : Desk}

theorem lifeAfter_of_some {db : Db} {x : Counter} (hx : d.db.counters k = some x) :
    d.lifeAfter k db = d.life := by
  simp [lifeAfter, hx]

theorem lifeAfter_of_eq {db : Db} (heq : db.counters k = d.db.counters k) :
    d.lifeAfter k db = d.life := by
  unfold lifeAfter
  rw [heq]
  cases d.db.counters k <;> simp

theorem lifeAfter_of_new {db : Db} {y : Counter} (hx : d.db.counters k = none)
    (hy : db.counters k = some y) : d.lifeAfter k db = d.life + 1 := by
  simp [lifeAfter, hx, hy]

theorem le_lifeAfter (db : Db) : d.life ≤ d.lifeAfter k db := by
  unfold lifeAfter
  split <;> omega

/-- What holds of every state: the reservations are receipts of calls, of
lifetimes up to the current one, and a hash holds what its owner, still
outstanding, took from the counter. -/
structure Kept (T : Tracker) (w : QuotaWindow) (k : String) (d : Desk) : Prop where
  covered : d.Covered k
  lived : ∀ g ∈ d.granted, g.life ≤ d.life
  made : ∀ g ∈ d.granted, ∃ lane spec scope estimatedTokens requestId, 0 ≤ estimatedTokens ∧
    g.reservation = receipt (T.grants lane spec scope) scope spec.provider spec.model
      estimatedTokens requestId
  owned : ∀ key h, d.db.held key = some h → ∃ n g, d.owner key = some n ∧
    d.granted[n]? = some g ∧ reservationKey g.reservation = key ∧ g.standing = .outstanding ∧
      g.reservation.windows ≠ [] ∧ (k ∈ g.reservation.counterKeys →
        h.amounts w = g.reservation.tokens)

/-- The counter covers its lifetime after a settlement that moved it by what was
owed less what was taken. -/
theorem Covered.settle_moved {n : ℕ} {g : Grant} {db : Db} {standing : Standing} {owed : ℤ}
    (hcov : d.Covered k) (hlived : ∀ g ∈ d.granted, g.life ≤ d.life)
    (hg : d.granted[n]? = some g) (hout : g.standing = .outstanding)
    (htouch : k ∈ g.reservation.counterKeys)
    (howed : Grant.charge k { g with standing } = owed)
    (hmoved : Moved (owed - g.reservation.tokens) (d.db.counters k) (db.counters k))
    (hsafe : ∀ c, d.db.counters k = some c →
      g.life = d.life ∨ g.reservation.tokens ≤ owed ∨ c.value ≤ 0) :
    (d.settle k n g db standing).Covered k := by
  have hcharge : g.charge k = g.reservation.tokens := by
    rw [Grant.charge, if_pos htouch, hout]
  cases hx : d.db.counters k with
  | none =>
    rw [hx] at hmoved
    constructor
    · intro c hc
      have hlife : (d.settle k n g db standing).life = d.life + 1 := lifeAfter_of_new hx hc
      have hzero : (d.settle k n g db standing).tally k = 0 := by
        unfold tally
        rw [hlife]
        refine total_of_lt fun g' hg' => ?_
        -- Settled or not, every reservation is of an earlier lifetime.
        have hle : g'.life ≤ d.life := by
          dsimp only [settle] at hg'
          rw [if_pos hout] at hg'
          rcases List.mem_or_eq_of_mem_set hg' with hmem | rfl
          · exact hlived g' hmem
          · exact hlived g (List.mem_of_getElem? hg)
        omega
      have hnonneg : 0 ≤ used (db.counters k) := hmoved
      have hdb : db.counters k = some c := hc
      rw [hdb] at hnonneg
      rw [hzero]
      exact hnonneg
    · have hused : ¬ used (db.counters k) < used (d.db.counters k) := by
        rw [hx]
        have hnonneg : 0 ≤ used (db.counters k) := hmoved
        simp only [used, Option.map_none, Option.getD_none] at hnonneg ⊢
        omega
      dsimp only [settle]
      rw [hcov.spared, Bool.false_or, decide_eq_false]
      exact fun h => hused h.2
  | some x =>
    rw [hx] at hmoved
    obtain ⟨y, hy, hlow, hkeep⟩ := hmoved
    have hcount := hcov.counts x hx
    constructor
    · intro c hc
      have hyc : y = c := Option.some.inj (hy.symm.trans hc)
      subst hyc
      have htally : (d.settle k n g db standing).tally k =
          d.tally k + (Grant.counted k d.life { g with standing } - g.counted k d.life) := by
        dsimp only [tally, settle]
        rw [if_pos hout, lifeAfter_of_some hx]
        exact total_set hg
      rw [htally]
      unfold Grant.counted
      by_cases hlife : g.life = d.life
      · rw [if_pos hlife, if_pos hlife, howed, hcharge]
        omega
      · rw [if_neg hlife, if_neg hlife]
        have hle := hkeep (by have := hsafe x hx; omega)
        omega
    · dsimp only [settle]
      rw [hcov.spared, Bool.false_or, decide_eq_false]
      rintro ⟨hlife, hdrop⟩
      have hle := hkeep (by have := hsafe x hx; omega)
      rw [hx, hy] at hdrop
      simp only [used, Option.map_some, Option.getD_some] at hdrop
      omega

/-- And after one that left the counter as it was. -/
theorem Covered.settle_still {n : ℕ} {g : Grant} {db : Db} {standing : Standing}
    (hcov : d.Covered k) (hg : d.granted[n]? = some g)
    (hdb : db.counters k = d.db.counters k)
    (hless : g.standing = .outstanding → ∀ c, d.db.counters k = some c →
      Grant.counted k d.life { g with standing } ≤ g.counted k d.life) :
    (d.settle k n g db standing).Covered k := by
  constructor
  · intro c hc
    have hx : d.db.counters k = some c := hdb.symm.trans hc
    have hcount := hcov.counts c hx
    refine le_trans ?_ hcount
    dsimp only [tally, settle]
    rw [lifeAfter_of_eq hdb]
    by_cases hout : g.standing = .outstanding
    · have hset : total k d.life (d.granted.set n { g with standing }) =
          total k d.life d.granted + _ := total_set hg
      have hle := hless hout c hx
      rw [if_pos hout]
      unfold total at hset
      omega
    · rw [if_neg hout]
  · dsimp only [settle]
    rw [hcov.spared, Bool.false_or, decide_eq_false]
    rintro ⟨-, hdrop⟩
    rw [hdb] at hdrop
    exact lt_irrefl _ hdrop

/-- And after a grant. -/
theorem Covered.grant {r : Reservation} {db : Db} {owner : String → Option ℕ}
    (hcov : d.Covered k) (hlived : ∀ g ∈ d.granted, g.life ≤ d.life)
    (hcounter : k ∉ r.counterKeys ∧ db.counters k = d.db.counters k ∨
      k ∈ r.counterKeys ∧ ∃ c, db.counters k = some c ∧
        c.value = used (d.db.counters k) + r.tokens) :
    Covered k { d with
      db
      life := d.lifeAfter k db
      granted := d.granted ++ [⟨r, d.lifeAfter k db, .outstanding⟩]
      owner } := by
  refine { counts := fun c hc => ?_, spared := hcov.spared }
  change total k _ (d.granted ++ [_]) ≤ c.value
  rw [total_concat]
  unfold Grant.counted
  rw [if_pos rfl]
  rcases hcounter with ⟨htouch, heq⟩ | ⟨htouch, c', hc', hvalue⟩
  · have hcount := hcov.counts c (heq.symm.trans hc)
    rw [Grant.charge, if_neg htouch, add_zero, lifeAfter_of_eq heq]
    exact hcount
  · have hcc : c' = c := Option.some.inj (hc'.symm.trans hc)
    subst hcc
    rw [Grant.charge, if_pos htouch, hvalue]
    refine add_le_add ?_ (le_refl r.tokens)
    cases hx : d.db.counters k with
    | none =>
      rw [lifeAfter_of_new hx hc']
      refine le_of_eq (total_of_lt fun g hg => ?_)
      exact Nat.lt_succ_of_le (hlived g hg)
    | some x =>
      rw [lifeAfter_of_some hx]
      exact hcov.counts x hx

/-- A settlement changes what a reservation counts for, nothing else of it. -/
theorem mem_settle {n : ℕ} {g g' : Grant} {db : Db} {standing : Standing}
    (hg : d.granted[n]? = some g) (hg' : g' ∈ (d.settle k n g db standing).granted) :
    ∃ g₀ ∈ d.granted, g'.reservation = g₀.reservation ∧ g'.life = g₀.life := by
  dsimp only [settle] at hg'
  split at hg'
  · rcases List.mem_or_eq_of_mem_set hg' with hmem | rfl
    · exact ⟨g', hmem, rfl, rfl⟩
    · exact ⟨g, List.mem_of_getElem? hg, rfl, rfl⟩
  · exact ⟨g', hg', rfl, rfl⟩

theorem getElem?_settle_of_ne {n n' : ℕ} {g : Grant} {db : Db} {standing : Standing}
    (hne : n ≠ n') : (d.settle k n g db standing).granted[n']? = d.granted[n']? := by
  dsimp only [settle]
  split
  · exact List.getElem?_set_ne hne
  · rfl

/-- The hash a settlement finds is that of its reservation, not settled yet. -/
theorem Kept.finds {n : ℕ} {g : Grant} {h : Held} (hkept : Kept T w k d)
    (hg : d.granted[n]? = some g) (hown : d.FindsOwn n g.reservation)
    (hh : d.db.held (reservationKey g.reservation) = some h) :
    g.standing = .outstanding ∧ g.reservation.windows ≠ [] ∧
      (k ∈ g.reservation.counterKeys → h.amounts w = g.reservation.tokens) := by
  have howner : d.owner (reservationKey g.reservation) = some n := by
    rcases hown with hnone | howner
    · exact absurd (hnone.symm.trans hh) (by simp)
    · exact howner
  obtain ⟨n', g', howner', hg', -, hrest⟩ := hkept.owned _ h hh
  have hn : n = n' := Option.some.inj (howner.symm.trans howner')
  subst hn
  have hgg : g = g' := Option.some.inj (hg.symm.trans hg')
  subst hgg
  exact hrest

/-- The rest of the invariant survives a settlement that keeps the counter
covered and deletes at most the hash of its reservation. -/
theorem Kept.settle {n : ℕ} {g : Grant} {db : Db} {standing : Standing} (hkept : Kept T w k d)
    (hg : d.granted[n]? = some g) (hcov : (d.settle k n g db standing).Covered k)
    (hheld : ∀ key, db.held key = if key = reservationKey g.reservation then none
      else d.db.held key) :
    Kept T w k (d.settle k n g db standing) where
  covered := hcov
  lived g' hg' := by
    obtain ⟨g₀, hg₀, -, hlife⟩ := mem_settle hg hg'
    rw [hlife]
    exact le_trans (hkept.lived g₀ hg₀) (le_lifeAfter db)
  made g' hg' := by
    obtain ⟨g₀, hg₀, hres, -⟩ := mem_settle hg hg'
    rw [hres]
    exact hkept.made g₀ hg₀
  owned key h hkey := by
    have hdb : db.held key = some h := hkey
    rw [hheld] at hdb
    split at hdb
    · cases hdb
    next hne =>
      obtain ⟨n', g', howner, hg', hres, hrest⟩ := hkept.owned key h hdb
      refine ⟨n', g', howner, ?_, hres, hrest⟩
      have hnn : n ≠ n' := by
        rintro rfl
        rw [hg, Option.some.injEq] at hg'
        exact hne (by rw [← hres, ← hg'])
      rw [getElem?_settle_of_ne hnn]
      exact hg'

/-- A settlement that finds no hash. -/
theorem Kept.settle_none {n : ℕ} {g : Grant} {standing : Standing} {owed : ℤ}
    (hkept : Kept T w k d) (hg : d.granted[n]? = some g) (hsafe : d.Safe k n owed)
    (howed : Grant.charge k { g with standing } = if k ∈ g.reservation.counterKeys then owed else 0)
    (hh : d.db.held (reservationKey g.reservation) = none) :
    Kept T w k (d.settle k n g d.db standing) := by
  refine hkept.settle hg (hkept.covered.settle_still hg rfl fun hout c hc => ?_) fun key => ?_
  · unfold Grant.counted
    by_cases hlife : g.life = d.life
    · rw [if_pos hlife, if_pos hlife, howed, Grant.charge, hout]
      by_cases htouch : k ∈ g.reservation.counterKeys
      · have hcase := (hsafe g hg).2 hout htouch c hc
        rw [hh, Option.isSome_none, if_neg Bool.false_ne_true] at hcase
        rw [if_pos htouch, if_pos htouch]
        exact hcase.resolve_left (not_not_intro hlife)
      · rw [if_neg htouch, if_neg htouch]
    · rw [if_neg hlife, if_neg hlife]
  · split
    next hkey => rw [hkey, hh]
    next => rfl

/-- A settlement that finds its own. -/
theorem Kept.settle_some {n : ℕ} {g : Grant} {db : Db} {standing : Standing} {owed : ℤ} {h : Held}
    (hkept : Kept T w k d) (hg : d.granted[n]? = some g) (hsafe : d.Safe k n owed)
    (howed : Grant.charge k { g with standing } = if k ∈ g.reservation.counterKeys then owed else 0)
    (hh : d.db.held (reservationKey g.reservation) = some h)
    (hheld : db.held = Function.update d.db.held (reservationKey g.reservation) none)
    (hcounter : k ∉ g.reservation.counterKeys ∧ db.counters k = d.db.counters k ∨
      k ∈ g.reservation.counterKeys ∧
        Moved (owed - h.amounts w) (d.db.counters k) (db.counters k)) :
    Kept T w k (d.settle k n g db standing) := by
  obtain ⟨hout, -, hamount⟩ := hkept.finds hg (hsafe g hg).1 hh
  refine hkept.settle hg ?_ fun key => ?_
  · rcases hcounter with ⟨htouch, heq⟩ | ⟨htouch, hmoved⟩
    · refine hkept.covered.settle_still hg heq fun _ _ _ => ?_
      rw [Grant.counted, Grant.counted, howed, Grant.charge, if_neg htouch, if_neg htouch]
    · rw [hamount htouch] at hmoved
      rw [if_pos htouch] at howed
      refine hkept.covered.settle_moved hkept.lived hg hout htouch howed hmoved fun c hc => ?_
      have hcase := (hsafe g hg).2 hout htouch c hc
      rw [hh, Option.isSome_some, if_pos rfl] at hcase
      exact hcase
  · rw [hheld, Function.update_apply]

section

variable (hw : ∀ lane spec scope, T.Plain spec.provider spec.model w k (T.grants lane spec scope))

include hw

theorem Kept.commit {now : Seconds} {n : ℕ} {tokensIn tokensOut : ℤ} (hkept : Kept T w k d)
    (hsafe : d.Safe k n (tokensIn + tokensOut)) :
    Kept T w k (d.step T k (.commit now n tokensIn tokensOut)) := by
  dsimp only [step]
  split
  next => exact hkept
  next g hg =>
    cases hh : d.db.held (reservationKey g.reservation) with
    | none =>
      rw [commit_of_none hh]
      exact hkept.settle_none hg hsafe rfl hh
    | some h =>
      obtain ⟨-, hne, -⟩ := hkept.finds hg (hsafe g hg).1 hh
      obtain ⟨lane, spec, scope, estimatedTokens, requestId, -, hr⟩ :=
        hkept.made g (List.mem_of_getElem? hg)
      refine hkept.settle_some hg hsafe rfl hh (commit_held hne hh) ?_
      rcases (hw lane spec scope).commit_counter hr hne hh with hno | ⟨htouch, c, hactual, heq⟩
      · exact .inl hno
      · rw [heq, ← hactual]
        exact .inr ⟨htouch, moved_corrected _ _ _ c⟩

theorem Kept.release {n : ℕ} (hkept : Kept T w k d) (hsafe : d.Safe k n 0) :
    Kept T w k (d.step T k (.release n)) := by
  dsimp only [step]
  split
  next => exact hkept
  next g hg =>
    have howed : Grant.charge k { g with standing := .released } =
        if k ∈ g.reservation.counterKeys then 0 else 0 := rfl
    cases hh : d.db.held (reservationKey g.reservation) with
    | none =>
      rw [release_of_none hh]
      exact hkept.settle_none hg hsafe howed hh
    | some h =>
      obtain ⟨-, hne, hamount⟩ := hkept.finds hg (hsafe g hg).1 hh
      obtain ⟨lane, spec, scope, estimatedTokens, requestId, hnonneg, hr⟩ :=
        hkept.made g (List.mem_of_getElem? hg)
      refine hkept.settle_some hg hsafe howed hh (release_held hne hh) ?_
      rcases (hw lane spec scope).release_counter hr hne hh with hno | ⟨htouch, heq⟩
      · exact .inl hno
      · have hpos : 0 ≤ h.amounts w := by
          rw [hamount htouch, hr]
          exact hnonneg
        rw [heq]
        exact .inr ⟨htouch, moved_returned hpos _⟩

theorem Kept.reserve {now : Seconds} {lane : Lane} {spec : ModelSpec} {scope : String}
    {estimatedTokens : ℤ} {requestId : String} (hkept : Kept T w k d)
    (hfresh : d.db.held (quotaReservation scope spec.provider spec.model requestId) = none) :
    Kept T w k (d.step T k (.reserve now lane spec scope estimatedTokens requestId)) := by
  dsimp only [step]
  split
  next => exact hkept
  next decision db hcall =>
    split
    next hr =>
      rw [reserve_refused hcall hr]
      exact hkept
    next r hr =>
      obtain ⟨hrec, hnonneg, hcase⟩ := (hw lane spec scope).reserve_counter hcall hr hfresh
      refine { covered := ?_, lived := ?_, made := ?_, owned := ?_ }
      · refine hkept.covered.grant hkept.lived ?_
        have htokens : r.tokens = estimatedTokens := by rw [hrec, receipt]
        rw [htokens]
        rcases hcase with ⟨hempty, rfl⟩ | ⟨-, -, -, hcounter⟩
        · have hnone : r.counterKeys = [] := by
            rw [hrec] at hempty ⊢
            rw [receipt, List.map_eq_nil_iff] at *
            exact hempty
          exact .inl ⟨by rw [hnone]; exact List.not_mem_nil, rfl⟩
        · exact hcounter
      · intro g hg
        rcases List.mem_append.mp hg with hg | hg
        · exact le_trans (hkept.lived g hg) (le_lifeAfter db)
        · rw [List.mem_singleton.mp hg]
      · intro g hg
        rcases List.mem_append.mp hg with hg | hg
        · exact hkept.made g hg
        · rw [List.mem_singleton.mp hg]
          exact ⟨lane, spec, scope, estimatedTokens, requestId, hnonneg, hrec⟩
      · intro key h hkey
        have hdb : db.held key = some h := hkey
        have hold : d.db.held key = some h → (r.windows ≠ [] → key ≠ reservationKey r) →
            ∃ n g, (if r.windows = [] then d.owner
              else Function.update d.owner (reservationKey r) (some d.granted.length)) key = some n ∧
              (d.granted ++ [⟨r, d.lifeAfter k db, .outstanding⟩])[n]? = some g ∧
              reservationKey g.reservation = key ∧ g.standing = .outstanding ∧
              g.reservation.windows ≠ [] ∧
              (k ∈ g.reservation.counterKeys → h.amounts w = g.reservation.tokens) := by
          intro hkey hne
          obtain ⟨n, g, howner, hg, hrest⟩ := hkept.owned key h hkey
          refine ⟨n, g, ?_, ?_, hrest⟩
          · split
            · exact howner
            next hwin => rw [Function.update_of_ne (hne hwin), howner]
          · rw [List.getElem?_append_left (List.getElem?_eq_some_iff.mp hg).1, hg]
        rcases hcase with ⟨hempty, rfl⟩ | ⟨hwin, ⟨h', hheld, hamount⟩, hother, -⟩
        · exact hold hdb fun hne => absurd hempty hne
        · by_cases heq : key = reservationKey r
          · subst heq
            have hh : h' = h := Option.some.inj (hheld.symm.trans hdb)
            subst hh
            refine ⟨d.granted.length, ⟨r, d.lifeAfter k db, .outstanding⟩, ?_, ?_, rfl, rfl, hwin,
              fun htouch => ?_⟩
            · rw [if_neg hwin]
              exact Function.update_self _ _ _
            · exact List.getElem?_concat_length
            · rw [hamount htouch, hrec, receipt]
          · exact hold ((hother key heq).symm.trans hdb) fun _ => heq

end

/-- Time takes counters and hashes away, and adds none. -/
theorem Kept.waitUntil {t : Seconds} (hkept : Kept T w k d) :
    Kept T w k (d.step T k (.waitUntil t)) where
  covered :=
    { counts := fun c hc => hkept.covered.counts c ((Option.filter_eq_some_iff.mp hc).1)
      spared := hkept.covered.spared }
  lived := hkept.lived
  made := hkept.made
  owned key h hkey := hkept.owned key h ((Option.filter_eq_some_iff.mp hkey).1)

theorem kept_start : Kept T w k {} where
  covered := { counts := fun _ hc => (nomatch hc), spared := rfl }
  lived _ hg := nomatch hg
  made _ hg := nomatch hg
  owned _ _ hkey := nomatch hkey

/-- A sound step keeps the invariant. -/
theorem Kept.step
    (hw : ∀ lane spec scope, T.Plain spec.provider spec.model w k (T.grants lane spec scope))
    {op : Op} (hkept : Kept T w k d) (hsound : d.Sound k op) : Kept T w k (d.step T k op) := by
  cases op with
  | reserve now lane spec scope estimatedTokens requestId => exact hkept.reserve hw hsound
  | commit now n tokensIn tokensOut => exact hkept.commit hw hsound
  | release n => exact hkept.release hw hsound
  | waitUntil t => exact hkept.waitUntil

theorem Kept.run
    (hw : ∀ lane spec scope, T.Plain spec.provider spec.model w k (T.grants lane spec scope))
    {ops : List Op} (hkept : Kept T w k d) (hsteady : d.Steady T k ops) :
    Kept T w k (ops.foldl (Desk.step T k) d) := by
  induction ops generalizing d with
  | nil => exact hkept
  | cons op ops ih => exact ih (hkept.step hw hsteady.1) hsteady.2

/-- **No window is undercounted.** In every run of reserves, commits, releases
and expiries whose steps are sound, the live counter of a token window is at
least what its lifetime's reservations count for, and no settlement has taken
from a lifetime that was not its own. -/
theorem covered_of_steady (T : Tracker) (scope provider model : String) (w : QuotaWindow)
    (hw : w.isToken) (ops : List Op)
    (hsteady : Steady T (quotaKey scope provider model w) {} ops) :
    (run T (quotaKey scope provider model w) ops).Covered (quotaKey scope provider model w) := by
  have hplain : ∀ lane spec scope', T.Plain spec.provider spec.model w
      (quotaKey scope provider model w) (T.grants lane spec scope') :=
    fun lane spec scope' => plain_grants hw scope provider model lane
  exact (kept_start.run hplain hsteady).covered

/-- One model with a single window of a thousand tokens a minute. -/
def perMinute : Tracker where
  limits _ _ := some
    { limit := fun w => if w = .tpm then some 1000 else none
      reset := fun w => if w = .tpm then some .rolling60s else none
      reset_declared := by
        intro w hw
        revert hw
        cases w <;> decide }
  effectiveLimit _ limit := limit
  perceptionLimit _ _ limit := limit
  pacific := utc

/-- Two attempts over two minutes: the first spends more than it took, when its
minute is over already. -/
def lateSpend : List Op :=
  [.reserve 0 (.answer none) ⟨"s", "p", "m", 8192⟩ "shared" 100 "a", .waitUntil 61,
    .reserve 61 .perception ⟨"s", "p", "m", 8192⟩ "shared" 50 "b", .commit 62 0 70 80, .release 1]

-- so that instants are computed with
unseal Rat.add Rat.sub Rat.mul Rat.inv Rat.ofScientific

theorem covered_of_steady_lateSpend :
    (run perMinute (quotaKey "shared" "p" "m" .tpm) lateSpend).Covered
      (quotaKey "shared" "p" "m" .tpm) :=
  covered_of_steady perMinute "shared" "p" "m" .tpm rfl lateSpend (by decide)

/-- The first attempt spends nothing, and its refund is taken from the minute
the second one was granted in. -/
def lateRefund : List Op :=
  [.reserve 0 (.answer none) ⟨"s", "p", "m", 8192⟩ "shared" 100 "a", .waitUntil 61,
    .reserve 61 (.answer none) ⟨"s", "p", "m", 8192⟩ "shared" 50 "b", .commit 62 0 0 0]

theorem not_covered :
    ¬ ∀ (T : Tracker) (scope provider model : String) (w : QuotaWindow), w.isToken → ∀ ops,
      (run T (quotaKey scope provider model w) ops).Covered (quotaKey scope provider model w) := by
  intro h
  have hcovered := h perMinute "shared" "p" "m" .tpm rfl lateRefund
  -- The second attempt's estimate is outstanding, and the counter reads zero.
  have htally : (run perMinute (quotaKey "shared" "p" "m" .tpm) lateRefund).tally
      (quotaKey "shared" "p" "m" .tpm) = 50 := by decide
  have hread : ((run perMinute (quotaKey "shared" "p" "m" .tpm) lateRefund).db.counters
      (quotaKey "shared" "p" "m" .tpm)).map (·.value) = some 0 := by decide
  obtain ⟨c, hc, hvalue⟩ := Option.map_eq_some_iff.mp hread
  have hle := hcovered.counts c hc
  rw [htally, hvalue] at hle
  omega

end Desk

end Quota

end LlmGateway
