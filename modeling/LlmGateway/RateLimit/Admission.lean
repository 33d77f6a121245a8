import LlmGateway.Effects.Pool
import LlmGateway.RateLimit.Limiter
import Mathlib.Data.Finset.Card

/-!
# Admission

Any number of calls of one user at the limiter, their commands in any order.
The counters are watched with the calls counted in each: a counter is the
number of calls that have not been given back, and the call that came last
among any of them has read no less than their number.
-/

namespace LlmGateway

namespace RateLimit

open Effects

/-! ## The watched counters -/

/-- A counter and when it expires. -/
structure Bucket where
  value : ℤ
  deadline : Option Seconds := none
  deriving DecidableEq, Repr

/-- Redis, the time, and what each call has been told. -/
structure Desk (ι : Type) where
  clock : Seconds
  buckets : Key → Option Bucket := fun _ => none
  /-- The calls counted in a bucket and not given back. -/
  counted : Key → Finset ι := fun _ => ∅
  /-- The buckets that have expired. -/
  gone : Key → Prop := fun _ => False
  started : ι → Option Seconds := fun _ => none
  /-- What a call's `INCR` was answered, and its `GET`. -/
  current : ι → Key → Option ℤ := fun _ _ => none
  previous : ι → GatewayWindow → Option ℤ := fun _ _ => none
  verdict : ι → Option Verdict := fun _ => none

variable {ι : Type}

namespace Desk

/-- What a bucket reads; an absent one reads zero. -/
def value (s : Desk ι) (k : Key) : ℤ := ((s.buckets k).map (·.value)).getD 0

/-- What an `INCR` or a `DECR` leaves: a counter it creates has no TTL. -/
def add (s : Desk ι) (k : Key) (n : ℤ) : Key → Option Bucket :=
  Function.update s.buckets k (some ⟨s.value k + n, (s.buckets k).bind (·.deadline)⟩)

/-- What a command of call `i` does. -/
def exec [DecidableEq ι] (i : ι) (s : Desk ι) : Ask → Desk ι
  | .now => { s with started := Function.update s.started i (some s.clock) }
  | .incr k =>
    { s with
      buckets := s.add k 1, counted := Function.update s.counted k (insert i (s.counted k))
      current := Function.update s.current i
        (Function.update (s.current i) k (some (s.value k + 1))) }
  | .expire k ttl =>
    { s with
      buckets := Function.update s.buckets k
        ((s.buckets k).map fun b => { b with deadline := some (s.clock + ttl) }) }
  | .get k =>
    { s with
      previous := Function.update s.previous i
        (Function.update (s.previous i) k.window (some (s.value k))) }
  | .decr k =>
    { s with
      buckets := s.add k (-1), counted := Function.update s.counted k ((s.counted k).erase i) }
  | .returned verdict => { s with verdict := Function.update s.verdict i (some verdict) }

/-- What a command is answered. -/
def reply (s : Desk ι) : (q : Ask) → Ans q
  | .now => s.clock
  | .incr k => .ok (s.value k + 1)
  | .expire k _ => .ok (s.buckets k).isSome
  | .get k => .ok ((s.buckets k).map (·.value))
  | .decr k => .ok (s.value k - 1)
  | .returned _ => ()

/-- A call that is counted in a bucket, or is to be: it started while the bucket was open. -/
def Concerned (s : Desk ι) (i : ι) (k : Key) : Prop :=
  ∃ t, s.started i = some t ∧ k.window.start t = k.start

/-- **What goes on beside the calls.** Time passes; and a bucket whose TTL has run out goes, but
not early, which is while a call it concerns has not returned. -/
inductive Passes : Desk ι → Desk ι → Prop
  | tick {s : Desk ι} {t : Seconds} (h : s.clock ≤ t) : Passes s { s with clock := t }
  | expires {s : Desk ι} {k : Key} {b : Bucket} {t : Seconds} (hb : s.buckets k = some b)
      (hd : b.deadline = some t) (ht : t ≤ s.clock)
      (hlate : ∀ i, s.Concerned i k → s.verdict i ≠ none) :
      Passes s { s with
        buckets := Function.update s.buckets k none, gone := fun k' => k' = k ∨ s.gone k' }

end Desk

/-- Redis, answering every command of call `i`. -/
def answering [DecidableEq ι] (i : ι) : World iface (Desk ι) := fun s q a s' =>
  a = s.reply q ∧ s' = s.exec i q

/-- Any number of calls of a user whom the limiter has not seen. -/
def crowd (tier : GatewayLimits) (clock : Seconds) : Pool ι iface Fault Unit (Desk ι) :=
  ⟨{ clock }, fun _ => session (some tier)⟩

/-! ## The books -/

/-- **A call that passed**: counted in the bucket of every window of its tier, with the count it
was answered within the limit. -/
def Desk.Passed (tier : GatewayLimits) (s : Desk ι) (i : ι) : Prop :=
  ∃ t, s.started i = some t ∧ ∀ check ∈ tier.checks,
    i ∈ s.counted ⟨check.1, check.1.start t⟩ ∧ ∃ current previous : ℤ,
      s.current i ⟨check.1, check.1.start t⟩ = some current ∧
      s.previous i check.1 = some previous ∧ 0 ≤ previous ∧
      (previous * (1 - elapsedFraction check.1 t) + current : ℚ) ≤ check.2

/-- **The books.** What the counters say of the calls counted in them. -/
structure Desk.Books (tier : GatewayLimits) (s : Desk ι) : Prop where
  value : ∀ k, ¬ s.gone k → s.value k = (s.counted k).card
  empty : ∀ k, s.gone k → s.buckets k = none
  /-- Among any calls counted in a bucket one has read no less than their number. -/
  ranked : ∀ k, ∀ S ⊆ s.counted k, S.Nonempty →
    ∃ i ∈ S, ∃ current, s.current i k = some current ∧ (S.card : ℤ) ≤ current
  placed : ∀ k, ∀ i ∈ s.counted k, s.Concerned i k
  lasts : ∀ k b t, s.buckets k = some b → b.deadline = some t →
    (k.start + k.window.widthS : ℚ) ≤ t
  lapsed : ∀ k, s.gone k → (k.start + k.window.widthS : ℚ) ≤ s.clock ∧
    ∀ i, s.Concerned i k → s.verdict i ≠ none
  accepted : ∀ i, s.verdict i = some .accepted → s.Passed tier i
  refused : ∀ i why, s.verdict i = some (.refused why) → ∀ k, i ∉ s.counted k

/-! ## What a step leaves the others -/

/-- What a step leaves call `j`. -/
structure Desk.Spares (j : ι) (s s' : Desk ι) : Prop where
  clock : s.clock ≤ s'.clock
  started : s'.started j = s.started j
  counted : ∀ k, j ∈ s'.counted k ↔ j ∈ s.counted k
  current : s'.current j = s.current j
  previous : s'.previous j = s.previous j
  verdict : s'.verdict j = s.verdict j

namespace Desk

variable {i j : ι} {s s' : Desk ι} {tier : GatewayLimits}

theorem Spares.refl (j : ι) (s : Desk ι) : Spares j s s :=
  ⟨le_refl _, rfl, fun _ => Iff.rfl, rfl, rfl, rfl⟩

theorem Spares.trans {s₁ s₂ s₃ : Desk ι} (h : Spares j s₁ s₂) (h' : Spares j s₂ s₃) :
    Spares j s₁ s₃ :=
  ⟨h.clock.trans h'.clock, h'.started.trans h.started,
    fun k => (h'.counted k).trans (h.counted k), h'.current.trans h.current,
    h'.previous.trans h.previous, h'.verdict.trans h.verdict⟩

theorem Concerned.congr {k : Key} (h : s'.started j = s.started j) :
    s'.Concerned j k ↔ s.Concerned j k := by
  unfold Concerned
  rw [h]

theorem Passed.spares (h : s.Passed tier j) (hs : Spares j s s') : s'.Passed tier j := by
  obtain ⟨t, ht, hchecks⟩ := h
  refine ⟨t, hs.started.trans ht, fun check hcheck => ?_⟩
  obtain ⟨hmem, current, previous, hcurrent, hprevious, hrest⟩ := hchecks check hcheck
  refine ⟨(hs.counted _).mpr hmem, current, previous, ?_, ?_, hrest⟩
  · rw [hs.current]
    exact hcurrent
  · rw [hs.previous]
    exact hprevious

/-- **A command of one call spares the others.** -/
theorem exec_spares [DecidableEq ι] (hij : j ≠ i) (s : Desk ι) (q : Ask) :
    Spares j s (s.exec i q) := by
  have hupdate : ∀ {β : Type} (f : ι → β) (b : β), Function.update f i b j = f j :=
    fun f b => Function.update_of_ne hij b f
  have hcounted : ∀ (k : Key) (S : Finset ι), (j ∈ S ↔ j ∈ s.counted k) →
      ∀ k', j ∈ Function.update s.counted k S k' ↔ j ∈ s.counted k' := by
    intro k S hS k'
    by_cases hk : k' = k
    · subst hk
      rw [Function.update_self]
      exact hS
    · rw [Function.update_of_ne hk]
  cases q with
  | now => exact ⟨le_refl _, hupdate _ _, fun _ => Iff.rfl, rfl, rfl, rfl⟩
  | incr k =>
    have hinsert : j ∈ insert i (s.counted k) ↔ j ∈ s.counted k := by simp [hij]
    exact ⟨le_refl _, rfl, hcounted k _ hinsert, hupdate _ _, rfl, rfl⟩
  | expire k ttl => exact ⟨le_refl _, rfl, fun _ => Iff.rfl, rfl, rfl, rfl⟩
  | get k => exact ⟨le_refl _, rfl, fun _ => Iff.rfl, rfl, hupdate _ _, rfl⟩
  | decr k =>
    have herase : j ∈ (s.counted k).erase i ↔ j ∈ s.counted k := by simp [hij]
    exact ⟨le_refl _, rfl, hcounted k _ herase, rfl, rfl, rfl⟩
  | returned verdict => exact ⟨le_refl _, rfl, fun _ => Iff.rfl, rfl, rfl, hupdate _ _⟩

theorem passes_spares (h : Passes s s') (j : ι) : Spares j s s' := by
  cases h with
  | tick hclock => exact ⟨hclock, rfl, fun _ => Iff.rfl, rfl, rfl, rfl⟩
  | expires _ _ _ _ => exact ⟨le_refl _, rfl, fun _ => Iff.rfl, rfl, rfl, rfl⟩

/-! ## What a step leaves the books -/

theorem value_add (k : Key) (n : ℤ) (k' : Key) (deadline : Option Seconds) :
    ((Function.update s.buckets k (some ⟨s.value k + n, deadline⟩) k').map (·.value)).getD 0 =
      s.value k' + if k' = k then n else 0 := by
  by_cases hk : k' = k
  · subst hk
    simp
  · simp [hk, value]

/-- What the books say of those that have returned is left by a step of one that has not. -/
theorem Books.returned (h : s.Books tier) (hs : ∀ j, j ≠ i → Spares j s s')
    (hi : s'.verdict i = none) :
    (∀ j, s'.verdict j = some .accepted → s'.Passed tier j) ∧
      ∀ j why, s'.verdict j = some (.refused why) → ∀ k, j ∉ s'.counted k := by
  constructor
  · intro j hj
    by_cases hij : j = i
    · subst hij
      rw [hi] at hj
      cases hj
    · have hspares := hs j hij
      exact (h.accepted j (hspares.verdict ▸ hj)).spares hspares
  · intro j why hj k hmem
    by_cases hij : j = i
    · subst hij
      rw [hi] at hj
      cases hj
    · have hspares := hs j hij
      exact h.refused j why (hspares.verdict ▸ hj) k ((hspares.counted k).mp hmem)

theorem Books.passes (h : s.Books tier) (hp : Passes s s') : s'.Books tier := by
  have hspares := passes_spares hp
  cases hp with
  | @tick t hclock =>
    refine { h with lapsed := fun k hk => ?_, accepted := fun i hi => ?_ }
    · obtain ⟨hle, hall⟩ := h.lapsed k hk
      exact ⟨hle.trans hclock, hall⟩
    · exact (h.accepted i hi).spares (hspares i)
  | @expires k b t hb hd ht hlate =>
    have hother : ∀ k', k' ≠ k →
        Function.update s.buckets k none k' = s.buckets k' := fun k' hk' =>
      Function.update_of_ne hk' _ _
    refine { h with value := fun k' hk' => ?_, empty := fun k' hk' => ?_
                    lasts := fun k' b' t' hb' hd' => ?_, lapsed := fun k' hk' => ?_
                    accepted := fun i hi => ?_ }
    · have hne : k' ≠ k := fun heq => hk' (.inl heq)
      have hvalue := h.value k' fun hgone => hk' (.inr hgone)
      change ((Function.update s.buckets k none k').map (·.value)).getD 0 = _
      rw [hother k' hne]
      exact hvalue
    · change Function.update s.buckets k none k' = none
      by_cases hne : k' = k
      · rw [hne, Function.update_self]
      · rw [hother k' hne]
        exact h.empty k' (hk'.resolve_left hne)
    · change Function.update s.buckets k none k' = some b' at hb'
      by_cases hne : k' = k
      · subst hne
        simp at hb'
      · rw [hother k' hne] at hb'
        exact h.lasts k' b' t' hb' hd'
    · rcases hk' with rfl | hgone
      · exact ⟨(h.lasts k' b t hb hd).trans ht, hlate⟩
      · exact h.lapsed k' hgone
    · exact (h.accepted i hi).spares (hspares i)

/-! ## What a call does to the books -/

/-- Where call `i` stands: it started at `t`, is counted in `held`, and has not returned. -/
structure Own (i : ι) (t : Seconds) (held : Set Key) (s : Desk ι) : Prop where
  started : s.started i = some t
  before : t ≤ s.clock
  counted : ∀ k, i ∈ s.counted k ↔ k ∈ held
  verdict : s.verdict i = none

section

variable [DecidableEq ι] {t : Seconds} {held : Set Key} {k : Key}

omit [DecidableEq ι] in
theorem Own.spares (h : Own i t held s) (hs : Spares i s s') : Own i t held s' where
  started := hs.started.trans h.started
  before := h.before.trans hs.clock
  counted k := (hs.counted k).trans (h.counted k)
  verdict := hs.verdict.trans h.verdict

omit [DecidableEq ι] in
/-- A bucket of a call that is under way is there to stay. -/
theorem Own.not_gone (h : Own i t held s) (hb : s.Books tier) (hk : k.window.start t = k.start) :
    ¬ s.gone k :=
  fun hgone => (hb.lapsed k hgone).2 i ⟨t, h.started, hk⟩ h.verdict

omit [DecidableEq ι] in
/-- What is gone is another's. -/
theorem Own.empty_add (h : Own i t held s) (hb : s.Books tier) (hk : k.window.start t = k.start)
    (n : ℤ) {k' : Key} (hgone : s.gone k') : s.add k n k' = none := by
  have hne : k' ≠ k := fun heq => h.not_gone hb hk (heq ▸ hgone)
  unfold add
  rw [Function.update_of_ne hne]
  exact hb.empty k' hgone

omit [DecidableEq ι] in
theorem Books.value_nonneg (hb : s.Books tier) (k : Key) : 0 ≤ s.value k := by
  by_cases hgone : s.gone k
  · unfold Desk.value
    rw [hb.empty k hgone]
    exact le_refl 0
  · rw [hb.value k hgone]
    exact Int.natCast_nonneg _

theorem books_now (hb : s.Books tier) (hstarted : s.started i = none)
    (hcounted : ∀ k, i ∉ s.counted k) (hverdict : s.verdict i = none) :
    (s.exec i .now).Books tier := by
  have hspares : ∀ j, j ≠ i → Spares j s (s.exec i .now) := fun j hj => exec_spares hj s .now
  obtain ⟨haccepted, hrefused⟩ := hb.returned hspares hverdict
  refine { hb with placed := fun k j hj => ?_, lapsed := fun k hk => ?_
                   accepted := haccepted, refused := hrefused }
  · have hne : j ≠ i := fun heq => hcounted k (heq ▸ hj)
    exact (Concerned.congr (hspares j hne).started).mpr (hb.placed k j hj)
  · obtain ⟨hle, hall⟩ := hb.lapsed k hk
    refine ⟨hle, fun j hj => ?_⟩
    by_cases hne : j = i
    · -- A call that starts now starts behind every bucket that is gone.
      subst hne
      obtain ⟨t, ht, hstart⟩ := hj
      have hself : (s.exec j .now).started j = some s.clock := Function.update_self _ _ _
      have hclock : s.clock = t := Option.some.inj (hself.symm.trans ht)
      have hlt := k.window.lt_start_add s.clock
      rw [hclock, hstart] at hlt
      rw [hclock] at hle
      linarith
    · exact hall j ((Concerned.congr (hspares j hne).started).mp hj)

omit [DecidableEq ι] in
theorem Books.lasts_add (hb : s.Books tier) {n : ℤ} {k' : Key} {b : Bucket} {d : Seconds}
    (hbucket : s.add k n k' = some b) (hd : b.deadline = some d) :
    (k'.start + k'.window.widthS : ℚ) ≤ d := by
  unfold add at hbucket
  by_cases heq : k' = k
  · subst heq
    rw [Function.update_self] at hbucket
    cases hbucket
    obtain ⟨b, hb', hdeadline⟩ := Option.bind_eq_some_iff.mp hd
    exact hb.lasts k' b d hb' hdeadline
  · rw [Function.update_of_ne heq] at hbucket
    exact hb.lasts k' b d hbucket hd

theorem books_incr (hb : s.Books tier) (ho : Own i t held s) (hk : k.window.start t = k.start)
    (hnew : k ∉ held) : (s.exec i (.incr k)).Books tier := by
  have hspares : ∀ j, j ≠ i → Spares j s (s.exec i (.incr k)) := fun j hj => exec_spares hj s _
  obtain ⟨haccepted, hrefused⟩ := hb.returned hspares ho.verdict
  have hfresh : i ∉ s.counted k := fun hmem => hnew ((ho.counted k).mp hmem)
  have hvalue : s.value k = (s.counted k).card := hb.value k (ho.not_gone hb hk)
  have hself : (s.exec i (.incr k)).counted k = insert i (s.counted k) := Function.update_self _ _ _
  have hother : ∀ k', k' ≠ k → (s.exec i (.incr k)).counted k' = s.counted k' :=
    fun k' hk' => Function.update_of_ne hk' _ _
  have hkept : ∀ j k', j ≠ i ∨ k' ≠ k →
      (s.exec i (.incr k)).current j k' = s.current j k' := by
    intro j k' hne
    by_cases hj : j = i
    · subst hj
      have hcurrent : (s.exec j (.incr k)).current j =
          Function.update (s.current j) k (some (s.value k + 1)) := Function.update_self _ _ _
      rw [hcurrent, Function.update_of_ne (hne.resolve_left fun h => h rfl)]
    · exact congrFun (hspares j hj).current k'
  refine
    { value := fun k' hk' => ?_, empty := fun k' hgone => ho.empty_add hb hk 1 hgone
      ranked := fun k' S hS hne => ?_, placed := fun k' j hj => ?_
      lasts := fun k' b d hbucket hd => hb.lasts_add hbucket hd, lapsed := hb.lapsed
      accepted := haccepted, refused := hrefused }
  · have hadd : (s.exec i (.incr k)).value k' = s.value k' + if k' = k then 1 else 0 :=
      value_add k 1 k' _
    rw [hadd]
    by_cases heq : k' = k
    · subst heq
      rw [if_pos rfl, hself, Finset.card_insert_of_notMem hfresh, hvalue]
      push_cast
      rfl
    · rw [if_neg heq, hother k' heq, hb.value k' hk', add_zero]
  · by_cases heq : k' = k
    · subst heq
      rw [hself] at hS
      by_cases hi : i ∈ S
      · -- The newcomer has read them all.
        refine ⟨i, hi, s.value k' + 1, ?_, ?_⟩
        · have hcurrent : (s.exec i (.incr k')).current i =
              Function.update (s.current i) k' (some (s.value k' + 1)) := Function.update_self _ _ _
          rw [hcurrent, Function.update_self]
        · have hcard := Finset.card_le_card hS
          rw [Finset.card_insert_of_notMem hfresh] at hcard
          rw [hvalue]
          exact_mod_cast hcard
      · have hold : S ⊆ s.counted k' := (Finset.subset_insert_iff_of_notMem hi).mp hS
        obtain ⟨j, hj, current, hcurrent, hle⟩ := hb.ranked k' S hold hne
        have hji : j ≠ i := fun h => hi (h ▸ hj)
        exact ⟨j, hj, current, (hkept j k' (.inl hji)).trans hcurrent, hle⟩
    · rw [hother k' heq] at hS
      obtain ⟨j, hj, current, hcurrent, hle⟩ := hb.ranked k' S hS hne
      exact ⟨j, hj, current, (hkept j k' (.inr heq)).trans hcurrent, hle⟩
  · by_cases heq : k' = k
    · subst heq
      rw [hself] at hj
      rcases Finset.mem_insert.mp hj with rfl | hold
      · exact ⟨t, ho.started, hk⟩
      · exact hb.placed k' j hold
    · rw [hother k' heq] at hj
      exact hb.placed k' j hj

theorem books_decr (hb : s.Books tier) (ho : Own i t held s) (hk : k.window.start t = k.start)
    (hheld : k ∈ held) : (s.exec i (.decr k)).Books tier := by
  have hspares : ∀ j, j ≠ i → Spares j s (s.exec i (.decr k)) := fun j hj => exec_spares hj s _
  obtain ⟨haccepted, hrefused⟩ := hb.returned hspares ho.verdict
  have hmem : i ∈ s.counted k := (ho.counted k).mpr hheld
  have hvalue : s.value k = (s.counted k).card := hb.value k (ho.not_gone hb hk)
  have hself : (s.exec i (.decr k)).counted k = (s.counted k).erase i := Function.update_self _ _ _
  have hother : ∀ k', k' ≠ k → (s.exec i (.decr k)).counted k' = s.counted k' :=
    fun k' hk' => Function.update_of_ne hk' _ _
  have hsub : ∀ k', (s.exec i (.decr k)).counted k' ⊆ s.counted k' := by
    intro k'
    by_cases heq : k' = k
    · subst heq
      rw [hself]
      exact Finset.erase_subset _ _
    · rw [hother k' heq]
  refine
    { value := fun k' hk' => ?_, empty := fun k' hgone => ho.empty_add hb hk (-1) hgone
      ranked := fun k' S hS hne => hb.ranked k' S (hS.trans (hsub k')) hne
      placed := fun k' j hj => hb.placed k' j (hsub k' hj)
      lasts := fun k' b d hbucket hd => hb.lasts_add hbucket hd, lapsed := hb.lapsed
      accepted := haccepted, refused := hrefused }
  have hadd : (s.exec i (.decr k)).value k' = s.value k' + if k' = k then -1 else 0 :=
    value_add k (-1) k' _
  rw [hadd]
  by_cases heq : k' = k
  · subst heq
    have hcard := Finset.card_erase_add_one hmem
    rw [if_pos rfl, hself, hvalue]
    omega
  · rw [if_neg heq, hother k' heq, hb.value k' hk', add_zero]

theorem books_expire (hb : s.Books tier) (ho : Own i t held s) (hk : k.window.start t = k.start) :
    (s.exec i (.expire k (k.window.widthS * ttlMultiplier))).Books tier := by
  have hspares : ∀ j, j ≠ i → Spares j s (s.exec i (.expire k (k.window.widthS * ttlMultiplier))) :=
    fun j hj => exec_spares hj s _
  obtain ⟨haccepted, hrefused⟩ := hb.returned hspares ho.verdict
  refine { hb with value := fun k' hk' => ?_, empty := fun k' hgone => ?_
                   lasts := fun k' b d hbucket hd => ?_
                   accepted := haccepted, refused := hrefused }
  · refine Eq.trans ?_ (hb.value k' hk')
    unfold value exec
    by_cases heq : k' = k
    · subst heq
      simp [Function.comp_def]
    · simp [Function.update_of_ne heq]
  · have hne : k' ≠ k := fun heq => ho.not_gone hb hk (heq ▸ hgone)
    exact (Function.update_of_ne hne _ _).trans (hb.empty k' hgone)
  · unfold exec at hbucket
    by_cases heq : k' = k
    · subst heq
      simp only [Function.update_self, Option.map_eq_some_iff] at hbucket
      obtain ⟨b', -, rfl⟩ := hbucket
      have hclock : s.clock + (k'.window.widthS * ttlMultiplier : ℤ) = d := Option.some.inj hd
      have hstart := k'.window.start_le t
      have hpos : (0 : ℚ) < k'.window.widthS := by exact_mod_cast k'.window.widthS_pos
      have hbefore := ho.before
      rw [hk] at hstart
      rw [← hclock]
      push_cast [ttlMultiplier]
      linarith
    · simp only [Function.update_of_ne heq] at hbucket
      exact hb.lasts k' b d hbucket hd

theorem books_get (hb : s.Books tier) (ho : Own i t held s) (k : Key) :
    (s.exec i (.get k)).Books tier := by
  have hspares : ∀ j, j ≠ i → Spares j s (s.exec i (.get k)) := fun j hj => exec_spares hj s _
  obtain ⟨haccepted, hrefused⟩ := hb.returned hspares ho.verdict
  exact { hb with accepted := haccepted, refused := hrefused }

/-- A call may say that it was accepted if it passed, and that it was refused if it has given
everything back. -/
theorem books_returned (hb : s.Books tier) {verdict : Verdict}
    (haccepted : verdict = .accepted → s.Passed tier i)
    (hrefused : ∀ why, verdict = .refused why → ∀ k, i ∉ s.counted k) :
    (s.exec i (.returned verdict)).Books tier := by
  have hself : (s.exec i (.returned verdict)).verdict i = some verdict := Function.update_self _ _ _
  have hother : ∀ j, j ≠ i → (s.exec i (.returned verdict)).verdict j = s.verdict j :=
    fun j hj => Function.update_of_ne hj _ _
  refine { hb with lapsed := fun k hk => ?_, accepted := fun j hj => ?_, refused := fun j why hj => ?_ }
  · obtain ⟨hle, hall⟩ := hb.lapsed k hk
    refine ⟨hle, fun j hj => ?_⟩
    by_cases hne : j = i
    · subst hne
      rw [hself]
      simp
    · rw [hother j hne]
      exact hall j hj
  · by_cases hne : j = i
    · subst hne
      rw [hself] at hj
      exact haccepted (Option.some.inj hj)
    · rw [hother j hne] at hj
      exact hb.accepted j hj
  · by_cases hne : j = i
    · subst hne
      rw [hself] at hj
      exact hrefused why (Option.some.inj hj)
    · rw [hother j hne] at hj
      exact hb.refused j why hj

end

/-! ## What a call relies on -/

/-- What call `j` relies on. -/
def rely (tier : GatewayLimits) (j : ι) : Rely (Desk ι) where
  step s s' := (s.Books tier → s'.Books tier) ∧ Spares j s s'
  refl s := ⟨id, Spares.refl j s⟩
  trans h h' := ⟨h'.1 ∘ h.1, h.2.trans h'.2⟩

/-- What call `i` guarantees. -/
def Yields (tier : GatewayLimits) (i : ι) (s s' : Desk ι) : Prop :=
  (s.Books tier → s'.Books tier) ∧ ∀ j, i ≠ j → Spares j s s'

/-- The key of a window the call was counted in. -/
def keyOf (t : Seconds) (d : Check × ℤ × ℤ) : Key := ⟨d.1.1, d.1.1.start t⟩

/-- The keys of the windows a call was counted in. -/
def keysOf (t : Seconds) (done : List (Check × ℤ × ℤ)) : Set Key :=
  { k | k ∈ done.map (keyOf t) }

/-- What a call has been answered of its windows. -/
def Told (i : ι) (t : Seconds) (done : List (Check × ℤ × ℤ)) (s : Desk ι) : Prop :=
  ∀ d ∈ done, s.current i (keyOf t d) = some d.2.1 ∧ s.previous i d.1.1 = some d.2.2 ∧ 0 ≤ d.2.2

theorem Told.spares {t : Seconds} {done : List (Check × ℤ × ℤ)} (h : Told i t done s)
    (hs : Spares i s s') : Told i t done s' := by
  intro d hd
  obtain ⟨hcurrent, hprevious, hpos⟩ := h d hd
  refine ⟨?_, ?_, hpos⟩
  · rw [hs.current]
    exact hcurrent
  · rw [hs.previous]
    exact hprevious

theorem keysOf_append (t : Seconds) (done : List (Check × ℤ × ℤ)) (d : Check × ℤ × ℤ) :
    keysOf t (done ++ [d]) = insert (keyOf t d) (keysOf t done) := by
  ext k
  simp [keysOf, or_comm]

section

variable [DecidableEq ι] {t : Seconds} {held : Set Key} {done : List (Check × ℤ × ℤ)} {α : Type}

theorem Own.incr (h : Own i t held s) (k : Key) : Own i t (insert k held) (s.exec i (.incr k)) := by
  refine ⟨h.started, h.before, fun k' => ?_, h.verdict⟩
  by_cases heq : k' = k
  · subst heq
    have hself : (s.exec i (.incr k')).counted k' = insert i (s.counted k') :=
      Function.update_self _ _ _
    rw [hself]
    simp
  · have hother : (s.exec i (.incr k)).counted k' = s.counted k' := Function.update_of_ne heq _ _
    rw [hother, h.counted k', Set.mem_insert_iff]
    exact ⟨.inr, fun hmem => hmem.resolve_left heq⟩

theorem Own.decr (h : Own i t held s) (k : Key) : Own i t (held \ {k}) (s.exec i (.decr k)) := by
  refine ⟨h.started, h.before, fun k' => ?_, h.verdict⟩
  by_cases heq : k' = k
  · subst heq
    have hself : (s.exec i (.decr k')).counted k' = (s.counted k').erase i :=
      Function.update_self _ _ _
    rw [hself]
    simp
  · have hother : (s.exec i (.decr k)).counted k' = s.counted k' := Function.update_of_ne heq _ _
    rw [hother, h.counted k']
    exact ⟨fun hmem => ⟨hmem, heq⟩, fun hmem => hmem.1⟩

omit [DecidableEq ι] in
theorem Own.kept (h : Own i t held s) (hstarted : s'.started = s.started)
    (hclock : s'.clock = s.clock) (hcounted : s'.counted = s.counted)
    (hverdict : s'.verdict = s.verdict) : Own i t held s' where
  started := hstarted ▸ h.started
  before := hclock ▸ h.before
  counted := hcounted ▸ h.counted
  verdict := hverdict ▸ h.verdict

theorem current_incr (k k' : Key) : (s.exec i (.incr k)).current i k' =
    if k' = k then some (s.value k + 1) else s.current i k' := by
  have hself : (s.exec i (.incr k)).current i =
      Function.update (s.current i) k (some (s.value k + 1)) := Function.update_self _ _ _
  rw [hself, Function.update_apply]

theorem previous_get (k : Key) (w : GatewayWindow) : (s.exec i (.get k)).previous i w =
    if w = k.window then some (s.value k) else s.previous i w := by
  have hself : (s.exec i (.get k)).previous i =
      Function.update (s.previous i) k.window (some (s.value k)) := Function.update_self _ _ _
  rw [hself, Function.update_apply]

/-- One command of a call, and what comes after it. -/
theorem settles_step {q : Ask} {κ : Ans q → Eff α} {P : Desk ι → Prop}
    {Q : Except Fault α → Desk ι → Prop} (hP : ∀ s s', Spares i s s' → P s → P s')
    (hbooks : ∀ s, s.Books tier → P s → (s.exec i q).Books tier)
    (hnext : ∀ s, s.Books tier → P s → (s.exec i q).Books tier →
      Settles (answering i) (rely tier i) (Yields tier i) (κ (s.reply q)) Q (s.exec i q))
    (hb : s.Books tier) (hp : P s) :
    Settles (answering i) (rely tier i) (Yields tier i) (.ask q κ) Q s := by
  intro s' hr a s'' hw
  obtain ⟨rfl, rfl⟩ := hw
  have hb' : s'.Books tier := hr.1 hb
  have hp' : P s' := hP s s' hr.2 hp
  have hb'' : (s'.exec i q).Books tier := hbooks s' hb' hp'
  refine ⟨⟨fun _ => hb'', fun j hij => ?_⟩, hnext s' hb' hp' hb''⟩
  exact exec_spares (Ne.symm hij) s' q

/-- An end of a call. -/
theorem settles_end {r : Except Fault α} {P : Desk ι → Prop} {Q : Except Fault α → Desk ι → Prop}
    (hP : ∀ s s', Spares i s s' → P s → P s') (hQ : ∀ s, s.Books tier → P s → Q r s)
    (hb : s.Books tier) (hp : P s) :
    Settles (answering i) (rely tier i) (Yields tier i) (.ofExcept r) Q s :=
  settles_ofExcept fun s' hr => hQ s' (hr.1 hb) (hP s s' hr.2 hp)

/-! ## A call -/

/-- What a call knows once its windows are counted. -/
def Counts (tier : GatewayLimits) (i : ι) (t : Seconds) (done : List (Check × ℤ × ℤ))
    (s : Desk ι) : Prop :=
  s.Books tier ∧ Own i t (keysOf t done) s ∧ Told i t done s

/-- The batch counts the call in every window, and is told each count. -/
theorem settles_execute (checks : List Check) (done : List (Check × ℤ × ℤ))
    (hnodup : (done.map (·.1.1) ++ checks.map (·.1)).Nodup) (h : Counts tier i t done s) :
    Settles (answering i) (rely tier i) (Yields tier i) (execute t checks) (fun r s' =>
      ∃ replies results, r = .ok replies ∧ replies.mapM Replies.results = .ok results ∧
        results.length = checks.length ∧ Counts tier i t (done ++ checks.zip results) s') s := by
  induction checks generalizing done s with
  | nil =>
    refine settles_end (r := .ok []) (P := fun s => Own i t (keysOf t done) s ∧ Told i t done s)
      ?_ ?_ h.1 h.2
    · exact fun s s' hs hp => ⟨hp.1.spares hs, hp.2.spares hs⟩
    · intro s hb hp
      refine ⟨[], [], rfl, rfl, rfl, ?_⟩
      rw [List.zip_nil_left, List.append_nil]
      exact ⟨hb, hp⟩
  | cons check checks ih =>
    obtain ⟨name, limit⟩ := check
    obtain ⟨hb, ho, htold⟩ := h
    have hfresh : ∀ d ∈ done, d.1.1 ≠ name := by
      intro d hd heq
      have hmem : name ∈ done.map (·.1.1) := List.mem_map.mpr ⟨d, hd, heq⟩
      exact (List.nodup_append.mp hnodup).2.2 _ hmem _ List.mem_cons_self rfl
    have hnew : (⟨name, name.start t⟩ : Key) ∉ keysOf t done := by
      intro hmem
      obtain ⟨d, hd, hkey⟩ := List.mem_map.mp hmem
      exact hfresh d hd (congrArg Key.window hkey)
    have hold : ∀ s : Desk ι, Told i t done s →
        Told i t done (s.exec i (.incr ⟨name, name.start t⟩)) := by
      intro s htold d hd
      obtain ⟨hcurrent, hrest⟩ := htold d hd
      refine ⟨?_, hrest⟩
      rw [current_incr, if_neg fun heq => hfresh d hd (congrArg Key.window heq)]
      exact hcurrent
    have hkept : ∀ (k : Key) (current : ℤ) (s s' : Desk ι), Spares i s s' →
        Own i t (insert k (keysOf t done)) s ∧ Told i t done s ∧ s.current i k = some current →
        Own i t (insert k (keysOf t done)) s' ∧ Told i t done s' ∧ s'.current i k = some current := by
      intro k current s s' hs hp
      refine ⟨hp.1.spares hs, hp.2.1.spares hs, ?_⟩
      rw [hs.current]
      exact hp.2.2
    -- Counted in the window, and told the count.
    refine settles_step (P := fun s => Own i t (keysOf t done) s ∧ Told i t done s)
      (fun s s' hs hp => ⟨hp.1.spares hs, hp.2.spares hs⟩)
      (fun s hb hp => books_incr hb hp.1 rfl hnew) (fun s₀ _ hp hb => ?_) hb ⟨ho, htold⟩
    generalize hcurrent : s₀.value ⟨name, name.start t⟩ + 1 = current
    have hread : (s₀.exec i (.incr ⟨name, name.start t⟩)).current i ⟨name, name.start t⟩ =
        some current := by rw [current_incr, if_pos rfl, hcurrent]
    -- The TTL.
    refine settles_step (hkept _ current) (fun s hb hp => books_expire hb hp.1 rfl)
      (fun s₁ _ hp hb => ?_) hb ⟨hp.1.incr _, hold s₀ hp.2, hread⟩
    -- And the count of the bucket before.
    refine settles_step (hkept _ current) (fun s hb hp => books_get hb hp.1 _)
      (fun s₂ hb₂ hp hb => ?_) hb ⟨hp.1.kept rfl rfl rfl rfl, hp.2.1, hp.2.2⟩
    generalize hprevious : s₂.value ⟨name, max 0 (name.start t - name.widthS)⟩ = previous
    have hpos : 0 ≤ previous := hprevious ▸ hb₂.value_nonneg _
    have htold : Told i t (done ++ [((name, limit), current, previous)])
        (s₂.exec i (.get ⟨name, max 0 (name.start t - name.widthS)⟩)) := by
      intro d hd
      rcases List.mem_append.mp hd with hd | hd
      · obtain ⟨hcurrent, hprevious, hrest⟩ := hp.2.1 d hd
        refine ⟨hcurrent, ?_, hrest⟩
        rw [previous_get, if_neg (hfresh d hd)]
        exact hprevious
      · obtain rfl := List.mem_singleton.mp hd
        refine ⟨hp.2.2, ?_, hpos⟩
        rw [previous_get, if_pos rfl, hprevious]
    have hown : Own i t (keysOf t (done ++ [((name, limit), current, previous)]))
        (s₂.exec i (.get ⟨name, max 0 (name.start t - name.widthS)⟩)) := by
      rw [keysOf_append]
      exact hp.1.kept rfl rfl rfl rfl
    have hnodup' : ((done ++ [((name, limit), current, previous)]).map (·.1.1) ++
        checks.map (·.1)).Nodup := by
      simpa using hnodup
    change Settles _ _ _ (execute t checks >>= fun replies => pure (_ :: replies)) _ _
    refine Settles.bind ((ih _ hnodup' ⟨hb, hown, htold⟩).mono ?_)
    rintro _ s₃ ⟨replies, results, rfl, hresults, hlength, hcounts⟩
    refine settles_end (r := .ok _) (P := fun s => Own i t _ s ∧ Told i t _ s)
      (fun s s' hs hp => ⟨hp.1.spares hs, hp.2.spares hs⟩) (fun s hb hp => ?_) hcounts.1 hcounts.2
    refine ⟨_, (current, previous) :: results, rfl, ?_, ?_, ?_⟩
    · subst hcurrent hprevious
      rw [List.mapM_cons, hresults]
      rfl
    · rw [List.length_cons, List.length_cons, hlength]
    · rw [List.zip_cons_cons, ← List.singleton_append, ← List.append_assoc]
      exact ⟨hb, hp⟩

/-- One window, after the call has been counted into it. -/
def tally (t : Seconds) (d : Check × ℤ × ℤ) : Counted where
  name := d.1.1
  limit := d.1.2
  start := d.1.1.start t
  previous := d.2.2
  current := d.2.1
  count := d.2.2 * (1 - elapsedFraction d.1.1 t) + d.2.1

omit [DecidableEq ι] in
theorem elapsedFraction_mem (name : GatewayWindow) (t : Seconds) :
    0 ≤ elapsedFraction name t ∧ elapsedFraction name t ≤ 1 := by
  have hpos : (0 : ℚ) < name.widthS := by exact_mod_cast name.widthS_pos
  have hstart := name.start_le t
  have hend := name.lt_start_add t
  unfold elapsedFraction
  rw [div_le_one hpos]
  constructor
  · exact div_nonneg (by linarith) hpos.le
  · linarith

omit [DecidableEq ι] in
theorem counted_eq (t : Seconds) (d : Check × ℤ × ℤ) : RateLimit.counted t d.1 d.2 = .ok (tally t d) := by
  unfold RateLimit.counted slidingCount
  dsimp only
  rw [if_pos (elapsedFraction_mem d.1.1 t)]
  rfl

omit [DecidableEq ι] in
theorem mapM_counted (t : Seconds) (done : List (Check × ℤ × ℤ)) :
    done.mapM (fun (check, r) => RateLimit.counted t check r) = .ok (done.map (tally t)) := by
  have hpure : (fun (x : Check × ℤ × ℤ) => RateLimit.counted t x.1 x.2) =
      fun x => pure (tally t x) := funext fun d => counted_eq t d
  exact (congrArg (fun f => done.mapM f) hpure).trans List.mapM_pure

theorem settles_count {checks : List Check} (hnodup : (checks.map (·.1)).Nodup)
    (h : Counts tier i t [] s) :
    Settles (answering i) (rely tier i) (Yields tier i) (count checks t) (fun r s' =>
      ∃ done, r = .ok (done.map (tally t)) ∧ done.map (·.1) = checks ∧ Counts tier i t done s') s := by
  refine Settles.bind ((settles_execute checks [] hnodup h).mono ?_)
  rintro _ s₁ ⟨replies, results, rfl, hresults, hlength, hcounts⟩
  dsimp only
  rw [hresults]
  change Settles _ _ _ (.ofExcept _) _ _
  rw [mapM_counted]
  refine settles_end (P := fun s => Own i t _ s ∧ Told i t _ s)
    (fun s s' hs hp => ⟨hp.1.spares hs, hp.2.spares hs⟩) (fun s hb hp => ?_) hcounts.1 hcounts.2
  exact ⟨_, rfl, List.map_fst_zip hlength.ge, hb, hp⟩

/-- The refund gives back what is held in the windows it is made for. -/
theorem settles_giveBack (done : List (Check × ℤ × ℤ)) (hnodup : (done.map (·.1.1)).Nodup)
    (hheld : ∀ d ∈ done, keyOf t d ∈ held) (hb : s.Books tier) (ho : Own i t held s) :
    Settles (answering i) (rely tier i) (Yields tier i) (giveBack (done.map (tally t))) (fun r s' =>
      (∃ left, r = .ok left) ∧ s'.Books tier ∧ Own i t (held \ keysOf t done) s') s := by
  induction done generalizing held s with
  | nil =>
    refine settles_end (r := .ok []) (fun s s' hs hp => Own.spares hp hs) (fun s hb hp => ?_) hb ho
    have hsame : held \ keysOf t [] = held := by simp [keysOf]
    rw [hsame]
    exact ⟨⟨_, rfl⟩, hb, hp⟩
  | cons d done ih =>
    rw [List.map_cons, List.nodup_cons] at hnodup
    refine settles_step (fun s s' hs hp => Own.spares hp hs)
      (fun s hb hp => books_decr hb hp rfl (hheld d List.mem_cons_self)) (fun s₀ _ hp hb => ?_) hb ho
    change Settles _ _ _ (giveBack (done.map (tally t)) >>= fun rest => pure (_ :: rest)) _ _
    have hrest : ∀ d' ∈ done, keyOf t d' ∈ held \ {keyOf t d} := by
      intro d' hd'
      refine ⟨hheld d' (List.mem_cons_of_mem _ hd'), fun heq => hnodup.1 ?_⟩
      exact List.mem_map.mpr ⟨d', hd', congrArg Key.window heq⟩
    refine Settles.bind ((ih hnodup.2 hrest hb (hp.decr _)).mono ?_)
    rintro _ s₁ ⟨⟨left, rfl⟩, hb₁, ho₁⟩
    refine settles_end (r := .ok _) (fun s s' hs hp => Own.spares hp hs) (fun s hb hp => ?_) hb₁ ho₁
    have hsame : held \ keysOf t (d :: done) = (held \ {keyOf t d}) \ keysOf t done := by
      ext k
      simp [keysOf, and_assoc]
    rw [hsame]
    exact ⟨⟨_, rfl⟩, hb, hp⟩

/-- How a call ends: it passed, or it is counted nowhere. -/
def Ends (tier : GatewayLimits) (i : ι) (r : Except Fault Unit) (s : Desk ι) : Prop :=
  s.Books tier ∧ ∃ t held, Own i t held s ∧
    (r = .ok () ∧ s.Passed tier i ∨ ∃ e, r = .error e ∧ held = ∅)

omit [DecidableEq ι] in
/-- Within every limit a call has passed. -/
theorem passed_of_counts (hdone : done.map (·.1) = tier.checks) (ho : Own i t (keysOf t done) s)
    (htold : Told i t done s) (hwithin : ∀ d ∈ done, (tally t d).count ≤ (tally t d).limit) :
    s.Passed tier i := by
  refine ⟨t, ho.started, fun check hcheck => ?_⟩
  rw [← hdone] at hcheck
  obtain ⟨d, hd, rfl⟩ := List.mem_map.mp hcheck
  obtain ⟨hcurrent, hprevious, hpos⟩ := htold d hd
  have hmem : keyOf t d ∈ keysOf t done := List.mem_map.mpr ⟨d, hd, rfl⟩
  exact ⟨(ho.counted _).mpr hmem, d.2.1, d.2.2, hcurrent, hprevious, hpos, hwithin d hd⟩

theorem settles_raiseIfOver (hnodup : (done.map (·.1.1)).Nodup) (hdone : done.map (·.1) = tier.checks)
    (h : Counts tier i t done s) :
    Settles (answering i) (rely tier i) (Yields tier i) (raiseIfOver (done.map (tally t)) t)
      (Ends tier i) s := by
  obtain ⟨hb, ho, htold⟩ := h
  unfold raiseIfOver
  split
  next hnone =>
    have hwithin : ∀ d ∈ done, (tally t d).count ≤ (tally t d).limit := by
      intro d hd
      have hover := List.find?_eq_none.mp hnone _ (List.mem_map_of_mem hd)
      simpa using hover
    refine settles_end (r := .ok ()) (P := fun s => Own i t _ s ∧ Told i t _ s)
      (fun s s' hs hp => ⟨hp.1.spares hs, hp.2.spares hs⟩) (fun s hb hp => ?_) hb ⟨ho, htold⟩
    exact ⟨hb, t, _, hp.1, .inl ⟨rfl, passed_of_counts hdone hp.1 hp.2 hwithin⟩⟩
  next c _ =>
    have hheld : ∀ d ∈ done, keyOf t d ∈ keysOf t done := fun d hd => List.mem_map.mpr ⟨d, hd, rfl⟩
    refine Settles.bind (Settles.bind ((settles_giveBack done hnodup hheld hb ho).mono ?_))
    rintro _ s₁ ⟨⟨left, rfl⟩, hb₁, ho₁⟩
    refine settles_end (r := .ok ()) (fun s s' hs hp => Own.spares hp hs) (fun s₂ hb₂ ho₂ => ?_) hb₁ ho₁
    refine settles_end (r := .error _) (fun s s' hs hp => Own.spares hp hs) (fun s₃ hb₃ ho₃ => ?_)
      hb₂ ho₂
    exact ⟨hb₃, t, _, ho₃, .inr ⟨_, rfl, sdiff_self⟩⟩

theorem settles_enforce (hb : s.Books tier) (hstarted : s.started i = none)
    (hcounted : ∀ k, i ∉ s.counted k) (hverdict : s.verdict i = none) :
    Settles (answering i) (rely tier i) (Yields tier i) (enforce (some tier)) (Ends tier i) s := by
  have hnodup : (tier.checks.map (·.1)).Nodup := by simp [GatewayLimits.checks]
  refine settles_step
    (P := fun s => s.started i = none ∧ (∀ k, i ∉ s.counted k) ∧ s.verdict i = none)
    (fun s s' hs hp => ⟨hs.started.trans hp.1, fun k hk => hp.2.1 k ((hs.counted k).mp hk),
      hs.verdict.trans hp.2.2⟩)
    (fun s hb hp => books_now hb hp.1 hp.2.1 hp.2.2) (fun s₀ _ hp hb => ?_)
    hb ⟨hstarted, hcounted, hverdict⟩
  have hown : Own i s₀.clock (keysOf s₀.clock []) (s₀.exec i .now) := by
    refine ⟨Function.update_self _ _ _, le_refl _, fun k => ?_, hp.2.2⟩
    exact ⟨fun hk => absurd hk (hp.2.1 k), fun hk => absurd hk (by simp [keysOf])⟩
  have hcounts : Counts tier i s₀.clock [] (s₀.exec i .now) :=
    ⟨hb, hown, fun d hd => absurd hd List.not_mem_nil⟩
  change Settles _ _ _ ((count tier.checks s₀.clock).attempt >>= _) _ _
  refine Settles.bind (Settles.attempt ((settles_count hnodup hcounts).mono ?_))
  rintro _ s₁ ⟨done, rfl, hdone, hcounts⟩
  have hnodup' : (done.map (·.1.1)).Nodup := by
    have hmap : done.map (·.1.1) = tier.checks.map (·.1) := by rw [← hdone, List.map_map]; rfl
    rw [hmap]
    exact hnodup
  exact settles_raiseIfOver hnodup' hdone hcounts

/-- **A call keeps the books**, whatever the others do. -/
theorem settles_session (hb : s.Books tier) (hstarted : s.started i = none)
    (hcounted : ∀ k, i ∉ s.counted k) (hverdict : s.verdict i = none) :
    Settles (answering i) (rely tier i) (Yields tier i) (session (some tier)) (fun _ _ => True) s := by
  refine Settles.bind (Settles.attempt ((settles_enforce hb hstarted hcounted hverdict).mono ?_))
  rintro r s₁ ⟨hb₁, t, held, ho, hends⟩
  have hsaid : ∀ (verdict : Verdict) (P : Desk ι → Prop), (∀ s s', Spares i s s' → P s → P s') →
      (∀ s, s.Books tier → P s → (s.exec i (.returned verdict)).Books tier) → P s₁ →
        Settles (answering i) (rely tier i) (Yields tier i) (returned verdict)
          (fun _ _ => True) s₁ := by
    intro verdict P hP hbooks hp
    refine settles_step hP hbooks (fun s₂ _ _ _ => ?_) hb₁ hp
    exact fun _ _ => trivial
  rcases hends with ⟨rfl, hpassed⟩ | ⟨why, rfl, rfl⟩
  · refine hsaid .accepted (fun s => s.Passed tier i) (fun s s' hs hp => hp.spares hs) ?_ hpassed
    exact fun s hb hp => books_returned hb (fun _ => hp) fun why h => nomatch h
  · refine hsaid (.refused why) (Own i t ∅) (fun s s' hs hp => Own.spares hp hs) ?_ ho
    intro s hb hp
    refine books_returned hb (fun h => nomatch h) fun why' _ k hmem => ?_
    exact (hp.counted k).mp hmem

end

/-! ## Over runs -/

/-- A call that was accepted, and is counted in a bucket. -/
def AcceptedIn (s : Desk ι) (i : ι) (k : Key) : Prop :=
  s.verdict i = some .accepted ∧ s.Concerned i k

/-- **What the limiter promises.** -/
structure Honours (tier : GatewayLimits) (s : Desk ι) : Prop where
  /-- No bucket has more accepted calls than its window's limit. -/
  capped : ∀ check ∈ tier.checks, ∀ start (S : Finset ι),
    (∀ i ∈ S, s.AcceptedIn i ⟨check.1, start⟩) → (S.card : ℤ) ≤ check.2
  /-- What an accepted call was answered when it was counted is within every limit. -/
  within : ∀ i, s.verdict i = some .accepted → ∃ t, s.started i = some t ∧
    ∀ check ∈ tier.checks, ∃ current previous : ℤ,
      s.current i ⟨check.1, check.1.start t⟩ = some current ∧ s.previous i check.1 = some previous ∧
      (previous * (1 - elapsedFraction check.1 t) + current : ℚ) ≤ check.2
  /-- Once nobody under way is counted in it, a bucket is the number of its accepted calls. -/
  exact : ∀ check ∈ tier.checks, ∀ start, ¬ s.gone ⟨check.1, start⟩ →
    (∀ i ∈ s.counted ⟨check.1, start⟩, s.verdict i ≠ none) →
      ∃ S : Finset ι, (∀ i, i ∈ S ↔ s.AcceptedIn i ⟨check.1, start⟩) ∧
        s.value ⟨check.1, start⟩ = S.card

section

variable {check : Check} {start : ℤ}

/-- An accepted call is counted in its bucket, and was answered a count within the limit. -/
theorem Books.of_acceptedIn (hb : s.Books tier) (hcheck : check ∈ tier.checks)
    (h : s.AcceptedIn i ⟨check.1, start⟩) : i ∈ s.counted ⟨check.1, start⟩ ∧
      ∃ current : ℤ, s.current i ⟨check.1, start⟩ = some current ∧ current ≤ check.2 := by
  obtain ⟨hverdict, u, hu, hstart⟩ := h
  obtain ⟨t, ht, hall⟩ := hb.accepted i hverdict
  obtain ⟨hmem, current, previous, hcurrent, -, hpos, hle⟩ := hall check hcheck
  have htu : t = u := Option.some.inj (ht.symm.trans hu)
  have hkey : check.1.start t = start := htu ▸ hstart
  rw [hkey] at hmem hcurrent
  refine ⟨hmem, current, hcurrent, ?_⟩
  have hfraction := (elapsedFraction_mem check.1 t).2
  have hprevious : (0 : ℚ) ≤ previous := by exact_mod_cast hpos
  have hcarried : 0 ≤ (previous : ℚ) * (1 - elapsedFraction check.1 t) :=
    mul_nonneg hprevious (by linarith)
  have hcast : (current : ℚ) ≤ check.2 := by linarith
  exact_mod_cast hcast

theorem Books.honours (hb : s.Books tier) : s.Honours tier where
  capped check hcheck start S hS := by
    rcases S.eq_empty_or_nonempty with rfl | hne
    · have hpos : 0 < check.2 := by
        simp only [GatewayLimits.checks, List.mem_cons, List.not_mem_nil, or_false] at hcheck
        rcases hcheck with rfl | rfl
        · exact tier.rpm_pos
        · exact tier.rpd_pos
      simpa using hpos.le
    · -- The one of them that was counted last has read them all.
      have hsub : S ⊆ s.counted ⟨check.1, start⟩ := fun i hi =>
        (hb.of_acceptedIn hcheck (hS i hi)).1
      obtain ⟨i, hi, current, hcurrent, hcard⟩ := hb.ranked _ S hsub hne
      obtain ⟨-, current', hcurrent', hle⟩ := hb.of_acceptedIn hcheck (hS i hi)
      have hsame : current = current' := Option.some.inj (hcurrent.symm.trans hcurrent')
      omega
  within i hi := by
    obtain ⟨t, ht, hall⟩ := hb.accepted i hi
    refine ⟨t, ht, fun check hcheck => ?_⟩
    obtain ⟨-, current, previous, hcurrent, hprevious, -, hle⟩ := hall check hcheck
    exact ⟨current, previous, hcurrent, hprevious, hle⟩
  exact check hcheck start hgone hquiet := by
    refine ⟨s.counted ⟨check.1, start⟩, fun i => ⟨fun hi => ?_, fun h => ?_⟩, hb.value _ hgone⟩
    · refine ⟨?_, hb.placed _ i hi⟩
      obtain ⟨verdict, hverdict⟩ := Option.ne_none_iff_exists'.mp (hquiet i hi)
      cases verdict with
      | accepted => exact hverdict
      | refused why => exact absurd hi (hb.refused i why hverdict _)
    · exact (hb.of_acceptedIn hcheck h).1

theorem books_crowd (clock : Seconds) : (crowd (ι := ι) tier clock).store.Books tier where
  value k _ := by simp [crowd, value]
  empty k hk := hk.elim
  ranked k S hS hne := by
    obtain ⟨i, hi⟩ := hne
    exact absurd (hS hi) (Finset.notMem_empty i)
  placed k i hi := absurd hi (Finset.notMem_empty i)
  lasts k b t hb _ := nomatch hb
  lapsed k hk := hk.elim
  accepted i hi := nomatch hi
  refused i why hi := nomatch hi

end

end Desk

/-- **The limiter admits at most the limit**, in whatever order the commands of any number of calls
of one user come. -/
theorem limiter_honours [DecidableEq ι] (tier : GatewayLimits) (clock : Seconds)
    {c : Pool ι iface Fault Unit (Desk ι)}
    (h : Pool.Reach answering Desk.Passes (crowd tier clock) c) : c.store.Honours tier := by
  have hbooks : c.store.Books tier := h.kept (J := Desk.Books tier) (R := Desk.rely tier)
    (G := Desk.Yields tier) (fun i j s s' hij hg => ⟨hg.1, hg.2 j hij⟩)
    (fun j s s' hp => ⟨fun hb => hb.passes hp, Desk.passes_spares hp j⟩)
    (fun i => Desk.settles_session (Desk.books_crowd clock) rfl (fun k => Finset.notMem_empty i) rfl)
    (Desk.books_crowd clock) (fun i s s' hg hb => hg.1 hb) (fun s s' hp hb => hb.passes hp)
  exact hbooks.honours

/-- A limit of one a minute. -/
def single : GatewayLimits := ⟨1, 10, Int.one_pos, by decide⟩

/-- A command of a call, answered. -/
def command (i : Bool) : Move Bool iface (Desk Bool) :=
  .turn i fun s q => (s.reply q, s.exec i q)

/-- Two calls, each counted before the other knows its answer, and both run to their end. -/
def abreast : List (Move Bool iface (Desk Bool)) :=
  List.replicate 4 (command true) ++ List.replicate 10 (command false) ++
    List.replicate 4 (command true)

-- so that instants are computed with
unseal Rat.add Rat.sub Rat.mul Rat.inv Rat.ofScientific

/-- The second of the two is refused, and gives back what it took. -/
theorem limiter_honours_abreast :
    (abreast.foldl Pool.move (crowd single 86430)).store.Honours single ∧
      (abreast.foldl Pool.move (crowd single 86430)).store.verdict true = some .accepted ∧
      (abreast.foldl Pool.move (crowd single 86430)).store.value ⟨.rpm, 86400⟩ = 1 := by
  have hadmits : ∀ m ∈ abreast, Pool.Admits answering Desk.Passes m := by
    intro m hm
    obtain ⟨i, rfl⟩ : ∃ i, m = command i := by
      simp only [abreast, List.mem_append, List.mem_replicate] at hm
      rcases hm with (⟨-, rfl⟩ | ⟨-, rfl⟩) | ⟨-, rfl⟩ <;> exact ⟨_, rfl⟩
    exact fun s q => ⟨rfl, rfl⟩
  have hreach : Pool.Reach answering Desk.Passes (crowd single 86430)
      (abreast.foldl Pool.move (crowd single 86430)) := Pool.reach_of_moves abreast hadmits .start
  exact ⟨limiter_honours single 86430 hreach, by decide, by decide⟩

end RateLimit

end LlmGateway
