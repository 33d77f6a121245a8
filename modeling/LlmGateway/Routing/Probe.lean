import LlmGateway.Routing.CircuitBreaker

/-!
# The half-open probe

The claim of a probe is two commands, and a caller that lost it decides from a
third whether to take it over. The server is watched for the probe last claimed
while nobody held one, for where each caller stands inside `allows`, and for the
steps that come in an order the exclusion does not survive. In a run without
such a step at most one caller is handed the probe.
-/

namespace LlmGateway

namespace Breaker

open Effects

/-! ## The watched server -/

/-- A probe claimed while nobody held one: who claimed it and when, under which
cooldown, and whom `allows` has told since that the probe is theirs. -/
structure Claimed (ι : Type) where
  owner : ι
  since : Seconds
  cooldown : Seconds
  winners : List ι := []

/-- Within a full cooldown of its claim. -/
def Claimed.Live {ι : Type} (p : Claimed ι) (clock : Seconds) : Prop :=
  clock < p.since + p.cooldown

instance {ι : Type} (p : Claimed ι) (clock : Seconds) : Decidable (p.Live clock) :=
  inferInstanceAs (Decidable (_ < _))

/-- How far into `allows` a caller is: it has read the hash and the cooldown in
it, or it has then found the holder taken. -/
inductive Phase where
  | outside
  | read (cooldown : Seconds)
  | lost (cooldown : Seconds)
  deriving DecidableEq, Repr

/-- The server, the probe last claimed and not resolved yet, and where its
callers stand. -/
structure Watched (ι : Type) extends Store where
  claimed : Option (Claimed ι) := none
  phase : ι → Phase := fun _ => .outside
  /-- The callers that have claimed, or have read the holder's lease, and have
  not been answered yet. -/
  bound : List ι := []
  /-- Whether every step so far came in order. -/
  orderly : Bool := true

variable {ι : Type}

namespace Watched

/-- The claimed probe, while it is live. -/
def live (s : Watched ι) : Option (Claimed ι) := s.claimed.filter (·.Live s.clock)

/-- The holder's lease as a loser who reckons with `cooldown` is to find it: not
older than the claim, and not to be outlasted before the probe is stale. -/
def leased (s : Watched ι) (cooldown : Seconds) : Bool :=
  s.live.all fun p => decide (p.since ≤ s.hash.readOpenedAt) && decide (p.cooldown ≤ cooldown)

/-- A command of caller `i` carried out and watched. Three steps can come out
of order: a loser's reading of the lease before it is written, a claim while
another caller is on its way out with an older probe, and the removal of the
holder under a live probe. -/
def exec [DecidableEq ι] (cfg : Config) (i : ι) (s : Watched ι) (q : Ask) : Watched ι :=
  let s' := { s with toStore := s.toStore.exec cfg q }
  match q with
  | .hgetall => match s.phase i with
    | .outside => { s' with phase := Function.update s.phase i (.read (s.hash.cooldown cfg)) }
    | .lost cooldown => { s' with bound := i :: s.bound, orderly := s.orderly && s.leased cooldown }
    | .read _ => s'
  | .hsetnxHolder _ =>
    if s.hash.probeHolder.isNone then
      { s' with
        claimed := some { owner := i, since := s.clock, cooldown := s.hash.cooldown cfg }
        bound := i :: s.bound, orderly := s.orderly && s.bound.isEmpty }
    else match s.phase i with
      | .read cooldown => { s' with phase := Function.update s.phase i (.lost cooldown) }
      | _ => s'
  | .hset .close | .hset (.opening _ _ _ _) =>
    { s' with claimed := s.claimed.filter fun p => decide (p.owner ≠ i) }
  | .hdelHolder => { s' with orderly := s.orderly && s.live.isNone }
  | .returned d =>
    { s' with
      claimed := s.claimed.map fun p =>
        if d.isProbe ∧ p.Live s.clock then { p with winners := p.winners ++ [i] } else p
      phase := Function.update s.phase i .outside
      bound := s.bound.filter fun j => decide (j ≠ i) }
  | _ => s'

/-- What goes on beside the callers. A hash that expires under a live probe is
out of order too. -/
def Passes (s s' : Watched ι) : Prop :=
  Breaker.Passes s.toStore s'.toStore ∧ s'.claimed = s.claimed ∧ s'.phase = s.phase ∧
    s'.bound = s.bound ∧ s'.orderly = (s.orderly && (decide (s'.hash = s.hash) || s.live.isNone))

end Watched

/-- The watching server. -/
def watching (cfg : Config) (ι : Type) [DecidableEq ι] : Server ι (Watched ι) where
  exec := Watched.exec cfg
  reply s := s.toStore.reply
  passes := Watched.Passes

/-! ## What callers leave each other -/

namespace Watched

/-- A live probe is held, and nobody but its claimer has been told it is
theirs. -/
def Tidy (s : Watched ι) : Prop :=
  ∀ p ∈ s.claimed, (p.Live s.clock → s.hash.probeHolder.isSome) ∧
    (p.winners = [] ∨ p.winners = [p.owner])

/-- The live probe is `i`'s, who has not been told yet. -/
def Mine (i : ι) (s : Watched ι) : Prop :=
  ∀ p ∈ s.claimed, p.Live s.clock → p.owner = i ∧ p.winners = []

/-- **What a step leaves caller `j`.** The books stay tidy and the clock does
not go back; `j` stands where it stood; and no probe is claimed while `j` is on
its way out of `allows`. -/
structure Spares (j : ι) (s s' : Watched ι) : Prop where
  tidy : s.Tidy → s'.Tidy
  clock : s.clock ≤ s'.clock
  phase : s'.phase j = s.phase j
  bound : j ∈ s'.bound ↔ j ∈ s.bound
  /-- What is live was there before, up to the winners; `j`'s own has no new
  ones. -/
  claimed : j ∈ s.bound → ∀ p' ∈ s'.claimed, p'.Live s'.clock →
    ∃ p ∈ s.claimed, { p' with winners := p.winners } = p ∧ (p'.owner = j → p' = p)

theorem Spares.refl (j : ι) (s : Watched ι) : Spares j s s where
  tidy := id
  clock := le_rfl
  phase := rfl
  bound := Iff.rfl
  claimed _ p hp _ := ⟨p, hp, rfl, fun _ => rfl⟩

theorem Spares.trans {j : ι} {s₁ s₂ s₃ : Watched ι} (h : Spares j s₁ s₂) (h' : Spares j s₂ s₃) :
    Spares j s₁ s₃ where
  tidy := h'.tidy ∘ h.tidy
  clock := h.clock.trans h'.clock
  phase := h'.phase.trans h.phase
  bound := h'.bound.trans h.bound
  claimed hj p₃ hp₃ hlive := by
    obtain ⟨p₂, hp₂, heq, hown⟩ := h'.claimed (h.bound.mpr hj) p₃ hp₃ hlive
    have hlive₂ : p₂.Live s₂.clock := by
      rw [← heq]
      exact lt_of_le_of_lt h'.clock hlive
    obtain ⟨p₁, hp₁, heq₁, hown₁⟩ := h.claimed hj p₂ hp₂ hlive₂
    refine ⟨p₁, hp₁, ?_, fun ho => ?_⟩
    · rw [← heq₁, ← heq]
    · obtain rfl := hown ho
      exact hown₁ ho

/-- What caller `j` relies on. -/
def rely (j : ι) : Rely (Watched ι) := ⟨Spares j, Spares.refl j, Spares.trans⟩

/-- What caller `i` guarantees. -/
def Yields (i : ι) (s s' : Watched ι) : Prop :=
  (s.Tidy → s'.Tidy) ∧ ∀ j, i ≠ j → Spares j s s'

/-- A step that claims nothing. -/
theorem Spares.of_claimed {j : ι} {s s' : Watched ι} (ht : s.Tidy → s'.Tidy)
    (hk : s.clock ≤ s'.clock) (hp : s'.phase j = s.phase j) (hb : j ∈ s'.bound ↔ j ∈ s.bound)
    (hc : ∀ p ∈ s'.claimed, p ∈ s.claimed) : Spares j s s' where
  tidy := ht
  clock := hk
  phase := hp
  bound := hb
  claimed _ p hp _ := ⟨p, hc p hp, rfl, fun _ => rfl⟩

/-- Nothing untidies the books but a claim, an answer, or a holder let go. -/
theorem Tidy.of_claimed {s s' : Watched ι} (hk : s.clock ≤ s'.clock)
    (hc : ∀ p ∈ s'.claimed, p ∈ s.claimed)
    (hh : s.hash.probeHolder.isSome → s'.hash.probeHolder.isSome) (h : s.Tidy) : s'.Tidy := by
  intro p hp
  obtain ⟨hheld, hwon⟩ := h p (hc p hp)
  exact ⟨fun hl => hh (hheld (lt_of_le_of_lt hk hl)), hwon⟩

theorem mem_live {s : Watched ι} {p : Claimed ι} :
    p ∈ s.live ↔ p ∈ s.claimed ∧ p.Live s.clock := by
  simp [live, Option.filter_eq_some_iff]

theorem live_eq_none {s : Watched ι} (h : s.live.isNone) : ∀ p ∈ s.claimed, ¬ p.Live s.clock := by
  intro p hp hl
  have hlive := mem_live.mpr ⟨hp, hl⟩
  rw [Option.isNone_iff_eq_none.mp h] at hlive
  exact absurd hlive (by simp)

/-- The lease a loser is to find. -/
theorem leased_spec {s : Watched ι} {cooldown : Seconds} (h : s.leased cooldown) :
    ∀ p ∈ s.claimed, p.Live s.clock → p.since ≤ s.hash.readOpenedAt ∧ p.cooldown ≤ cooldown := by
  intro p hp hl
  have hlive : s.live = some p := mem_live.mpr ⟨hp, hl⟩
  simpa [leased, hlive] using h

/-- Nothing is live: nothing is owed. -/
theorem Tidy.of_not_live {s s' : Watched ι} (hk : s.clock ≤ s'.clock)
    (hc : ∀ p ∈ s'.claimed, p ∈ s.claimed) (hl : s.live.isNone) (h : s.Tidy) : s'.Tidy := by
  intro p hp
  have hdead := live_eq_none hl p (hc p hp)
  exact ⟨fun hlive => absurd (lt_of_le_of_lt hk hlive) hdead, (h p (hc p hp)).2⟩

/-- A step that claims nothing and answers nothing. -/
theorem yields_of_claimed {i : ι} {s s' : Watched ι} (ht : s.Tidy → s'.Tidy) (hk : s'.clock = s.clock)
    (hp : ∀ j, j ≠ i → s'.phase j = s.phase j) (hb : ∀ j, j ≠ i → (j ∈ s'.bound ↔ j ∈ s.bound))
    (hc : ∀ p ∈ s'.claimed, p ∈ s.claimed) : Yields i s s' :=
  ⟨ht, fun j hij => .of_claimed ht hk.ge (hp j (Ne.symm hij)) (hb j (Ne.symm hij)) hc⟩

theorem passes_clock {s s' : Watched ι} (hp : s.Passes s') : s.clock ≤ s'.clock := by
  replace hp := hp.1
  generalize s'.toStore = t at hp
  cases hp with
  | tick h => exact h
  | expires _ _ => exact le_rfl

/-- What goes on beside the callers, in order, keeps the books. -/
theorem passes_tidy {s s' : Watched ι} (hp : s.Passes s') (ho : s'.orderly) (h : s.Tidy) :
    s'.Tidy := by
  have hclock := passes_clock hp
  obtain ⟨-, hc, -, -, horderly⟩ := hp
  rw [ho, eq_comm, Bool.and_eq_true, Bool.or_eq_true, decide_eq_true_eq] at horderly
  have hsub : ∀ p ∈ s'.claimed, p ∈ s.claimed := by rw [hc]; exact fun _ => id
  rcases horderly.2 with hh | hl
  · exact h.of_claimed hclock hsub (by rw [hh]; exact id)
  · exact h.of_not_live hclock hsub hl

/-- And spares every caller. -/
theorem passes_spares {s s' : Watched ι} (hp : s.Passes s') (ho : s'.orderly) (j : ι) :
    Spares j s s' :=
  have ⟨_, hc, hphase, hb, _⟩ := hp
  .of_claimed (passes_tidy hp ho) (passes_clock hp) (by rw [hphase]) (by rw [hb])
    (by rw [hc]; exact fun _ => id)

end Watched

/-! ## One step -/

/-- No write lets the holder go. -/
theorem Hash.write_holder (cfg : Config) (h : Hash) (w : Write) (hh : h.probeHolder.isSome) :
    (h.write cfg w).probeHolder.isSome := by
  cases w <;> simp_all [Hash.write]

namespace Watched

variable [DecidableEq ι] {cfg : Config} {i : ι} {s : Watched ι}

/-- The claim of a probe. -/
theorem exec_hsetnx_yields {requestId : String} (hn : s.hash.probeHolder.isNone)
    (ho : (s.exec cfg i (.hsetnxHolder requestId)).orderly) :
    Yields i s (s.exec cfg i (.hsetnxHolder requestId)) := by
  have hbound : s.bound = [] := by
    simp only [exec, hn, if_true, Bool.and_eq_true, List.isEmpty_iff] at ho
    exact ho.2
  have htidy : (s.exec cfg i (.hsetnxHolder requestId)).Tidy := by
    intro p hp
    simp only [exec, hn, if_true, Option.mem_def, Option.some.injEq] at hp
    subst hp
    refine ⟨fun _ => ?_, .inl rfl⟩
    simp [exec, Store.exec, Option.isNone_iff_eq_none.mp hn]
  refine ⟨fun _ => htidy, fun j hij => ?_⟩
  exact
    { tidy := fun _ => htidy
      clock := by simp [exec, hn]
      phase := by simp [exec, hn]
      bound := by simp [exec, hn, Ne.symm hij]
      claimed := by simp [hbound] }

/-- The answer of `allows`. -/
theorem exec_returned_yields {d : BreakerDecision} (hd : d.isProbe → s.Mine i) :
    Yields i s (s.exec cfg i (.returned d)) := by
  have hcases : ∀ p' ∈ (s.exec cfg i (.returned d)).claimed, p' ∈ s.claimed ∨
      ∃ p ∈ s.claimed, p.owner = i ∧ p' = { p with winners := [i] } := by
    intro p' hp'
    simp only [exec, Option.mem_def, Option.map_eq_some_iff] at hp'
    obtain ⟨p, hp, rfl⟩ := hp'
    split
    next hwon =>
      obtain ⟨hown, hnone⟩ := hd hwon.1 p hp hwon.2
      exact .inr ⟨p, hp, hown, by rw [hnone]; rfl⟩
    next => exact .inl hp
  have htidy : s.Tidy → (s.exec cfg i (.returned d)).Tidy := by
    intro h p' hp'
    rcases hcases p' hp' with hp | ⟨p, hp, hown, rfl⟩
    · exact h p' hp
    · exact ⟨(h p hp).1, .inr (by rw [hown])⟩
  refine ⟨htidy, fun j hij => ?_⟩
  exact
    { tidy := htidy
      clock := le_rfl
      phase := Function.update_of_ne (Ne.symm hij) _ _
      bound := by simp [exec, Ne.symm hij]
      claimed := by
        intro _ p' hp' _
        rcases hcases p' hp' with hp | ⟨p, hp, hown, rfl⟩
        · exact ⟨p', hp, rfl, fun _ => rfl⟩
        · exact ⟨p, hp, rfl, fun hj => absurd (hown.symm.trans hj) hij⟩ }

/-- **One step of a caller**, made in order. All it has to see to itself is that
it answers with a probe only what is its own. -/
theorem exec_yields {q : Ask} (ho : (s.exec cfg i q).orderly)
    (hd : ∀ d, q = .returned d → d.isProbe → s.Mine i) : Yields i s (s.exec cfg i q) := by
  have hkept : ∀ {s' : Watched ι}, s'.clock = s.clock → s'.hash.probeHolder = s.hash.probeHolder →
      (∀ p ∈ s'.claimed, p ∈ s.claimed) → s.Tidy → s'.Tidy := fun hk hh hc =>
    Tidy.of_claimed hk.ge hc (hh ▸ id)
  cases q with
  | returned d => exact exec_returned_yields (hd d rfl)
  | hsetnxHolder requestId =>
    by_cases hn : s.hash.probeHolder.isNone
    · exact exec_hsetnx_yields hn ho
    · have hs : s.hash.probeHolder.isSome := by simpa [Option.isSome_iff_ne_none] using hn
      simp only [exec, if_neg hn, Store.exec, if_pos hs]
      split
      next c hc =>
        exact yields_of_claimed (hkept rfl rfl fun _ => id) rfl
          (fun j hj => Function.update_of_ne hj _ _) (fun _ _ => Iff.rfl) fun _ => id
      next => exact ⟨id, fun j _ => Spares.refl j s⟩
  | hgetall =>
    simp only [exec]
    split
    next =>
      exact yields_of_claimed (hkept rfl rfl fun _ => id) rfl
        (fun j hj => Function.update_of_ne hj _ _) (fun _ _ => Iff.rfl) fun _ => id
    next =>
      exact yields_of_claimed (hkept rfl rfl fun _ => id) rfl (fun _ _ => rfl)
        (fun j hj => by simp [hj]) fun _ => id
    next => exact ⟨id, fun j _ => Spares.refl j s⟩
  | hset w =>
    have hholder : s.hash.probeHolder.isSome → (s.hash.write cfg w).probeHolder.isSome :=
      Hash.write_holder cfg _ w
    have hsub : ∀ p ∈ (s.exec cfg i (.hset w)).claimed, p ∈ s.claimed := by
      cases w <;> simp +contextual [exec, Option.filter_eq_some_iff]
    refine yields_of_claimed (Tidy.of_claimed ?_ hsub ?_) ?_ ?_ ?_ hsub
    · cases w <;> exact le_rfl
    · cases w <;> exact hholder
    · cases w <;> rfl
    · cases w <;> exact fun _ _ => rfl
    · cases w <;> exact fun _ _ => Iff.rfl
  | hdelHolder =>
    simp only [exec, Bool.and_eq_true] at ho
    exact yields_of_claimed (Tidy.of_not_live le_rfl (fun _ => id) ho.2) rfl (fun _ _ => rfl)
      (fun _ _ => Iff.rfl) fun _ => id
  | expire =>
    simp only [exec, Store.exec]
    split
    next => exact ⟨id, fun j _ => Spares.refl j s⟩
    next =>
      exact yields_of_claimed (hkept rfl rfl fun _ => id) rfl (fun _ _ => rfl)
        (fun _ _ => Iff.rfl) fun _ => id
  | hincrbyFailures =>
    exact yields_of_claimed (hkept rfl rfl fun _ => id) rfl (fun _ _ => rfl)
      (fun _ _ => Iff.rfl) fun _ => id
  | now => exact ⟨id, fun j _ => Spares.refl j s⟩
  | hgetCooldown => exact ⟨id, fun j _ => Spares.refl j s⟩
  | outcome d => exact ⟨id, fun j _ => Spares.refl j s⟩

end Watched

/-! ## One caller -/

/-- Where a caller stands, and what it may count on there. -/
inductive Place where
  /-- Nothing but the books. -/
  | anywhere
  | outside
  | read (cooldown : Seconds)
  | lost (cooldown : Seconds)
  /-- It has read the holder's lease. -/
  | weighing (openedAt cooldown : Seconds)
  /-- On its way out with the probe. -/
  | bound

/-- What holds of the server where caller `i` stands. -/
def Watched.At (i : ι) (s : Watched ι) : Place → Prop
  | .anywhere => s.Tidy
  | .outside => s.Tidy ∧ s.phase i = .outside
  | .read cooldown => s.Tidy ∧ s.phase i = .read cooldown
  | .lost cooldown => s.Tidy ∧ s.phase i = .lost cooldown
  | .weighing openedAt cooldown => s.Tidy ∧ i ∈ s.bound ∧
      ∀ p ∈ s.claimed, p.Live s.clock → p.since ≤ openedAt ∧ p.cooldown ≤ cooldown
  | .bound => s.Tidy ∧ i ∈ s.bound ∧ s.Mine i

namespace Watched

variable {i : ι} {s s' : Watched ι}

theorem At.tidy {pl : Place} (h : s.At i pl) : s.Tidy := by
  cases pl with
  | anywhere => exact h
  | _ => exact h.1

/-- The others leave a caller where it stands. -/
theorem At.spared {pl : Place} (hs : Spares i s s') (h : s.At i pl) : s'.At i pl := by
  have hlive : ∀ (p : Claimed ι) (p' : Claimed ι), { p' with winners := p.winners } = p →
      p'.Live s'.clock → p.Live s.clock := by
    intro p p' heq hl
    rw [← heq]
    exact lt_of_le_of_lt hs.clock hl
  cases pl with
  | anywhere => exact hs.tidy h
  | outside => exact ⟨hs.tidy h.1, hs.phase.trans h.2⟩
  | read c => exact ⟨hs.tidy h.1, hs.phase.trans h.2⟩
  | lost c => exact ⟨hs.tidy h.1, hs.phase.trans h.2⟩
  | weighing o c =>
    refine ⟨hs.tidy h.1, hs.bound.mpr h.2.1, fun p' hp' hl' => ?_⟩
    obtain ⟨p, hp, heq, -⟩ := hs.claimed h.2.1 p' hp' hl'
    have hw := h.2.2 p hp (hlive p p' heq hl')
    rw [← heq] at hw
    exact hw
  | bound =>
    refine ⟨hs.tidy h.1, hs.bound.mpr h.2.1, fun p' hp' hl' => ?_⟩
    obtain ⟨p, hp, heq, hown⟩ := hs.claimed h.2.1 p' hp' hl'
    have hm := h.2.2 p hp (hlive p p' heq hl')
    have howner : p'.owner = i := by
      rw [← heq] at hm
      exact hm.1
    rw [hown howner]
    exact hm

end Watched

variable [DecidableEq ι]

/-- The watching server as caller `i` sees it in a run whose steps come in
order. -/
def inOrder (cfg : Config) (i : ι) : World iface (Watched ι) := fun s q a s' =>
  (watching cfg ι).world i s q a s' ∧ s'.orderly = true

/-- What a program of caller `i` comes to, whatever the others do. -/
abbrev Comes {α : Type} (cfg : Config) (i : ι) (p : Eff α)
    (Q : Except RedisError α → Watched ι → Prop) (s : Watched ι) : Prop :=
  Settles (inOrder cfg i) (Watched.rely i) (Watched.Yields i) p Q s

section Caller

variable {cfg : Config} {i : ι} {s : Watched ι}

/-- One command, from where the caller stands to where its answer puts it. -/
theorem comes_ask {α : Type} {q : Ask} {f : Ans q → Except RedisError α} {pl : Place}
    {D : Except RedisError α → Place} (hd : ∀ d, q ≠ .returned d)
    (hq : ∀ s s' a, s.At i pl → inOrder cfg i s q a s' → s'.Tidy → s'.At i (D (f a)))
    (h : s.At i pl) :
    Comes cfg i (.ask q fun a => .ofExcept (f a)) (fun r s' => s'.At i (D r)) s := by
  refine Settles.ask (P := fun s => s.At i pl) (fun _ _ hs h => h.spared hs) ?_ h
  intro s a s' h hw
  have hyields : Watched.Yields i s s' := by
    obtain ⟨hw, ho⟩ := hw
    obtain rfl | rfl := Server.world_cases hw
    · exact ⟨id, fun j _ => .refl j _⟩
    · exact Watched.exec_yields ho fun d hq => absurd hq (hd d)
  refine ⟨hyields, settles_ofExcept fun s'' hs => ?_⟩
  exact (hq s s' a h hw (hyields.1 h.tidy)).spared hs

/-- The questions that move no caller on. -/
def Ask.stays : Ask → Bool
  | .hgetall | .hsetnxHolder _ | .returned _ => false
  | _ => true

/-- A caller that asks such a question stays where it is. -/
theorem At.stays {pl : Place} {q : Ask} (hq : q.stays) (ht : (s.exec cfg i q).Tidy)
    (h : s.At i pl) : (s.exec cfg i q).At i pl := by
  have hclock : (s.exec cfg i q).clock = s.clock := by
    cases q with
    | hset w => cases w <;> rfl
    | _ => simp_all [Ask.stays, Watched.exec]
  have hplace : (s.exec cfg i q).phase = s.phase ∧ (s.exec cfg i q).bound = s.bound := by
    cases q with
    | hset w => cases w <;> exact ⟨rfl, rfl⟩
    | _ => simp_all [Ask.stays, Watched.exec]
  have hsub : ∀ p ∈ (s.exec cfg i q).claimed, p ∈ s.claimed := by
    cases q with
    | hset w => cases w <;> simp +contextual [Watched.exec, Option.filter_eq_some_iff]
    | _ => simp_all [Ask.stays, Watched.exec]
  cases pl with
  | anywhere => exact ht
  | outside => exact ⟨ht, by rw [hplace.1]; exact h.2⟩
  | read c => exact ⟨ht, by rw [hplace.1]; exact h.2⟩
  | lost c => exact ⟨ht, by rw [hplace.1]; exact h.2⟩
  | weighing o c =>
    exact ⟨ht, by rw [hplace.2]; exact h.2.1, fun p hp hl => h.2.2 p (hsub p hp) (hclock ▸ hl)⟩
  | bound =>
    exact ⟨ht, by rw [hplace.2]; exact h.2.1, fun p hp hl => h.2.2 p (hsub p hp) (hclock ▸ hl)⟩

theorem comes_stays {α : Type} {q : Ask} {f : Ans q → Except RedisError α} {pl : Place}
    (hq : q.stays) (h : s.At i pl) :
    Comes cfg i (.ask q fun a => .ofExcept (f a)) (fun _ s' => s'.At i pl) s := by
  refine comes_ask (D := fun _ => pl) (by rintro d rfl; exact absurd hq Bool.false_ne_true) ?_ h
  intro s s' a h hw ht
  obtain rfl | rfl := Server.world_cases hw.1
  · exact h
  · exact At.stays hq ht h

/-- The first reading of the hash. -/
theorem comes_hgetall (h : s.At i .outside) :
    Comes cfg i hgetall (fun r s' => s'.At i (match r with
      | .ok raw => .read (raw.cooldown cfg)
      | .error _ => .anywhere)) s := by
  refine comes_ask (q := .hgetall) (f := fun a => a) (by simp) ?_ h
  intro s s' a h hw ht
  cases a with
  | error e => exact ht
  | ok raw =>
    rcases hw.1 with ⟨hraw, rfl⟩ | ⟨⟨e, he⟩, -⟩
    · cases hraw
      refine ⟨ht, ?_⟩
      simp [watching, Watched.exec, h.2]
    · cases he

/-- The loser's reading of the holder's lease. -/
theorem comes_hgetall_lost {cooldown : Seconds} (h : s.At i (.lost cooldown)) :
    Comes cfg i hgetall (fun r s' => s'.At i (match r with
      | .ok raw => .weighing raw.readOpenedAt cooldown
      | .error _ => .anywhere)) s := by
  refine comes_ask (q := .hgetall) (f := fun a => a) (by simp) ?_ h
  intro s s' a h hw ht
  cases a with
  | error e => exact ht
  | ok raw =>
    obtain ⟨hw, ho⟩ := hw
    rcases hw with ⟨hraw, rfl⟩ | ⟨⟨e, he⟩, -⟩
    · cases hraw
      have hleased : s.leased cooldown := by
        simp only [watching, Watched.exec, h.2, Bool.and_eq_true] at ho
        exact ho.2
      refine ⟨ht, ?_, ?_⟩
      · simp [watching, Watched.exec, h.2]
      · simpa [watching, Watched.exec, h.2] using Watched.leased_spec hleased
    · cases he

/-- The claim. -/
theorem comes_hsetnxHolder {requestId : String} {cooldown : Seconds}
    (h : s.At i (.read cooldown)) :
    Comes cfg i (hsetnxHolder requestId) (fun r s' => s'.At i (match r with
      | .ok true => .bound
      | .ok false => .lost cooldown
      | .error _ => .anywhere)) s := by
  refine comes_ask (q := .hsetnxHolder requestId) (f := fun a => a) (by simp) ?_ h
  intro s s' a h hw ht
  cases a with
  | error e => exact ht
  | ok claimed =>
    rcases hw.1 with ⟨hclaimed, rfl⟩ | ⟨⟨e, he⟩, -⟩
    · replace hclaimed : claimed = s.hash.probeHolder.isNone := by cases hclaimed; rfl
      cases claimed with
      | true =>
        refine ⟨ht, ?_, ?_⟩
        · simp [watching, Watched.exec, ← hclaimed]
        · intro p hp _
          simp only [watching, Watched.exec, ← hclaimed, if_true, Option.mem_def,
            Option.some.injEq] at hp
          subst hp
          exact ⟨rfl, rfl⟩
      | false =>
        refine ⟨ht, ?_⟩
        simp [watching, Watched.exec, ← hclaimed, h.2]
    · cases he

/-- The time at which a loser weighs the holder's lease: if it has run out, no
live probe is left to take over. -/
theorem comes_now_weighing {openedAt cooldown : Seconds} (h : s.At i (.weighing openedAt cooldown)) :
    Comes cfg i now (fun r s' => s'.At i (match r with
      | .ok t => if t - openedAt < cooldown then .weighing openedAt cooldown else .bound
      | .error _ => .anywhere)) s := by
  refine comes_ask (q := .now) (f := .ok) (by simp) ?_ h
  intro s s' a h hw ht
  obtain ⟨rfl, rfl⟩ := hw.1.resolve_right fun h => h.1
  dsimp only
  split
  next => exact h
  next hle =>
    refine ⟨h.1, h.2.1, fun p hp hl => absurd hl ?_⟩
    obtain ⟨hsince, hcooldown⟩ := h.2.2 p hp hl
    replace hle : cooldown ≤ s.clock - openedAt := not_lt.mp hle
    have hover : p.since + p.cooldown ≤ s.clock := by linarith
    exact not_lt.mpr hover

theorem comes_now {pl : Place} (h : s.At i pl) : Comes cfg i now (fun _ s' => s'.At i pl) s :=
  comes_stays (q := .now) (f := .ok) rfl h

/-- Asking on once the answer leaves the caller where it was. -/
theorem comes_then {α β : Type} {p : Eff α} {f : α → Eff β} {pl : Place}
    {D : Except RedisError β → Place} (h : Comes cfg i p (fun _ s' => s'.At i pl) s)
    (hf : ∀ a s', s'.At i pl → Comes cfg i (f a) (fun r s'' => s''.At i (D r)) s')
    (he : ∀ e, D (.error e) = .anywhere) :
    Comes cfg i (p >>= f) (fun r s' => s'.At i (D r)) s := by
  refine Settles.bind (h.mono ?_)
  rintro (e | a) s' hs
  · dsimp only
    rw [he e]
    exact hs.tidy
  · exact hf a s' hs

theorem comes_ret {α : Type} {a : α} {D : Except RedisError α → Place} (h : s.At i (D (.ok a))) :
    Comes cfg i (.ret a) (fun r s' => s'.At i (D r)) s :=
  fun _ hs => h.spared hs

/-- The same where the caller stays put to the end. -/
theorem comes_also {α β : Type} {p : Eff α} {f : α → Eff β} {pl : Place}
    (h : Comes cfg i p (fun _ s' => s'.At i pl) s)
    (hf : ∀ a s', s'.At i pl → Comes cfg i (f a) (fun _ s'' => s''.At i pl) s') :
    Comes cfg i (p >>= f) (fun _ s' => s'.At i pl) s := by
  refine Settles.bind (h.mono ?_)
  rintro (e | a) s' hs
  · exact hs
  · exact hf a s' hs

theorem comes_write {w : Write} {pl : Place} (h : s.At i pl) :
    Comes cfg i (write w) (fun _ s' => s'.At i pl) s :=
  comes_also (comes_stays (q := .hset w) (f := fun a => a) rfl h) fun _ _ h =>
    comes_stays (q := .expire) (f := fun a => a) rfl h

/-- Where `allows` leaves its caller: bound, if it hands out the probe. -/
def handed : Except RedisError BreakerDecision → Place
  | .ok d => if d.isProbe then .bound else .anywhere
  | .error _ => .anywhere

theorem comes_tryClaim {provider model requestId : String} {failures : Int} {cooldown : Seconds}
    (h : s.At i (.read cooldown)) :
    Comes cfg i (tryClaim provider model failures cooldown requestId)
      (fun r s' => s'.At i (handed r)) s := by
  refine Settles.bind ((comes_hsetnxHolder h).mono ?_)
  rintro (e | claimed) s h
  · exact h
  cases claimed with
  | true =>
    -- The lease, and the way out.
    refine comes_then (comes_now h) (fun t s h => ?_) fun _ => rfl
    exact comes_then (comes_write h) (fun _ s h => comes_ret h) fun _ => rfl
  | false =>
    refine Settles.bind ((comes_hgetall_lost h).mono ?_)
    rintro (e | raw) s h
    · exact h
    refine Settles.bind ((comes_now_weighing h).mono ?_)
    rintro (e | t) s h
    · exact h
    dsimp only at h ⊢
    split
    next hlt =>
      rw [if_pos hlt] at h
      exact comes_ret h.tidy
    next hle =>
      rw [if_neg hle] at h
      refine comes_then (comes_now h) (fun t' s h => ?_) fun _ => rfl
      exact comes_then (comes_write h) (fun _ s h => comes_ret h) fun _ => rfl

theorem comes_claimProbe {provider model requestId : String} {failures : Int} {cooldown : Seconds}
    (h : s.At i (.read cooldown)) :
    Comes cfg i (claimProbe provider model failures cooldown requestId)
      (fun r s' => s'.At i (handed r)) s := by
  refine Settles.bind (Settles.attempt ((comes_tryClaim h).mono ?_))
  rintro (e | d) s h
  · exact comes_ret h
  · exact comes_ret h

/-- **`allows`**, whatever the others do: it hands out a probe only to a caller
to whom the live probe belongs. -/
theorem comes_allows {provider model requestId : String} (h : s.At i .outside) :
    Comes cfg i (allows cfg provider model requestId) (fun r s' => s'.At i (handed r)) s := by
  refine Settles.bind (Settles.attempt ((comes_hgetall h).mono ?_))
  rintro (e | raw) s h
  · exact comes_ret h
  dsimp only at h ⊢
  split
  next => exact comes_ret h.tidy
  next =>
    refine comes_then (comes_now h) (fun t s h => ?_) fun _ => rfl
    split
    next => exact comes_ret h.tidy
    next => exact comes_claimProbe h

/-- Telling the caller. -/
theorem comes_returned {d : BreakerDecision} (h : s.At i (handed (.ok d))) :
    Comes cfg i (returned d) (fun _ s' => s'.At i .anywhere) s := by
  refine Settles.ask (P := fun s => s.At i (handed (.ok d))) (fun _ _ hs h => h.spared hs) ?_ h
  intro s a s' h hw
  have hd : ∀ d', Ask.returned d = .returned d' → d'.isProbe → s.Mine i := by
    intro d' hd' hprobe
    cases hd'
    rw [handed, if_pos hprobe] at h
    exact h.2.2
  have hyields : Watched.Yields i s s' := by
    obtain ⟨hw, ho⟩ := hw
    obtain rfl | rfl := Server.world_cases hw
    · exact ⟨id, fun j _ => .refl j _⟩
    · exact Watched.exec_yields ho hd
  refine ⟨hyields, fun s'' hs => hs.tidy (hyields.1 h.tidy)⟩

/-- A block whose failures are swallowed. -/
theorem comes_swallowing {p : Eff Unit} {pl : Place} (h : Comes cfg i p (fun _ s' => s'.At i pl) s) :
    Comes cfg i (swallowing p) (fun _ s' => s'.At i pl) s := by
  refine Settles.bind (Settles.attempt (h.mono ?_))
  rintro r s' hs s'' hr
  exact hs.spared hr

theorem comes_openBreaker {failures : Int} {previous retryAfterS : Option Seconds} {pl : Place}
    (h : s.At i pl) :
    Comes cfg i (openBreaker failures previous retryAfterS) (fun _ s' => s'.At i pl) s :=
  comes_also (comes_now h) fun _ _ h => comes_write h

theorem comes_hdelHolder {pl : Place} (h : s.At i pl) :
    Comes cfg i hdelHolder (fun _ s' => s'.At i pl) s :=
  comes_stays (q := .hdelHolder) (f := fun a => a) rfl h

theorem comes_recordSuccess {d : BreakerDecision} (h : s.At i .anywhere) :
    Comes cfg i (recordSuccess d) (fun _ s' => s'.At i .anywhere) s := by
  rw [recordSuccess]
  split
  next => exact comes_ret (D := fun _ => .anywhere) h
  next =>
    refine comes_swallowing ?_
    split
    next => exact comes_also (comes_write h) fun _ _ h => comes_hdelHolder h
    next =>
      split
      next => exact comes_write h
      next => exact comes_ret (D := fun _ => .anywhere) h

theorem comes_recordFailure {d : BreakerDecision} {error : ProviderError} (h : s.At i .anywhere) :
    Comes cfg i (recordFailure cfg d error) (fun _ s' => s'.At i .anywhere) s := by
  rw [recordFailure]
  split
  next => exact comes_ret (D := fun _ => .anywhere) h
  next =>
    refine comes_swallowing ?_
    split
    next =>
      refine comes_also (comes_stays (q := .hgetCooldown) (f := fun a => a) rfl h) fun raw s h => ?_
      exact comes_also (comes_openBreaker h) fun _ _ h => comes_hdelHolder h
    next =>
      refine comes_also (comes_stays (q := .hincrbyFailures) (f := fun a => a) rfl h)
        fun failures s h => ?_
      refine comes_also (comes_stays (q := .expire) (f := fun a => a) rfl h) fun _ s h => ?_
      split
      next => exact comes_openBreaker h
      next => exact comes_ret (D := fun _ => .anywhere) h

/-- **A request at the breaker**, from before it asks. -/
theorem comes_session {provider model requestId : String} (h : s.At i .outside) :
    Comes cfg i (session cfg provider model requestId) (fun _ s' => s'.At i .anywhere) s := by
  refine Settles.bind ((comes_allows h).mono ?_)
  rintro (e | d) s h
  · exact h
  refine comes_also (comes_returned h) fun _ s h => ?_
  split
  next =>
    refine comes_also (comes_stays (q := .outcome d) (f := .ok) rfl h) fun report s h => ?_
    cases report with
    | nothing => exact comes_ret (D := fun _ => .anywhere) h
    | success => exact comes_recordSuccess h
    | failure error => exact comes_recordFailure h
  next => exact comes_ret (D := fun _ => .anywhere) h

end Caller

/-! ## Any number of callers -/

/-- What came out of order stays out of order. -/
theorem Watched.orderly_of_exec {cfg : Config} {i : ι} {s : Watched ι} {q : Ask}
    (h : (s.exec cfg i q).orderly) : s.orderly := by
  cases q with
  | hgetall =>
    simp only [exec] at h
    split at h
    next => exact h
    next => exact (Bool.and_eq_true_iff.mp h).1
    next => exact h
  | hsetnxHolder requestId =>
    simp only [exec] at h
    split at h
    next => exact (Bool.and_eq_true_iff.mp h).1
    next => split at h <;> exact h
  | hset w => cases w <;> exact h
  | hdelHolder => exact (Bool.and_eq_true_iff.mp h).1
  | _ => exact h

/-- The breaker of one (provider, model), in whatever state, with any number of
requests at it. -/
def arriving (cfg : Config) (provider model : String) (requestId : ι → String) (s : Store) :
    Pool ι iface RedisError Unit (Watched ι) :=
  ⟨{ toStore := s }, fun i => session cfg provider model (requestId i)⟩

/-- **At most one live probe.** In whatever order any number of requests ask and
report, with commands failing and time passing: as long as every step has come
in order, at most one `allows` has handed out the probe since it was claimed
from a free holder, until it is resolved or a full cooldown has gone by. -/
theorem one_live_probe (cfg : Config) (provider model : String) (requestId : ι → String)
    (s : Store) {c : Pool ι iface RedisError Unit (Watched ι)}
    (h : Pool.Reach (watching cfg ι).world (watching cfg ι).passes
      (arriving cfg provider model requestId s) c) (ho : c.store.orderly) :
    ∀ p ∈ c.store.claimed, p.winners.length ≤ 1 := by
  have hconfined := h.confine (fun s => s.orderly = true) ?_ ?_ ho
  · have htidy : c.store.Tidy := by
      refine hconfined.kept (W := inOrder cfg) (R := Watched.rely) (G := Watched.Yields)
        (Q := fun i _ s => s.At i .anywhere) (fun i j _ _ hij hG => hG.2 j hij)
        (fun j _ _ he => Watched.passes_spares he.1 he.2 j) ?_ ?_ (fun i _ _ hG => hG.1)
        fun _ _ he => Watched.passes_tidy he.1 he.2
      · exact fun i => comes_session ⟨by simp [Watched.Tidy, arriving], rfl⟩
      · simp [Watched.Tidy, arriving]
    intro p hp
    rcases (htidy p hp).2 with hw | hw <;> simp [hw]
  · intro i s q a s' hw ho
    obtain rfl | rfl := Server.world_cases hw
    · exact ho
    · exact Watched.orderly_of_exec ho
  · intro s s' hp ho
    have horderly : (s.orderly && _) = true := hp.2.2.2.2 ▸ ho
    exact (Bool.and_eq_true_iff.mp horderly).1

/-! ## Two races for one probe -/

/-- Time going by at a watched server. -/
def Watched.wait (d : Nat) (s : Watched ι) : Watched ι := { s with toStore := s.toStore.wait d }

theorem Watched.wait_passes (cfg : Config) (d : Nat) (s : Watched ι) :
    (watching cfg ι).passes s (s.wait d) :=
  ⟨s.toStore.wait_passes d, rfl, rfl, rfl, by simp [Watched.wait, Store.wait]⟩

/-- The loser looks at the lease once the winner has written it. -/
def refused : List (Line String) :=
  elapsed ++ [.turns "loser" 2 .nothing, .turns "winner" 7 .nothing, .turns "loser" 4 .nothing]

/-- The loser looks between the winner's claim and the winner's lease. -/
def raced : List (Line String) :=
  elapsed ++ [.turns "winner" 3 .nothing, .turns "loser" 9 .nothing, .turns "winner" 4 .nothing]

/-- Where a schedule leads a watched breaker of the default constants. -/
def contest (lines : List (Line String)) : Pool String iface RedisError Unit (Watched String) :=
  follow (watching defaults String) Watched.wait lines (arriving defaults "groq" "llama" id {})

theorem contest_reach (lines : List (Line String)) :
    Pool.Reach (watching defaults String).world (watching defaults String).passes
      (arriving defaults "groq" "llama" id {}) (contest lines) :=
  follow_reach _ (Watched.wait_passes defaults) lines _

-- so that instants are computed with
unseal Rat.add Rat.sub Rat.mul Rat.inv Rat.ofScientific

/-- Both have been answered, and one of them was handed the probe. -/
theorem one_live_probe_refused :
    (∀ p ∈ (contest refused).store.claimed, p.winners.length ≤ 1) ∧
      (contest refused).store.claimed.map (·.winners) = some ["winner"] :=
  ⟨one_live_probe defaults "groq" "llama" id {} (contest_reach refused) (by decide),
    by decide⟩

/-- **The probe is not always one caller's.** The loser finds the timestamp of
the opening, takes the probe for stale, and both are handed it. -/
theorem not_one_live_probe :
    ¬ ∀ (cfg : Config) (provider model : String) (requestId : String → String) (s : Store)
      (c : Pool String iface RedisError Unit (Watched String)),
      Pool.Reach (watching cfg String).world (watching cfg String).passes
        (arriving cfg provider model requestId s) c →
      ∀ p ∈ c.store.claimed, p.winners.length ≤ 1 := by
  intro h
  have hone := h defaults "groq" "llama" id {} _ (contest_reach raced)
  exact absurd hone (by decide)

end Breaker

end LlmGateway
