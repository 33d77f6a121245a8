import LlmGateway.Effects.Loop
import LlmGateway.Routing.CircuitBreaker
import LlmGateway.Routing.Interface

/-!
# The duty that comes with a probe

A caller that `allows` hands the half-open probe has to see it resolved. The
callers are three and ask different questions; what each does about the breaker
is read off its questions as a deed, and the deeds are played on the hashes by
the breaker itself.
-/

namespace LlmGateway

namespace Breaker

open Effects

/-! ## The breaker left to itself -/

/-- Redis answering every command, with time going by. -/
def steady (cfg : Config) : World iface Store := fun s q a s' =>
  a = s.reply q ∧ ∃ t, s.clock ≤ t ∧ s' = { s.exec cfg q with clock := t }

section Steady

variable {cfg : Config} {s : Store}

theorem wp_steady {α : Type} {q : Ask} {k : Ans q → Eff α} {f : Ans q → Except RedisError α}
    (hk : ∀ a, k a = .ofExcept (f a)) (Q : Except RedisError α → Store → Prop) :
    wp (steady cfg) (.ask q k) Q s ↔
      ∀ t, s.clock ≤ t → Q (f (s.reply q)) { s.exec cfg q with clock := t } := by
  rw [wp_await (steady cfg) hk]
  constructor
  · exact fun h t ht => h _ _ ⟨rfl, t, ht, rfl⟩
  · rintro h a s' ⟨rfl, t, ht, rfl⟩
    exact h t ht

theorem wp_now_steady (Q : Except RedisError Seconds → Store → Prop) :
    wp (steady cfg) now Q s ↔ ∀ t, s.clock ≤ t → Q (.ok s.clock) { s with clock := t } :=
  wp_steady (q := .now) (f := .ok) (fun _ => rfl) Q

theorem wp_hgetall_steady (Q : Except RedisError Hash → Store → Prop) :
    wp (steady cfg) hgetall Q s ↔ ∀ t, s.clock ≤ t → Q (.ok s.hash) { s with clock := t } :=
  wp_steady (fun _ => rfl) Q

theorem wp_hgetCooldown_steady (Q : Except RedisError (Option Seconds) → Store → Prop) :
    wp (steady cfg) hgetCooldown Q s ↔
      ∀ t, s.clock ≤ t → Q (.ok s.hash.cooldownS) { s with clock := t } :=
  wp_steady (fun _ => rfl) Q

theorem wp_hsetnxHolder_steady (requestId : String) (Q : Except RedisError Bool → Store → Prop) :
    wp (steady cfg) (hsetnxHolder requestId) Q s ↔ ∀ t, s.clock ≤ t →
      Q (.ok s.hash.probeHolder.isNone)
        { s.exec cfg (.hsetnxHolder requestId) with clock := t } :=
  wp_steady (fun _ => rfl) Q

theorem wp_hdelHolder_steady (Q : Except RedisError Unit → Store → Prop) :
    wp (steady cfg) hdelHolder Q s ↔
      ∀ t, s.clock ≤ t → Q (.ok ()) { s.exec cfg .hdelHolder with clock := t } :=
  wp_steady (fun _ => rfl) Q

/-- A write leaves the hash as it says, with a new TTL. -/
theorem wp_write_steady (w : Write) (Q : Except RedisError Unit → Store → Prop)
    (h : ∀ s' : Store, s'.hash = s.hash.write cfg w → Q (.ok ()) s') :
    wp (steady cfg) (write w) Q s := by
  refine (wp_bind ..).mpr ((wp_steady (fun _ => rfl) _).mpr fun t _ => ?_)
  refine (wp_steady (fun _ => rfl) _).mpr fun t' _ => h _ ?_
  exact Store.exec_expire_hash cfg _

end Steady

/-- `p` carried out on a breaker: what it returns and what it leaves. -/
def Carried {α : Type} (cfg : Config) (p : Eff α) (s : Store) (a : α) (s' : Store) : Prop :=
  ∃ tr, p.Runs tr (.ok a) ∧ (steady cfg).Accepts s tr s'

/-- A decision of `allows` names whom it is about, was judged, and hands the
probe only to a caller it lets through. -/
structure Judged (provider model : String) (d : BreakerDecision) : Prop where
  provider : d.provider = provider
  model : d.model = model
  judged : d.degraded = false
  allowed : d.isProbe → d.allowed

theorem wp_tryClaim_steady {cfg : Config} {provider model requestId : String} {failures : Int}
    {cooldownS : Seconds} {s : Store} :
    wp (steady cfg) (tryClaim provider model failures cooldownS requestId)
      (fun r _ => ∃ d, r = .ok d ∧ Judged provider model d) s := by
  simp only [tryClaim, wp_bind, wp_hsetnxHolder_steady]
  intro _ _
  split
  · simp only [wp_bind, wp_now_steady]
    exact fun _ _ => wp_write_steady _ _ fun _ _ => ⟨_, rfl, rfl, rfl, rfl, by simp⟩
  · simp only [wp_bind, wp_hgetall_steady, wp_now_steady]
    intro _ _ _ _
    split
    · exact ⟨_, rfl, rfl, rfl, rfl, by simp⟩
    · simp only [wp_bind, wp_now_steady]
      exact fun _ _ => wp_write_steady _ _ fun _ _ => ⟨_, rfl, rfl, rfl, rfl, by simp⟩

theorem wp_allows_steady {cfg : Config} {provider model requestId : String} {s : Store} :
    wp (steady cfg) (allows cfg provider model requestId)
      (fun r _ => ∃ d, r = .ok d ∧ Judged provider model d) s := by
  simp only [allows, wp_bind, wp_attempt, wp_hgetall_steady]
  intro _ _
  split
  · exact ⟨_, rfl, rfl, rfl, rfl, by simp⟩
  · simp only [wp_bind, wp_now_steady]
    intro _ _
    split
    · exact ⟨_, rfl, rfl, rfl, rfl, by simp⟩
    · simp only [claimProbe, wp_bind, wp_attempt]
      refine wp_mono _ wp_tryClaim_steady ?_
      rintro _ _ ⟨d, rfl, hd⟩
      exact ⟨d, rfl, hd⟩

theorem Carried.of_allows {cfg : Config} {provider model requestId : String} {s s' : Store}
    {d : BreakerDecision} (h : Carried cfg (allows cfg provider model requestId) s d s') :
    Judged provider model d := by
  obtain ⟨tr, hr, ha⟩ := h
  obtain ⟨d', hd', hjudged⟩ := wp_sound _ wp_allows_steady hr ha
  cases hd'
  exact hjudged

/-- Neither half-open nor held. -/
def Store.resolved (s : Store) : Bool :=
  decide (s.hash.readState ≠ .halfOpen) && s.hash.probeHolder.isNone

/-- A write that is not half-open, and then the holder let go. -/
theorem wp_resolve_steady {cfg : Config} {s : Store} {w : Write}
    (hw : ∀ h : Hash, (h.write cfg w).readState ≠ .halfOpen) :
    wp (steady cfg) (do write w; hdelHolder) (fun _ s' => s'.resolved) s := by
  refine (wp_bind ..).mpr (wp_write_steady w _ fun s' hs => (wp_hdelHolder_steady _).mpr ?_)
  intro t _
  have hstate : s'.hash.readState ≠ .halfOpen := hs ▸ hw _
  simpa [Store.resolved, Store.exec, Hash.readState] using hstate

/-- What a report of an attempt runs. -/
def report (cfg : Config) (d : BreakerDecision) : Option ProviderError → Eff Unit
  | none => recordSuccess d
  | some exc => recordFailure cfg d exc

/-- **A probe's report resolves it**, if it is a success or an error the breaker
counts. -/
theorem Carried.resolved {cfg : Config} {d : BreakerDecision} {exc : Option ProviderError}
    {s s' : Store} (h : Carried cfg (report cfg d exc) s () s') (hp : d.isProbe)
    (hd : d.degraded = false) (he : ∀ e ∈ exc, e.breakerEligible) : s'.resolved := by
  obtain ⟨tr, hr, ha⟩ := h
  refine wp_sound (steady cfg) (Q := fun _ s' => s'.resolved = true) ?_ hr ha
  cases exc with
  | none =>
    simp only [report, recordSuccess, hd, hp, swallowing, Bool.false_eq_true, if_false, if_true]
    refine (wp_bind ..).mpr ((wp_attempt ..).mpr (wp_mono _ (wp_resolve_steady ?_) fun _ _ h => h))
    simp [Hash.write, Hash.readState]
  | some e =>
    simp only [report, recordFailure, hd, hp, he e rfl, swallowing, Bool.false_eq_true,
      Bool.not_true, Bool.or_false, if_false, if_true]
    refine (wp_bind ..).mpr ((wp_attempt ..).mpr ((wp_bind ..).mpr ?_))
    refine (wp_hgetCooldown_steady _).mpr fun t _ => ?_
    simp only [openBreaker, wp_bind, wp_now_steady]
    intro t' _
    refine wp_write_steady _ _ fun s' hs => (wp_hdelHolder_steady _).mpr fun t'' _ => ?_
    simp [Store.resolved, Store.exec, Hash.readState, hs, Hash.write]

/-! ## Deeds -/

/-- What a question of a caller and its answer come to for the breaker. -/
inductive Deed where
  | asked (provider model : String) (answer : Except Exn BreakerDecision)
  | reported (decision : BreakerDecision) (exc : Option ProviderError) (answer : Except Exn Unit)
  /-- Quota has refused the candidate. -/
  | refused
  /-- An exception that the visit does not handle. -/
  | broken
  | other

/-- A question whose exceptions the visit does not handle. -/
def Deed.outside {α : Type} : Except Exn α → Deed
  | .ok _ => .other
  | .error _ => .broken

/-- A question under `except ProviderError`. -/
def Deed.inside {α : Type} : Except Exn α → Deed
  | .ok _ => .other
  | .error e => if e.isProvider then .other else .broken

/-- A reservation asked for, under the same handler. -/
def Deed.reserved : Except Exn QuotaDecision → Deed
  | .ok decision => if decision.allowed then .other else .refused
  | .error e => inside (.error e : Except Exn Unit)

section

variable {α : Type} {provider model : String} {answer : Except Exn BreakerDecision}

@[simp] theorem Deed.outside_ne_asked (r : Except Exn α) :
    outside r ≠ .asked provider model answer := by
  cases r <;> exact nofun

@[simp] theorem Deed.inside_ne_asked (r : Except Exn α) :
    inside r ≠ .asked provider model answer := by
  cases r with
  | ok a => exact nofun
  | error e => cases h : e.isProvider <;> simp [inside, h]

@[simp] theorem Deed.reserved_ne_asked (r : Except Exn QuotaDecision) :
    reserved r ≠ .asked provider model answer := by
  cases r with
  | ok decision => cases h : decision.allowed <;> simp [reserved, h]
  | error e => exact inside_ne_asked (.error e : Except Exn Unit)

end

/-- Every candidate's breaker, and what a caller owes them: the probe it has been
handed and has not seen resolved, and the ones it left so. -/
structure Scene where
  stores : String × String → Store
  held : Option (String × String) := none
  left : List (String × String) := []
  /-- Whether a visit with a probe has come to where no report can follow, or
  none that resolves it: a refusal of quota, an exception that is not handled, an
  error the breaker does not count, or a report cut off before its commands. -/
  cut : Bool := false

/-- The candidate a decision is about. -/
def key (d : BreakerDecision) : String × String := (d.provider, d.model)

/-- **How a scene goes on.** Before each question others may do to the breakers
what `others` lets them; a caller's own questions are carried out by the breaker,
unless they are cut off. -/
def Scene.Moves (cfg : Config) (requestId : String)
    (others : (String × String → Store) → (String × String → Store) → Prop) (s : Scene) (deed : Deed)
    (s' : Scene) : Prop :=
  ∃ stores, others s.stores stores ∧ match deed with
    | .asked provider model answer => ∃ st,
        (∀ d, answer = .ok d →
          Carried cfg (allows cfg provider model requestId) (stores (provider, model)) d st) ∧
        s' = { s with
          stores := Function.update stores (provider, model) st
          left := s.left ++ s.held.toList
          held := match answer with
            | .ok d => if d.isProbe then some (provider, model) else none
            | .error _ => none }
    | .reported d exc answer => ∃ st,
        (answer = .ok () → Carried cfg (report cfg d exc) (stores (key d)) () st) ∧
        s' = { s with
          stores := Function.update stores (key d) st
          held := if st.resolved then s.held.filter (· ≠ key d) else s.held
          cut := s.cut || s.held.isSome &&
            (exc.any (!·.breakerEligible) || !answer.isOk && !st.resolved) }
    | .refused | .broken => s' = { s with stores, cut := s.cut || s.held.isSome }
    | .other => s' = { s with stores }

namespace Scene

variable {cfg : Config} {requestId : String}
  {others : (String × String → Store) → (String × String → Store) → Prop} {s s' : Scene}
  {d : BreakerDecision}

/-- Nothing is owed. -/
structure Clear (s : Scene) : Prop where
  left : s.left = []
  held : s.held = none

/-- Within a visit under the decision `d`. -/
structure Visiting (d : BreakerDecision) (s : Scene) : Prop where
  left : s.left = []
  held : s.held = if d.isProbe then some (key d) else none
  judged : d.degraded = false
  allowed : d.isProbe → d.allowed

theorem Visiting.clear (h : s.Visiting d) (hp : d.isProbe = false) : s.Clear :=
  ⟨h.left, by simpa [hp] using h.held⟩

/-- A decision with no probe leaves nothing to owe. -/
theorem Visiting.isProbe_eq_false (h : s.Visiting d) (hs : s.held.isSome = false) :
    d.isProbe = false := by
  rw [h.held] at hs
  by_contra hp
  simp [hp] at hs

/-- What is cut stays cut. -/
theorem Moves.cut_eq_false {deed : Deed} (h : s.Moves cfg requestId others deed s')
    (hc : s'.cut = false) : s.cut = false := by
  obtain ⟨stores, -, h⟩ := h
  cases deed with
  | asked provider model answer =>
    obtain ⟨st, -, rfl⟩ := h
    exact hc
  | reported d exc answer =>
    obtain ⟨st, -, rfl⟩ := h
    exact (Bool.or_eq_false_iff.mp hc).1
  | refused =>
    cases h
    exact (Bool.or_eq_false_iff.mp hc).1
  | broken =>
    cases h
    exact (Bool.or_eq_false_iff.mp hc).1
  | other =>
    cases h
    exact hc

/-- The breaker answers a caller that owes nothing. -/
theorem Clear.asked {provider model : String} {answer : Except Exn BreakerDecision} (h : s.Clear)
    (hm : s.Moves cfg requestId others (.asked provider model answer) s') :
    match answer with
      | .ok d => s'.Visiting d
      | .error _ => s'.Clear := by
  obtain ⟨stores, -, st, hst, rfl⟩ := hm
  cases answer with
  | ok d =>
    obtain ⟨hprovider, hmodel, hjudged, hallowed⟩ := (hst d rfl).of_allows
    exact ⟨by simp [h.left, h.held], by simp [key, hprovider, hmodel], hjudged, hallowed⟩
  | error e => exact ⟨by simp [h.left, h.held], rfl⟩

/-- Whatever else a caller does that owes nothing, it owes nothing. -/
theorem Clear.step {deed : Deed} (h : s.Clear) (hm : s.Moves cfg requestId others deed s')
    (hd : ∀ p m a, deed ≠ .asked p m a) : s'.Clear := by
  obtain ⟨stores, -, hm⟩ := hm
  cases deed with
  | asked p m a => exact absurd rfl (hd p m a)
  | reported d exc answer =>
    obtain ⟨st, -, rfl⟩ := hm
    exact ⟨h.left, by simp [h.held]⟩
  | _ =>
    cases hm
    exact ⟨h.left, h.held⟩

/-- A step of a visit that is not cut: if it ends the visit without a report,
there was no probe. -/
theorem Visiting.step {deed : Deed} (h : s.Visiting d) (hm : s.Moves cfg requestId others deed s')
    (hc : s'.cut = false) (hd : deed = .refused ∨ deed = .broken ∨ deed = .other) :
    s'.Visiting d ∧ (deed ≠ .other → d.isProbe = false) := by
  obtain ⟨stores, -, hm⟩ := hm
  rcases hd with rfl | rfl | rfl
  · cases hm
    exact ⟨⟨h.left, h.held, h.judged, h.allowed⟩,
      fun _ => h.isProbe_eq_false (Bool.or_eq_false_iff.mp hc).2⟩
  · cases hm
    exact ⟨⟨h.left, h.held, h.judged, h.allowed⟩,
      fun _ => h.isProbe_eq_false (Bool.or_eq_false_iff.mp hc).2⟩
  · cases hm
    exact ⟨⟨h.left, h.held, h.judged, h.allowed⟩, fun hne => absurd rfl hne⟩

/-- **A report that is not cut settles the debt.** -/
theorem Visiting.reported {exc : Option ProviderError} {answer : Except Exn Unit}
    (h : s.Visiting d) (hm : s.Moves cfg requestId others (.reported d exc answer) s')
    (hc : s'.cut = false) : s'.Clear := by
  obtain ⟨stores, -, st, hst, rfl⟩ := hm
  refine ⟨h.left, ?_⟩
  by_cases hp : d.isProbe
  · have hheld : s.held = some (key d) := by simpa [hp] using h.held
    have hcut := (Bool.or_eq_false_iff.mp hc).2
    simp only [hheld, Option.isSome_some, Bool.true_and, Bool.or_eq_false_iff] at hcut
    have hcounted : ∀ e ∈ exc, e.breakerEligible := by
      rintro e he
      rw [Option.mem_def.mp he] at hcut
      simpa using hcut.1
    have hres : st.resolved := by
      cases answer with
      | ok u => exact (hst rfl).resolved hp h.judged hcounted
      | error e => simpa [Except.isOk, Except.toBool] using hcut.2
    simp [hres, hheld, Option.filter]
  · have hheld : s.held = none := by simpa [hp] using h.held
    simp [hheld]

end Scene

/-! ## The rules of a visit -/

/-- The surroundings of a caller: the breaker's constants, the caller's id, and
what others may do in between. -/
structure Setting where
  cfg : Config
  requestId : String
  others : (String × String → Store) → (String × String → Store) → Prop

/-- The scene as a caller sees it whose questions come to `deed`. -/
def Setting.world {I : Iface} (S : Setting) (deed : (q : I.Ask) → I.Ans q → Deed) :
    World I Scene :=
  fun s q a s' => s.Moves S.cfg S.requestId S.others (deed q a) s'

/-- The same, in a run in which no visit with a probe is cut. -/
def Setting.uncut {I : Iface} (S : Setting) (deed : (q : I.Ask) → I.Ans q → Deed) :
    World I Scene :=
  fun s q a s' => S.world deed s q a s' ∧ s'.cut = false

section

variable {I : Iface} {ε ε' α β : Type} {S : Setting} {deed : (q : I.Ask) → I.Ans q → Deed}
  {d : BreakerDecision}

/-- **Within a visit**, whatever `p` comes to; and if that is one of `E`, the
visit had no probe. -/
def Minds (S : Setting) (deed : (q : I.Ask) → I.Ans q → Deed) (d : BreakerDecision)
    (E : Except ε α → Prop) (p : Prog I ε α) : Prop :=
  ∀ s : Scene, s.Visiting d →
    wp (S.uncut deed) p (fun r s' => s'.Visiting d ∧ (E r → d.isProbe = false)) s

/-- **Owing nothing**, before and after. -/
def Rests (S : Setting) (deed : (q : I.Ask) → I.Ans q → Deed) (p : Prog I ε α) : Prop :=
  ∀ s : Scene, s.Clear → wp (S.uncut deed) p (fun _ s' => s'.Clear) s

theorem Minds.bind {p : Prog I ε α} {f : α → Prog I ε β} {F : Except ε α → Prop}
    {E : Except ε β → Prop} (hp : Minds S deed d F p)
    (hf : ∀ a, (F (.ok a) → d.isProbe = false) → Minds S deed d E (f a))
    (he : ∀ e, E (.error e) → F (.error e)) : Minds S deed d E (p >>= f) := by
  intro s hs
  refine (wp_bind ..).mpr (wp_mono _ (hp s hs) ?_)
  rintro (e | a) s' ⟨hs', hE⟩
  · exact ⟨hs', fun h => hE (he e h)⟩
  · exact hf a hE s' hs'

theorem Minds.ret {E : Except ε α → Prop} {a : α} (h : E (.ok a) → d.isProbe = false) :
    Minds S deed d E (.ret a) :=
  fun _ hs => ⟨hs, h⟩

theorem Minds.raise {E : Except ε α → Prop} {e : ε} (h : E (.error e) → d.isProbe = false) :
    Minds S deed d E (.raise e) :=
  fun _ hs => ⟨hs, h⟩

theorem Minds.mono {p : Prog I ε α} {E E' : Except ε α → Prop} (h : Minds S deed d E p)
    (hE : ∀ r, E' r → E r) : Minds S deed d E' p :=
  fun s hs => wp_mono _ (h s hs) fun r _ hr => ⟨hr.1, fun hr' => hr.2 (hE r hr')⟩

theorem Minds.mapError {p : Prog I ε α} {f : ε → ε'} {E : Except ε' α → Prop}
    (h : Minds S deed d (fun r => E (match r with
      | .ok a => .ok a
      | .error e => .error (f e))) p) : Minds S deed d E (p.mapError f) := by
  intro s hs
  refine (wp_mapError ..).mpr (wp_mono _ (h s hs) ?_)
  rintro (e | a) s' hr
  · exact hr
  · exact hr

/-- A `try` block within the visit, and its handlers. -/
theorem Minds.attempt {p : Prog I ε α} {f : Except ε α → Prog I ε' β} {F : Except ε α → Prop}
    {E : Except ε' β → Prop} (hp : Minds S deed d F p)
    (hf : ∀ r, (F r → d.isProbe = false) → Minds S deed d E (f r)) :
    Minds S deed d E (p.attempt >>= f) :=
  fun s hs => (wp_bind ..).mpr ((wp_attempt ..).mpr
    (wp_mono _ (hp s hs) fun r s' ⟨hs', hE⟩ => hf r hE s' hs'))

/-- A question of a visit that is none of the breaker's. -/
theorem Minds.ask {q : I.Ask} {k : I.Ans q → Prog I ε α} {f : I.Ans q → Except ε α}
    {E : Except ε α → Prop} (hk : ∀ a, k a = .ofExcept (f a))
    (hd : ∀ a, deed q a = .refused ∨ deed q a = .broken ∨ deed q a = .other)
    (hE : ∀ a, E (f a) → deed q a ≠ .other) : Minds S deed d E (.ask q k) := by
  intro s hs
  refine (wp_await _ hk _ s).mpr fun a s' hw => ?_
  obtain ⟨hs', hp⟩ := hs.step hw.1 hw.2 (hd a)
  exact ⟨hs', fun h => hp (hE a h)⟩

theorem Rests.bind {p : Prog I ε α} {f : α → Prog I ε β} (hp : Rests S deed p)
    (hf : ∀ a, Rests S deed (f a)) : Rests S deed (p >>= f) := by
  intro s hs
  refine (wp_bind ..).mpr (wp_mono _ (hp s hs) ?_)
  rintro (e | a) s' hs'
  · exact hs'
  · exact hf a s' hs'

theorem Rests.ret {a : α} : Rests S deed (.ret a : Prog I ε α) := fun _ hs => hs

/-- A `for` over the candidates. -/
theorem Rests.forEach {β σ ω : Type} {body : β → List β → σ → Prog I ε (Flow σ ω)}
    (hbody : ∀ b bs s, Rests S deed (body b bs s)) {bs : List β} {s : σ} :
    Rests S deed (Prog.forEach body bs s) :=
  fun _ hs => wp_forEach _ (fun _ _ sc => sc.Clear) (fun _ _ h => h)
    (fun b bs' s' sc h => wp_mono _ (hbody b bs' s' sc h)
      (by rintro (e | f | f | f) _ h <;> exact h)) hs

/-! ### What ends a visit -/

/-- **The rest of a visit that owes nothing any more**: it does not go round
again. `R` says which outcomes go round. -/
def Leaves (S : Setting) (deed : (q : I.Ask) → I.Ans q → Deed) (R : Except ε α → Prop)
    (p : Prog I ε α) : Prop :=
  ∀ s : Scene, s.Clear → wp (S.uncut deed) p (fun r s' => ¬ R r ∧ s'.Clear) s

/-- **The rest of a visit**: it goes round again, or owes nothing at its end. -/
def Ends (S : Setting) (deed : (q : I.Ask) → I.Ans q → Deed) (d : BreakerDecision)
    (R : Except ε α → Prop) (p : Prog I ε α) : Prop :=
  ∀ s : Scene, s.Visiting d →
    wp (S.uncut deed) p (fun r s' => (R r → s'.Visiting d) ∧ (¬ R r → s'.Clear)) s

/-- The outcomes that are exceptions. -/
def Raises : Except ε α → Prop
  | .ok _ => False
  | .error _ => True

theorem Leaves.bind {p : Prog I ε α} {f : α → Prog I ε β} {R : Except ε β → Prop}
    (hR : ∀ e, ¬ R (.error e)) (hp : Rests S deed p) (hf : ∀ a, Leaves S deed R (f a)) :
    Leaves S deed R (p >>= f) := by
  intro s hs
  refine (wp_bind ..).mpr (wp_mono _ (hp s hs) ?_)
  rintro (e | a) s' hs'
  · exact ⟨hR e, hs'⟩
  · exact hf a s' hs'

theorem Leaves.ret {a : α} {R : Except ε α → Prop} (h : ¬ R (.ok a)) :
    Leaves S deed R (.ret a) :=
  fun _ hs => ⟨h, hs⟩

theorem Leaves.raise {e : ε} {R : Except ε α → Prop} (h : ¬ R (.error e)) :
    Leaves S deed R (.raise e) :=
  fun _ hs => ⟨h, hs⟩

/-- Without a probe there is nothing to see to. -/
theorem Ends.of_leaves {p : Prog I ε α} {R : Except ε α → Prop} (hp : d.isProbe = false)
    (h : Leaves S deed R p) : Ends S deed d R p :=
  fun s hs => wp_mono _ (h s (hs.clear hp)) fun _ _ hr => ⟨fun hR => absurd hR hr.1, fun _ => hr.2⟩

theorem Ends.round {a : α} {R : Except ε α → Prop} (h : R (.ok a)) : Ends S deed d R (.ret a) :=
  fun _ hs => ⟨fun _ => hs, fun hR => absurd h hR⟩

/-- Before the visit ends: what raises here ends it, so there was no probe. -/
theorem Ends.bind {p : Prog I ε α} {f : α → Prog I ε β} {R : Except ε β → Prop}
    (hR : ∀ e, ¬ R (.error e)) (hp : Minds S deed d Raises p)
    (hf : ∀ a, Ends S deed d R (f a)) : Ends S deed d R (p >>= f) := by
  intro s hs
  refine (wp_bind ..).mpr (wp_mono _ (hp s hs) ?_)
  rintro (e | a) s' ⟨hs', hE⟩
  · exact ⟨fun h => absurd h (hR e), fun _ => hs'.clear (hE trivial)⟩
  · exact hf a s' hs'

/-- A `try` block, and what its handlers make of how it came out. -/
theorem Ends.attempt {p : Prog I ε α} {f : Except ε α → Prog I ε' β} {E : Except ε α → Prop}
    {R : Except ε' β → Prop} (hp : Minds S deed d E p)
    (hf : ∀ r, (E r → d.isProbe = false) → Ends S deed d R (f r)) :
    Ends S deed d R (p.attempt >>= f) :=
  fun s hs => (wp_bind ..).mpr ((wp_attempt ..).mpr
    (wp_mono _ (hp s hs) fun r s' ⟨hs', hE⟩ => hf r hE s' hs'))

/-- The report: nothing is owed from there on. -/
theorem Ends.report {q : I.Ask} {k : I.Ans q → Prog I ε α} {f : I.Ans q → Except ε α}
    {g : α → Prog I ε β} {R : Except ε β → Prop} {exc : Option ProviderError}
    (hk : ∀ a, k a = .ofExcept (f a)) (hd : ∀ a, ∃ r, deed q a = .reported d exc r)
    (hR : ∀ e, ¬ R (.error e)) (hf : ∀ a, Leaves S deed R (g a)) :
    Ends S deed d R (.ask q k >>= g) := by
  intro s hs
  refine (wp_bind ..).mpr ((wp_await _ hk _ s).mpr fun a s' hw => ?_)
  obtain ⟨r, hr⟩ := hd a
  obtain ⟨hm, hc⟩ := hw
  rw [Setting.world, hr] at hm
  have hclear : s'.Clear := hs.reported hm hc
  cases f a with
  | ok b =>
    exact wp_mono _ (hf b s' hclear) fun _ _ h => ⟨fun hR => absurd hR h.1, fun _ => h.2⟩
  | error e => exact ⟨fun h => absurd h (hR e), fun _ => hclear⟩

/-! ### Questions -/

/-- The exceptions that `except ProviderError` lets through. -/
def Escapes : Except Exn α → Prop
  | .ok _ => False
  | .error e => e.isProvider = false

/-- The same, of a block whose exceptions carry its locals. -/
def EscapesWith {L : Type} : Except (Exn × L) α → Prop
  | .ok _ => False
  | .error (e, _) => e.isProvider = false

theorem Minds.withLocals {L : Type} {p : Prog I Exn α} (l : L) (h : Minds S deed d Escapes p) :
    Minds S deed d EscapesWith (p.withLocals l) :=
  .mapError (h.mono fun r hr => by cases r <;> exact hr)

theorem minds_outside {q : I.Ask} {f : I.Ans q → Except Exn α}
    (hd : ∀ a, deed q a = .outside (f a)) :
    Minds S deed d Raises (.ask q fun a => .ofExcept (f a)) := by
  refine Minds.ask (fun _ => rfl) (fun a => ?_) (fun a hr => ?_) <;> rw [hd a]
  · cases f a <;> simp [Deed.outside]
  · cases hf : f a with
    | ok b => rw [hf] at hr; exact hr.elim
    | error e => simp [Deed.outside]

theorem minds_inside {q : I.Ask} {f : I.Ans q → Except Exn α}
    (hd : ∀ a, deed q a = .inside (f a)) :
    Minds S deed d Escapes (.ask q fun a => .ofExcept (f a)) := by
  refine Minds.ask (fun _ => rfl) (fun a => ?_) (fun a hr => ?_) <;> rw [hd a]
  · cases f a with
    | ok b => simp [Deed.inside]
    | error e => by_cases he : e.isProvider <;> simp [Deed.inside, he]
  · cases hf : f a with
    | ok b => rw [hf] at hr; exact hr.elim
    | error e =>
      rw [hf] at hr
      simp only [Escapes] at hr
      simp [Deed.inside, hr]

/-- A question that asks the breaker for nothing. -/
theorem rests_ask {q : I.Ask} {f : I.Ans q → Except ε α}
    (hd : ∀ a p m r, deed q a ≠ .asked p m r) :
    Rests S deed (.ask q fun a => .ofExcept (f a)) :=
  fun s hs => (wp_await _ (fun _ => rfl) _ s).mpr fun a _ hw => hs.step hw.1 (hd a)

theorem rests_outside {q : I.Ask} {f : I.Ans q → Except Exn α}
    (hd : ∀ a, deed q a = .outside (f a)) : Rests S deed (.ask q fun a => .ofExcept (f a)) :=
  rests_ask fun a _ _ _ => hd a ▸ Deed.outside_ne_asked (f a)

/-- What a reservation that is not granted comes to: a refusal, or an exception
that is not handled. -/
def Refuses : Except Exn QuotaDecision → Prop
  | .ok decision => decision.allowed = false
  | .error e => e.isProvider = false

theorem minds_reserved {q : I.Ask} {f : I.Ans q → Except Exn QuotaDecision}
    (hd : ∀ a, deed q a = .reserved (f a)) :
    Minds S deed d Refuses (.ask q fun a => .ofExcept (f a)) := by
  refine Minds.ask (fun _ => rfl) (fun a => ?_) (fun a hr => ?_) <;> rw [hd a]
  · cases f a with
    | ok decision => by_cases hal : decision.allowed <;> simp [Deed.reserved, hal]
    | error e => by_cases he : e.isProvider <;> simp [Deed.reserved, Deed.inside, he]
  · cases hf : f a with
    | ok decision =>
      rw [hf] at hr
      simp only [Refuses] at hr
      simp [Deed.reserved, hr]
    | error e =>
      rw [hf] at hr
      simp only [Refuses] at hr
      simp [Deed.reserved, Deed.inside, hr]

/-- A question that cannot raise. -/
theorem minds_other {q : I.Ask} {f : I.Ans q → α} {E : Except ε α → Prop}
    (hE : ∀ b, ¬ E (.ok b)) (hd : ∀ a, deed q a = .other) :
    Minds S deed d E (.ask q fun a => .ret (f a)) :=
  Minds.ask (f := fun a => .ok (f a)) (fun _ => rfl) (fun a => .inr (.inr (hd a)))
    fun a h => absurd h (hE (f a))

/-- A question of no consequence. -/
theorem rests_other {q : I.Ask} {f : I.Ans q → α} (hd : ∀ a, deed q a = .other) :
    Rests S deed (.ask q fun a => .ret (f a) : Prog I ε α) :=
  rests_ask (f := fun a => .ok (f a)) fun a _ _ _ h => by
    rw [hd a] at h
    cases h

end

end Breaker

end LlmGateway
