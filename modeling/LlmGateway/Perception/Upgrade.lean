import LlmGateway.Effects.Twin
import LlmGateway.Perception.Chain

/-!
# Whether a local reading is upgraded

A local reading is held back so that the model tier has its chance. Tier 2 looks
at tier 0 again before it walks, while it waits for the lock and under it, and
takes any reading it finds there for its own.
-/

namespace LlmGateway

namespace Perception

namespace Lane

open Effects

/-! ## What a run shows -/

/-- A call that does not keep tier 2 from its walk: it finds no reading, and raises nothing
that tier 2 does not swallow. -/
def quiet : (q : Ask) → Ans q → Bool
  | .redisGet _, .ok (some (some _)) => false
  | .redisGet _, .ok _ => true
  | .redisGet _, .error .redis => true
  | .redisGet _, .error _ => false
  | .rowGet _, .ok none => true
  | .rowGet _, _ => false
  | .lockSet _ _, .ok _ => true
  | .lockSet _ _, .error .redis => true
  | .lockSet _ _, .error _ => false
  | .sleep _, .ok _ => true
  | .sleep _, .error _ => false
  | _, _ => true

/-- The candidate whose last gate an answer opens. -/
def passed (quota : Bool) : (q : Perception.Ask) → Perception.Ans q → Option (String × String)
  | .reservePerception spec _ _ _, .ok granted => if granted.allowed then some spec.key else none
  | .forProvider provider model, .ok _ => if quota then none else some (provider, model)
  | _, _ => none

/-- Whether a question calls the candidate. -/
def calls (key : String × String) : Perception.Ask → Bool
  | .complete spec _ _ => decide (spec.key = key)
  | _ => false

/-- What a run shows of tier 2. -/
structure Sight where
  /-- The perception slot exists. -/
  slot : Bool := false
  /-- The candidates were walked. -/
  walked : Bool := false
  /-- Up to the walk, every call was quiet. -/
  clear : Bool := true
  /-- A candidate whose gates are open and that is to be called next. -/
  due : Option (String × String) := none
  /-- Such a candidate was not called. -/
  missed : Bool := false
  deriving DecidableEq, Repr

def note (quota : Bool) (s : Sight) : Event iface → Sight
  | ⟨.candidates, chain⟩ => { s with slot := Option.isSome chain }
  | ⟨.walk q, a⟩ =>
    { s with
      walked := true
      due := passed quota q a
      missed := s.missed || s.due.any fun key => !calls key q }
  | ⟨q, a⟩ => if s.walked then s else { s with clear := s.clear && quiet q a }

/-- What a whole run shows. -/
def sight (quota : Bool) (tr : List (Event iface)) : Sight := tr.foldl (note quota) {}

/-- What is labelled a model's reading is one. -/
def Honest (r : Except Fault Reading) : Prop :=
  ∀ extraction, r = .ok (.extracted extraction .llm) → extraction.tier = "llm"

/-- The candidates were walked, whoever passed the gates was called, and the label is true. -/
def Upgrades (s : Sight) (r : Except Fault Reading) : Prop :=
  s.walked ∧ s.missed = false ∧ s.due = none ∧ Honest r

/-! ## Before the walk -/

/-- On the way to the walk. -/
def Before (s : Sight) : Prop := s = { slot := true }

/-- Kept from the walk. -/
def Spoilt (s : Sight) : Prop := s.walked = false ∧ s.clear = false

/-- Behind the walk. -/
def Past (s : Sight) : Prop :=
  s.walked ∧ s.slot ∧ s.clear ∧ s.missed = false ∧ s.due = none

/-- The questions that have nothing to do with the walk. -/
def Aside : Ask → Prop
  | .walk _ | .candidates => False
  | _ => True

variable {quota : Bool} {s : Sight} {q : Ask} {a : Ans q}

theorem note_aside (hq : Aside q) : note quota s ⟨q, a⟩
    = if s.walked then s else { s with clear := s.clear && quiet q a } := by
  cases q <;> first | rfl | exact hq.elim

theorem Spoilt.note (hs : Spoilt s) (hq : Aside q) : Spoilt (note quota s ⟨q, a⟩) := by
  obtain ⟨hwalked, hclear⟩ := hs
  rw [note_aside hq, if_neg (by simp [hwalked])]
  exact ⟨hwalked, by simp [hclear]⟩

theorem Past.note (hs : Past s) (hq : Aside q) : Past (note quota s ⟨q, a⟩) := by
  rw [note_aside hq, if_pos hs.1]
  exact hs

/-- A quiet call leaves the way open, any other closes it. -/
theorem Before.note (hs : Before s) (hq : Aside q) :
    if quiet q a then Before (note quota s ⟨q, a⟩) else Spoilt (note quota s ⟨q, a⟩) := by
  subst hs
  rw [note_aside hq]
  cases quiet q a
  · exact ⟨rfl, rfl⟩
  · rfl

theorem Before.quiet (hs : Before s) (hq : Aside q) (ha : quiet q a = true) :
    Before (Lane.note quota s ⟨q, a⟩) := by
  have h : if Lane.quiet q a then Before (Lane.note quota s ⟨q, a⟩) else _ := hs.note hq
  rwa [if_pos ha] at h

theorem Before.loud (hs : Before s) (hq : Aside q) (ha : Lane.quiet q a = false) :
    Spoilt (Lane.note quota s ⟨q, a⟩) := by
  have h : if Lane.quiet q a then _ else Spoilt (Lane.note quota s ⟨q, a⟩) := hs.note hq
  rw [ha] at h
  exact h

/-- `except RedisError` under a world: what is swallowed goes on from a log line. -/
theorem wp_orLog {α : Type} {p : Eff α} {line : LogLine} {b : α}
    {Q : Except Fault α → Sight → Prop} {s : Sight}
    (h : wp (watch (note quota)) p (fun r s' => match r with
      | .ok a => Q (.ok a) s'
      | .error .redis => Q (.ok b) (note quota s' ⟨.log line, ()⟩)
      | .error e => Q (.error e) s') s) :
    wp (watch (note quota)) (orLog p line b) Q s := by
  unfold orLog
  rw [wp_bind, wp_attempt]
  refine wp_mono _ h ?_
  intro r s' hr
  match r with
  | .ok a => exact hr
  | .error .redis =>
    rintro _ _ rfl
    exact hr
  | .error (.exn e) => exact hr
  | .error (.fileUnreadable fileHash filename) => exact hr

/-- What a look at tier 0 leaves: the way open if it found nothing, and else closed. -/
def Looked (r : Except Fault (Option Extraction)) (s : Sight) : Prop :=
  match r with
  | .ok none => Before s
  | _ => Spoilt s

theorem wp_spoilt {α : Type} {p : Eff α} (hp : p.Asks Aside) (hs : Spoilt s) :
    wp (watch (note quota)) p (fun _ s' => Spoilt s') s :=
  hp.wp_inv (fun _ _ _ _ hq hstep hspoilt => hstep ▸ hspoilt.note hq) hs

theorem wp_loadFast (cfg : Config) (fileHash : String) (hs : Before s) :
    wp (watch (note quota)) (loadFast cfg fileHash) Looked s := by
  unfold loadFast
  split
  · rw [wp_bind]
    refine wp_orLog ?_
    rintro a _ rfl
    refine (wp_ofExcept _ _ _ _).mpr ?_
    match a with
    | .ok none => exact hs.quiet trivial rfl
    | .ok (some none) =>
      rintro _ _ rfl
      exact (hs.quiet (q := .redisGet fileHash) (a := .ok (some none)) trivial rfl).quiet
        (q := .log _) trivial rfl
    | .ok (some (some cached)) => exact hs.loud trivial rfl
    | .error .redis =>
      exact (hs.quiet (q := .redisGet fileHash) (a := .error .redis) trivial rfl).quiet
        (q := .log _) trivial rfl
    | .error (.exn e) => exact hs.loud trivial rfl
    | .error (.fileUnreadable _ _) => exact hs.loud trivial rfl
  · exact hs

theorem wp_loadCached (cfg : Config) (fileHash : String) (hs : Before s) :
    wp (watch (note quota)) (loadCached cfg fileHash) Looked s := by
  unfold loadCached
  rw [wp_bind]
  refine wp_mono _ (wp_loadFast cfg fileHash hs) ?_
  intro r s' hr
  match r with
  | .error e => exact hr
  | .ok (some cached) => exact hr
  | .ok none =>
    refine (wp_bind ..).mpr ?_
    rintro a _ rfl
    refine (wp_ofExcept _ _ _ _).mpr ?_
    match a with
    | .ok none => exact Before.quiet hr trivial rfl
    | .error e => exact Before.loud hr trivial rfl
    | .ok (some row) =>
      have hspoilt : Spoilt (note quota s' ⟨.rowGet fileHash, .ok (some row)⟩) :=
        Before.loud hr trivial rfl
      refine (wp_bind ..).mpr (wp_mono _ (wp_spoilt (asks_cache trivial fun _ => trivial) hspoilt) ?_)
      intro r' s'' hr'
      cases r' with
      | error e => exact hr'
      | ok _ => exact hr'

/-- So does a wait for the lock's holder. -/
theorem wp_awaitWinner (cfg : Config) (fileHash : String) : ∀ (polls : Nat) {s : Sight},
    Before s → wp (watch (note quota)) (awaitWinner cfg fileHash polls) Looked s
  | 0, s, hs => hs
  | polls + 1, s, hs => by
    unfold awaitWinner
    rw [wp_bind]
    rintro a _ rfl
    refine (wp_ofExcept _ _ _ _).mpr ?_
    match a with
    | .error e => exact hs.loud trivial rfl
    | .ok () =>
      refine (wp_bind ..).mpr (wp_mono _ (wp_loadCached cfg fileHash (hs.quiet trivial rfl)) ?_)
      intro r s' hr
      match r with
      | .error e => exact hr
      | .ok none => exact wp_awaitWinner cfg fileHash polls hr
      | .ok (some found) =>
        rintro _ _ rfl
        exact Spoilt.note hr trivial

/-! ## The walk -/

/-- Nobody is due. -/
def Idle (s : Sight) : Prop := s.slot ∧ s.clear ∧ s.missed = false ∧ s.due = none

/-- The walk's own questions, as the lane passes them on. -/
def strolling (quota : Bool) : World Perception.iface Sight :=
  (watch (note quota)).within Ask.walk fun _ a => a

/-- The questions behind which no candidate is due. -/
def Plain : Perception.Ask → Prop
  | .reservePerception _ _ _ _ | .forProvider _ _ => False
  | _ => True

theorem strolling_iff {q : Perception.Ask} {a : Perception.Ans q} {s' : Sight} :
    strolling quota s q a s' ↔ s' = note quota s ⟨.walk q, a⟩ := by
  constructor
  · rintro ⟨b, rfl, rfl⟩
    rfl
  · rintro rfl
    exact ⟨a, rfl, rfl⟩

theorem Idle.walk (hs : Idle s) {q : Perception.Ask} {a : Perception.Ans q}
    (hq : passed quota q a = none) : Past (note quota s ⟨.walk q, a⟩) := by
  obtain ⟨hslot, hclear, hmissed, hdue⟩ := hs
  refine ⟨rfl, hslot, hclear, ?_, hq⟩
  simp [note, hmissed, hdue]

theorem passed_plain {q : Perception.Ask} {a : Perception.Ans q} (hq : Plain q) :
    passed quota q a = none := by
  cases q <;> first | rfl | exact hq.elim

theorem Past.idle (hs : Past s) : Idle s := hs.2

/-- Past the first question, plain ones change nothing. -/
theorem wp_plain {α : Type} {p : Perception.Eff α} (hp : p.Asks Plain) (hs : Past s) :
    wp (strolling quota) p (fun _ s' => Past s') s :=
  hp.wp_inv (fun _ _ _ _ hq hstep hpast => strolling_iff.mp hstep ▸ hpast.idle.walk (passed_plain hq))
    hs

/-- A reading of the walk is a model's. -/
def ByModel (r : Except Exn Step) : Prop :=
  ∀ extraction, r = .ok (.done (some extraction)) → extraction.tier = "llm"

/-- What a program makes of nothing it was told. -/
theorem wp_whatever {I : Iface} {σ ε α β : Type} {W : World I σ} {p : Prog I ε α}
    {f : α → Prog I ε β} {Q : Except ε β → Prop} {s : σ} (herror : ∀ e, Q (.error e))
    (hf : ∀ a s', wp W (f a) (fun r _ => Q r) s') : wp W (p >>= f) (fun r _ => Q r) s := by
  refine (wp_bind ..).mpr (wp_mono W (wp_inv W (J := fun _ => True) (fun _ _ _ _ _ _ => trivial) p
    trivial) ?_)
  intro r s' _
  cases r with
  | error e => exact herror e
  | ok a => exact hf a s'

variable {wcfg : Perception.Config} {spec : Candidate} {decision : BreakerDecision}
  {reservation : Option Reservation}

theorem asks_settle {p : Reservation → Perception.Eff Unit} (hp : ∀ r, (p r).Asks Plain) :
    (settle wcfg reservation p).Asks Plain := by
  unfold settle
  split
  · exact hp _
  · trivial

theorem asks_onSuccess (completion : Completion) :
    (onSuccess wcfg spec decision reservation completion).Asks Plain := by
  unfold onSuccess
  refine Prog.Asks.bind (asks_settle fun r => ⟨trivial, fun _ => Prog.asks_ofExcept _⟩) fun _ => ?_
  refine Prog.Asks.bind ⟨trivial, fun _ => Prog.asks_ofExcept _⟩ fun _ => ?_
  refine Prog.Asks.bind ⟨trivial, fun _ => Prog.asks_ofExcept _⟩ fun _ => ?_
  exact ⟨trivial, fun _ => trivial⟩

theorem asks_onError (resolved : ResolvedKey) (exc : ProviderError) :
    (onError wcfg decision resolved reservation exc).Asks Plain := by
  unfold onError
  refine Prog.Asks.bind (asks_settle fun r => ⟨trivial, fun _ => Prog.asks_ofExcept _⟩) fun _ => ?_
  refine Prog.Asks.bind ⟨trivial, fun _ => Prog.asks_ofExcept _⟩ fun _ => ?_
  refine Prog.Asks.bind ⟨trivial, fun _ => trivial⟩ fun _ => ?_
  refine Prog.Asks.bind ?_ fun _ => ?_
  · unfold discloseAuthFailure
    split
    · exact ⟨trivial, fun _ => Prog.asks_ofExcept _⟩
    · trivial
  · split <;> trivial

theorem byModel_onSuccess (completion : Completion) :
    wp (strolling quota) (onSuccess wcfg spec decision reservation completion)
      (fun r _ => ByModel r) s := by
  unfold onSuccess
  have herror : ∀ e, ByModel (.error e) := fun _ _ h => nomatch h
  refine wp_whatever herror fun _ _ => wp_whatever herror fun _ _ => wp_whatever herror fun _ _ => ?_
  rintro _ _ _ extraction h
  cases h
  rfl

theorem byModel_onError (resolved : ResolvedKey) (exc : ProviderError) :
    wp (strolling quota) (onError wcfg decision resolved reservation exc)
      (fun r _ => ByModel r) s := by
  unfold onError
  have herror : ∀ e, ByModel (.error e) := fun _ _ h => nomatch h
  refine wp_whatever herror fun _ _ => wp_whatever herror fun _ _ => wp_whatever herror fun _ _ =>
    wp_whatever herror fun _ _ => ?_
  split
  · exact fun _ h => nomatch h
  · exact fun _ h => nomatch h

/-- A candidate's turn: it is passed over, or called; and its reading is a model's. -/
def Visited (r : Except Exn Step) (s : Sight) : Prop := Past s ∧ ByModel r

/-- The call of a candidate whose gates are open, and what follows. -/
theorem wp_called (payload : Payload) (resolved : ResolvedKey)
    (hslot : s.slot) (hclear : s.clear) (hmissed : s.missed = false)
    (hdue : s.due = some spec.key) :
    wp (strolling quota) (do
      match ← (complete spec payload resolved.key).attempt with
      | .ok completion => onSuccess wcfg spec decision reservation completion
      | .error (.provider exc) => onError wcfg decision resolved reservation exc
      | .error (.other cls) => do
        settle wcfg reservation releasePerception
        .raise (.other cls)
      | .error e => .raise e) Visited s := by
  rw [wp_bind, wp_attempt]
  intro a s' hstep
  rw [strolling_iff] at hstep
  have hpast : Past s' := by
    subst hstep
    exact ⟨rfl, hslot, hclear, by simp [note, hmissed, hdue, calls], rfl⟩
  refine (wp_ofExcept _ _ _ _).mpr ?_
  match a with
  | .ok completion =>
    exact wp_and _ (wp_plain (asks_onSuccess completion) hpast) (byModel_onSuccess completion)
  | .error (.provider exc) =>
    exact wp_and _ (wp_plain (asks_onError resolved exc) hpast) (byModel_onError resolved exc)
  | .error (.other cls) =>
    refine (wp_bind ..).mpr (wp_mono _ (wp_plain (asks_settle fun r => ?_) hpast) ?_)
    · exact ⟨trivial, fun _ => Prog.asks_ofExcept _⟩
    · intro r' s'' hpast'
      cases r' with
      | error e => exact ⟨hpast', fun _ h => nomatch h⟩
      | ok _ => exact ⟨hpast', fun _ h => nomatch h⟩
  | .error .cancelled => exact ⟨hpast, fun _ h => nomatch h⟩
  | .error .generatorExit => exact ⟨hpast, fun _ h => nomatch h⟩

/-- A question of the walk that opens no gate. -/
theorem wp_stroll {α β : Type} {p : Perception.Eff α} {q : Perception.Ask}
    {o : Perception.Ans q → Except Exn α} (hp : p = .ask q fun a => .ofExcept (o a))
    (hq : Plain q) {f : α → Perception.Eff β} {Q : Except Exn β → Sight → Prop} (hs : Idle s)
    (herror : ∀ e s', Past s' → Q (.error e) s')
    (hok : ∀ b s', Past s' → wp (strolling quota) (f b) Q s') :
    wp (strolling quota) (p >>= f) Q s := by
  subst hp
  rw [wp_bind]
  intro a s' hstep
  rw [strolling_iff] at hstep
  have hpast : Past s' := hstep ▸ hs.walk (passed_plain hq)
  refine (wp_ofExcept _ _ _ _).mpr ?_
  cases o a with
  | error e => exact herror e s' hpast
  | ok b => exact hok b s' hpast

theorem error_visited (e : Exn) (s' : Sight) (h : Past s') : Visited (.error e) s' :=
  ⟨h, fun _ h => nomatch h⟩

theorem next_visited (s' : Sight) (h : Past s') : Visited (.ok (.next ())) s' :=
  ⟨h, fun _ h => nomatch h⟩

theorem wp_attempt_visited (hs : Past s) (hquota : wcfg.quota = quota) :
    wp (strolling quota) (attempt wcfg spec decision) Visited s := by
  unfold attempt
  refine wp_stroll (q := .adapterForSpec spec) (o := fun a => a) rfl trivial hs.idle error_visited
    fun _ s₁ hs₁ => ?_
  refine wp_stroll (q := .buildPayload spec) (o := fun a => a) rfl trivial hs₁.idle error_visited
    fun built s₂ hs₂ => ?_
  obtain ⟨payload, textTokens⟩ := built
  -- the credential is the last gate without a tracker, and the budget is with one
  rw [wp_bind]
  intro a s₃ hstep
  rw [strolling_iff] at hstep
  subst hstep
  refine (wp_ofExcept _ _ _ _).mpr ?_
  cases a with
  | error e => exact error_visited e _ (hs₂.idle.walk rfl)
  | ok resolved =>
    cases hq : wcfg.quota with
    | false =>
      rw [← hquota, hq]
      simp only [takeReservation, hq, Bool.false_eq_true, if_false]
      obtain ⟨-, hslot, hclear, hmissed, hdue⟩ := hs₂
      exact wp_called payload resolved hslot hclear (by simp [note, hmissed, hdue]) rfl
    | true =>
      rw [← hquota, hq]
      have hs₃ : Past (note true s₂ ⟨.walk (.forProvider spec.provider spec.model), .ok resolved⟩) :=
        hs₂.idle.walk rfl
      simp only [takeReservation, hq, if_true]
      refine (wp_bind ..).mpr ?_
      refine wp_stroll (q := .uuid4) (o := .ok) rfl trivial hs₃.idle (fun e s' h => ?_)
        fun requestId s₄ hs₄ => ?_
      · exact error_visited e s' h
      rw [wp_bind]
      intro granted s₅ hstep
      rw [strolling_iff] at hstep
      subst hstep
      refine (wp_ofExcept _ _ _ _).mpr ?_
      cases granted with
      | error e => exact error_visited e _ (hs₄.idle.walk rfl)
      | ok granted =>
        cases hallowed : granted.allowed with
        | false =>
          simp only [hallowed, Bool.false_eq_true, if_false]
          refine wp_stroll (q := .log _) (o := .ok) rfl trivial
            (hs₄.idle.walk (by simp [passed, hallowed])).idle error_visited
            fun _ s₆ hs₆ => next_visited s₆ hs₆
        | true =>
          simp only [hallowed, if_true]
          obtain ⟨-, hslot, hclear, hmissed, hdue⟩ := hs₄
          exact wp_called payload resolved hslot hclear (by simp [note, hmissed, hdue])
            (by simp [note, passed, hallowed])

theorem wp_visitCandidate (rest : List Candidate) (hs : Idle s) (hquota : wcfg.quota = quota) :
    wp (strolling quota) (visitCandidate wcfg spec rest ()) Visited s := by
  unfold visitCandidate
  split
  · exact wp_stroll (q := .log _) (o := .ok) rfl trivial hs error_visited
      fun _ s' hs' => next_visited s' hs'
  · refine wp_stroll (q := .allows _ _) (o := fun a => a) rfl trivial hs error_visited
      fun decision s' hs' => ?_
    split
    · exact wp_attempt_visited hs' hquota
    · exact wp_stroll (q := .log _) (o := .ok) rfl trivial hs'.idle error_visited
        fun _ s'' hs'' => next_visited s'' hs''

/-- What tier 2 made of the walk. -/
def Walked {ε : Type} (r : Except ε (Option Extraction)) (s : Sight) : Prop :=
  Past s ∧ ∀ extraction, r = .ok (some extraction) → extraction.tier = "llm"

/-- How the walk's loop ends: a candidate that answered ends it. -/
def Strolled {ε : Type} (r : Except ε (Flow Unit (Option Extraction))) (s : Sight) : Prop :=
  match r with
  | .ok (.done w) => Past s ∧ ∀ extraction, w = some extraction → extraction.tier = "llm"
  | .ok _ => Idle s
  | .error _ => Past s

/-- **The walk** calls whoever passes the gates, and what it reads a model has read. -/
theorem wp_walkCandidates (chain : List Candidate) (hs : Idle s) (hquota : wcfg.quota = quota) :
    wp (strolling quota) (walkCandidates wcfg chain) Walked s := by
  unfold walkCandidates
  rw [wp_bind]
  refine wp_mono _ (wp_forEach (strolling quota) (fun _ _ s => Idle s)
    (Q := Strolled) ?_ ?_ hs) ?_
  · exact fun _ s' h => h
  · intro b bs _ s' h
    refine wp_mono _ (wp_visitCandidate bs h hquota) ?_
    rintro r s'' ⟨hpast, hmodel⟩
    rcases r with e | (u | u | w)
    · exact hpast
    · exact hpast.idle
    · exact hpast.idle
    · exact ⟨hpast, fun extraction hw => hmodel extraction (by rw [hw])⟩
  · intro r s' h
    rcases r with e | (u | u | w)
    · exact ⟨h, fun _ h => (by cases h)⟩
    · refine wp_stroll (q := .log _) (o := .ok) rfl trivial h (fun _ _ hpast => ?_)
        fun _ s'' hpast => ?_
      · exact ⟨hpast, fun _ h => (by cases h)⟩
      · exact ⟨hpast, fun _ h => (by cases h)⟩
    · refine wp_stroll (q := .log _) (o := .ok) rfl trivial h (fun _ _ hpast => ?_)
        fun _ s'' hpast => ?_
      · exact ⟨hpast, fun _ h => (by cases h)⟩
      · exact ⟨hpast, fun _ h => (by cases h)⟩
    · exact ⟨h.1, fun extraction hw => h.2 extraction (Except.ok.inj hw)⟩

/-! ## Tier 2 -/

variable {cfg : Config} {fileHash token : String} {sizeBytes : Nat} {chain : List Candidate}

theorem wp_walk (hs : Before s) :
    wp (watch (note cfg.quota)) (walk cfg fileHash sizeBytes chain) Walked s := by
  unfold walk
  refine wp_embed ?_
  rw [wp_mapError]
  have hidle : Idle s := by
    subst hs
    exact ⟨rfl, rfl, rfl, rfl⟩
  refine wp_mono _ (wp_walkCandidates chain hidle rfl) ?_
  rintro r s' ⟨hpast, hmodel⟩
  cases r with
  | error e => exact ⟨hpast, fun _ h => nomatch h⟩
  | ok a => exact ⟨hpast, fun extraction h => hmodel extraction (by rw [Except.ok.inj h])⟩

/-- How tier 2 ends: behind the walk, or kept from it. -/
def Ended (r : Except Fault (Option Extraction)) (s : Sight) : Prop := Walked r s ∨ Spoilt s

/-- Where no walk was made, and none will be, the way is closed. -/
theorem Looked.ended {r : Except Fault (Option Extraction)} (h : Looked r s)
    (hr : r ≠ .ok none) : Ended r s := by
  match r with
  | .ok none => exact absurd rfl hr
  | .ok (some _) => exact .inr h
  | .error _ => exact .inr h

theorem wp_underLock (hs : Before s) :
    wp (watch (note cfg.quota)) (underLock cfg fileHash sizeBytes chain) Ended s := by
  unfold underLock
  refine (wp_bind ..).mpr (wp_mono _ (wp_loadCached cfg fileHash hs) ?_)
  intro r s' hr
  match r with
  | .error e => exact .inr hr
  | .ok (some cached) => exact .inr hr
  | .ok none => exact wp_mono _ (wp_walk hr) fun _ _ h => .inl h

/-- What has nothing to do with the walk leaves tier 2 where it was. -/
theorem wp_settled {α : Type} {p : Eff α} (hp : p.Asks Aside) :
    wp (watch (note quota)) p (fun _ s' => (Past s → Past s') ∧ (Spoilt s → Spoilt s')) s := by
  refine hp.wp_inv (J := fun s' => (Past s → Past s') ∧ (Spoilt s → Spoilt s')) ?_ ⟨id, id⟩
  rintro s₁ q a _ hq rfl ⟨hpast, hspoilt⟩
  exact ⟨fun h => (hpast h).note hq, fun h => (hspoilt h).note hq⟩

theorem asks_release (held : Bool) : (release cfg fileHash token held).Asks Aside := by
  unfold release
  split
  · refine asks_orLog trivial (Prog.Asks.bind ⟨trivial, fun _ => Prog.asks_ofExcept _⟩ fun current => ?_)
    split
    · exact ⟨trivial, fun _ => Prog.asks_ofExcept _⟩
    · trivial
  · trivial

theorem wp_finally {p : Eff (Option Extraction)} {q : Eff Unit} (hq : q.Asks Aside)
    (hp : wp (watch (note cfg.quota)) p Ended s) :
    wp (watch (note cfg.quota)) (finally' p q) Ended s := by
  unfold finally'
  rw [wp_bind, wp_attempt]
  refine wp_mono _ hp ?_
  intro r s' hr
  have hcase : Past s' ∨ Spoilt s' := hr.imp And.left id
  refine (wp_bind ..).mpr (wp_mono _ (wp_settled hq) ?_)
  rintro r' s'' ⟨hpast, hspoilt⟩
  cases r' with
  | error e =>
    rcases hr with ⟨h, -⟩ | h
    · exact .inl ⟨hpast h, fun _ h => nomatch h⟩
    · exact .inr (hspoilt h)
  | ok _ =>
    refine (wp_ofExcept _ _ _ _).mpr ?_
    rcases hr with ⟨h, hmodel⟩ | h
    · exact .inl ⟨hpast h, hmodel⟩
    · exact .inr (hspoilt h)

/-- Where the lock is not held by another, or another's reading was waited for in vain. -/
theorem wp_behindLock (hs : Before s) (goOn held : Bool) :
    wp (watch (note cfg.quota))
      (behindLock cfg fileHash token sizeBytes chain goOn held) Ended s := by
  unfold behindLock
  have hunder : ∀ {s' : Sight}, Before s' → wp (watch (note cfg.quota))
      (finally' (underLock cfg fileHash sizeBytes chain) (release cfg fileHash token held))
      Ended s' := fun h => wp_finally (asks_release held) (wp_underLock h)
  cases goOn with
  | true => exact hunder hs
  | false =>
    refine (wp_bind ..).mpr (wp_mono _ (wp_awaitWinner cfg fileHash lockPolls hs) ?_)
    intro r s' hr
    match r with
    | .error e => exact .inr hr
    | .ok (some waited) => exact .inr hr
    | .ok none =>
      refine (wp_bind ..).mpr ?_
      rintro _ _ rfl
      exact hunder (Before.quiet hr trivial rfl)

theorem wp_acquire (hs : Before s) :
    wp (watch (note quota)) (acquire cfg fileHash token) (fun r s' => match r with
      | .ok _ => Before s'
      | .error _ => Spoilt s') s := by
  unfold acquire
  split
  · refine wp_orLog ?_
    refine (wp_bind ..).mpr ?_
    rintro a _ rfl
    refine (wp_ofExcept _ _ _ _).mpr ?_
    match a with
    | .ok won => exact hs.quiet trivial rfl
    | .error .redis =>
      exact (hs.quiet (q := .lockSet fileHash token) (a := .error .redis) trivial rfl).quiet
        (q := .log _) trivial rfl
    | .error (.exn e) => exact hs.loud trivial rfl
    | .error (.fileUnreadable _ _) => exact hs.loud trivial rfl
  · exact hs

/-- There was no slot to take, or nothing to take it for. -/
def Shut (s : Sight) : Prop := s.walked = false ∧ s.slot = false

/-- Tier 2 is over, or there was no way into it. -/
def Over (r : Except Fault (Option Extraction)) (s : Sight) : Prop :=
  Ended r s ∨ Shut s ∧ r = .ok none

theorem wp_extractWithLlm :
    wp (watch (note cfg.quota)) (extractWithLlm cfg fileHash sizeBytes) Over {} := by
  unfold extractWithLlm
  refine (wp_bind ..).mpr ?_
  rintro slot _ rfl
  cases slot with
  | none =>
    refine (wp_bind ..).mpr ?_
    rintro _ _ rfl
    exact .inr ⟨⟨rfl, rfl⟩, rfl⟩
  | some chain =>
    have hbefore : Before (note cfg.quota {} ⟨.candidates, some chain⟩) := rfl
    refine (wp_bind ..).mpr ?_
    rintro token _ rfl
    have htoken : Before (note cfg.quota _ ⟨.uuid4, token⟩) := hbefore.quiet trivial rfl
    refine (wp_bind ..).mpr (wp_mono _ (wp_acquire htoken) ?_)
    intro r s' hr
    match r with
    | .error e => exact .inl (.inr hr)
    | .ok (goOn, held) => exact wp_mono _ (wp_behindLock hr goOn held) fun _ _ h => .inl h

/-! ## The chain -/

/-- What is settled about tier 2: it walked, it was kept from it, or it was shut. -/
def Settled (s : Sight) : Prop := Past s ∨ Spoilt s ∨ Shut s

theorem Settled.note (hs : Settled s) (hq : Aside q) : Settled (Lane.note quota s ⟨q, a⟩) := by
  rcases hs with h | h | h
  · exact .inl (h.note hq)
  · exact .inr (.inl (h.note hq))
  · refine .inr (.inr ?_)
    rw [note_aside hq, if_neg (by simp [h.1])]
    exact h

theorem Over.settled {r : Except Fault (Option Extraction)} (h : Over r s) : Settled s := by
  rcases h with (⟨hpast, -⟩ | hspoilt) | ⟨hshut, -⟩
  · exact .inl hpast
  · exact .inr (.inl hspoilt)
  · exact .inr (.inr hshut)

theorem wp_aside {α : Type} {p : Eff α} (hp : p.Asks Aside) (hs : Settled s) :
    wp (watch (note quota)) p (fun _ s' => Settled s') s :=
  hp.wp_inv (fun _ _ _ _ hq hstep h => hstep ▸ h.note hq) hs

/-- What the chain ends in. -/
def Closing (r : Except Fault Reading) (s : Sight) : Prop :=
  Settled s ∧ (Honest r ∨ Spoilt s)

/-- The questions that bear on nothing but the bytes. -/
def Unread : Ask → Prop
  | .fetch _ | .measure _ _ | .log _ => True
  | _ => False

theorem Unread.aside {q : Ask} (hq : Unread q) : Aside q := by
  cases q <;> trivial

theorem asks_guarded {P : Ask → Prop} {α : Type} {tier : ExtractionTier} {step : Eff (Option α)}
    (hp : step.Asks P) (hlog : ∀ line, P (.log line)) : (guarded tier fileHash step).Asks P := by
  unfold guarded
  refine Prog.Asks.bind (Prog.Asks.attempt hp) fun r => ?_
  split
  · trivial
  · split
    · exact ⟨hlog _, fun _ => trivial⟩
    · trivial

theorem asks_bytesOf (tier : ExtractionTier) (bytes : Bytes) :
    (bytesOf tier fileHash bytes).Asks Unread := by
  unfold bytesOf
  split
  · trivial
  · refine asks_guarded (Prog.Asks.bind ?_ fun _ => trivial) fun _ => trivial
    exact ⟨trivial, fun _ => Prog.asks_ofExcept _⟩

theorem asks_tierOne (ref : FileRef) (nativeWanted : Bool) :
    (tierOne ref nativeWanted).Asks Unread := by
  unfold tierOne
  split
  · refine Prog.Asks.bind (asks_bytesOf _ _) fun data => ?_
    split
    · refine Prog.Asks.bind ?_ fun _ => trivial
      refine asks_guarded (Prog.Asks.bind ?_ fun _ => trivial) fun _ => trivial
      exact ⟨trivial, fun _ => Prog.asks_ofExcept _⟩
    · trivial
  · trivial

/-- Tier 1 has the bytes, and no reading of them. -/
theorem honest_tierOne (ref : FileRef) (nativeWanted : Bool) :
    wp (watch (note quota)) (tierOne ref nativeWanted)
      (fun r _ => ∀ reading bytes, r = .ok (some reading, bytes) → Honest (.ok reading)) s := by
  unfold tierOne
  split
  · refine wp_whatever (fun _ _ _ h => nomatch h) fun data s' => ?_
    split
    · refine wp_whatever (fun _ _ _ h => nomatch h) fun measurement s'' => ?_
      intro reading bytes h extraction hreading
      cases h
      cases hreading
    · exact fun _ _ h => nomatch h
  · exact fun _ _ h => nomatch h

theorem asks_readLocally (ref : FileRef) (data : List UInt8) :
    (readLocally cfg ref data).Asks Aside := by
  unfold readLocally
  refine Prog.Asks.bind ⟨trivial, fun _ => Prog.asks_ofExcept _⟩ fun reading => ?_
  split
  · trivial
  · split
    · trivial
    · exact ⟨trivial, fun _ => Prog.Asks.bind (Prog.asks_ofExcept _) fun _ => trivial⟩

/-- The end of tier 3, and of the chain. -/
def lastResort (ref : FileRef) (spec : RenderSpec) (reading : Option Extraction) : Eff Reading :=
  match reading with
  | some reading => return .extracted reading .local
  | none => do
    log (.fileUnreadable ref spec.provider spec.model)
    .raise (.fileUnreadable ref.fileHash ref.filename)

theorem tierThree_eq (ref : FileRef) (spec : RenderSpec) (bytes : Bytes) :
    tierThree cfg ref spec bytes = (do
      match ← bytesOf .local ref.fileHash bytes with
      | some data =>
        let reading ← guarded .local ref.fileHash (readLocally cfg ref data)
        lastResort ref spec reading
      | none => lastResort ref spec none) := rfl

theorem asks_lastResort (ref : FileRef) (spec : RenderSpec) (reading : Option Extraction) :
    (lastResort ref spec reading).Asks Aside := by
  cases reading with
  | some reading => trivial
  | none => exact ⟨trivial, fun _ => trivial⟩

theorem asks_tierThree (ref : FileRef) (spec : RenderSpec) (bytes : Bytes) :
    (tierThree cfg ref spec bytes).Asks Aside := by
  rw [tierThree_eq]
  refine Prog.Asks.bind ((asks_bytesOf _ _).mono fun _ hq => hq.aside) fun data => ?_
  split
  · exact Prog.Asks.bind (asks_guarded (asks_readLocally ref _) fun _ => trivial)
      fun _ => asks_lastResort ref spec _
  · exact asks_lastResort ref spec none

/-- What tier 3 reads is not labelled a model's. -/
theorem honest_tierThree (ref : FileRef) (spec : RenderSpec) (bytes : Bytes) :
    wp (watch (note quota)) (tierThree cfg ref spec bytes) (fun r _ => Honest r) s := by
  have herror : ∀ e, Honest (.error e) := fun _ _ h => nomatch h
  have hlast : ∀ (reading : Option Extraction) (s' : Sight),
      wp (watch (note quota)) (lastResort ref spec reading) (fun r _ => Honest r) s' := by
    intro reading s'
    cases reading with
    | some reading => exact fun _ h => nomatch h
    | none => exact fun _ _ _ => herror _
  rw [tierThree_eq]
  refine wp_whatever herror fun data s' => ?_
  cases data with
  | some data => exact wp_whatever herror fun _ _ => hlast _ _
  | none => exact hlast none s'

/-- `_guarded` around tier 2: what it swallows is one more log line. -/
theorem wp_guarded_tierTwo {p : Eff (Option Extraction)} {tier : ExtractionTier}
    (hp : wp (watch (note quota)) p Over s) :
    wp (watch (note quota)) (guarded tier fileHash p) (fun r s' => Settled s' ∧
      ∀ extraction, r = .ok (some extraction) → extraction.tier = "llm" ∨ Spoilt s') s := by
  unfold guarded
  rw [wp_bind, wp_attempt]
  refine wp_mono _ hp ?_
  intro r s' hr
  cases r with
  | ok found =>
    refine ⟨hr.settled, fun extraction h => ?_⟩
    cases h
    rcases hr with (⟨-, hmodel⟩ | hspoilt) | ⟨-, hnone⟩
    · exact .inl (hmodel extraction rfl)
    · exact .inr hspoilt
    · cases hnone
  | error e =>
    cases he : e.swallowed with
    | true =>
      simp only [he, if_true]
      refine (wp_bind ..).mpr ?_
      rintro _ _ rfl
      exact ⟨hr.settled.note trivial, fun _ h => nomatch h⟩
    | false =>
      simp only [he, Bool.false_eq_true, if_false]
      exact ⟨hr.settled, fun _ h => nomatch h⟩

/-- Nothing was asked that bears on tier 2. -/
theorem wp_untouched {α : Type} {p : Eff α} (hp : p.Asks Unread) :
    wp (watch (note quota)) p (fun _ s' => s' = {}) {} := by
  refine hp.wp_inv (J := fun s' : Sight => s' = {}) ?_ rfl
  rintro s₁ q a _ hq rfl rfl
  cases q <;> first | rfl | exact hq.elim

theorem wp_tierTwo (hlocal : cfg.localOnly = false) (ref : FileRef) (bytes : Bytes) :
    wp (watch (note cfg.quota)) (tierTwo cfg ref bytes) (fun r s' => Settled s' ∧
      ∀ extraction data, r = .ok (some extraction, data) →
        extraction.tier = "llm" ∨ Spoilt s') {} := by
  unfold tierTwo
  simp only [hlocal, Bool.false_eq_true, if_false]
  refine (wp_bind ..).mpr (wp_mono _ (wp_untouched (asks_bytesOf _ _)) ?_)
  rintro r _ rfl
  have hshut : Settled {} := .inr (.inr ⟨rfl, rfl⟩)
  match r with
  | .error e => exact ⟨hshut, fun _ _ h => nomatch h⟩
  | .ok none => exact ⟨hshut, fun _ _ h => nomatch h⟩
  | .ok (some found) =>
    refine (wp_bind ..).mpr (wp_mono _ (wp_guarded_tierTwo wp_extractWithLlm) ?_)
    rintro r' s' ⟨hsettled, hmodel⟩
    cases r' with
    | error e => exact ⟨hsettled, fun _ _ h => nomatch h⟩
    | ok extracted =>
      refine ⟨hsettled, fun extraction data h => hmodel extraction ?_⟩
      cases h
      rfl

/-- **The chain** behind tier 0. -/
theorem wp_behindTierZero (hlocal : cfg.localOnly = false) (ref : FileRef) (spec : RenderSpec)
    (nativeWanted : Bool) (cached : Option Extraction) :
    wp (watch (note cfg.quota)) (behindTierZero cfg ref spec nativeWanted cached) Closing {} := by
  have hshut : Settled {} := .inr (.inr ⟨rfl, rfl⟩)
  unfold behindTierZero
  refine (wp_bind ..).mpr (wp_mono _ (wp_and _ (wp_untouched (asks_tierOne ref nativeWanted))
    (honest_tierOne ref nativeWanted)) ?_)
  rintro r _ ⟨rfl, honest⟩
  match r with
  | .error e => exact ⟨hshut, .inl fun _ h => nomatch h⟩
  | .ok (some reading, bytes) => exact ⟨hshut, .inl (honest reading bytes rfl)⟩
  | .ok (none, bytes) =>
    refine (wp_bind ..).mpr (wp_mono _ (wp_tierTwo hlocal ref bytes) ?_)
    rintro r' s' ⟨hsettled, hmodel⟩
    match r', cached with
    | .error e, _ => exact ⟨hsettled, .inl fun _ h => nomatch h⟩
    | .ok (some extraction, data), _ =>
      refine ⟨hsettled, (hmodel extraction data rfl).imp ?_ id⟩
      intro htier extraction' h
      cases h
      exact htier
    | .ok (none, data), some held => exact ⟨hsettled, .inl fun _ h => nomatch h⟩
    | .ok (none, data), none =>
      refine wp_mono _ (wp_and _ (wp_aside (asks_tierThree ref spec data) hsettled)
        (honest_tierThree ref spec data)) ?_
      rintro r'' s'' ⟨h, honest⟩
      exact ⟨h, .inl honest⟩

theorem Closing.upgrades {r : Except Fault Reading} (h : Closing r s) :
    Upgrades s r ↔ s.slot ∧ s.clear := by
  obtain ⟨hsettled, honest⟩ := h
  constructor
  · rintro ⟨hwalked, -, -, -⟩
    rcases hsettled with ⟨-, hslot, hclear, -⟩ | ⟨hnot, -⟩ | ⟨hnot, -⟩
    · exact ⟨hslot, hclear⟩
    · simp [hnot] at hwalked
    · simp [hnot] at hwalked
  · rintro ⟨hslot, hclear⟩
    have hpast : Past s := by
      rcases hsettled with h | ⟨-, hnot⟩ | ⟨-, hnot⟩
      · exact h
      · simp [hnot] at hclear
      · simp [hnot] at hslot
    obtain ⟨hwalked, -, -, hmissed, hdue⟩ := hpast
    refine ⟨hwalked, hmissed, hdue, honest.resolve_right ?_⟩
    rintro ⟨hnot, -⟩
    simp [hnot] at hwalked

/-- The chain behind a tier 0 that did not settle the matter. -/
theorem runs_behindTierZero {ref : FileRef} {spec : RenderSpec} {nativeWanted : Bool}
    {cached : Option Extraction} {tr₀ tr : List (Event iface)} {r : Except Fault Reading}
    (hzero : (tierZero cfg ref).Runs tr₀ (.ok cached))
    (hcached : ∀ extraction, cached = some extraction → extraction.tier ≠ "llm")
    (hrun : (runChain cfg ref spec nativeWanted).Runs (tr₀ ++ tr) r) :
    (behindTierZero cfg ref spec nativeWanted cached).Runs tr r := by
  have h := hzero.behind hrun
  cases cached with
  | none => exact h
  | some extraction =>
    simp only [hcached extraction rfl, if_false] at h
    exact h

/-- **A local reading is upgraded** exactly where tier 2 was let in and nothing barred its way:
the bytes could be had, there is a slot, and up to the walk every look at tier 0 found nothing. -/
theorem upgrades_iff (cfg : Config) (hlocal : cfg.localOnly = false) (ref : FileRef)
    (spec : RenderSpec) (nativeWanted : Bool) {held : Extraction} (hheld : held.tier ≠ "llm")
    {tr₀ tr : List (Event iface)} {r : Except Fault Reading}
    (hzero : (tierZero cfg ref).Runs tr₀ (.ok (some held)))
    (hrun : (runChain cfg ref spec nativeWanted).Runs (tr₀ ++ tr) r) :
    Upgrades (sight cfg.quota tr) r
      ↔ (sight cfg.quota tr).slot ∧ (sight cfg.quota tr).clear := by
  have hbehind := runs_behindTierZero hzero (fun extraction h => Option.some.inj h ▸ hheld) hrun
  have hclosing := wp_watch_sound (wp_behindTierZero hlocal ref spec nativeWanted (some held))
    hbehind
  exact hclosing.upgrades

/-- What tier 3 once made of a file. -/
def ocr : Extraction where
  fileHash := "h"
  text := "blurred"
  confidence := .low
  tier := "local"
  provider := "local"
  model := "tesseract"

def scan : FileRef := ⟨"h", "scan.pdf", "application/pdf", 1⟩

def reader : RenderSpec := { slot := "chat", provider := "p", model := "m", contextWindow := 8
                             maxOutputTokens := 4 }

def viewer : Candidate := { slot := "perception", provider := "v", model := "m"
                            contextWindow := 8 }

def plainConfig : Config := { quota := false, grade := fun _ => .high }

/-- A healthy candidate, a free lock, and two stores that hold nothing. -/
def healthy : (q : Ask) → Ans q
  | .redisGet _ => .ok none
  | .rowGet _ => .ok none
  | .redisSet _ => .ok ()
  | .candidates => some [viewer]
  | .uuid4 => "token"
  | .lockSet _ _ => .ok true
  | .lockGet _ => .ok (some "token")
  | .lockDelete _ => .ok ()
  | .sleep _ => .ok ()
  | .fetch _ => .ok [0]
  | .measure _ _ => .ok {}
  | .extractLocally _ _ _ => .ok none
  | .persistLocal _ => .ok ()
  | .log _ => ()
  | .walk (.allows provider model) =>
    .ok { allowed := true, provider, model, state := .closed }
  | .walk (.adapterForSpec _) => .ok ()
  | .walk (.buildPayload spec) => .ok (default, 1)
  | .walk (.forProvider provider _) =>
    .ok { provider, key := "k", pool := .shared, scope := "shared" }
  | .walk .uuid4 => "request"
  | .walk (.reservePerception _ _ _ _) => .error .cancelled
  | .walk (.complete _ _ _) => .ok ⟨"sharp", ⟨1, 1, false⟩, "stop"⟩
  | .walk (.commitPerception _ _ _) => .ok ()
  | .walk (.releasePerception _) => .ok ()
  | .walk (.recordFailure _ _) => .ok ()
  | .walk (.recordSuccess _) => .ok ()
  | .walk (.recordAuthFailure _) => .ok ()
  | .walk (.persist _) => .ok ()
  | .walk (.log _) => ()

/-- The same, with a local reading in Redis for the first looks at it. -/
def fading (looks : Nat) : (q : Ask) → Ans q × Nat
  | .redisGet _ => (.ok (if looks = 0 then none else some (some ocr)), looks - 1)
  | q => (healthy q, looks)

/-- The events of tier 0 and those behind it, where so many looks at Redis find the reading. -/
def before (looks : Nat) : List (Event iface) := ((tierZero plainConfig scan).play fading looks).1

def behind (looks : Nat) : List (Event iface) :=
  ((behindTierZero plainConfig scan reader false (some ocr)).play fading (looks - 1)).1

def sharp : Extraction := ⟨"h", "sharp", .high, "llm", "v", "m"⟩

/-- A reading that is gone at the second look is read anew. -/
theorem upgrades_scan : Upgrades (sight false (behind 1)) (.ok (.extracted sharp .llm)) := by
  have hzero : (tierZero plainConfig scan).Runs (before 1) (.ok (some ocr)) :=
    Prog.play_runs (I := iface) fading 1 (tierZero plainConfig scan)
  have hrun : (runChain plainConfig scan reader false).Runs (before 1 ++ behind 1)
      (.ok (.extracted sharp .llm)) :=
    Prog.play_runs (I := iface) fading 1 (runChain plainConfig scan reader false)
  exact (upgrades_iff plainConfig rfl scan reader false (by decide) hzero hrun).mpr ⟨rfl, rfl⟩

/-- One that is still there is taken for a model's. -/
theorem not_upgrades_scan :
    ¬ ∀ (cfg : Config), cfg.localOnly = false → ∀ (ref : FileRef) (spec : RenderSpec)
      (nativeWanted : Bool) (held : Extraction), held.tier ≠ "llm" →
      ∀ (tr₀ tr : List (Event iface)) (r : Except Fault Reading),
        (tierZero cfg ref).Runs tr₀ (.ok (some held)) →
        (runChain cfg ref spec nativeWanted).Runs (tr₀ ++ tr) r →
        (sight cfg.quota tr).slot → Upgrades (sight cfg.quota tr) r := by
  intro h
  have hzero : (tierZero plainConfig scan).Runs (before 2) (.ok (some ocr)) :=
    Prog.play_runs (I := iface) fading 2 (tierZero plainConfig scan)
  have hrun : (runChain plainConfig scan reader false).Runs (before 2 ++ behind 2)
      (.ok (.extracted ocr .llm)) :=
    Prog.play_runs (I := iface) fading 2 (runChain plainConfig scan reader false)
  obtain ⟨-, -, -, honest⟩ :=
    h plainConfig rfl scan reader false ocr (by decide) _ _ _ hzero hrun rfl
  exact absurd (honest ocr rfl) (by decide)

end Lane

end Perception

end LlmGateway
