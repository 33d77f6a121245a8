import LlmGateway.Routing.Laws
import LlmGateway.Routing.Resolution

/-!
# No leaked probe

The law over whole runs of the three callers, and the runs that show what it
needs.
-/

namespace LlmGateway

namespace Breaker

open Effects

/-- A caller that rests owes nothing at the end of an uncut run. -/
theorem Rests.clear {I : Iface} {ε α : Type} {S : Setting} {deed : (q : I.Ask) → I.Ans q → Deed}
    {p : Prog I ε α} (hp : Rests S deed p) {stores : String × String → Store} {tr : List (Event I)}
    {r : Except ε α} {s : Scene} (hr : p.Runs tr r) (ha : (S.world deed).Accepts { stores } tr s)
    (hc : s.cut = false) : s.Clear := by
  have huncut := (ha.confine (fun s => s.cut = false) (fun _ _ _ _ hm => hm.cut_eq_false) hc).1
  exact wp_sound _ (hp _ ⟨rfl, rfl⟩) hr huncut

/-- **No leaked probe.** Whatever state the breakers are in and whatever others
do to them, in every run of `route`, of `routeStream` and of `walkCandidates` that
is never cut with a probe in hand, every candidate whose probe was handed out has
been left, and the run has ended, with the probe resolved. -/
theorem probes_resolved (S : Setting) (stores : String × String → Store) (cfg : Router.Config)
    (chain : List ModelSpec) (xcfg : Perception.Config) (xchain : List Perception.Candidate) :
    (∀ tr r s, (Router.route cfg chain).Runs tr r → (S.world Router.deed).Accepts { stores } tr s →
        s.cut = false → s.left = [] ∧ s.held = none) ∧
      (∀ tr r s, (Router.routeStream cfg chain).Runs tr r →
        (S.world Router.deed).Accepts { stores } tr s →
        s.cut = false → s.left = [] ∧ s.held = none) ∧
      ∀ tr r s, (Perception.walkCandidates xcfg xchain).Runs tr r →
        (S.world Perception.deed).Accepts { stores } tr s →
        s.cut = false → s.left = [] ∧ s.held = none := by
  refine ⟨fun tr r s hr ha hc => ?_, fun tr r s hr ha hc => ?_, fun tr r s hr ha hc => ?_⟩
  · have h := Rests.clear (Router.route_rests cfg chain) hr ha hc
    exact ⟨h.left, h.held⟩
  · have h := Rests.clear (Router.routeStream_rests cfg chain) hr ha hc
    exact ⟨h.left, h.held⟩
  · have h := Rests.clear (Perception.walkCandidates_rests xcfg xchain) hr ha hc
    exact ⟨h.left, h.held⟩

/-! ## A caller alone -/

/-- A program of the breaker played on its store, the clock standing still. -/
def serve (cfg : Config) (s : Store) (q : Ask) : Ans q × Store := (s.reply q, s.exec cfg q)

theorem serve_steady (cfg : Config) (s : Store) (q : Ask) :
    steady cfg s q (serve cfg s q).1 (serve cfg s q).2 :=
  ⟨rfl, (s.exec cfg q).clock, (s.exec_clock cfg q).ge, rfl⟩

theorem carried_play {α : Type} {cfg : Config} {p : Eff α} {s : Store} {a : α}
    (h : (p.play (serve cfg) s).2 = .ok a) : Carried cfg p s a (p.finish (serve cfg) s) :=
  ⟨_, h ▸ p.play_runs (serve cfg) s, accepts_play (serve_steady cfg) s p⟩

/-- Nobody else, and the default constants. -/
def alone : Setting := { cfg := defaults, requestId := "request", others := fun s s' => s' = s }

/-- What `allows` answers a caller alone. -/
def verdict (s : Scene) (provider model : String) : BreakerDecision :=
  match ((allows defaults provider model "request").play (serve defaults) (s.stores (provider, model))).2 with
  | .ok d => d
  | .error _ => failOpen provider model

/-- How the scene goes on. -/
def Scene.act (s : Scene) : Deed → Scene
  | .asked provider model answer =>
    { s with
      stores := Function.update s.stores (provider, model)
        ((allows defaults provider model "request").finish (serve defaults) (s.stores (provider, model)))
      left := s.left ++ s.held.toList
      held := match answer with
        | .ok d => if d.isProbe then some (provider, model) else none
        | .error _ => none }
  | .reported d exc answer =>
    let st := (report defaults d exc).finish (serve defaults) (s.stores (key d))
    { s with
      stores := Function.update s.stores (key d) st
      held := if st.resolved then s.held.filter (· ≠ key d) else s.held
      cut := s.cut || s.held.isSome &&
        (exc.any (!·.breakerEligible) || !answer.isOk && !st.resolved) }
  | .refused | .broken => { s with cut := s.cut || s.held.isSome }
  | .other => s

theorem swallowing_play {σ : Type} (E : σ → (q : Ask) → Ans q × σ) (s : σ) (p : Eff Unit) :
    ((swallowing p).play E s).2 = .ok () := by
  induction p generalizing s with
  | ret a => rfl
  | raise e => rfl
  | ask q k ih => exact ih _ _

theorem report_play {σ : Type} (E : σ → (q : Ask) → Ans q × σ) (s : σ) (cfg : Config)
    (d : BreakerDecision) (exc : Option ProviderError) :
    ((report cfg d exc).play E s).2 = .ok () := by
  cases exc with
  | none =>
    simp only [report, recordSuccess]
    split
    · rfl
    · exact swallowing_play E s _
  | some exc =>
    simp only [report, recordFailure]
    split
    · rfl
    · exact swallowing_play E s _

/-- What `allows` is answered with is what it came to. -/
theorem verdict_spec (s : Scene) (provider model : String) :
    ((allows defaults provider model "request").play (serve defaults) (s.stores (provider, model))).2 =
      .ok (verdict s provider model) := by
  obtain ⟨d, hd, -⟩ := wp_sound (steady defaults) wp_allows_steady
    ((allows defaults provider model "request").play_runs (serve defaults) (s.stores (provider, model)))
    (accepts_play (serve_steady defaults) _ _)
  simp only [verdict, hd]

/-- A caller alone moves its scene as the world lets it. -/
theorem Scene.act_moves (s : Scene) (deed : Deed)
    (hd : ∀ p m d, deed = .asked p m (.ok d) → d = verdict s p m) :
    s.Moves alone.cfg alone.requestId alone.others deed (s.act deed) := by
  refine ⟨s.stores, rfl, ?_⟩
  cases deed with
  | asked p m answer =>
    refine ⟨_, fun d ha => carried_play ?_, rfl⟩
    rw [hd p m d (by rw [ha])]
    exact verdict_spec s p m
  | reported d exc answer => exact ⟨_, fun _ => carried_play (report_play _ _ _ _ _), rfl⟩
  | _ => rfl

end Breaker

namespace Router

open Effects Breaker

/-- The environment of a caller alone: the breaker is played, everything else is
as `E` says. -/
def attend (E : (q : Ask) → Ans q) (s : Scene) (q : Ask) : Ans q × Scene :=
  let a : Ans q := match q with
    | .allows provider model => .ok (verdict s provider model)
    | q => E q
  (a, s.act (deed q a))

theorem attend_world (E : (q : Ask) → Ans q) (s : Scene) (q : Ask) :
    alone.world (I := iface) deed s q (attend E s q).1 (attend E s q).2 := by
  refine s.act_moves _ fun p m d hd => ?_
  obtain rfl := deed_asked hd
  cases hd
  rfl

/-- The end of a run of a caller alone. -/
theorem attend_accepts {α : Type} (E : (q : Ask) → Ans q) (s : Scene) (p : Eff α) :
    (alone.world (I := iface) deed).Accepts s (p.play (attend E) s).1 (p.finish (attend E) s) :=
  accepts_play (attend_world E) s p

end Router

namespace Perception

open Effects Breaker

/-- Every question answered with success. -/
def oblige : (q : Ask) → Ans q
  | .allows provider model => .ok { allowed := true, provider, model, state := .closed }
  | .adapterForSpec _ => .ok ()
  | .buildPayload _ => .ok ("payload", 7)
  | .forProvider provider _ => .ok (Router.sharedKey provider)
  | .uuid4 => "request"
  | .reservePerception spec scope tokens requestId => .ok
      { allowed := true, reservation := some
          { scope, provider := spec.provider, model := spec.model, requestId, tokens } }
  | .complete _ _ _ => .ok
      { text := "## Summary", usage := { tokensIn := 7, tokensOut := 1 }, finishReason := "stop" }
  | .commitPerception _ _ _ => .ok ()
  | .releasePerception _ => .ok ()
  | .recordFailure _ _ => .ok ()
  | .recordSuccess _ => .ok ()
  | .recordAuthFailure _ => .ok ()
  | .persist _ => .ok ()
  | .log _ => ()

/-- The environment of a walk alone: the breaker is played, everything else
succeeds. -/
def attend (s : Scene) (q : Ask) : Ans q × Scene :=
  let a : Ans q := match q with
    | .allows provider model => .ok (verdict s provider model)
    | q => oblige q
  (a, s.act (deed q a))

theorem attend_world (s : Scene) (q : Ask) :
    alone.world (I := iface) deed s q (attend s q).1 (attend s q).2 := by
  refine s.act_moves _ fun p m d hd => ?_
  obtain rfl := deed_asked hd
  cases hd
  rfl

end Perception

namespace Breaker

open Effects Router

/-- Every breaker has been open for its whole cooldown, and no probe is out. -/
def due : Scene :=
  { stores := fun _ => { hash := { state := some .open, failures := some 5, openedAt := some 0,
                                   cooldownS := some 30 }, clock := 30 } }

-- so that instants are computed with
unseal Rat.add Rat.sub Rat.mul Rat.inv Rat.ofScientific

/-- A probe for each caller, and each sees it resolved. -/
theorem probes_resolved_due :
    (((route {} [groq]).finish (attend oblige) due).left = [] ∧
        ((route {} [groq]).finish (attend oblige) due).held = none) ∧
      (((routeStream {} [groq]).finish (attend oblige) due).left = [] ∧
        ((routeStream {} [groq]).finish (attend oblige) due).held = none) ∧
      ((Perception.walkCandidates { fileHash := "f", sizeBytes := 9, grade := fun _ => .medium }
          [{ gemini with }]).finish Perception.attend due).left = [] ∧
        ((Perception.walkCandidates { fileHash := "f", sizeBytes := 9, grade := fun _ => .medium }
          [{ gemini with }]).finish Perception.attend due).held = none :=
  have h := probes_resolved alone due.stores {} [groq]
    { fileHash := "f", sizeBytes := 9, grade := fun _ => .medium } [{ gemini with }]
  ⟨h.1 _ _ _ (Prog.play_runs _ _ _) (attend_accepts oblige due _) (by decide),
    h.2.1 _ _ _ (Prog.play_runs _ _ _) (attend_accepts oblige due _) (by decide),
    h.2.2 _ _ _ (Prog.play_runs _ _ _) (accepts_play Perception.attend_world due _)
      (by decide)⟩

/-- Quota has nothing left. -/
def dry : (q : Router.Ask) → Router.Ans q
  | .reserve _ _ _ _ _ => .ok { allowed := false, blockedWindow := some .rpm }
  | q => oblige q

/-- The candidate skipped for quota is left half-open, and held. -/
example : (((route {} [groq]).finish (attend dry) due).stores groq.key).hash.readState = .halfOpen ∧
    (((route {} [groq]).finish (attend dry) due).stores groq.key).hash.probeHolder = some "request" := by
  decide

/-- **A probe can be leaked.** A candidate that is skipped for quota after its
breaker has handed out the probe is left with it. -/
theorem not_probes_resolved :
    ¬ ∀ (S : Setting) (stores : String × String → Store) (cfg : Router.Config)
      (chain : List ModelSpec) tr r s, (route cfg chain).Runs tr r →
      (S.world Router.deed).Accepts { stores } tr s → s.left = [] ∧ s.held = none := by
  intro h
  have hclear := h alone due.stores {} [groq] _ _ _ (Prog.play_runs _ _ _)
    (attend_accepts dry due _)
  exact absurd hclear (by decide)

end Breaker

end LlmGateway
