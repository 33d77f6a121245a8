import LlmGateway.Routing.Laws
import LlmGateway.Routing.Script
import LlmGateway.Streaming.Feed

/-!
# The ending in band

Behind the first byte there is no status line left: a stream is to end with a
`done`, and its turn to be handed over. Here the events are any sequence at all.
-/

namespace LlmGateway

namespace Streaming

open Effects Chat

/-! ## Endings -/

/-- No `done` among the frames. -/
def Unended (frames : List Frame) : Prop := ∀ e, Frame.done e ∉ frames

/-- One, and it is the last. -/
def Ended (frames : List Frame) : Prop :=
  ∃ init e, frames = init ++ [Frame.done e] ∧ Unended init

/-- **The ending in band**: one `done`, at the end; the turn handed over, once;
no exception. -/
structure InBand (f : Feed) (r : Except Fault Unit) : Prop where
  ended : Ended f.sent
  handed : f.handed.length = 1
  returned : r = .ok ()

/-- The router tells how the turn came out: it completes an attempt, or it raises
`RoutingFailed`. -/
def Told (events : List RouteStreamEvent) (ending : Ending) : Prop :=
  (∃ c, RouteStreamEvent.completed c ∈ events) ∨ ∃ failure, ending = .failed failure

theorem unended_append {frames frames' : List Frame} (h : Unended frames)
    (h' : Unended frames') : Unended (frames ++ frames') := by
  intro e he
  rcases List.mem_append.mp he with hmem | hmem
  · exact h e hmem
  · exact h' e hmem

theorem unended_replicate (k : Nat) : Unended (List.replicate k .heartbeat) := by
  intro e he
  cases List.eq_of_mem_replicate he

theorem not_ended_of_unended {frames : List Frame} (h : Unended frames) : ¬ Ended frames := by
  rintro ⟨init, e, rfl, -⟩
  exact h e (by simp)

/-! ## One event -/

/-- The turn is running: the first byte is out just when something was sent, and
then there is a candidate to name. -/
structure Running (s : Turn) (f : Feed) : Prop where
  running : s.done = false
  spoken : s.committed = true → f.spoken = true
  silent : s.committed = false → f.sent = []
  serving : s.committed = true → s.spec.isSome
  unended : Unended f.sent
  handed : f.handed = []

/-- What any event but the last comes to. -/
structure Goes (ev : RouteStreamEvent) (s s' : Turn) (frames : List Frame) : Prop where
  running : s'.done = false
  late : s'.committed = true → s.committed = true ∨ speaks (.event ev) = true
  silent : s'.committed = false → s.committed = false ∧ frames = []
  serving : s'.committed = true → s'.spec.isSome
  unended : Unended frames

/-- What goes out before a delta. -/
theorem announce_cases {s : Turn} (hs : s.committed = true → s.spec.isSome) :
    (∃ e, s.announce = .error e ∧ s.committed = false) ∨
      ∃ s' frames, s.announce = .ok (s', frames) ∧ s'.committed = true ∧ s'.done = s.done ∧
        s'.spec.isSome ∧ Unended frames := by
  rw [Turn.announce]
  by_cases hc : s.committed = false
  · rw [if_pos hc, Turn.metaEvent, Turn.served]
    cases hspec : s.spec with
    | none => exact .inl ⟨_, rfl, hc⟩
    | some spec =>
      refine .inr ⟨_, _, rfl, rfl, rfl, rfl, ?_⟩
      intro e he
      cases List.mem_singleton.mp he
  · have hcommitted : s.committed = true := by
      simpa using hc
    rw [if_neg hc]
    split
    next hp =>
      obtain ⟨⟨failed, reason, discarded⟩, hpending⟩ := Option.isSome_iff_exists.mp hp
      obtain ⟨spec, hserved⟩ := Turn.served_of_isSome (hs hcommitted)
      rw [Turn.restartEvent, hpending, hserved]
      refine .inr ⟨_, _, rfl, hcommitted, rfl, hs hcommitted, ?_⟩
      intro e he
      cases List.mem_singleton.mp he
    next => exact .inr ⟨s, [], rfl, hcommitted, rfl, hs hcommitted, fun _ => List.not_mem_nil⟩

/-- Any event: the assertion fails before the first byte, or the turn goes on, or
it is done and says so. -/
theorem apply_cases {s : Turn} (hd : s.done = false) (hs : s.committed = true → s.spec.isSome)
    (ev : RouteStreamEvent) :
    (∃ e, s.apply ev = .error e ∧ s.committed = false ∧ ∀ c, ev ≠ .completed c) ∨
      (∃ s' frames, s.apply ev = .ok (s', frames) ∧ Goes ev s s' frames ∧
        ∀ c, ev ≠ .completed c) ∨
      ∃ c s' e, ev = .completed c ∧ s.apply ev = .ok (s', [.done e]) ∧ s'.done = true := by
  have hnil : Unended [] := fun _ => List.not_mem_nil
  cases ev with
  | started attempt spec =>
    exact .inr (.inl ⟨s.begin attempt spec, [], rfl,
      ⟨hd, fun hc => .inl hc, fun hc => ⟨hc, rfl⟩, fun _ => rfl, hnil⟩, fun _ he => (nomatch he)⟩)
  | aborted attempt spec error discardedChars wasted =>
    exact .inr (.inl ⟨s.abort spec error discardedChars, [], rfl,
      ⟨hd, fun hc => .inl hc, fun hc => ⟨hc, rfl⟩, hs, hnil⟩, fun _ he => (nomatch he)⟩)
  | completed c =>
    refine .inr (.inr ⟨c, s.complete c, ?_⟩)
    obtain ⟨spec, hserved⟩ := Turn.served_of_isSome (s := s.complete c) rfl
    rw [Turn.apply, Turn.doneEvent, hserved]
    exact ⟨_, rfl, rfl, rfl⟩
  | delta text =>
    have hne : ∀ c, RouteStreamEvent.delta text ≠ .completed c := fun _ he => nomatch he
    rcases announce_cases hs with ⟨e, he, hc⟩ | ⟨s', frames, he, hc, hdone, hspec, hun⟩
    · refine .inl ⟨e, ?_, hc, hne⟩
      rw [Turn.apply, he]
      rfl
    · have happly : s.apply (.delta text) =
          .ok ({ s' with buffer := s'.buffer ++ [text] }, frames ++ [.delta text]) := by
        rw [Turn.apply, he]
        rfl
      have hdelta : Unended [.delta text] := by
        intro e he
        cases List.mem_singleton.mp he
      have hgoes : Goes (.delta text) s { s' with buffer := s'.buffer ++ [text] }
          (frames ++ [.delta text]) := by
        constructor
        case running => exact hdone.trans hd
        case late => exact fun _ => .inr rfl
        case silent =>
          intro hc'
          rw [hc] at hc'
          cases hc'
        case serving => exact fun _ => hspec
        case unended => exact unended_append hun hdelta
      exact .inr (.inl ⟨_, _, happly, hgoes, hne⟩)

/-- A wait changes nothing. -/
theorem Running.wait {s : Turn} {f f' : Feed} {b : Bool} (h : Running s f)
    (hb : Beaten s { f with spoken := f.spoken || b } f') : Running s f' := by
  obtain ⟨k, hsent, hk⟩ := hb.sent
  refine ⟨h.running, ?_, ?_, h.serving, ?_, hb.handed.trans h.handed⟩
  · intro hc
    rw [hb.spoken]
    simp [h.spoken hc]
  · intro hc
    rw [hsent, hk hc]
    exact (List.append_nil _).trans (h.silent hc)
  · rw [hsent]
    exact unended_append h.unended (unended_replicate k)

/-- The frames of an event go out. -/
theorem Running.uttered {ev : RouteStreamEvent} {s s' : Turn} {f f' : Feed} {frames : List Frame}
    {u : Unit} (h : Running s f) (hgoes : Goes ev s s' frames)
    (hspeaks : speaks (.event ev) = true → f.spoken = true) (hu : Uttered frames (.ok u) f f') :
    Running s' f' := by
  obtain ⟨hsent, -, -⟩ := hu.through u rfl
  refine ⟨hgoes.running, ?_, ?_, hgoes.serving, ?_, hu.handed.trans h.handed⟩
  · intro hc
    rw [hu.spoken]
    exact (hgoes.late hc).elim h.spoken hspeaks
  · intro hc
    obtain ⟨hc', rfl⟩ := hgoes.silent hc
    rw [hsent, h.silent hc']
    rfl
  · rw [hsent]
    exact unended_append h.unended hgoes.unended

/-- What says nothing changes nothing. -/
theorem Running.kept {s : Turn} {f f' : Feed} {r : Except Fault Unit} (h : Running s f)
    (hk : Kept r f f') (hhanded : f'.handed = f.handed) : Running s f' := by
  refine ⟨h.running, ?_, ?_, h.serving, ?_, hhanded.trans h.handed⟩
  · rw [hk.spoken]
    exact h.spoken
  · rw [hk.sent]
    exact h.silent
  · rw [hk.sent]
    exact h.unended

/-! ## The run -/

/-- How the loop is left while the client stays. -/
def DrivenInBand (events : List RouteStreamEvent) (ending : Ending) (r : Except Fault Driven)
    (f : Feed) : Prop :=
  f.left = true ∨ match r with
    | .ok .gone => False
    | .ok (.stopped s) => f.handed = [] ∧
        (s.done = true ∧ Ended f.sent ∧ Told events ending ∨
          s.done = false ∧ Unended f.sent ∧ ¬ Told events ending)
    | .ok (.failed s _) => f.handed = [] ∧
        (s.committed = false ∧ f.sent = [] ∨
          s.committed = true ∧ s.spec.isSome ∧ Unended f.sent ∧ Told events ending)
    | .error _ => f.sent = [] ∨ Unended f.sent ∧ ¬ Told events ending

/-- An event that completes nothing tells nothing. -/
theorem told_cons {ev : RouteStreamEvent} {events : List RouteStreamEvent} {ending : Ending}
    (hev : ∀ c, ev ≠ .completed c) : Told (ev :: events) ending ↔ Told events ending := by
  have hmem : (∃ c, RouteStreamEvent.completed c ∈ ev :: events) ↔
      ∃ c, RouteStreamEvent.completed c ∈ events := by
    refine exists_congr fun c => ?_
    rw [List.mem_cons]
    exact or_iff_right fun he => hev c he.symm
  exact or_congr_left hmem

theorem DrivenInBand.cons {ev : RouteStreamEvent} {events : List RouteStreamEvent}
    {ending : Ending} (hev : ∀ c, ev ≠ .completed c) {r : Except Fault Driven} {f : Feed}
    (h : DrivenInBand events ending r f) : DrivenInBand (ev :: events) ending r f := by
  have htold : Told (ev :: events) ending ↔ Told events ending := told_cons hev
  rcases h with hleft | hpost
  · exact .inl hleft
  · refine .inr ?_
    rcases r with e | driven
    · exact hpost.imp_right fun hp => ⟨hp.1, fun ht => hp.2 (htold.mp ht)⟩
    · cases driven with
      | gone => exact hpost
      | stopped s =>
        exact hpost.imp_right fun hp => hp.imp
          (fun hx => ⟨hx.1, hx.2.1, htold.mpr hx.2.2⟩)
          (fun hx => ⟨hx.1, hx.2.1, fun ht => hx.2.2 (htold.mp ht)⟩)
      | failed s failure =>
        exact hpost.imp_right fun hp => hp.imp_right
          fun hx => ⟨hx.1, hx.2.1, hx.2.2.1, htold.mpr hx.2.2.2⟩

theorem drive_inBand (events : List RouteStreamEvent) (ending : Ending) {s : Turn} {f : Feed}
    (h : Running s f) :
    wp (watch Feed.note) (drive s events ending) (DrivenInBand events ending) f := by
  induction events generalizing s f with
  | nil =>
    rw [drive, wp_bind]
    refine wp_mono _ (wp_awaitNext s _ f h.spoken) ?_
    rintro (e | gone) f' ⟨hb, hs⟩
    · exact .inl hs
    cases gone with
    | true => exact .inl hs
    | false =>
      have hrun := h.wait hb
      dsimp only
      rw [if_neg (by decide)]
      cases ending with
      | stopped =>
        refine .inr ⟨hrun.handed, .inr ⟨hrun.running, hrun.unended, ?_⟩⟩
        rintro (⟨c, hc⟩ | ⟨failure, hf⟩)
        · cases hc
        · cases hf
      | failed failure =>
        refine .inr ⟨hrun.handed, ?_⟩
        by_cases hc : s.committed = false
        · exact .inl ⟨hc, hrun.silent hc⟩
        · have hcommitted : s.committed = true := by
            simpa using hc
          exact .inr ⟨hcommitted, hrun.serving hcommitted, hrun.unended, .inr ⟨failure, rfl⟩⟩
      | raised e =>
        refine .inr (.inr ⟨hrun.unended, ?_⟩)
        rintro (⟨c, hc⟩ | ⟨failure, hf⟩)
        · cases hc
        · cases hf
  | cons ev events ih =>
    rw [drive, wp_bind]
    refine wp_mono _ (wp_awaitNext s _ f h.spoken) ?_
    rintro (e | gone) f₁ ⟨hb, hs⟩
    · exact .inl hs
    cases gone with
    | true => exact .inl hs
    | false =>
      have hrun := h.wait hb
      dsimp only
      rw [if_neg (by decide)]
      rcases apply_cases hrun.running hrun.serving ev with
        ⟨e, he, hc, -⟩ | ⟨s', frames, he, hgoes, hev⟩ | ⟨c, s', e, rfl, he, hdone⟩
      · -- The assertion fails, with nothing sent.
        rw [he]
        exact .inr (.inl (hrun.silent hc))
      · rw [he, wp_bind, wp_ofExcept]
        change wp _ (yieldAll frames >>= fun _ => _) _ _
        rw [wp_bind]
        refine wp_mono _ (wp_yieldAll frames f₁) ?_
        rintro (e | u) f₂ hu
        · exact .inl (hu.cut e rfl).2
        have hrun₂ : Running s' f₂ := hrun.uttered hgoes (fun hspeak => by
          rw [hb.spoken]
          simp [hspeak]) hu
        dsimp only
        rw [wp_bind]
        refine wp_mono _ (wp_countAttempt ev f₂) ?_
        rintro (e | u) f₃ ⟨hk, hhanded⟩
        · exact .inl (hk.cut e rfl)
        dsimp only
        rw [if_neg (Bool.eq_false_iff.mp hgoes.running)]
        exact wp_mono _ (ih (hrun₂.kept hk hhanded)) fun r f₄ hpost => hpost.cons hev
      · rw [he, wp_bind, wp_ofExcept]
        change wp _ (yieldAll [Frame.done e] >>= fun _ => _) _ _
        rw [wp_bind]
        refine wp_mono _ (wp_yieldAll _ f₁) ?_
        rintro (e' | u) f₂ hu
        · exact .inl (hu.cut e' rfl).2
        obtain ⟨hsent, -, -⟩ := hu.through u rfl
        have hended : Ended f₂.sent := ⟨f₁.sent, e, hsent, hrun.unended⟩
        change wp _ (if s'.done = true then (.ret (.stopped s') : Eff Driven)
          else drive s' events ending) _ _
        rw [if_pos hdone]
        exact .inr ⟨hu.handed.trans hrun.handed,
          .inl ⟨hdone, hended, .inl ⟨c, List.mem_cons_self⟩⟩⟩

/-- What a run comes to while the client stays. -/
def RunInBand (events : List RouteStreamEvent) (ending : Ending) (r : Except Fault Unit)
    (f : Feed) : Prop :=
  f.left = true ∨ f.sent = [] ∨
    InBand f r ∧ Told events ending ∨ Unended f.sent ∧ ¬ Told events ending

/-- A turn that is done is handed over, once. -/
theorem handOver_inBand {events : List RouteStreamEvent} {ending : Ending} {s : Turn} {f : Feed}
    (hd : s.done = true) (hn : f.handed = []) (he : Ended f.sent) (ht : Told events ending) :
    wp (watch Feed.note) (handOver persist s) (RunInBand events ending) f := by
  refine wp_mono _ (wp_handOver s f) ?_
  rintro (e | u) f' ⟨hk, hhanded⟩
  · exact .inl (hk.cut e rfl)
  · refine .inr (.inr (.inl ⟨⟨?_, ?_, rfl⟩, ht⟩))
    · rw [hk.sent]
      exact he
    · rw [hhanded, if_pos hd, hn]
      rfl

theorem streamCompletion_inBand (conversationId messageId requested : String)
    (pinned : Option String) (events : List RouteStreamEvent) (ending : Ending) :
    wp (watch Feed.note)
      (streamCompletion persist conversationId messageId requested pinned events ending)
      (RunInBand events ending) {} := by
  have hstart : Running { conversationId, messageId, requested, pinned } {} :=
    ⟨rfl, fun hc => (nomatch hc), fun _ => rfl, fun hc => (nomatch hc), fun _ => List.not_mem_nil, rfl⟩
  rw [streamCompletion, wp_bind, wp_attempt]
  refine wp_mono _ (drive_inBand events ending hstart) ?_
  intro r f hdriven
  rcases hdriven with hl | hdriven
  · exact wp_mono _ (wp_left _ hl) fun _ _ hleft => .inl hleft
  rcases r with e | driven
  · rintro _ _ rfl
    exact .inr (hdriven.imp_right fun hun => .inr hun)
  cases driven with
  | gone => exact hdriven.elim
  | stopped s =>
    rintro _ _ rfl
    obtain ⟨hn, ⟨hd, he, ht⟩ | ⟨hd, hun, ht⟩⟩ := hdriven
    · exact handOver_inBand hd hn he ht
    · refine wp_mono _ (wp_handOver s _) ?_
      rintro r f' ⟨hk, -⟩
      refine .inr (.inr (.inr ⟨?_, ht⟩))
      rw [hk.sent]
      exact hun
  | failed s failure =>
    obtain ⟨hn, hcase⟩ := hdriven
    dsimp only
    split
    next hc =>
      rintro _ _ rfl
      rcases hcase with ⟨-, hsent⟩ | ⟨hc', -⟩
      · exact .inr (.inl hsent)
      · rw [hc] at hc'
        cases hc'
    next hc =>
      obtain ⟨hc', hspec, hun, ht⟩ := hcase.resolve_left fun hcase => hc hcase.1
      obtain ⟨e, he, -⟩ := Turn.doneEvent_of_isSome (Turn.spec_recordFailure hspec failure)
      rw [wp_bind, wp_attempt, failInBand, he, wp_bind, wp_ofExcept]
      change wp _ (yieldFrame (.done e)) _ _
      rw [wp_yieldFrame]
      constructor
      · rintro _ _ rfl
        have hended : Ended (f.note ⟨.yield (Frame.done e), Consumer.next⟩).sent :=
          ⟨f.sent, e, rfl, hun⟩
        exact handOver_inBand rfl hn hended ht
      · rintro _ _ rfl
        exact .inl (by simp [Feed.note])

/-- **The ending in band.** Of the streams that sent something, to a client that
stayed, those end in band whose router tells how the turn came out, and no
others. -/
theorem inBand_iff_told (conversationId messageId requested : String) (pinned : Option String)
    (events : List RouteStreamEvent) (ending : Ending) {tr : List (Event iface)}
    {r : Except Fault Unit}
    (h : (streamCompletion persist conversationId messageId requested pinned events ending).Runs
      tr r)
    (hsent : (Feed.of tr).sent ≠ []) (hstays : (Feed.of tr).left = false) :
    InBand (Feed.of tr) r ↔ Told events ending := by
  have hrun := wp_watch_sound
    (streamCompletion_inBand conversationId messageId requested pinned events ending) h
  rcases hrun with hleft | hnone | ⟨hin, ht⟩ | ⟨hun, ht⟩
  · exact absurd hleft (Bool.eq_false_iff.mp hstays)
  · exact absurd hnone hsent
  · exact iff_of_true hin ht
  · exact iff_of_false (fun hin => not_ended_of_unended hun hin.ended) ht

/-- A file the second candidate cannot be given: the first breaks off behind its
first words. -/
def unreadable : (q : Router.Ask) → Router.Ans q
  | .render spec =>
    if spec = Router.groq then Router.oblige (.render spec) else .error (.other "FileUnreadable")
  | .stream spec _ _ =>
    .ok ([{ delta := "It was " }], .raised (.provider (Router.failure .unavailable spec)))
  | q => Router.oblige q

/-- The whole chain is down. -/
def allDown : (q : Router.Ask) → Router.Ans q
  | .render spec => Router.oblige (.render spec)
  | q => unreadable q

/-- The turn over what the router does in such a place. -/
def turnOver (E : (q : Router.Ask) → Router.Ans q) : Eff Unit :=
  let run := Router.against E (Router.routeStream {} [Router.groq, Router.gemini])
  streamCompletion persist "c" "m" auto none (Router.yielded run.1) (.of run.2)

/-- A failure of the whole chain is told in band. -/
theorem inBand_iff_told_allDown :
    InBand (Feed.of (against oblige (turnOver allDown)).1)
      (against oblige (turnOver allDown)).2 :=
  (inBand_iff_told "c" "m" auto none _ _ (against_runs oblige (turnOver allDown))
    (by decide) (by decide)).mpr (.inr ⟨_, rfl⟩)

/-- **Not every stream ends in band.** An exception that is no provider's leaves
the generator behind the first byte, with no `done` sent and nothing persisted. -/
theorem not_inBand :
    ¬ ∀ (cfg : Router.Config) (chain : List ModelSpec) (conversationId messageId requested : String)
      (pinned : Option String) rtr rr tr r, (Router.routeStream cfg chain).Runs rtr rr →
      (streamCompletion persist conversationId messageId requested pinned (Router.yielded rtr)
        (.of rr)).Runs tr r →
      (Feed.of tr).sent ≠ [] → (Feed.of tr).left = false → InBand (Feed.of tr) r := by
  intro h
  have hin := h {} [Router.groq, Router.gemini] "c" "m" auto none _ _ _ _
    (Router.against_runs unreadable _) (against_runs oblige _) (by decide)
    (by decide)
  exact absurd hin.returned (by decide)

end Streaming

end LlmGateway
