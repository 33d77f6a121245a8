import LlmGateway.Routing.Laws
import LlmGateway.Routing.Script
import LlmGateway.Streaming.Feed
import LlmGateway.Streaming.Wire

/-!
# Delivery

What the router's events come to on the wire. The client's reading and the turn
of the orchestrator are kept in step, event by event, and the two agree on the
text that is left when the stream ends.
-/

namespace LlmGateway

namespace Streaming

open Effects Chat

/-! ## In step -/

/-- Nothing has been said, and nothing sent. -/
structure Unheard (s : Turn) (c : Client) : Prop where
  committed : s.committed = false
  pending : s.pendingRestart = none
  buffer : s.buffer = []
  furthest : s.longestPartial = ""
  client : c = {}

/-- The attempt that spoke was aborted, and its text is to be withdrawn. -/
structure Withdrawn (s : Turn) (c : Client) : Prop where
  committed : s.committed = true
  pending : ∃ failed reason, s.pendingRestart = some (failed, reason, c.text.length) ∧
    c.speaker = some (failed.provider, failed.model)
  buffer : s.buffer = []
  furthest : s.longestPartial = longest c.delivered
  spec : s.spec.isSome
  said : c.said ≠ []
  ended : c.ended = none

/-- An attempt is speaking. -/
structure Talking (spec : ModelSpec) (texts : List String) (s : Turn) (c : Client) : Prop where
  committed : s.committed = true
  pending : s.pendingRestart = none
  buffer : s.buffer = texts
  furthest : s.longestPartial = longest c.forgotten
  serving : s.spec = some spec
  heard : c.said = texts
  text : c.text ≠ ""
  speaker : c.speaker = some (spec.provider, spec.model)
  ended : c.ended = none

/-- Between two attempts that speak. -/
def Between (s : Turn) (c : Client) : Prop := Unheard s c ∨ Withdrawn s c

/-- **In step**: where the router has got to, what the turn holds and what the
client has read. -/
def Follows : Router.Scene → Turn → Client → Prop
  | .quiet, s, c => Between s c
  | .speaking spec texts, s, c => match texts with
    | [] => Between s c ∧ s.spec = some spec
    | _ :: _ => Talking spec texts s c
  | .over, _, _ => False

/-- A finished turn and the client agree on the text. -/
structure Settles (s : Turn) (c : Client) : Prop where
  said : c.said ≠ []
  text : s.status = .ok → s.text = c.text
  completed : ∃ t done, s = Turn.complete t done
  ended : ∃ e, s.doneEvent = .ok e ∧ c.ended = some e

section

variable {s : Turn} {c : Client} {spec : ModelSpec} {texts : List String}

theorem Talking.said (h : Talking spec texts s c) : c.said ≠ [] := by
  intro hnil
  exact h.text (by rw [Client.text, hnil]; rfl)

theorem Talking.listening (h : Talking spec texts s c) : c.Listening :=
  ⟨by rw [h.speaker]; rfl, h.ended⟩

theorem Withdrawn.listening (h : Withdrawn s c) : c.Listening := by
  obtain ⟨failed, reason, -, hspeaker⟩ := h.pending
  exact ⟨by rw [hspeaker]; rfl, h.ended⟩

theorem Talking.turnText (h : Talking spec texts s c) : s.text = c.text := by
  rw [Turn.text, h.buffer, ← h.heard]
  rfl

/-- The aborted attempt counts among the deliveries. -/
theorem Talking.delivered (h : Talking spec texts s c) : s.furthest = longest c.delivered := by
  rw [Client.delivered, longest_append, Turn.furthest, h.turnText, h.furthest]

/-- An empty buffer is never the longest. -/
theorem furthest_of_buffer (h : s.buffer = []) : s.furthest = s.longestPartial := by
  rw [Turn.furthest, Turn.text, h]
  exact if_neg (Nat.not_lt_zero _)

theorem Between.whole (h : Between s c) : c.Whole := by
  rcases h with h | h
  · exact .inl h.client
  · exact .inr h.said

theorem Follows.whole {scene : Router.Scene} (h : Follows scene s c) : c.Whole := by
  match scene with
  | .quiet => exact Between.whole h
  | .speaking _ [] => exact h.1.whole
  | .speaking _ (_ :: _) => exact .inr (Talking.said h)

/-- Whether the first byte is out. -/
theorem Between.committed (h : Between s c) :
    s.committed = false ∧ c = {} ∨ s.committed = true ∧ c.Listening := by
  rcases h with h | h
  · exact .inl ⟨h.committed, h.client⟩
  · exact .inr ⟨h.committed, h.listening⟩

theorem Follows.committed {scene : Router.Scene} (h : Follows scene s c) :
    s.committed = false ∧ c = {} ∨ s.committed = true ∧ c.Listening := by
  match scene with
  | .quiet => exact Between.committed h
  | .speaking _ [] => exact h.1.committed
  | .speaking _ (_ :: _) => exact .inr ⟨Talking.committed h, Talking.listening h⟩

/-! ## One event -/

/-- Starting an attempt changes nothing that was said. -/
theorem Between.begin (h : Between s c) (attempt : Nat) (spec : ModelSpec) :
    Between (s.begin attempt spec) c := by
  rcases h with h | h
  · exact .inl ⟨h.committed, h.pending, h.buffer, h.furthest, h.client⟩
  · exact .inr ⟨h.committed, h.pending, h.buffer, h.furthest, rfl, h.said, h.ended⟩

/-- A silent attempt leaves nothing to withdraw. -/
theorem Between.abort (h : Between s c) (spec : ModelSpec) (error : ProviderError)
    (discardedChars : Nat) : Between (s.abort spec error discardedChars) c := by
  have hquiet : ∀ hb : s.buffer = [], s.abort spec error discardedChars = s := by
    intro hb
    have htext : s.text = "" := by
      rw [Turn.text, hb]
      rfl
    rw [Turn.abort, furthest_of_buffer hb, if_pos htext, ← hb]
  rcases h with h | h
  · rw [hquiet h.buffer]
    exact .inl h
  · rw [hquiet h.buffer]
    exact .inr h

/-- What an attempt has said is withdrawn when it is aborted. -/
theorem Talking.abort (h : Talking spec texts s c) (error : ProviderError) {discardedChars : Nat}
    (hd : discardedChars = (String.join texts).length) :
    Withdrawn (s.abort spec error discardedChars) c := by
  have hlen : discardedChars = c.text.length := by
    rw [hd, ← h.heard]
    rfl
  have htext : s.text ≠ "" := by
    rw [h.turnText]
    exact h.text
  refine ⟨h.committed, ⟨spec, error.code, ?_, h.speaker⟩, rfl, h.delivered, ?_, h.said, h.ended⟩
  · rw [Turn.abort, if_neg htext, hlen]
  · change s.spec.isSome
    rw [h.serving]
    rfl

theorem text_append (c : Client) (text : String) :
    Client.text { c with said := c.said ++ [text] } = c.text ++ text := by
  rw [Client.text, Client.text, String.join_append]
  simp

/-- The attempt goes on. -/
theorem Talking.say (h : Talking spec texts s c) (text : String) :
    c.hear (.delta text) = some { c with said := c.said ++ [text] } ∧
      Talking spec (texts ++ [text]) { s with buffer := s.buffer ++ [text] }
        { c with said := c.said ++ [text] } := by
  refine ⟨if_pos h.listening, h.committed, h.pending, ?_, h.furthest, h.serving, ?_, ?_,
    h.speaker, h.ended⟩
  · rw [h.buffer]
  · rw [h.heard]
  · rw [text_append]
    intro hnil
    exact h.text (String.append_eq_empty_iff.mp hnil).1

theorem hear_two {c c' c'' : Client} {frame frame' : Frame} (h : c.hear frame = some c')
    (h' : c'.hear frame' = some c'') : [frame, frame'].foldlM Client.hear c = some c'' := by
  rw [List.foldlM_cons]
  refine Option.bind_eq_some_iff.mpr ⟨c', h, ?_⟩
  rw [List.foldlM_cons]
  exact Option.bind_eq_some_iff.mpr ⟨c'', h', rfl⟩

/-- The first delta of an attempt, behind the frame that announces it. -/
theorem Between.speak (h : Between s c) (hspec : s.spec = some spec) {text : String}
    (htext : text ≠ "") :
    ∃ s' frames c', s.apply (.delta text) = .ok (s', frames) ∧ s'.done = s.done ∧
      frames.foldlM Client.hear c = some c' ∧ Talking spec [text] s' c' := by
  have hserved : s.served = .ok spec := by
    rw [Turn.served, hspec]
  have hfirst : ∀ c₀ : Client, c₀.said = [] → c₀.Listening →
      c₀.hear (.delta text) = some { c₀ with said := [text] } := by
    intro c₀ hs hl
    rw [Client.hear, if_pos hl, hs]
    rfl
  have hjoin : ∀ c₀ : Client, c₀.said = [text] → c₀.text ≠ "" := by
    intro c₀ hs
    rw [Client.text, hs]
    simpa using htext
  rcases h with h | h
  · -- Nothing has gone out: the response opens.
    obtain ⟨e, he⟩ : ∃ e, s.metaEvent = .ok e ∧ e.provider = spec.provider ∧
        e.model = spec.model := by
      rw [Turn.metaEvent, hserved]
      exact ⟨_, rfl, rfl, rfl⟩
    obtain ⟨he, hprovider, hmodel⟩ := he
    refine ⟨{ s with committed := true, pendingRestart := none, buffer := s.buffer ++ [text] },
      [.meta e, .delta text], { speaker := some (spec.provider, spec.model), said := [text] },
      ?_, rfl, ?_, ?_⟩
    · rw [Turn.apply, Turn.announce, if_pos h.committed, he]
      rfl
    · have hmeta : ({} : Client).hear (.meta e) =
          some { speaker := some (spec.provider, spec.model) } := by
        rw [Client.hear, if_pos rfl, hprovider, hmodel]
      rw [h.client]
      exact hear_two hmeta (hfirst _ rfl ⟨rfl, rfl⟩)
    · refine ⟨rfl, rfl, ?_, h.furthest, hspec, rfl, hjoin _ rfl, rfl, rfl⟩
      rw [h.buffer]
      rfl
  · -- The text that was withdrawn is forgotten first.
    obtain ⟨failed, reason, hpending, hspeaker⟩ := h.pending
    obtain ⟨e, he⟩ : ∃ e, s.restartEvent = .ok e ∧ e.failedProvider = failed.provider ∧
        e.failedModel = failed.model ∧ e.nextProvider = spec.provider ∧
        e.nextModel = spec.model ∧ e.discardedChars = c.text.length := by
      rw [Turn.restartEvent, hpending, hserved]
      exact ⟨_, rfl, rfl, rfl, rfl, rfl, rfl⟩
    obtain ⟨he, hfp, hfm, hnp, hnm, hchars⟩ := he
    refine ⟨{ s with pendingRestart := none, buffer := s.buffer ++ [text] },
      [.restart e, .delta text],
      { speaker := some (spec.provider, spec.model), forgotten := c.forgotten ++ [c.text],
        said := [text] }, ?_, rfl, ?_, ?_⟩
    · have hcommitted : ¬ s.committed = false := by
        rw [h.committed]
        decide
      rw [Turn.apply, Turn.announce, if_neg hcommitted, if_pos (by rw [hpending]; rfl), he]
      rfl
    · have hrestart : c.hear (.restart e) = some
          { speaker := some (spec.provider, spec.model), forgotten := c.forgotten ++ [c.text],
            said := [], ended := none } := by
        have hspoke : c.speaker = some (e.failedProvider, e.failedModel) := by
          rw [hspeaker, hfp, hfm]
        rw [Client.hear, if_pos ⟨h.listening, h.said, hspoke, hchars⟩, hnp, hnm]
      exact hear_two hrestart (hfirst _ rfl ⟨rfl, rfl⟩)
    · refine ⟨h.committed, rfl, ?_, h.furthest, hspec, rfl, hjoin _ rfl, rfl, rfl⟩
      rw [h.buffer]
      rfl

/-- A later delta goes out by itself. -/
theorem Talking.apply_delta (h : Talking spec texts s c) (text : String) :
    s.apply (.delta text) = .ok ({ s with buffer := s.buffer ++ [text] }, [.delta text]) := by
  have hcommitted : ¬ s.committed = false := by
    rw [h.committed]
    decide
  have hpending : ¬ s.pendingRestart.isSome = true := by
    rw [h.pending]
    decide
  rw [Turn.apply, Turn.announce, if_neg hcommitted, if_neg hpending]
  rfl

/-- The stream ends with the attempt that spoke. -/
theorem Talking.complete (h : Talking spec texts s c) (done : StreamCompleted) :
    ∃ e, s.apply (.completed done) = .ok (s.complete done, [.done e]) ∧
      c.hear (.done e) = some { c with ended := some e } ∧
        Settles (s.complete done) { c with ended := some e } := by
  obtain ⟨e, he, hsalvage⟩ : ∃ e, (s.complete done).doneEvent = .ok e ∧
      e.partialContent = c.salvage e.status := ⟨_, rfl, rfl⟩
  refine ⟨e, ?_, if_pos ⟨h.listening, h.said, hsalvage⟩, h.said, fun _ => h.turnText,
    ⟨s, done, rfl⟩, ⟨e, he, rfl⟩⟩
  rw [Turn.apply, he]
  rfl

/-- What one event comes to: the turn, its frames and the client's reading. -/
structure Folded (scene : Router.Scene) (ev : RouteStreamEvent) (s : Turn) (c : Client)
    (s' : Turn) (frames : List Frame) (c' : Client) : Prop where
  apply : s.apply ev = .ok (s', frames)
  heard : frames.foldlM Client.hear c = some c'
  /-- Nothing goes out before a delta has come in. -/
  late : frames ≠ [] ∨ s'.committed = true → s.committed = true ∨ speaks (.event ev) = true
  settles : s'.done = true → Settles s' c'
  follows : s'.done = false → Follows scene s' c'

/-- **One event.** The three stay in step. -/
theorem Follows.step {scene scene' : Router.Scene} {ev : RouteStreamEvent}
    (h : Follows scene s c) (hd : s.done = false) (hev : scene.hear ev = some scene') :
    ∃ s' frames c', Folded scene' ev s c s' frames c' := by
  have hsilent : ∀ s' : Turn, s'.committed = s.committed → s'.done = s.done →
      s.apply ev = .ok (s', []) → Follows scene' s' c → Folded scene' ev s c s' [] c := by
    intro s' hc hdone happly hf
    refine ⟨happly, rfl, fun hl => .inl ?_, ?_, fun _ => hf⟩
    · rw [← hc]
      exact hl.resolve_left (fun hne => hne rfl)
    · rw [hdone, hd]
      exact fun he => absurd he (by decide)
  cases scene with
  | «over» => exact h.elim
  | quiet =>
    cases ev with
    | started attempt spec =>
      cases hev
      exact ⟨_, [], c, hsilent (s.begin attempt spec) rfl rfl rfl
        ⟨Between.begin h attempt spec, rfl⟩⟩
    | aborted attempt spec error discardedChars wasted =>
      rw [Router.Scene.hear] at hev
      split at hev
      next =>
        cases hev
        exact ⟨_, [], c, hsilent (s.abort spec error discardedChars) rfl rfl rfl
          (Between.abort h spec error discardedChars)⟩
      next => cases hev
    | delta _ => cases hev
    | completed _ => cases hev
  | speaking spec texts =>
    cases ev with
    | started _ _ => cases hev
    | delta text =>
      rw [Router.Scene.hear] at hev
      split at hev
      next => cases hev
      next htext =>
        cases hev
        cases texts with
        | nil =>
          obtain ⟨hb, hspec⟩ := h
          obtain ⟨s', frames, c', happly, hdone, hheard, htalk⟩ := hb.speak hspec htext
          refine ⟨s', frames, c', happly, hheard, fun _ => .inr rfl, ?_, fun _ => htalk⟩
          rw [hdone, hd]
          exact fun he => absurd he (by decide)
        | cons first texts =>
          have ht : Talking spec (first :: texts) s c := h
          obtain ⟨hhear, htalk⟩ := ht.say text
          refine ⟨_, _, _, ht.apply_delta text, ?_, fun _ => .inr rfl, ?_, fun _ => htalk⟩
          · rw [List.foldlM_cons]
            exact Option.bind_eq_some_iff.mpr ⟨_, hhear, rfl⟩
          · change s.done = true → _
            rw [hd]
            exact fun he => absurd he (by decide)
    | aborted attempt spec' error discardedChars wasted =>
      rw [Router.Scene.hear] at hev
      split at hev
      next he =>
        cases hev
        obtain ⟨rfl, hchars⟩ := he
        refine ⟨_, [], c, hsilent (s.abort spec' error discardedChars) rfl rfl rfl ?_⟩
        cases texts with
        | nil => exact Between.abort h.1 spec' error discardedChars
        | cons first texts => exact .inr (Talking.abort h error hchars)
      next => cases hev
    | completed done =>
      rw [Router.Scene.hear] at hev
      split at hev
      next he =>
        cases hev
        obtain ⟨rfl, hne⟩ := he
        cases texts with
        | nil => exact absurd rfl hne
        | cons first texts =>
          have ht : Talking done.spec (first :: texts) s c := h
          obtain ⟨e, happly, hhear, hsettles⟩ := ht.complete done
          refine ⟨_, _, _, happly, ?_, fun _ => .inl ht.committed, fun _ => hsettles,
            fun hd' => (by cases hd')⟩
          rw [List.foldlM_cons]
          exact Option.bind_eq_some_iff.mpr ⟨_, hhear, rfl⟩
      next => cases hev

/-- Heartbeats are read over. -/
theorem hear_heartbeats (h : s.committed = false ∧ c = {} ∨ s.committed = true ∧ c.Listening)
    {k : Nat} (hk : s.committed = false → k = 0) :
    (List.replicate k Frame.heartbeat).foldlM Client.hear c = some c := by
  rcases h with ⟨hc, -⟩ | ⟨-, hl⟩
  · rw [hk hc]
    rfl
  · clear hk
    induction k with
    | zero => rfl
    | succ k ih =>
      rw [List.replicate_succ, List.foldlM_cons]
      exact Option.bind_eq_some_iff.mpr ⟨c, if_pos hl, ih⟩

end

/-! ## The run -/

/-- What has been delivered up to some point of a run: the client has read it
through, and nothing was out of turn. -/
structure Delivered (f : Feed) (c : Client) : Prop where
  heard : f.sent.foldlM Client.hear {} = some c
  early : f.early = false
  whole : f.closed = false → c.Whole

/-- The loop's invariant. -/
structure AtLoop (scene : Router.Scene) (s : Turn) (c : Client) (f : Feed) : Prop where
  heard : f.sent.foldlM Client.hear {} = some c
  early : f.early = false
  handed : f.handed = []
  spoken : s.committed = true → f.spoken = true
  running : s.done = false
  follows : Follows scene s c

/-- How the loop is left. -/
def DrivePost (r : Except Fault Driven) (f : Feed) : Prop :=
  ∃ c, Delivered f c ∧ f.handed = [] ∧ match r with
    | .ok (.stopped s) => s.done = true ∧ Settles s c
    | .ok (.failed s _) => s.done = false ∧ Between s c ∧ (s.committed = true → f.spoken = true)
    | _ => True

theorem AtLoop.delivered {scene : Router.Scene} {s : Turn} {c : Client} {f : Feed}
    (h : AtLoop scene s c f) : Delivered f c :=
  ⟨h.heard, h.early, fun _ => h.follows.whole⟩

/-- A wait leaves the invariant as it is. -/
theorem AtLoop.wait {scene : Router.Scene} {s : Turn} {c : Client} {f f' : Feed} {b : Bool}
    (h : AtLoop scene s c f) (hb : Beaten s { f with spoken := f.spoken || b } f') :
    AtLoop scene s c f' := by
  obtain ⟨k, hsent, hk⟩ := hb.sent
  refine ⟨?_, hb.early.trans h.early, hb.handed.trans h.handed, ?_, h.running, h.follows⟩
  · rw [hsent, List.foldlM_append]
    exact Option.bind_eq_some_iff.mpr ⟨c, h.heard, hear_heartbeats h.follows.committed hk⟩
  · intro hc
    rw [hb.spoken]
    simp [h.spoken hc]

/-- What was cut off was read as far as it went. -/
theorem foldlM_prefix {α β : Type} {g : β → α → Option β} {xs ys : List α} {b b' : β}
    (h : ys.foldlM g b = some b') (hp : xs <+: ys) : ∃ b'', xs.foldlM g b = some b'' := by
  obtain ⟨zs, rfl⟩ := hp
  rw [List.foldlM_append] at h
  obtain ⟨b'', hb'', -⟩ := Option.bind_eq_some_iff.mp h
  exact ⟨b'', hb''⟩

section

variable {scene scene' : Router.Scene} {ev : RouteStreamEvent} {s s' : Turn} {c c' : Client}
  {f f' : Feed} {frames : List Frame} {r : Except Fault Unit}

/-- The frames of an event leave nothing out of turn. -/
theorem Folded.early (hfold : Folded scene' ev s c s' frames c') (h : AtLoop scene s c f)
    (hspeaks : speaks (.event ev) = true → f.spoken = true) (hu : Uttered frames r f f') :
    f'.early = false := by
  refine (hu.early ?_).trans h.early
  by_cases hnil : frames = []
  · exact .inl hnil
  · exact .inr ((hfold.late (.inl hnil)).elim h.spoken hspeaks)

/-- The consumer closes the response at one of them. -/
theorem Folded.cut {e : Fault} (hfold : Folded scene' ev s c s' frames c')
    (h : AtLoop scene s c f) (hspeaks : speaks (.event ev) = true → f.spoken = true)
    (hu : Uttered frames (.error e) f f') : ∃ c'', Delivered f' c'' := by
  obtain ⟨out, hsent, hpre⟩ := hu.sent
  obtain ⟨c'', hc''⟩ := foldlM_prefix hfold.heard hpre
  have hclosed := (hu.cut e rfl).1
  refine ⟨c'', ?_, hfold.early h hspeaks hu, ?_⟩
  · rw [hsent, List.foldlM_append]
    exact Option.bind_eq_some_iff.mpr ⟨c, h.heard, hc''⟩
  · rw [hclosed]
    exact fun hf => absurd hf (by decide)

/-- All of them are read. -/
theorem Folded.delivered {u : Unit} (hfold : Folded scene' ev s c s' frames c')
    (h : AtLoop scene s c f) (hspeaks : speaks (.event ev) = true → f.spoken = true)
    (hu : Uttered frames (.ok u) f f') : Delivered f' c' := by
  obtain ⟨hsent, -, -⟩ := hu.through u rfl
  refine ⟨?_, hfold.early h hspeaks hu, fun _ => ?_⟩
  · rw [hsent, List.foldlM_append]
    exact Option.bind_eq_some_iff.mpr ⟨c, h.heard, hfold.heard⟩
  · cases hd : s'.done with
    | true => exact .inr (hfold.settles hd).said
    | false => exact (hfold.follows hd).whole

end

theorem wp_drive {r : Except Exn (Except RoutingFailed Unit)} (evs : List RouteStreamEvent)
    {scene : Router.Scene} {s : Turn} {c : Client} {f : Feed} (h : AtLoop scene s c f)
    (hscript : Router.RunScript r (evs.foldlM Router.Scene.hear scene)) :
    wp (watch Feed.note) (drive s evs (.of r)) DrivePost f := by
  induction evs generalizing scene s c f with
  | nil =>
    rw [drive, wp_bind]
    refine wp_mono _ (wp_awaitNext s _ f h.spoken) ?_
    rintro (e | gone) f' ⟨hb, -⟩
    · exact ⟨c, (h.wait hb).delivered, (h.wait hb).handed, trivial⟩
    have hat := h.wait hb
    cases gone with
    | true => exact ⟨c, hat.delivered, hat.handed, trivial⟩
    | false =>
      dsimp only
      rw [if_neg (by decide)]
      rcases r with e | failure | u
      · exact ⟨c, hat.delivered, hat.handed, trivial⟩
      · have hquiet : scene = .quiet := Option.some.inj hscript
        subst hquiet
        exact ⟨c, hat.delivered, hat.handed, hat.running, hat.follows, hat.spoken⟩
      · have hover : scene = .over := Option.some.inj hscript
        subst hover
        exact hat.follows.elim
  | cons ev evs ih =>
    obtain ⟨scene', hhear⟩ : ∃ scene', scene.hear ev = some scene' := by
      rw [List.foldlM_cons] at hscript
      cases hs : scene.hear ev with
      | some scene' => exact ⟨scene', rfl⟩
      | none =>
        rw [hs] at hscript
        rcases r with e | failure | u <;> cases hscript
    rw [drive, wp_bind]
    refine wp_mono _ (wp_awaitNext s _ f h.spoken) ?_
    rintro (e | gone) f₁ ⟨hb, -⟩
    · exact ⟨c, (h.wait hb).delivered, (h.wait hb).handed, trivial⟩
    have hat := h.wait hb
    cases gone with
    | true => exact ⟨c, hat.delivered, hat.handed, trivial⟩
    | false =>
      dsimp only
      rw [if_neg (by decide)]
      obtain ⟨s', frames, c', hfold⟩ := h.follows.step h.running hhear
      rw [hfold.apply]
      have hspeaks : speaks (.event ev) = true → f₁.spoken = true := by
        intro hs
        rw [hb.spoken]
        simp [hs]
      rw [wp_bind, wp_ofExcept]
      change wp _ (yieldAll frames >>= fun _ => _) _ _
      rw [wp_bind]
      refine wp_mono _ (wp_yieldAll frames f₁) ?_
      rintro r₂ f₂ hu
      have hhanded₂ : f₂.handed = [] := hu.handed.trans hat.handed
      rcases r₂ with e | u
      · obtain ⟨c'', hcut⟩ := hfold.cut hat hspeaks hu
        exact ⟨c'', hcut, hhanded₂, trivial⟩
      have hread := hfold.delivered hat hspeaks hu
      have hspoken₂ : s'.committed = true → f₂.spoken = true := by
        intro hc
        rw [hu.spoken]
        exact (hfold.late (.inr hc)).elim hat.spoken hspeaks
      dsimp only
      rw [wp_bind]
      refine wp_mono _ (wp_countAttempt ev f₂) ?_
      rintro r₃ f₃ ⟨hk, hhanded⟩
      have hdel : Delivered f₃ c' := by
        refine ⟨by rw [hk.sent]; exact hread.heard, hk.early.trans hread.early, ?_⟩
        rw [hk.closed]
        exact hread.whole
      have hnone : f₃.handed = [] := hhanded.trans hhanded₂
      rcases r₃ with e | u
      · exact ⟨c', hdel, hnone, trivial⟩
      dsimp only
      split
      next hd => exact ⟨c', hdel, hnone, hd, hfold.settles hd⟩
      next hd =>
        have hrun : s'.done = false := Bool.eq_false_iff.mpr hd
        refine ih ⟨hdel.heard, hdel.early, hnone, ?_, hrun, hfold.follows hrun⟩ ?_
        · intro hc
          rw [hk.spoken]
          exact hspoken₂ hc
        · rw [List.foldlM_cons, hhear] at hscript
          exact hscript

/-- What a whole run promises: what a served turn hands over is the text the
client is left with. -/
def RunPost (f : Feed) : Prop :=
  ∃ c, Delivered f c ∧ ∀ result ∈ f.handed, result.status = .ok → result.text = c.text

theorem RunPost.of_none {f : Feed} {c : Client} (h : Delivered f c) (hn : f.handed = []) :
    RunPost f := by
  refine ⟨c, h, ?_⟩
  rw [hn]
  exact fun _ hmem => absurd hmem List.not_mem_nil

/-- Handing over is the last thing a run does. -/
theorem wp_handOver_run {s : Turn} {c : Client} {f : Feed} (h : Delivered f c)
    (hn : f.handed = []) (hs : s.status = .ok → s.text = c.text) :
    wp (watch Feed.note) (handOver persist s) (fun _ f' => RunPost f') f := by
  refine wp_mono _ (wp_handOver s f) ?_
  rintro r f' ⟨hk, hhanded⟩
  refine ⟨c, ⟨by rw [hk.sent]; exact h.heard, hk.early.trans h.early, ?_⟩, ?_⟩
  · rw [hk.closed]
    exact h.whole
  · rw [hhanded, hn]
    intro result hmem hok
    split at hmem
    · obtain rfl := List.mem_singleton.mp hmem
      have hst : s.status = .ok := hok
      exact (if_pos hst).trans (hs hst)
    · exact absurd hmem List.not_mem_nil

/-- The failure of a turn that has spoken is told in band. -/
theorem Withdrawn.fail {s : Turn} {c : Client} (h : Withdrawn s c) (failure : RoutingFailed) :
    ∃ e, (s.recordFailure failure).doneEvent = .ok e ∧
      c.hear (.done e) = some { c with ended := some e } := by
  have hlongest : (s.recordFailure failure).longestPartial = longest c.delivered :=
    (furthest_of_buffer h.buffer).trans h.furthest
  obtain ⟨e, he, hoffer, hstatus⟩ :=
    Turn.doneEvent_of_isSome (Turn.spec_recordFailure h.spec failure)
  refine ⟨e, he, if_pos ⟨h.listening, h.said, ?_⟩⟩
  have hfailed : ¬ (s.recordFailure failure).status ≠ .failed := fun hne => hne rfl
  have hfail : e.status = .failed := hstatus
  rw [hoffer, hfail, Turn.partialContent, if_neg hfailed, hlongest, Client.salvage]
  by_cases hlen : (longest c.delivered).length < minPartialContentChars
  · rw [if_pos hlen, if_neg fun hc => absurd hc.2 (by omega)]
  · rw [if_neg hlen, if_pos ⟨rfl, by omega⟩]

theorem wp_streamCompletion {r : Except Exn (Except RoutingFailed Unit)}
    (conversationId messageId requested : String) (pinned : Option String)
    (evs : List RouteStreamEvent)
    (hscript : Router.RunScript r (evs.foldlM Router.Scene.hear .quiet)) :
    wp (watch Feed.note)
      (streamCompletion persist conversationId messageId requested pinned evs (.of r))
      (fun _ f => RunPost f) {} := by
  have hstart : AtLoop .quiet { conversationId, messageId, requested, pinned } {} {} :=
    ⟨rfl, rfl, rfl, fun hc => (by cases hc), rfl, .inl ⟨rfl, rfl, rfl, rfl, rfl⟩⟩
  rw [streamCompletion, wp_bind, wp_attempt]
  refine wp_mono _ (wp_drive evs hstart hscript) ?_
  rintro (e | driven) f ⟨c, hdel, hnone, hdriven⟩
  · rintro _ _ rfl
    exact .of_none hdel hnone
  cases driven with
  | gone =>
    rintro _ _ rfl
    exact .of_none hdel hnone
  | stopped s =>
    rintro _ _ rfl
    exact wp_handOver_run hdel hnone hdriven.2.text
  | failed s failure =>
    obtain ⟨hd, hb, hspoken⟩ := hdriven
    dsimp only
    split
    next =>
      rintro _ _ rfl
      exact .of_none hdel hnone
    next hc =>
      have hcommitted : s.committed = true := by
        simpa using hc
      have hw : Withdrawn s c := by
        rcases hb with hu | hw
        · exact absurd hu.committed hc
        · exact hw
      obtain ⟨e, he, hhear⟩ := hw.fail failure
      rw [wp_bind, wp_attempt, failInBand, he, wp_bind, wp_ofExcept]
      change wp _ (yieldFrame (.done e)) _ _
      rw [wp_yieldFrame]
      have hdone : ∀ a : Consumer, Delivered (f.note ⟨.yield (Frame.done e), a⟩)
          { c with ended := some e } := by
        intro a
        refine ⟨?_, ?_, fun _ => .inr hw.said⟩
        · change (f.sent ++ [Frame.done e]).foldlM Client.hear {} = _
          rw [List.foldlM_append]
          refine Option.bind_eq_some_iff.mpr ⟨c, hdel.heard, ?_⟩
          rw [List.foldlM_cons]
          exact Option.bind_eq_some_iff.mpr ⟨_, hhear, rfl⟩
        · simp [Feed.note, hdel.early, hspoken hcommitted]
      constructor
      · rintro _ _ rfl
        exact wp_handOver_run (hdone .next) hnone fun hok => (by cases hok)
      · rintro _ _ rfl
        exact .of_none (hdone .closes) hnone

/-! ## On the wire -/

/-- **The wire.** What went out, and what the client that read it is left with. -/
structure Wired (f : Feed) (c : Client) : Prop where
  heard : f.sent.foldlM Client.hear {} = some c
  /-- Nothing before the first delta. -/
  early : f.early = false
  /-- A response, or nothing at all; what the consumer cut short is the beginning
  of one. -/
  grammar : f.closed = false → f.sent.filterMap Frame.kind = [] ∨
    f.sent.filterMap Frame.kind ∈ response
  beginning : ∃ rest, f.sent.filterMap Frame.kind ++ rest ∈ response
  heartbeats : ∀ pre post, f.sent = pre ++ .heartbeat :: post → ∃ e, Frame.meta e ∈ pre
  /-- A restart names the attempt that spoke, and how much of it is withdrawn. -/
  restarts : ∀ pre e post, f.sent = pre ++ .restart e :: post →
    ∃ c', pre.foldlM Client.hear {} = some c' ∧
      c'.speaker = some (e.failedProvider, e.failedModel) ∧ e.discardedChars = c'.text.length
  salvage : ∀ e, Frame.done e ∈ f.sent → e.partialContent = c.salvage e.status
  text : ∀ result ∈ f.handed, result.status = .ok → result.text = c.text

/-- Nothing follows `done`. -/
theorem hear_of_ended {c : Client} (h : c.ended.isSome) (frame : Frame) : c.hear frame = none := by
  have hl : ¬ c.Listening := by
    intro hl
    rw [hl.2] at h
    cases h
  cases frame with
  | «meta» _ =>
    refine if_neg ?_
    rintro rfl
    cases h
  | delta _ => exact if_neg hl
  | restart _ => exact if_neg fun hc => hl hc.1
  | done _ => exact if_neg fun hc => hl hc.1
  | heartbeat => exact if_neg hl

/-- What `done` offers is what the client is left with. -/
theorem salvage_of_heard {frames : List Frame} {c : Client} {e : DoneEvent}
    (h : frames.foldlM Client.hear {} = some c) (he : Frame.done e ∈ frames) :
    e.partialContent = c.salvage e.status := by
  obtain ⟨pre, post, rfl⟩ := List.append_of_mem he
  rw [List.foldlM_append] at h
  obtain ⟨c', hc', hrest⟩ := Option.bind_eq_some_iff.mp h
  rw [List.foldlM_cons] at hrest
  obtain ⟨c'', hhear, hpost⟩ := Option.bind_eq_some_iff.mp hrest
  rw [Client.hear] at hhear
  split at hhear
  next hc =>
    cases hhear
    cases post with
    | nil =>
      cases hpost
      exact hc.2.2
    | cons frame post =>
      rw [List.foldlM_cons, hear_of_ended rfl frame] at hpost
      cases hpost
  next => cases hhear

theorem Wired.of_delivered {f : Feed} {c : Client} (h : Delivered f c)
    (ht : ∀ result ∈ f.handed, result.status = .ok → result.text = c.text) : Wired f c where
  heard := h.heard
  early := h.early
  grammar hclosed := kinds_mem_response h.heard (h.whole hclosed)
  beginning := kinds_append_mem_response h.heard
  heartbeats pre post hsent := meta_of_heartbeat (hsent ▸ h.heard)
  restarts pre e post hsent := by
    have hheard := h.heard
    rw [hsent, List.foldlM_append] at hheard
    obtain ⟨c', hc', hrest⟩ := Option.bind_eq_some_iff.mp hheard
    rw [List.foldlM_cons] at hrest
    obtain ⟨c'', hhear, -⟩ := Option.bind_eq_some_iff.mp hrest
    rw [Client.hear] at hhear
    split at hhear
    next hc => exact ⟨c', hc', hc.2.2.1, hc.2.2.2⟩
    next => cases hhear
  salvage e he := salvage_of_heard h.heard he
  text := ht

/-- **Wire grammar and text.** Whatever `route_stream` meets, and however the
waits and the consumer of the response go, what `stream_completion` sends is on
the wire as it should be. -/
theorem streamCompletion_wired {cfg : Router.Config} {chain : List ModelSpec}
    {rtr : List (Event Router.iface)} {rr : Except Exn (Except RoutingFailed Unit)}
    (hrouter : (Router.routeStream cfg chain).Runs rtr rr)
    (conversationId messageId requested : String) (pinned : Option String)
    {tr : List (Event iface)} {r : Except Fault Unit}
    (h : (streamCompletion persist conversationId messageId requested pinned
      (Router.yielded rtr) (.of rr)).Runs tr r) :
    ∃ c, Wired (Feed.of tr) c := by
  have hscript := Router.routeStream_script hrouter
  obtain ⟨c, hdel, htext⟩ := wp_watch_sound
    (wp_streamCompletion conversationId messageId requested pinned _ hscript) h
  exact ⟨c, .of_delivered hdel htext⟩

/-- The first candidate breaks off in mid-sentence; the second answers. -/
def breakingOff : (q : Router.Ask) → Router.Ans q
  | .stream spec _ _ =>
    if spec = Router.groq then
      .ok ([{ delta := "It was " }, { delta := "a dark and stormy night, and then some." }],
        .raised (.provider (Router.failure .unavailable spec)))
    else Router.oblige (.stream spec "" "")
  | q => Router.oblige q

/-- The events of that run. -/
def brokenOff : List (Event Router.iface) × Except Exn (Except RoutingFailed Unit) :=
  Router.against breakingOff (Router.routeStream {} [Router.groq, Router.gemini])

/-- The turn over them. -/
def brokenOffTurn : Eff Unit :=
  streamCompletion persist "c" "m" auto none (Router.yielded brokenOff.1) (.of brokenOff.2)

/-- A run with a restart. -/
theorem streamCompletion_wired_brokenOff :
    (∃ c, Wired (Feed.of (against oblige brokenOffTurn).1) c) ∧
      (Feed.of (against oblige brokenOffTurn).1).sent.filterMap Frame.kind =
        [.meta, .delta, .delta, .restart, .delta, .done] :=
  ⟨streamCompletion_wired (Router.against_runs breakingOff _) "c" "m" auto none
    (against_runs oblige _), by decide⟩

end Streaming

end LlmGateway
