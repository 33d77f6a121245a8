import LlmGateway.Frontend.Send
import LlmGateway.Streaming.Collector
import LlmGateway.Streaming.Handover

/-!
# What is on the screen

The browser's handlers against the client of the wire. At every moment the bubble
holds what the attempt that is speaking has said and the indicator names it; a
turn that is put into the transcript is the one the collector was handed.
-/

namespace LlmGateway

namespace Frontend

open Streaming

/-! ## Frames and events -/

/-- What a frame carries. -/
def payload? : Frame → Option StreamEventPayload
  | .meta e => some (.meta e)
  | .delta content => some (.delta ⟨[content]⟩)
  | .restart e => some (.restart e)
  | .done e => some (.done e)
  | .heartbeat => none

/-- Heartbeats change nothing that a client holds. -/
theorem hear_silent {frames : List Frame} {c c' : Client} (h : frames.foldlM Client.hear c = some c')
    (hsilent : ∀ frame ∈ frames, payload? frame = none) : c' = c := by
  induction frames with
  | nil =>
    cases h
    rfl
  | cons frame frames ih =>
    rw [List.foldlM_cons] at h
    obtain ⟨c₁, hhear, hrest⟩ := Option.bind_eq_some_iff.mp h
    have hbeat : frame = .heartbeat := by
      have hnone := hsilent frame List.mem_cons_self
      cases frame <;> first | rfl | cases hnone
    subst hbeat
    rw [Client.hear] at hhear
    split at hhear
    next =>
      cases hhear
      exact ih hrest fun frame hmem => hsilent frame (List.mem_cons_of_mem _ hmem)
    next => cases hhear

/-! ## The trail -/

/-- The model an attempt is with. -/
def Attempt.speaker (a : Attempt) : String × String := (a.provider, a.model)

/-- The model a restart gives up. -/
def failedSpeaker (e : RestartEvent) : String × String := (e.failedProvider, e.failedModel)

/-- The model a provenance names. -/
def Provenance.speaker (p : Provenance) : String × String := (p.servedBy.provider, p.servedBy.model)

theorem trailFrom_append (current : Attempt) (restarts : List RestartEvent) (e : RestartEvent) :
    trailFrom current (restarts ++ [e]) =
      ((trailFrom current restarts).1 ++ [(trailFrom current restarts).2.broken e],
        .ofRestart e) := by
  induction restarts generalizing current with
  | nil => rfl
  | cons restart restarts ih =>
    rw [List.cons_append, trailFrom, ih]
    rfl

/-- A trail that names the models in the order they were heard. -/
structure Traced (current : Attempt) (restarts : List RestartEvent)
    (speaker : Option (String × String)) : Prop where
  failed : (trailFrom current restarts).1.map (·.speaker) = restarts.map failedSpeaker
  last : some (trailFrom current restarts).2.speaker = speaker

theorem Traced.restart {current : Attempt} {restarts : List RestartEvent}
    {speaker : Option (String × String)} (h : Traced current restarts speaker) {e : RestartEvent}
    (he : speaker = some (failedSpeaker e)) :
    Traced current (restarts ++ [e]) (some (e.nextProvider, e.nextModel)) := by
  have hlast : (trailFrom current restarts).2.speaker = failedSpeaker e :=
    Option.some.inj (h.last.trans he)
  refine ⟨?_, ?_⟩
  · rw [trailFrom_append, List.map_append, List.map_append, h.failed]
    show _ ++ [(trailFrom current restarts).2.speaker] = _ ++ [failedSpeaker e]
    rw [hlast]
  · rw [trailFrom_append]
    rfl

/-! ## The bubble -/

/-- What is rendered is what the client holds. -/
structure Renders (e : Option MetaEvent) (p : PendingTurn) (c : Client) : Prop where
  answer : p.answer = c.text
  named : p.provenance.map (·.speaker) = c.speaker
  status : p.status = if c.speaker.isSome then .streaming else .sending
  restarts : p.restarts.length = c.forgotten.length
  trail : ∀ opening ∈ e, Traced (.ofMeta opening) p.restarts c.speaker

/-- **On the screen**: the refs and what is rendered, unless the turn was dismissed. -/
structure Shows (s : Sending) (c : Client) : Prop where
  answer : s.answerRef = c.text
  opened : s.metaRef.isSome = c.speaker.isSome
  done : s.doneRef = c.ended
  screen : ∀ p ∈ s.pending, Renders s.metaRef p c

section

variable {s : Sending} {c c' : Client}

theorem shows_start (text : String) (attachments : List FileRef) :
    Shows (.start text attachments) {} := by
  refine ⟨rfl, rfl, rfl, fun p hp => ?_⟩
  obtain rfl := Option.some.inj hp
  exact ⟨rfl, rfl, rfl, rfl, fun _ he => by cases he⟩

theorem Shows.stop (h : Shows s c) : Shows s.stop c := ⟨h.answer, h.opened, h.done, h.screen⟩

theorem Shows.dismiss (h : Shows s c) : Shows s.dismiss c :=
  ⟨h.answer, h.opened, h.done, fun _ hp => by cases hp⟩

/-- What a setter leaves on the screen was there. -/
theorem mem_setPending {f : PendingTurn → PendingTurn} {p : PendingTurn}
    (h : p ∈ (s.setPending f).pending) : ∃ current ∈ s.pending, f current = p :=
  Option.map_eq_some_iff.mp h

theorem Shows.onMeta {e : MetaEvent} (h : Shows s c) (hf : c.hear (.meta e) = some c') :
    Shows (s.onMeta e) c' := by
  rw [Client.hear] at hf
  split at hf
  next hc =>
    cases hf
    subst hc
    refine ⟨h.answer, rfl, h.done, fun p hp => ?_⟩
    obtain ⟨current, hcurrent, rfl⟩ := mem_setPending hp
    have hrendered := h.screen current hcurrent
    have hfresh : current.restarts = [] := List.length_eq_zero_iff.mp hrendered.restarts
    refine ⟨hrendered.answer, rfl, rfl, hrendered.restarts, fun opening hopening => ?_⟩
    obtain rfl := Option.some.inj hopening
    show Traced _ current.restarts _
    rw [hfresh]
    exact ⟨rfl, rfl⟩
  next => cases hf

theorem Shows.onDelta {content : String} (h : Shows s c) (hf : c.hear (.delta content) = some c') :
    Shows (s.onDelta ⟨[content]⟩) c' := by
  rw [Client.hear] at hf
  split at hf
  next hl =>
    cases hf
    have htext : Client.text { c with said := c.said ++ [content] } = c.text ++ content :=
      text_append c content
    show Shows (if content = "" then s else _) _
    split
    next hblank =>
      -- An empty chunk is passed over.
      rw [hblank, String.append_empty] at htext
      refine ⟨h.answer.trans ?_, h.opened, h.done, fun p hp => ?_⟩
      · rw [hblank]
        exact htext.symm
      · have hrendered := h.screen p hp
        refine ⟨hrendered.answer.trans ?_, hrendered.named, hrendered.status, hrendered.restarts,
          hrendered.trail⟩
        rw [hblank]
        exact htext.symm
    next =>
      have hanswer : s.answerRef ++ content = Client.text { c with said := c.said ++ [content] } := by
        rw [h.answer, htext]
      refine ⟨hanswer, h.opened, h.done, fun p hp => ?_⟩
      obtain ⟨current, hcurrent, rfl⟩ := mem_setPending hp
      have hrendered := h.screen current hcurrent
      exact ⟨hanswer, hrendered.named, hrendered.status, hrendered.restarts, hrendered.trail⟩
  next => cases hf

theorem Shows.onRestart {e : RestartEvent} (h : Shows s c) (hf : c.hear (.restart e) = some c') :
    Shows (s.onRestart e) c' := by
  rw [Client.hear] at hf
  split at hf
  next hc =>
    cases hf
    obtain ⟨hl, -, hspeaker, -⟩ := hc
    refine ⟨rfl, h.opened.trans hl.1, h.done.trans hl.2, fun p hp => ?_⟩
    obtain ⟨current, hcurrent, rfl⟩ := mem_setPending hp
    have hrendered := h.screen current hcurrent
    have hshown : current.provenance.isSome := by
      have hisSome := congrArg Option.isSome hrendered.named
      rw [Option.isSome_map, hl.1] at hisSome
      exact hisSome
    obtain ⟨provenance, hprovenance⟩ := Option.isSome_iff_exists.mp hshown
    refine ⟨rfl, ?_, ?_, ?_, fun opening hopening => ?_⟩
    · show Option.map _ (Option.map _ current.provenance) = _
      rw [hprovenance]
      rfl
    · show current.status = _
      rw [hrendered.status, if_pos hl.1]
      rfl
    · show (current.restarts ++ [e]).length = (c.forgotten ++ [c.text]).length
      rw [List.length_append, List.length_append, hrendered.restarts]
      rfl
    · exact (hrendered.trail opening hopening).restart hspeaker
  next => cases hf

theorem Shows.onDone {e : DoneEvent} (h : Shows s c) (hf : c.hear (.done e) = some c') :
    Shows (s.onDone e) c' := by
  rw [Client.hear] at hf
  split at hf
  next =>
    cases hf
    refine ⟨h.answer, h.opened, rfl, fun p hp => ?_⟩
    have hrendered := h.screen p hp
    exact ⟨hrendered.answer, hrendered.named, hrendered.status, hrendered.restarts,
      hrendered.trail⟩
  next => cases hf

/-- **One event.** -/
theorem Shows.dispatch {frame : Frame} {data : StreamEventPayload} (h : Shows s c)
    (hf : c.hear frame = some c') (hdata : payload? frame = some data) :
    Shows (s.dispatch data) c' := by
  cases frame with
  | «meta» e =>
    cases hdata
    exact h.onMeta hf
  | delta content =>
    cases hdata
    exact h.onDelta hf
  | restart e =>
    cases hdata
    exact h.onRestart hf
  | done e =>
    cases hdata
    exact h.onDone hf
  | heartbeat => cases hdata

/-- **Whatever happens in between**, the screen keeps up with the frames that have been read. -/
theorem Shows.run {happenings : List Happening} {heard : List Frame} (h : Shows s c)
    (hf : heard.foldlM Client.hear c = some c')
    (hread : happenings.filterMap (·.event?) = heard.filterMap payload?) :
    Shows (happenings.foldl Sending.step s) c' := by
  induction happenings generalizing heard s c with
  | nil =>
    have hsilent : ∀ frame ∈ heard, payload? frame = none :=
      List.filterMap_eq_nil_iff.mp hread.symm
    rw [hear_silent hf hsilent]
    exact h
  | cons happening happenings ih =>
    cases happening with
    | stop => exact ih h.stop hf hread
    | dismiss => exact ih h.dismiss hf hread
    | event data =>
      obtain ⟨before, frame, after, rfl, hbefore, hdata, hafter⟩ :=
        List.filterMap_eq_cons_iff.mp hread.symm
      rw [List.foldlM_append] at hf
      obtain ⟨c₁, hc₁, hrest⟩ := Option.bind_eq_some_iff.mp hf
      obtain rfl := hear_silent hc₁ hbefore
      rw [List.foldlM_cons] at hrest
      obtain ⟨c₂, hhear, hlast⟩ := Option.bind_eq_some_iff.mp hrest
      exact ih (h.dispatch hhear hdata) hlast hafter.symm

end

/-! ## The end of a turn -/

/-- What the browser keeps of a turn that was handed to the collector. -/
def turnOf (text : String) (attachments : List FileRef) (result : StreamResult)
    (spec : ModelSpec) : CompletedTurn :=
  { messageId := result.messageId, userText := text, attachments, answer := result.text
    «meta» := Collector.provenance result spec }

/-- What `done` disclosed is what is stored. -/
theorem optimisticMeta_doneEvent {t : Turn} {e : DoneEvent} (h : t.doneEvent = .ok e) :
    ∃ spec, t.result.spec = some spec ∧ optimisticMeta e = Collector.provenance t.result spec ∧
      e.status = t.status ∧ e.partialContent = t.partialContent := by
  unfold Turn.doneEvent Turn.served at h
  split at h
  next spec hspec =>
    cases h
    refine ⟨spec, hspec, ?_, rfl, rfl⟩
    simp [optimisticMeta, Collector.provenance, Turn.result, ModelSpec.servedBy, UsageOut.of, hspec]
  next => cases h

/-- A client that was told of an end has read it, and of a model before. -/
theorem done_of_ended {frames : List Frame} {c : Client}
    (h : frames.foldlM Client.hear {} = some c) {e : DoneEvent} (he : c.ended = some e) :
    Frame.done e ∈ frames ∧ c.speaker.isSome := by
  induction frames using List.reverseRecOn generalizing c with
  | nil =>
    cases h
    cases he
  | append_singleton frames frame ih =>
    rw [List.foldlM_append] at h
    obtain ⟨c₁, hc₁, hlast⟩ := Option.bind_eq_some_iff.mp h
    rw [List.foldlM_cons] at hlast
    obtain ⟨c₂, hhear, hnil⟩ := Option.bind_eq_some_iff.mp hlast
    cases hnil
    have hopen : ∀ (hl : c₁.Listening) (hended : c.ended = c₁.ended), False := by
      intro hl hended
      rw [hended, hl.2] at he
      cases he
    cases frame with
    | done e' =>
      rw [Client.hear] at hhear
      split at hhear
      next hc =>
        cases hhear
        cases he
        exact ⟨by simp, hc.1.1⟩
      next => cases hhear
    | «meta» e' =>
      rw [Client.hear] at hhear
      split at hhear
      next =>
        cases hhear
        cases he
      next => cases hhear
    | delta content =>
      rw [Client.hear] at hhear
      split at hhear
      next hl =>
        cases hhear
        exact (hopen hl rfl).elim
      next => cases hhear
    | restart e' =>
      rw [Client.hear] at hhear
      split at hhear
      next =>
        cases hhear
        cases he
      next => cases hhear
    | heartbeat =>
      rw [Client.hear] at hhear
      split at hhear
      next hl =>
        cases hhear
        exact (hopen hl rfl).elim
      next => cases hhear

/-- The `meta` that is remembered was read. -/
theorem meta_of_run {happenings : List Happening} {s : Sending} {e : MetaEvent}
    (h : (happenings.foldl Sending.step s).metaRef = some e) :
    s.metaRef = some e ∨ StreamEventPayload.meta e ∈ happenings.filterMap (·.event?) := by
  induction happenings generalizing s with
  | nil => exact .inl h
  | cons happening happenings ih =>
    have hkeep : (s.step happening).metaRef = s.metaRef →
        s.metaRef = some e ∨
          StreamEventPayload.meta e ∈ (happening :: happenings).filterMap (·.event?) := by
      intro hsame
      rcases ih h with hhere | hlater
      · exact .inl (hsame ▸ hhere)
      · exact .inr (List.mem_filterMap.mpr (by
          obtain ⟨x, hx, hxe⟩ := List.mem_filterMap.mp hlater
          exact ⟨x, List.mem_cons_of_mem _ hx, hxe⟩))
    cases happening with
    | stop => exact hkeep rfl
    | dismiss => exact hkeep rfl
    | event data =>
      cases data with
      | «meta» e' =>
        rcases ih h with hhere | hlater
        · obtain rfl := Option.some.inj hhere
          exact .inr List.mem_cons_self
        · exact .inr (List.mem_cons_of_mem _ hlater)
      | delta delta =>
        refine hkeep ?_
        show (s.onDelta delta).metaRef = s.metaRef
        unfold Sending.onDelta
        split
        · rfl
        · split <;> rfl
      | restart e' => exact hkeep rfl
      | done e' => exact hkeep rfl

/-- Reading alone leaves the turn on the screen and its signal alone. -/
theorem undisturbed (events : List StreamEventPayload) (s : Sending) :
    let s' := (events.map Happening.event).foldl Sending.step s
    s'.aborted = s.aborted ∧ s'.pending.isSome = s.pending.isSome := by
  induction events generalizing s with
  | nil => exact ⟨rfl, rfl⟩
  | cons data events ih =>
    have hone : (s.dispatch data).aborted = s.aborted ∧
        (s.dispatch data).pending.isSome = s.pending.isSome := by
      cases data with
      | «meta» e => exact ⟨rfl, Option.isSome_map⟩
      | delta delta =>
        show (s.onDelta delta).aborted = _ ∧ (s.onDelta delta).pending.isSome = _
        unfold Sending.onDelta
        split
        · exact ⟨rfl, rfl⟩
        · split
          · exact ⟨rfl, rfl⟩
          · exact ⟨rfl, Option.isSome_map⟩
      | restart e => exact ⟨rfl, Option.isSome_map⟩
      | done e => exact ⟨rfl, rfl⟩
    obtain ⟨haborted, hpending⟩ := ih (s.dispatch data)
    exact ⟨haborted.trans hone.1, hpending.trans hone.2⟩

/-- Who a frame comes from. -/
theorem frame_of_payload {frames : List Frame} {data : StreamEventPayload}
    (h : data ∈ frames.filterMap payload?) : ∃ frame ∈ frames, payload? frame = some data :=
  List.mem_filterMap.mp h

theorem meta_mem {frames : List Frame} {e : MetaEvent}
    (h : StreamEventPayload.meta e ∈ frames.filterMap payload?) : Frame.meta e ∈ frames := by
  obtain ⟨frame, hmem, hdata⟩ := frame_of_payload h
  cases frame <;> cases hdata
  exact hmem

/-- The turn that was completed, if one was. -/
theorem completed_of_stored {text : String} {attachments : List FileRef}
    {conversationId : Option String} {happenings : List Happening} {ending : BodyEnd}
    {stored : String × CompletedTurn}
    (h : (send text attachments conversationId (.opened happenings ending)).stored = some stored) :
    let s := happenings.foldl Sending.step (.start text attachments)
    ∃ e done, s.metaRef = some e ∧ s.doneRef = some done ∧ done.status ≠ .failed ∧
      (s.completed text attachments conversationId e done).stored = some stored := by
  have hsettle : ∀ s : Sending, (s.settle text attachments conversationId).stored = some stored →
      ∃ e done, s.metaRef = some e ∧ s.doneRef = some done ∧ done.status ≠ .failed ∧
        (s.completed text attachments conversationId e done).stored = some stored := by
    intro s hs
    unfold Sending.settle at hs
    split at hs
    next => cases hs
    next =>
      split at hs
      next e done he hdone =>
        split at hs
        next => cases hs
        next hok => exact ⟨e, done, he, hdone, hok, hs⟩
      next => cases hs
  unfold send openCompletionStream at h
  cases ending with
  | aborted => exact hsettle _ h
  | died => cases h
  | exhausted =>
    dsimp only at h
    split at h
    next heq =>
      split at heq
      next => cases heq; cases h
      next => cases heq
    next heq =>
      split at heq
      next => cases heq
      next => cases heq; exact hsettle _ h

section

variable {conversationId messageId : String} {f : Feed} {c : Client}

/-- A `done` ends what is sent. -/
theorem heard_all {heard : List Frame} {c₁ : Client} (hall : f.sent.foldlM Client.hear {} = some c)
    (hpre : heard <+: f.sent) (hheard : heard.foldlM Client.hear {} = some c₁)
    (hended : c₁.ended.isSome) : heard = f.sent ∧ c₁ = c := by
  obtain ⟨rest, hrest⟩ := hpre
  rw [← hrest, List.foldlM_append, hheard] at hall
  cases rest with
  | nil =>
    rw [List.append_nil] at hrest
    exact ⟨hrest, Option.some.inj hall⟩
  | cons frame rest =>
    have hdeaf : (frame :: rest).foldlM Client.hear c₁ = none := by
      rw [List.foldlM_cons, hear_of_ended hended frame]
      rfl
    cases hdeaf.symm.trans hall

/-- What the browser puts into a transcript was handed over, unless the response was closed on its
last frame. -/
theorem handed_of_stored (h : HandedOver conversationId messageId f c) {text : String}
    {attachments : List FileRef} {thread : Option String} {happenings : List Happening}
    {ending : BodyEnd} (hread : happenings.filterMap (·.event?) <+: f.sent.filterMap payload?)
    {stored : String × CompletedTurn}
    (hstored : (send text attachments thread (.opened happenings ending)).stored = some stored) :
    f.closed = true ∨ ∃ result ∈ f.handed, ∃ spec, result.status = .ok ∧
      result.spec = some spec ∧ stored = (conversationId, turnOf text attachments result spec) ∧
        result.conversationId = conversationId ∧ result.messageId = messageId := by
  obtain ⟨e, done, he, hdone, hok, hcompleted⟩ := completed_of_stored hstored
  obtain ⟨rest, hrest⟩ := hread
  obtain ⟨heard, behind, hsent, hheard, -⟩ := List.filterMap_eq_append_iff.mp hrest.symm
  have hpre : heard <+: f.sent := ⟨behind, hsent.symm⟩
  obtain ⟨c₁, hc₁⟩ := foldlM_prefix h.delivered.heard hpre
  have hshows := (shows_start text attachments).run hc₁ hheard.symm
  have hended : c₁.ended = some done := hshows.done.symm.trans hdone
  obtain ⟨rfl, rfl⟩ := heard_all h.delivered.heard hpre hc₁ (by rw [hended]; rfl)
  have hdoneSent := (done_of_ended hc₁ hended).1
  rcases h.told with (hclosed | hundone) | hhanded
  · exact .inl hclosed
  · exact absurd hdoneSent (hundone done)
  · right
    obtain ⟨result, hresult⟩ := List.exists_mem_of_ne_nil _ hhanded
    obtain ⟨t, e', rfl, haddressed, he', hended', htext⟩ := h.results result hresult
    obtain rfl := Option.some.inj (hended'.symm.trans hended)
    obtain ⟨spec, hspec, hmeta, hstatus, -⟩ := optimisticMeta_doneEvent he'
    have hserved : t.status = .ok := by
      cases hts : t.status with
      | ok => rfl
      | failed => exact absurd (hstatus.trans hts) hok
    have hpromise : e.Promises conversationId messageId := by
      rcases meta_of_run he with hnone | hmem
      · cases hnone
      · rw [← hheard] at hmem
        exact h.promised e (meta_mem hmem)
    refine ⟨_, hresult, spec, hserved, hspec, ?_, haddressed.conversation, haddressed.message⟩
    have hanswer : (happenings.foldl Sending.step (.start text attachments)).answerRef =
        t.result.text := by
      rw [hshows.answer, ← htext hserved]
      exact (if_pos hserved).symm
    rw [← Option.some.inj hcompleted]
    have hid : t.result.messageId = messageId := haddressed.message
    simp only [turnOf, hpromise.1, hpromise.2, hanswer, hmeta, hid]

/-- What was handed over is on the screen of a browser that has read it all: an answer as a turn of
its transcript, a failure as what there is to salvage. -/
theorem shown_of_handed (h : HandedOver conversationId messageId f c) {text : String}
    {attachments : List FileRef} {thread : Option String} {result : StreamResult}
    (hresult : result ∈ f.handed) :
    let sent := send text attachments thread
      (.opened ((f.sent.filterMap payload?).map .event) .exhausted)
    (result.status = .ok → ∃ spec, result.spec = some spec ∧
      sent.stored = some (conversationId, turnOf text attachments result spec)) ∧
    (result.status = .failed → sent.stored = none ∧ ∃ p, sent.pending = some p ∧
      p.status = .failed ∧ p.answer = "" ∧
      p.salvaged = if result.text.length < minPartialContentChars then none
        else some result.text) := by
  obtain ⟨t, e, rfl, haddressed, he, hended, htext⟩ := h.results result hresult
  obtain ⟨spec, hspec, hmeta, hstatus, hpiece⟩ := optimisticMeta_doneEvent he
  obtain ⟨hdoneSent, hspeaker⟩ := done_of_ended h.delivered.heard hended
  generalize hevents : f.sent.filterMap payload? = events
  have hread : (events.map Happening.event).filterMap (·.event?) = f.sent.filterMap payload? := by
    rw [List.filterMap_map, ← hevents]
    exact List.filterMap_some
  have hshows := (shows_start text attachments).run h.delivered.heard hread
  obtain ⟨haborted, hpending⟩ := undisturbed events (.start text attachments)
  have hsaw : ((events.map Happening.event).filterMap (·.event?)).any (·.isDone) = true := by
    rw [hread]
    exact List.any_eq_true.mpr ⟨.done e, List.mem_filterMap.mpr ⟨_, hdoneSent, rfl⟩, rfl⟩
  generalize hs : (events.map Happening.event).foldl Sending.step (.start text attachments) = s
    at hshows haborted hpending
  have hsend : send text attachments thread (.opened (events.map .event) .exhausted) =
      s.settle text attachments thread := by
    unfold send openCompletionStream
    simp only [hs, hsaw]
    rfl
  obtain ⟨opening, hopening⟩ : ∃ opening, s.metaRef = some opening :=
    Option.isSome_iff_exists.mp (hshows.opened.trans hspeaker)
  have hdone : s.doneRef = some e := hshows.done.trans hended
  have hpromise : opening.Promises conversationId messageId := by
    rcases meta_of_run (hs ▸ hopening) with hnone | hmem
    · cases hnone
    · rw [hread] at hmem
      exact h.promised opening (meta_mem hmem)
  have hundisturbed : ¬ s.aborted = true := by
    rw [haborted]
    exact Bool.false_ne_true
  dsimp only
  rw [hsend, Sending.settle, if_neg hundisturbed, hopening, hdone]
  dsimp only
  constructor
  · intro hok
    have hserved : t.status = .ok := hok
    refine ⟨spec, hspec, ?_⟩
    have hnot : ¬ e.status = .failed := by
      rw [hstatus, hserved]
      decide
    have hanswer : s.answerRef = t.result.text := by
      rw [hshows.answer, ← htext hserved]
      exact (if_pos hserved).symm
    have hid : t.result.messageId = messageId := haddressed.message
    rw [if_neg hnot]
    simp only [Sending.completed, turnOf, hpromise.1, hpromise.2, hanswer, hmeta, hid]
  · intro hfailed
    have hlost : t.status = .failed := hfailed
    rw [if_pos (hstatus.trans hlost)]
    obtain ⟨p, hp⟩ := Option.isSome_iff_exists.mp hpending
    refine ⟨rfl, _, by rw [Sending.failed, hp, Option.map_some], rfl, rfl, ?_⟩
    have hkept : t.result.text = t.longestPartial := if_neg (by rw [hlost]; decide)
    have hfailing : ¬ t.status ≠ .failed := fun hne => hne hlost
    show s.doneRef.bind (·.partialContent) = _
    rw [hdone, hkept]
    show e.partialContent = _
    rw [hpiece, Turn.partialContent, if_neg hfailing]

end

/-! ## Over a run -/

section

variable {cfg : Router.Config} {chain : List ModelSpec} {rtr : List (Effects.Event Router.iface)}
  {rr : Except Exn (Except RoutingFailed Unit)} {tr : List (Effects.Event Chat.iface)}
  {r : Except Chat.Fault Unit}

/-- **One turn on both sides.** What the browser puts into its transcript, from whatever it has
read, is what the collector was handed, field for field, unless the response was closed on its last
frame; and what the collector was handed is in the transcript of a browser that has read it all, or
is the failure it shows. -/
theorem stored_as_handed (hrouter : (Router.routeStream cfg chain).Runs rtr rr)
    (conversationId messageId requested : String) (pinned : Option String)
    (h : (streamCompletion Chat.persist conversationId messageId requested pinned
      (Router.yielded rtr) (.of rr)).Runs tr r)
    (text : String) (attachments : List FileRef) (thread : Option String) :
    (∀ happenings ending stored,
      happenings.filterMap (·.event?) <+: (Feed.of tr).sent.filterMap payload? →
      (send text attachments thread (.opened happenings ending)).stored = some stored →
      (Feed.of tr).closed = true ∨ ∃ result ∈ (Feed.of tr).handed, ∃ spec,
        result.status = .ok ∧ result.spec = some spec ∧
        stored = (conversationId, turnOf text attachments result spec) ∧
        result.conversationId = conversationId ∧ result.messageId = messageId) ∧
    ∀ result ∈ (Feed.of tr).handed,
      let sent := send text attachments thread
        (.opened (((Feed.of tr).sent.filterMap payload?).map .event) .exhausted)
      (result.status = .ok → ∃ spec, result.spec = some spec ∧
        sent.stored = some (conversationId, turnOf text attachments result spec)) ∧
      (result.status = .failed → sent.stored = none ∧ ∃ p, sent.pending = some p ∧
        p.status = .failed ∧ p.answer = "" ∧
        p.salvaged = if result.text.length < minPartialContentChars then none
          else some result.text) := by
  obtain ⟨c, hhanded⟩ := Effects.wp_watch_sound (wp_streamCompletion_handedOver conversationId
    messageId requested pinned _ (Router.routeStream_script hrouter)) h
  exact ⟨fun happenings ending stored hread hstored => handed_of_stored hhanded hread hstored,
    fun result hresult => shown_of_handed hhanded hresult⟩

end

/-- The run in which the first candidate breaks off, as the browser reads it. -/
def brokenOffEvents : List StreamEventPayload :=
  (Feed.of (Chat.against Chat.oblige brokenOffTurn).1).sent.filterMap payload?

/-- Stopped behind the first delta of the second attempt. -/
def stoppedReading : List Happening := (brokenOffEvents.take 5).map .event ++ [.stop]

theorem stored_as_handed_brokenOff :
    (Feed.of (Chat.against Chat.oblige brokenOffTurn).1).handed.map (·.status) = [.ok] ∧
    ∀ result ∈ (Feed.of (Chat.against Chat.oblige brokenOffTurn).1).handed, result.status = .ok →
      ∃ spec, result.spec = some spec ∧
        (send "What was it like?" [] none
          (.opened (brokenOffEvents.map .event) .exhausted)).stored =
            some ("c", turnOf "What was it like?" [] result spec) :=
  ⟨by decide, fun result hresult =>
    ((stored_as_handed (Router.against_runs breakingOff _) "c" "m" auto none
      (Chat.against_runs Chat.oblige brokenOffTurn) "What was it like?" [] none).2
        result hresult).1⟩

/-! ## A cache hit -/

/-- The chunks of a stored answer, read one after another. -/
theorem read_chunks (chunks : List String) (s : Sending) :
    let s' := (chunks.map fun chunk => Happening.event (.delta ⟨[chunk]⟩)).foldl Sending.step s
    s'.answerRef = s.answerRef ++ String.join chunks ∧ s'.metaRef = s.metaRef ∧
      s'.aborted = s.aborted := by
  induction chunks generalizing s with
  | nil => exact ⟨(String.append_empty).symm, rfl, rfl⟩
  | cons chunk chunks ih =>
    have hone : (s.onDelta ⟨[chunk]⟩).answerRef = s.answerRef ++ chunk ∧
        (s.onDelta ⟨[chunk]⟩).metaRef = s.metaRef ∧
        (s.onDelta ⟨[chunk]⟩).aborted = s.aborted := by
      show (if chunk = "" then s else _).answerRef = _ ∧ (if chunk = "" then s else _).metaRef = _ ∧
        (if chunk = "" then s else _).aborted = _
      split
      next hblank =>
        rw [hblank, String.append_empty]
        exact ⟨rfl, rfl, rfl⟩
      next => exact ⟨rfl, rfl, rfl⟩
    obtain ⟨hanswer, hmeta, haborted⟩ := ih (s.onDelta ⟨[chunk]⟩)
    refine ⟨hanswer.trans ?_, hmeta.trans hone.2.1, haborted.trans hone.2.2⟩
    rw [hone.1, String.join_cons, String.append_assoc]

/-- **A cached turn on both sides.** The transcript of a browser that has read a replay has the
stored answer whole, under the ids of the row that is written. The two agree on all they disclose
but the tokens: the browser shows those of the answer that was stored, the row has none. -/
theorem cached_stored_iff (cached : Exact.CachedResponse)
    (requestedSlot conversationId messageId text : String) (attachments : List FileRef)
    (thread : Option String) :
    ∃ turn, (send text attachments thread (.opened
        (((cachedFrames cached requestedSlot conversationId messageId).filterMap payload?).map
          .event) .exhausted)).stored = some (conversationId, turn) ∧
      turn.messageId = messageId ∧ turn.answer = cached.text ∧
      turn.meta = { Collector.cachedProvenance cached requestedSlot with
        tokensIn := some cached.tokensIn, tokensOut := some cached.tokensOut } ∧
      (turn.meta = Collector.cachedProvenance cached requestedSlot ↔
        cached.tokensIn = 0 ∧ cached.tokensOut = 0) := by
  have hdeltas : ((Exact.chunkForReplay cached.text).map Frame.delta).filterMap payload? =
      (Exact.chunkForReplay cached.text).map fun chunk => .delta ⟨[chunk]⟩ := by
    rw [List.filterMap_map, ← List.filterMap_eq_map]
    rfl
  have hevents : ((cachedFrames cached requestedSlot conversationId messageId).filterMap
      payload?).map Happening.event =
        [.event (.meta (cachedMeta cached requestedSlot conversationId messageId))] ++
          ((Exact.chunkForReplay cached.text).map fun chunk => .event (.delta ⟨[chunk]⟩)) ++
            [.event (.done (cachedDone cached requestedSlot))] := by
    rw [cachedFrames, List.filterMap_cons, List.filterMap_append, hdeltas]
    simp [payload?]
  have hrun := read_chunks (Exact.chunkForReplay cached.text)
    (.onMeta (.start text attachments) (cachedMeta cached requestedSlot conversationId messageId))
  generalize hs : List.foldl Sending.step _ _ = s at hrun
  obtain ⟨hanswer, hmeta, haborted⟩ := hrun
  have hread : (((cachedFrames cached requestedSlot conversationId messageId).filterMap
      payload?).map Happening.event).foldl Sending.step (.start text attachments) =
        s.onDone (cachedDone cached requestedSlot) := by
    rw [hevents, List.foldl_append, List.foldl_append]
    exact congrArg (Sending.onDone · _) hs
  have hsaw : ((((cachedFrames cached requestedSlot conversationId messageId).filterMap
      payload?).map Happening.event).filterMap (·.event?)).any (·.isDone) = true := by
    rw [hevents]
    simp [Happening.event?, StreamEventPayload.isDone]
  have hsettle : send text attachments thread (.opened (((cachedFrames cached requestedSlot
      conversationId messageId).filterMap payload?).map .event) .exhausted) =
        (s.onDone (cachedDone cached requestedSlot)).settle text attachments thread := by
    unfold send openCompletionStream
    simp only [hread, hsaw]
    rfl
  generalize hend : s.onDone (cachedDone cached requestedSlot) = s' at hsettle
  have hundisturbed : ¬ s'.aborted = true := by
    rw [← hend]
    show ¬ s.aborted = true
    rw [haborted]
    exact Bool.false_ne_true
  have hopening : s'.metaRef = some (cachedMeta cached requestedSlot conversationId messageId) := by
    rw [← hend]
    exact hmeta
  have hdone : s'.doneRef = some (cachedDone cached requestedSlot) := by
    rw [← hend]
    rfl
  have htext : s'.answerRef = cached.text := by
    rw [← hend, ← Exact.join_chunkForReplay cached.text]
    exact hanswer.trans (String.empty_append)
  refine ⟨{ messageId, userText := text, attachments, answer := cached.text
            «meta» := optimisticMeta (cachedDone cached requestedSlot) }, ?_, rfl, rfl, rfl, ?_⟩
  · have hserved : ¬ (cachedDone cached requestedSlot).status = .failed := Status.noConfusion
    rw [hsettle, Sending.settle, if_neg hundisturbed, hopening, hdone]
    dsimp only
    rw [if_neg hserved, Sending.completed, htext]
    rfl
  · show ({ Collector.cachedProvenance cached requestedSlot with
        tokensIn := some cached.tokensIn, tokensOut := some cached.tokensOut } : MessageMeta) = _ ↔ _
    simp [Collector.cachedProvenance]

end Frontend

end LlmGateway
