import LlmGateway.Chat.Blocks
import LlmGateway.Streaming.Delivery

/-!
# The answer to a retry

A key that was used before is answered from its envelope. The endpoint and the
collector write the envelope, a JSON body and `stream_cached_completion` read
it; here the two ends are laid side by side.
-/

namespace LlmGateway

namespace Chat

open Effects Streaming

/-! ## The tape -/

/-- What a trace shows of a claim and of its answer. -/
structure Tape where
  feed : Feed := {}
  /-- The answer to the claim. -/
  claim : Option Claim := none
  /-- What the router streamed. -/
  script : Option (List RouteStreamEvent × Ending) := none
  /-- The envelopes the claim was completed with. -/
  kept : List (ChatCompletionResponse × Option Exact.CacheStatus) := []
  deriving DecidableEq, Repr

namespace Tape

def note (t : Tape) : Event iface → Tape
  | ⟨.claim, (a : Claim)⟩ => { t with claim := t.claim <|> some a }
  | ⟨.routeStream, (a : List RouteStreamEvent × Ending)⟩ =>
    { t with script := t.script <|> some a }
  | ⟨.complete response cacheStatus, _⟩ => { t with kept := t.kept ++ [(response, cacheStatus)] }
  | e => { t with feed := t.feed.note e }

/-- **The tape of a trace.** -/
def of (tr : List (Event iface)) : Tape := tr.foldl note {}

/-- The frames of the response. -/
abbrev frames (t : Tape) : List Frame := t.feed.sent

end Tape

/-- The questions that leave no trace on the tape. -/
def Ask.clerical : Ask → Bool
  | .claim | .complete _ _ | .routeStream | .wait _ | .isDisconnected | .yield _ | .recordAttempt
  | .persist _ => false
  | _ => true

section

variable {t : Tape}

theorem note_of_clerical (t : Tape) (q : Ask) (a : Ans q) (h : q.clerical = true) :
    t.note ⟨q, a⟩ = t := by
  cases q <;> first | rfl | cases h

/-- The loop of a stream leaves its frames there, and nothing else. -/
theorem note_of_streams_tape (t : Tape) (q : Ask) (a : Ans q) (h : q.streams = true) :
    t.note ⟨q, a⟩ = { t with feed := t.feed.note ⟨q, a⟩ } := by
  cases q <;> first | rfl | cases h

/-- A block that leaves nothing there. -/
abbrev Clerical {α : Type} (p : Eff α) : Prop := p.Asks fun q => Ask.clerical q = true

theorem wp_clerical {α : Type} {p : Eff α} (hp : Clerical p) {Q : Except Fault α → Tape → Prop}
    (h : ∀ r, Q r t) : wp (watch Tape.note) p Q t :=
  hp.wp_watch note_of_clerical h

/-- What is known of the frames of a block is known of the tape. -/
theorem wp_tape {α : Type} {p : Eff α} (hp : Streams p) {Q : Except Fault α → Feed → Prop}
    (h : wp (watch Feed.note) p Q t.feed) :
    wp (watch Tape.note) p (fun r t' => ∃ f, t' = { t with feed := f } ∧ Q r f) t := by
  induction p generalizing t with
  | ret a => exact ⟨t.feed, rfl, h⟩
  | raise e => exact ⟨t.feed, rfl, h⟩
  | ask q k ih =>
    rintro a _ rfl
    rw [note_of_streams_tape t q a hp.1]
    exact ih a (t := { t with feed := t.feed.note ⟨q, a⟩ }) (hp.2 a) (h a _ rfl)

/-- The claim was answered once. -/
theorem claim_note {a : Claim} (h : t.claim = some a) (e : Event iface) :
    (t.note e).claim = some a := by
  obtain ⟨q, b⟩ := e
  cases q with
  | claim =>
    unfold Tape.note
    rw [h]
    rfl
  | _ => exact h

/-- And the router asked once. -/
theorem script_note {a : List RouteStreamEvent × Ending} (h : t.script = some a)
    (e : Event iface) : (t.note e).script = some a := by
  obtain ⟨q, b⟩ := e
  cases q with
  | routeStream =>
    unfold Tape.note
    rw [h]
    rfl
  | _ => exact h

end

/-! ## Clerical blocks -/

/-- A clerical question. -/
theorem clerical_ask {α : Type} {p : Eff α} {q : Ask} {o : Ans q → Except Fault α}
    (hp : p = .ask q fun a => .ofExcept (o a)) (hq : q.clerical = true) : Clerical p := by
  subst hp
  exact ⟨hq, fun _ => Prog.asks_ofExcept _⟩

/-- One that is answered in any case. -/
theorem clerical_told {q : Ask} (hq : q.clerical = true) :
    Clerical (.ask q .ret : Eff (Ans q)) :=
  ⟨hq, fun _ => trivial⟩

theorem clerical_failTurn {α : Type} (failure : RoutingFailed) :
    Clerical (failTurn failure : Eff α) := by
  rw [failTurn]
  refine .bind (p := elapsedMs) (clerical_told rfl) fun _ => ?_
  refine .bind (p := record .failure) (clerical_ask rfl rfl) fun _ => ?_
  exact .bind (p := commitSession) (clerical_ask rfl rfl) fun _ => trivial

theorem clerical_cacheAnswer (req : Request) (outcome : RouterOutcome) :
    Clerical (cacheAnswer req outcome) := by
  rw [cacheAnswer]
  cases cacheSlot req outcome.report with
  | none => trivial
  | some key =>
    refine .bind (p := isoNow) (clerical_told rfl) fun _ => ?_
    exact clerical_ask (p := cachePut key _) rfl rfl

theorem clerical_serveOutcome (req : Request) (conversation : Conversation)
    (xCache : Exact.CacheStatus) (outcome : RouterOutcome) :
    Clerical (serveOutcome req conversation xCache outcome) := by
  rw [serveOutcome]
  refine .bind (p := elapsedMs) (clerical_told rfl) fun _ => ?_
  refine .bind (clerical_ask rfl rfl) fun _ => ?_
  refine .bind (p := record .success) (clerical_ask rfl rfl) fun _ => ?_
  refine .bind (p := commitSession) (clerical_ask rfl rfl) fun _ => ?_
  refine .bind (clerical_cacheAnswer req outcome) fun _ => ?_
  exact .bind (p := timestamp) (clerical_told rfl) fun _ => trivial

theorem clerical_serveCacheHit (req : Request) (conversation : Conversation)
    (cached : Exact.CachedResponse) : Clerical (serveCacheHit req conversation cached) := by
  rw [serveCacheHit]
  refine .bind (clerical_ask rfl rfl) fun _ => ?_
  refine .bind (p := elapsedMs) (clerical_told rfl) fun _ => ?_
  refine .bind (p := record .cacheHit) (clerical_ask rfl rfl) fun _ => ?_
  refine .bind (p := commitSession) (clerical_ask rfl rfl) fun _ => ?_
  exact .bind (p := timestamp) (clerical_told rfl) fun _ => trivial

theorem clerical_serveRouted (req : Request) (conversation : Conversation)
    (xCache : Exact.CacheStatus) : Clerical (serveRouted req conversation xCache) := by
  rw [serveRouted]
  refine .bind (p := route) (clerical_ask rfl rfl) fun r => ?_
  cases r with
  | error failure => exact clerical_failTurn failure
  | ok outcome => exact clerical_serveOutcome req conversation xCache outcome

theorem clerical_completeChatCompletion (req : Request) (conversation : Conversation) :
    Clerical (completeChatCompletion req conversation) := by
  rw [completeChatCompletion]
  cases req.cacheKey with
  | none => exact clerical_serveRouted req conversation .bypass
  | some key =>
    refine .bind (p := cacheGet key) (clerical_ask rfl rfl) fun found => ?_
    cases found with
    | none => exact clerical_serveRouted req conversation .miss
    | some cached => exact clerical_serveCacheHit req conversation cached

theorem clerical_appendAll (messages : List InputMessage) : Clerical (appendAll messages) := by
  induction messages with
  | nil => trivial
  | cons message messages ih => exact .bind (clerical_ask rfl rfl) fun _ => ih

theorem clerical_serveReplay (req : Request) (envelope : Envelope) :
    Clerical (serveReplay req envelope) := by
  rw [serveReplay]
  cases envelope.response with
  | none => trivial
  | some stored =>
    refine .bind (p := elapsedMs) (clerical_told rfl) fun _ => ?_
    refine .bind (p := record .replay) (clerical_ask rfl rfl) fun _ => ?_
    refine .bind (p := commitSession) (clerical_ask rfl rfl) fun _ => ?_
    dsimp only
    split
    · exact .bind (p := isoNow) (clerical_told rfl) fun _ => trivial
    · trivial

/-! ## What a replay tells -/

/-- What a replay leaves out of a `done`: it has no attempt of its own, no
rendering, no pin and no credential. -/
def replayed (d : DoneEvent) : DoneEvent :=
  { d with attempts := 0, wastedTokensOut := 0, degraded := false, extractionTier := none
           messagesDropped := 0, warning := none, keyPool := none }

/-- The frames of a stored text: its `meta` names whom its `done` names. -/
def Recites (text : String) (d : DoneEvent) (frames : List Frame) : Prop :=
  ∃ e pieces, frames = .meta e :: (pieces.map .delta ++ [.done d]) ∧ String.join pieces = text ∧
    (e.slot, e.provider, e.model) = (d.servedBy.slot, d.servedBy.provider, d.servedBy.model) ∧
    e.requestedSlot = d.requestedSlot

theorem recites_cachedFrames (cached : Exact.CachedResponse)
    (requestedSlot conversationId messageId : String) :
    Recites cached.text (cachedDone cached requestedSlot)
      (cachedFrames cached requestedSlot conversationId messageId) :=
  ⟨_, _, rfl, Exact.join_chunkForReplay cached.text, rfl, rfl⟩

/-! ## The retry -/

/-- A retry under the same key and with the same body, which finds that envelope. -/
structure Retries (req req' : Request) (stored : ChatCompletionResponse)
    (cacheStatus : Option Exact.CacheStatus) (tr' : List (Event iface)) : Prop where
  body : req'.body = req.body
  keyed : req'.idempotencyKey.isSome
  replay : (Tape.of tr').claim =
    some (.result (.replay { response := some stored, cacheStatus }))

/-- What the endpoint has for a retry: the body, or a stream of it. -/
def Retold (req : Request) (stored : ChatCompletionResponse)
    (cacheStatus : Option Exact.CacheStatus) (served : Served) : Prop :=
  if req.body.stream then
    ∃ createdAt, served = .stream
      (streamCachedCompletion none (asReplayable stored createdAt) req.body.model
        stored.conversationId stored.messageId) (cacheStatus.getD .bypass)
  else served = .json stored (cacheStatus.getD .bypass)

def RetriedPost (req : Request) (r : Except Fault Served) (t : Tape) : Prop :=
  ∀ served, r = .ok served → ∃ a, t.claim = some a ∧ ∀ stored cacheStatus,
    a = .result (.replay { response := some stored, cacheStatus }) →
      t.feed = {} ∧ Retold req stored cacheStatus served

section

variable {t : Tape}

/-- Another answer to the claim. -/
theorem wp_otherwise {α : Type} (p : Eff α) {a : Claim} (h : t.claim = some a)
    {Q : Except Fault α → Tape → Prop} (hQ : ∀ r t', t'.claim = some a → Q r t') :
    wp (watch Tape.note) p Q t := by
  have hkept := wp_inv (watch Tape.note) (fun t q b t' ht h =>
    (show t' = t.note ⟨q, b⟩ from ht) ▸ claim_note h ⟨q, b⟩) p h
  exact wp_mono _ hkept hQ

theorem retriedPost_error (req : Request) (e : Fault) : RetriedPost req (.error e) t :=
  fun _ he => (nomatch he)

/-- The envelope, read. -/
theorem wp_serveReplay_retold (req : Request) (stored : ChatCompletionResponse)
    (cacheStatus : Option Exact.CacheStatus) :
    wp (watch Tape.note) (serveReplay req { response := some stored, cacheStatus })
      (fun r t' => t' = t ∧ ∀ replayed, r = .ok replayed →
        ∃ served, replayed = some served ∧ Retold req stored cacheStatus served) t := by
  change wp _ (elapsedMs >>= fun _ => record .replay >>= fun _ => commitSession >>= fun _ => _) _ _
  have herror : ∀ e : Fault, t = t ∧ ∀ replayed, (.error e : Except Fault (Option Served)) =
      .ok replayed → ∃ served, replayed = some served ∧ Retold req stored cacheStatus served :=
    fun _ => ⟨rfl, fun _ he => (nomatch he)⟩
  refine wp_told (q := .elapsedMs) rfl (fun _ => rfl) fun _ => ?_
  refine wp_skip (q := .record .replay) rfl (fun _ => rfl) herror fun _ => ?_
  refine wp_skip (p := commitSession) rfl (fun _ => rfl) herror fun _ => ?_
  dsimp only
  split
  next hstream =>
    refine wp_told (q := .isoNow) rfl (fun _ => rfl) fun createdAt => ?_
    refine ⟨rfl, fun replayed he => ?_⟩
    cases he
    refine ⟨_, rfl, ?_⟩
    rw [Retold, if_pos hstream]
    exact ⟨createdAt, rfl⟩
  next hstream =>
    refine ⟨rfl, fun replayed he => ?_⟩
    cases he
    refine ⟨_, rfl, ?_⟩
    rw [Retold, if_neg hstream]

theorem wp_createChatCompletion_retried (req : Request) (hkey : req.idempotencyKey.isSome) :
    wp (watch Tape.note) (createChatCompletion req) (RetriedPost req) {} := by
  obtain ⟨key, hkey⟩ := Option.isSome_iff_exists.mp hkey
  rw [createChatCompletion]
  refine wp_skip rfl (fun _ => rfl) (retriedPost_error req) fun _ => ?_
  rw [hkey]
  dsimp only
  rw [gate]
  split
  · exact retriedPost_error req (.app "invalid_idempotency_key")
  rintro (a : Claim) _ rfl
  have hclaim : (Tape.note {} ⟨.claim, a⟩).claim = some a := rfl
  by_cases ha : ∃ stored cacheStatus,
      a = .result (.replay { response := some stored, cacheStatus })
  · obtain ⟨stored, cacheStatus, rfl⟩ := ha
    change wp _ ((serveReplay req { response := some stored, cacheStatus } >>= fun _ => _) >>=
      fun _ => _) _ _
    rw [wp_bind, wp_bind]
    refine wp_mono _ (wp_serveReplay_retold req stored cacheStatus) ?_
    rintro r _ ⟨rfl, hretold⟩
    rcases r with e | replayed
    · exact retriedPost_error req e
    · obtain ⟨served, rfl, hserved⟩ := hretold replayed rfl
      intro served' he
      cases he
      refine ⟨_, hclaim, fun stored' cacheStatus' ha => ?_⟩
      cases ha
      exact ⟨rfl, hserved⟩
  · refine wp_otherwise _ hclaim fun r t' h served _ => ⟨a, h, fun stored cacheStatus he => ?_⟩
    exact absurd ⟨stored, cacheStatus, he⟩ ha

/-! ## An answer at once -/

theorem clerical_serveCompletion (req : Request) (ticket : Option ClaimTicket)
    (hstream : req.body.stream = false) : Clerical (serveCompletion req ticket) := by
  rw [serveCompletion]
  refine .bind (p := resolveConversation) (clerical_ask rfl rfl) fun conversation => ?_
  refine .bind (p := resolveFileRefs) (clerical_ask rfl rfl) fun _ => ?_
  refine .bind (clerical_appendAll req.body.messages) fun _ => ?_
  refine .bind (p := touch req.body.model) (clerical_ask rfl rfl) fun _ => ?_
  refine .bind (p := commitSession) (clerical_ask rfl rfl) fun _ => ?_
  refine .bind (p := listForConversation) (clerical_ask rfl rfl) fun _ => ?_
  rw [if_neg (Bool.eq_false_iff.mp hstream)]
  exact clerical_completeChatCompletion req conversation

/-- The envelope is the response. -/
def JsonPost (r : Except Fault Served) (t : Tape) : Prop :=
  ∀ response cacheStatus, r = .ok (.json response cacheStatus) →
    ∀ p ∈ t.kept, p = (response, some cacheStatus)

theorem JsonPost.of_nil {r : Except Fault Served} (h : t.kept = []) : JsonPost r t := by
  intro response cacheStatus _ p hp
  rw [h] at hp
  cases hp

theorem wp_serveClaimed_json (req : Request) (ticket : Option ClaimTicket)
    (hstream : req.body.stream = false) (h : t.kept = []) :
    wp (watch Tape.note) (serveClaimed req ticket) JsonPost t := by
  rw [serveClaimed, wp_bind, wp_attempt]
  refine wp_clerical (clerical_serveCompletion req ticket hstream) fun r => ?_
  rcases r with e | served
  · dsimp only
    split
    · exact wp_skip (p := release) rfl (fun _ => rfl) (fun _ => .of_nil h) fun _ => .of_nil h
    · exact JsonPost.of_nil h
  · cases served with
    | stream body xCache => exact JsonPost.of_nil h
    | json response xCache =>
      dsimp only
      split
      · refine wp_watch_step (p := complete response (some xCache)) rfl ?_ ?_
        · intro _ _ _ _ _ he
          cases he
        · rintro a u _ response' cacheStatus he p hp
          cases he
          change p ∈ t.kept ++ [(response, some xCache)] at hp
          rw [h, List.nil_append] at hp
          exact List.mem_singleton.mp hp
      · exact JsonPost.of_nil h

theorem wp_createChatCompletion_json (req : Request) (hstream : req.body.stream = false) :
    wp (watch Tape.note) (createChatCompletion req) JsonPost {} := by
  rw [createChatCompletion]
  refine wp_skip rfl (fun _ => rfl) (fun _ => .of_nil rfl) fun _ => ?_
  cases req.idempotencyKey with
  | none => exact wp_serveClaimed_json req none hstream rfl
  | some key =>
    dsimp only
    rw [wp_bind, gate]
    split
    · exact JsonPost.of_nil rfl
    refine wp_watch_step (p := claim) rfl (fun a e _ => .of_nil rfl) fun a result _ => ?_
    cases result with
    | claimed => exact wp_serveClaimed_json req (some req.requestId) hstream rfl
    | inFlight => exact JsonPost.of_nil rfl
    | fingerprintMismatch => exact JsonPost.of_nil rfl
    | replay envelope =>
      dsimp only
      rw [wp_bind]
      refine wp_clerical (clerical_serveReplay req envelope) fun r => ?_
      rcases r with e | replayed
      · exact JsonPost.of_nil rfl
      · cases replayed with
        | some served => exact JsonPost.of_nil rfl
        | none => exact wp_serveClaimed_json req none hstream rfl

/-! ## The envelope of a stream -/

/-- What the collector asks: clerical questions, and the end of the claim. -/
def Ask.ends (P : ChatCompletionResponse → Option Exact.CacheStatus → Prop) (q : Ask) : Prop :=
  q.clerical = true ∨ ∃ response cacheStatus, q = .complete response cacheStatus ∧
    P response cacheStatus

theorem ends_of_clerical {P : ChatCompletionResponse → Option Exact.CacheStatus → Prop}
    {α : Type} {p : Eff α} (hp : Clerical p) : p.Asks (Ask.ends P) :=
  hp.mono fun _ => .inl

theorem ends_withSession {P : ChatCompletionResponse → Option Exact.CacheStatus → Prop}
    {p : Eff Unit} (hp : p.Asks (Ask.ends P)) : (Collector.withSession p).Asks (Ask.ends P) := by
  rw [Collector.withSession]
  refine .bind (ends_of_clerical (p := openSession) (clerical_ask rfl rfl)) fun _ => ?_
  refine .bind hp.attempt fun r => ?_
  cases r with
  | ok a => exact .bind (ends_of_clerical (p := closeSession) (clerical_ask rfl rfl)) fun _ => trivial
  | error e =>
    exact .bind (ends_of_clerical (p := closeSession) (clerical_ask rfl rfl)) fun _ => trivial

/-- A finished turn is kept as its result has it. -/
theorem ends_persist (c : Collector) (result : StreamResult)
    {P : ChatCompletionResponse → Option Exact.CacheStatus → Prop}
    (hP : ∀ spec requestId created cacheStatus, result.status = .ok → result.spec = some spec →
      P (Collector.envelope result spec requestId created) cacheStatus) :
    (c.persist result).Asks (Ask.ends P) := by
  have hcommit : commitSession.Asks (Ask.ends P) := ends_of_clerical (clerical_ask rfl rfl)
  refine ends_withSession ?_
  split
  next hok =>
    refine .bind ?_ fun _ => hcommit
    rw [Collector.persistSuccess]
    cases hspec : result.spec with
    | none => trivial
    | some spec =>
      refine .bind (ends_of_clerical (clerical_ask rfl rfl)) fun _ => ?_
      refine .bind (ends_of_clerical (p := record .success) (clerical_ask rfl rfl)) fun _ => ?_
      refine .bind (ends_of_clerical ?_) fun _ => ?_
      · rw [Collector.cacheAnswer]
        cases c.cacheSlot result with
        | none => trivial
        | some key =>
          refine .bind (p := isoNow) (clerical_told rfl) fun _ => ?_
          exact clerical_ask (p := cachePut key _) rfl rfl
      · rw [Collector.completeClaim]
        cases c.idempotency with
        | none => trivial
        | some requestId =>
          refine .bind (ends_of_clerical (p := timestamp) (clerical_told rfl)) fun created => ?_
          exact ⟨.inr ⟨_, _, rfl, hP spec requestId created _ hok hspec⟩,
            fun _ => Prog.asks_ofExcept _⟩
  next =>
    refine .bind (ends_of_clerical ?_) fun _ => hcommit
    rw [Collector.persistFailure]
    refine .bind (p := record .streamFailure) (clerical_ask rfl rfl) fun _ => ?_
    split
    · exact clerical_ask (p := release) rfl rfl
    · trivial

/-- A cached one as it was cached. -/
theorem ends_persistCacheHit (c : Collector) (cached : Exact.CachedResponse)
    (requestedSlot conversationId messageId : String)
    {P : ChatCompletionResponse → Option Exact.CacheStatus → Prop}
    (hP : ∀ requestId created cacheStatus, P (Collector.cachedEnvelope cached requestedSlot
      conversationId messageId requestId created) cacheStatus) :
    (c.persistCacheHit cached requestedSlot conversationId messageId).Asks (Ask.ends P) := by
  rw [Collector.persistCacheHit]
  refine .bind (ends_withSession (ends_of_clerical ?_)) fun _ => ?_
  · refine .bind (clerical_ask rfl rfl) fun _ => ?_
    refine .bind (p := record .cacheHit) (clerical_ask rfl rfl) fun _ => ?_
    exact clerical_ask (p := commitSession) rfl rfl
  · cases c.idempotency with
    | none => trivial
    | some requestId =>
      refine .bind (ends_of_clerical (p := timestamp) (clerical_told rfl)) fun created => ?_
      exact ⟨.inr ⟨_, _, rfl, hP requestId created _⟩, fun _ => Prog.asks_ofExcept _⟩

/-- What is kept behind such a block was kept before, or is right. -/
theorem wp_ends {P : ChatCompletionResponse → Option Exact.CacheStatus → Prop} {α : Type}
    {p : Eff α} (hp : p.Asks (Ask.ends P)) (h : ∀ x ∈ t.kept, P x.1 x.2) :
    wp (watch Tape.note) p (fun _ t' => ∃ kept, t' = { t with kept := kept } ∧
      ∀ x ∈ kept, P x.1 x.2) t := by
  refine hp.wp_inv (J := fun t' => ∃ kept, t' = { t with kept := kept } ∧ ∀ x ∈ kept, P x.1 x.2)
    ?_ ⟨t.kept, rfl, h⟩
  rintro _ q a _ hq rfl ⟨kept, rfl, hkept⟩
  rcases hq with hclerical | ⟨response, cacheStatus, rfl, hright⟩
  · exact ⟨kept, note_of_clerical _ q a hclerical, hkept⟩
  · refine ⟨kept ++ [(response, cacheStatus)], rfl, fun x hx => ?_⟩
    rcases List.mem_append.mp hx with hold | hnew
    · exact hkept x hold
    · rw [List.mem_singleton.mp hnew]
      exact hright

/-- The events are those of a run of the router. -/
def FromRouter (script : List RouteStreamEvent × Ending) : Prop :=
  ∃ (cfg : Router.Config) (chain : List ModelSpec) (rtr : List (Event Router.iface))
    (rr : Except Exn (Except RoutingFailed Unit)), (Router.routeStream cfg chain).Runs rtr rr ∧
      script = (Router.yielded rtr, .of rr)

/-- The envelope of a live stream has what the client was left with. -/
def KeptLive (requested : String) (frames : List Frame) (response : ChatCompletionResponse) : Prop :=
  ∃ c d, frames.foldlM Client.hear {} = some c ∧ c.ended = some d ∧ response.content = c.text ∧
    ∀ createdAt, cachedDone (asReplayable response createdAt) requested = replayed d

/-- And that of a cached answer what it was sent, but for the usage. -/
def KeptCached (requested : String) (frames : List Frame) (response : ChatCompletionResponse) :
    Prop :=
  ∃ d, Recites response.content d frames ∧ replayed d = d ∧
    ∀ createdAt, ∃ usage, cachedDone (asReplayable response createdAt) requested = { d with usage }

/-- The envelopes of a streamed turn. -/
def KeptPost {α : Type} (requested : String) (_ : Except Fault α) (t : Tape) : Prop :=
  ∀ p ∈ t.kept, match t.script with
    | some script => FromRouter script → KeptLive requested t.frames p.1
    | none => KeptCached requested t.frames p.1

theorem KeptPost.of_nil {α : Type} {requested : String} {r : Except Fault α} (h : t.kept = []) :
    KeptPost requested r t := by
  intro p hp
  rw [h] at hp
  cases hp

/-- The finished turn, as it is kept. -/
theorem keptLive_of_settles {s : Turn} {c : Client} {f : Feed} (hs : Settles s c)
    (hd : Delivered f c) (spec : ModelSpec) (requestId : String) (created : Int)
    (hspec : s.result.spec = some spec) :
    KeptLive s.requested f.sent (Collector.envelope s.result spec requestId created) := by
  obtain ⟨t, done, rfl⟩ := hs.completed
  obtain ⟨d, hdone, hended⟩ := hs.ended
  refine ⟨c, d, hd.heard, hended, ?_, fun createdAt => ?_⟩
  · exact hs.text rfl
  · cases hspec
    cases hdone
    rfl

/-- What was asked for stays what it was. -/
theorem requested_of_apply {s s' : Turn} {ev : RouteStreamEvent} {frames : List Frame}
    (h : s.apply ev = .ok (s', frames)) : s'.requested = s.requested := by
  cases ev with
  | started attempt spec =>
    cases h
    rfl
  | aborted attempt spec error discardedChars wasted =>
    cases h
    rfl
  | completed done =>
    rw [Turn.apply] at h
    cases he : (s.complete done).doneEvent with
    | error e =>
      rw [he] at h
      cases h
    | ok e =>
      rw [he] at h
      cases h
      rfl
  | delta text =>
    have hannounce : ∀ s₁ sent, s.announce = .ok (s₁, sent) → s₁.requested = s.requested := by
      intro s₁ sent ha
      rw [Turn.announce] at ha
      split at ha
      · cases he : s.metaEvent with
        | error e =>
          rw [he] at ha
          cases ha
        | ok e =>
          rw [he] at ha
          cases ha
          rfl
      · split at ha
        · cases he : s.restartEvent with
          | error e =>
            rw [he] at ha
            cases ha
          | ok e =>
            rw [he] at ha
            cases ha
            rfl
        · cases ha
          rfl
    rw [Turn.apply] at h
    cases ha : s.announce with
    | error e =>
      rw [ha] at h
      cases h
    | ok sent =>
      obtain ⟨s₁, frames₁⟩ := sent
      rw [ha] at h
      cases h
      exact hannounce s₁ frames₁ ha

/-- The turns the loop may be left with. -/
def Leaves (requested : String) (r : Except Fault Driven) : Prop :=
  match r with
  | .ok (.stopped s) | .ok (.failed s _) => s.requested = requested
  | _ => True

theorem wp_drive_requested {σ : Type} (W : World iface σ) (events : List RouteStreamEvent)
    (ending : Ending) (s : Turn) (g : σ) :
    wp W (drive s events ending) (fun r _ => Leaves s.requested r) g := by
  have hany : ∀ {α : Type} (p : Eff α) (g : σ), wp W p (fun _ _ => True) g := fun p _ =>
    wp_inv W (fun _ _ _ _ _ h => h) p trivial
  induction events generalizing s g with
  | nil =>
    rw [drive, wp_bind]
    refine wp_mono _ (hany _ g) ?_
    rintro (e | gone) g' -
    · trivial
    · cases gone with
      | true => trivial
      | false => cases ending <;> trivial
  | cons ev events ih =>
    rw [drive, wp_bind]
    refine wp_mono _ (hany _ g) ?_
    rintro (e | gone) g' -
    · trivial
    cases gone with
    | true => trivial
    | false =>
      dsimp only
      rw [if_neg (by decide), wp_bind, wp_ofExcept]
      cases ha : s.apply ev with
      | error e => trivial
      | ok folded =>
        obtain ⟨s', frames⟩ := folded
        have hs' := requested_of_apply ha
        change wp _ (yieldAll frames >>= fun _ => _) _ _
        rw [wp_bind]
        refine wp_mono _ (hany _ g') ?_
        rintro (e | u) g₁ -
        · trivial
        dsimp only
        rw [wp_bind]
        refine wp_mono _ (hany _ g₁) ?_
        rintro (e | u) g₂ -
        · trivial
        dsimp only
        split
        · exact hs'
        · rw [← hs']
          exact ih s' g₂

/-- A turn that is handed over. -/
theorem wp_handOver_kept (c : Collector) {s : Turn} {script : List RouteStreamEvent × Ending}
    (hscript : t.script = some script) (hkept : t.kept = [])
    (hr : s.result.status = .ok → ∃ client, Settles s client ∧ Delivered t.feed client) :
    wp (watch Tape.note) (handOver c.persist s) (KeptPost s.requested) t := by
  unfold handOver
  split
  · rw [wp_bind, wp_attempt]
    have hends : (c.persist s.result).Asks
        (Ask.ends fun response _ => KeptLive s.requested t.frames response) :=
      ends_persist c s.result fun spec requestId created _ hok hspec => by
        obtain ⟨client, hs, hd⟩ := hr hok
        exact keptLive_of_settles hs hd spec requestId created hspec
    refine wp_mono _ (wp_ends hends (by rw [hkept]; exact fun _ h => (nomatch h))) ?_
    rintro r _ ⟨kept, rfl, hright⟩
    refine (wp_ofExcept _ _ _ _).mpr fun p hp => ?_
    change match t.script with
      | some script => FromRouter script → KeptLive s.requested t.frames p.1
      | none => KeptCached s.requested t.frames p.1
    rw [hscript]
    exact fun _ => hright p hp
  · exact .of_nil hkept

theorem wp_closeEvents_tape {α : Type} {f : Unit → Eff α} {Q : Except Fault α → Tape → Prop}
    (h : wp (watch Tape.note) (f ()) Q t) : wp (watch Tape.note) (closeEvents >>= f) Q t :=
  wp_told (q := .closeEvents) rfl (fun _ => rfl) fun _ => h

/-- **A live stream.** -/
theorem wp_streamCompletion_kept (c : Collector) (conversationId messageId requested : String)
    (pinned : Option String) (events : List RouteStreamEvent) (ending : Ending)
    (hfeed : t.feed = {}) (hscript : t.script = some (events, ending)) (hkept : t.kept = []) :
    wp (watch Tape.note)
      (streamCompletion c.persist conversationId messageId requested pinned events ending)
      (KeptPost requested) t := by
  by_cases hrouter : FromRouter (events, ending)
  · obtain ⟨cfg, chain, rtr, rr, hrun, he⟩ := hrouter
    cases he
    have hstart : AtLoop .quiet { conversationId, messageId, requested, pinned } {} t.feed := by
      rw [hfeed]
      exact ⟨rfl, rfl, rfl, fun hc => (by cases hc), rfl, .inl ⟨rfl, rfl, rfl, rfl, rfl⟩⟩
    rw [streamCompletion, wp_bind, wp_attempt]
    refine wp_mono _ (wp_and _ (wp_tape (streams_drive _ _ _)
      (Streaming.wp_drive _ hstart (Router.routeStream_script hrun)))
      (wp_drive_requested _ _ _ _ _)) ?_
    rintro (e | driven) _ ⟨⟨f, rfl, client, hdel, -, hdriven⟩, hleaves⟩
    · exact wp_closeEvents_tape (.of_nil hkept)
    cases driven with
    | gone => exact wp_closeEvents_tape (.of_nil hkept)
    | stopped s =>
      have hrequested : s.requested = requested := hleaves
      refine wp_closeEvents_tape ?_
      rw [← hrequested]
      exact wp_handOver_kept c (t := { t with feed := f }) hscript hkept
        fun _ => ⟨client, hdriven.2, hdel⟩
    | failed s failure =>
      dsimp only
      split
      · exact wp_closeEvents_tape (.of_nil hkept)
      · rw [wp_bind, wp_attempt]
        have hany : wp (watch Feed.note) (failInBand (s.recordFailure failure)) (fun _ _ => True) f :=
          wp_inv _ (fun _ _ _ _ _ h => h) _ trivial
        refine wp_mono _ (wp_tape (t := { t with feed := f }) (streams_failInBand _) hany) ?_
        rintro (e | u) _ ⟨f', rfl, -⟩
        · exact wp_closeEvents_tape (.of_nil hkept)
        · have hrequested : (s.recordFailure failure).requested = requested := hleaves
          refine wp_closeEvents_tape ?_
          rw [← hrequested]
          exact wp_handOver_kept c (t := { t with feed := f' }) hscript hkept
            fun hok => (by cases hok)
  · -- What a router does not send need not be kept right.
    have hkeep := wp_inv (watch Tape.note) (fun t q a t' ht h =>
      (show t' = t.note ⟨q, a⟩ from ht) ▸ script_note h ⟨q, a⟩)
      (streamCompletion c.persist conversationId messageId requested pinned events ending) hscript
    refine wp_mono _ hkeep ?_
    intro r t' h' p hp
    rw [h']
    exact fun hfrom => absurd hfrom hrouter

/-- A cached answer, as it is kept. -/
theorem keptCached_of_recites (cached : Exact.CachedResponse)
    (requested conversationId messageId requestId : String) (created : Int) :
    KeptCached requested (cachedFrames cached requested conversationId messageId)
      (Collector.cachedEnvelope cached requested conversationId messageId requestId created) :=
  ⟨_, recites_cachedFrames cached requested conversationId messageId, rfl, fun _ => ⟨_, rfl⟩⟩

/-- The frames of a stored answer, all of them or not. -/
theorem wp_yieldAll_tape (frames : List Frame) (hfeed : t.feed = {}) :
    wp (watch Tape.note) (yieldAll frames) (fun r t' => ∃ f, t' = { t with feed := f } ∧
      ∀ u, r = .ok u → f.sent = frames) t := by
  refine wp_mono _ (wp_tape (streams_yieldAll frames) (Streaming.wp_yieldAll frames t.feed)) ?_
  rintro r _ ⟨f, rfl, huttered⟩
  refine ⟨f, rfl, fun u hu => ?_⟩
  obtain ⟨hsent, -, -⟩ := huttered.through u hu
  rw [hsent, hfeed]
  rfl

/-- **A stored answer, streamed.** -/
theorem wp_streamCachedCompletion_kept (c : Collector) (cached : Exact.CachedResponse)
    (requested conversationId messageId : String) (hfeed : t.feed = {})
    (hscript : t.script = none) (hkept : t.kept = []) :
    wp (watch Tape.note)
      (streamCachedCompletion (some (c.persistCacheHit cached requested conversationId messageId))
        cached requested conversationId messageId) (KeptPost requested) t := by
  rw [streamCachedCompletion.eq_def, wp_bind]
  refine wp_mono _ (wp_yieldAll_tape _ hfeed) ?_
  rintro (e | u) _ ⟨f, rfl, hsent⟩
  · exact .of_nil hkept
  · have hends : (c.persistCacheHit cached requested conversationId messageId).Asks
        (Ask.ends fun response _ => KeptCached requested f.sent response) := by
      rw [hsent u rfl]
      exact ends_persistCacheHit c cached requested conversationId messageId
        fun requestId created _ => keptCached_of_recites cached requested conversationId messageId
          requestId created
    dsimp only
    rw [wp_bind, wp_attempt]
    refine wp_mono _ (wp_ends (t := { t with feed := f }) hends
      (by rw [show ({ t with feed := f } : Tape).kept = [] from hkept]
          exact fun _ h => (nomatch h))) ?_
    rintro r _ ⟨kept, rfl, hright⟩
    refine (wp_ofExcept _ _ _ _).mpr fun p hp => ?_
    change match t.script with
      | some script => FromRouter script → KeptLive requested f.sent p.1
      | none => KeptCached requested f.sent p.1
    rw [hscript]
    exact hright p hp

/-! ## A streamed turn -/

/-- What the endpoint leads to, in the streaming mode. -/
def StreamedPost (requested : String) (r : Except Fault Served) (t : Tape) : Prop :=
  match r with
  | .ok (.json _ _) => False
  | .ok (.stream body _) => wp (watch Tape.note) body (KeptPost requested) t
  | .error _ => KeptPost requested r t

theorem streamedPost_error {requested : String} (h : t.kept = []) (e : Fault) :
    StreamedPost requested (.error e) t := by
  intro p hp
  rw [h] at hp
  cases hp

theorem wp_serveLive_streamed (req : Request) (ticket : Option ClaimTicket)
    (conversation : Conversation) (messageId : String) (hfeed : t.feed = {})
    (hscript : t.script = none) (hkept : t.kept = []) :
    wp (watch Tape.note) (serveLive req ticket conversation messageId)
      (StreamedPost req.body.model) t := by
  rw [serveLive]
  rintro ⟨events, ending⟩ _ rfl
  have hstarted : (Tape.note t ⟨.routeStream, ((events, ending) :
      List RouteStreamEvent × Ending)⟩).script = some (events, ending) := by
    unfold Tape.note
    rw [hscript]
    rfl
  have hstream := wp_streamCompletion_kept (t := t.note ⟨.routeStream, ((events, ending) :
      List RouteStreamEvent × Ending)⟩) (req.collector ticket) conversation.id messageId
    req.body.model conversation.pinnedModel events ending hfeed hstarted hkept
  refine (wp_bind _ ((prime _).attempt) _ _ _).mpr ?_
  rw [wp_attempt]
  refine wp_mono _ (wp_prime _ (fun _ => True) (fun _ _ _ _ _ _ _ => trivial) trivial hstream) ?_
  rintro (e | ⟨frame, rest⟩) t' ⟨-, h'⟩
  · obtain ⟨_, hkept'⟩ := h'
    have herror : ∀ e, StreamedPost req.body.model (.error e) t' := fun _ => hkept'
    cases e with
    | routing failure =>
      exact wp_failTurn failure (fun _ => rfl) (fun _ => rfl) herror fun e _ => herror e
    | _ => exact herror _
  · exact h'

theorem wp_streamChatCompletion_streamed (req : Request) (ticket : Option ClaimTicket)
    (conversation : Conversation) (hfeed : t.feed = {}) (hscript : t.script = none)
    (hkept : t.kept = []) :
    wp (watch Tape.note) (streamChatCompletion req ticket conversation)
      (StreamedPost req.body.model) t := by
  rw [streamChatCompletion]
  refine wp_told (q := .uuid4) rfl (fun _ => rfl) fun messageId => ?_
  cases req.cacheKey with
  | none => exact wp_serveLive_streamed req ticket conversation messageId hfeed hscript hkept
  | some key =>
    refine wp_skip (p := cacheGet key) rfl (fun _ => rfl) (streamedPost_error hkept) fun found => ?_
    cases found with
    | none => exact wp_serveLive_streamed req ticket conversation messageId hfeed hscript hkept
    | some cached =>
      refine wp_told (q := .elapsedMs) rfl (fun _ => rfl) fun _ => ?_
      exact wp_streamCachedCompletion_kept { idempotency := ticket } cached req.body.model
        conversation.id messageId hfeed hscript hkept

theorem wp_serveCompletion_streamed (req : Request) (ticket : Option ClaimTicket)
    (hstream : req.body.stream = true) (hfeed : t.feed = {}) (hscript : t.script = none)
    (hkept : t.kept = []) :
    wp (watch Tape.note) (serveCompletion req ticket) (StreamedPost req.body.model) t := by
  have herror : ∀ e, StreamedPost req.body.model (.error e) t := streamedPost_error hkept
  rw [serveCompletion]
  refine wp_skip (p := resolveConversation) rfl (fun _ => rfl) herror fun conversation => ?_
  refine wp_skip (p := resolveFileRefs) rfl (fun _ => rfl) herror fun _ => ?_
  rw [wp_bind]
  refine wp_clerical (clerical_appendAll req.body.messages) fun r => ?_
  rcases r with e | u
  · exact herror e
  refine wp_skip (p := touch req.body.model) rfl (fun _ => rfl) herror fun _ => ?_
  refine wp_skip (p := commitSession) rfl (fun _ => rfl) herror fun _ => ?_
  refine wp_skip (p := listForConversation) rfl (fun _ => rfl) herror fun _ => ?_
  rw [if_pos hstream]
  exact wp_streamChatCompletion_streamed req ticket conversation hfeed hscript hkept

theorem wp_serveClaimed_streamed (req : Request) (ticket : Option ClaimTicket)
    (hstream : req.body.stream = true) (hfeed : t.feed = {}) (hscript : t.script = none)
    (hkept : t.kept = []) :
    wp (watch Tape.note) (serveClaimed req ticket) (StreamedPost req.body.model) t := by
  rw [serveClaimed, wp_bind, wp_attempt]
  refine wp_mono _ (wp_serveCompletion_streamed req ticket hstream hfeed hscript hkept) ?_
  intro r t' h'
  rcases r with e | served
  · have herror : ∀ e, StreamedPost req.body.model (.error e) t' := fun _ => h'
    dsimp only
    split
    · exact wp_skip (p := release) rfl (fun _ => rfl) herror fun _ => herror e
    · exact herror e
  · cases served with
    | json response xCache => exact h'.elim
    | stream body xCache => exact h'

/-- What the endpoint leads to behind its gate. -/
def TurnPost (requested : String) (r : Except Fault Served) (t : Tape) : Prop :=
  match r with
  | .ok (.stream body _) => wp (watch Tape.note) body (KeptPost requested) t
  | _ => KeptPost requested r t

theorem turnPost_error {requested : String} (h : t.kept = []) (e : Fault) :
    TurnPost requested (.error e) t := by
  intro p hp
  rw [h] at hp
  cases hp

theorem wp_serveClaimed_turn (req : Request) (ticket : Option ClaimTicket)
    (hstream : req.body.stream = true) (hfeed : t.feed = {}) (hscript : t.script = none)
    (hkept : t.kept = []) :
    wp (watch Tape.note) (serveClaimed req ticket) (TurnPost req.body.model) t := by
  refine wp_mono _ (wp_serveClaimed_streamed req ticket hstream hfeed hscript hkept) ?_
  intro r t' h'
  rcases r with e | served
  · exact h'
  · cases served with
    | json response xCache => exact h'.elim
    | stream body xCache => exact h'

/-- A replay is no answer of its own. -/
theorem wp_streamCachedCompletion_blank (cached : Exact.CachedResponse)
    (requested conversationId messageId : String) (hkept : t.kept = []) :
    wp (watch Tape.note) (streamCachedCompletion none cached requested conversationId messageId)
      (KeptPost requested) t := by
  rw [streamCachedCompletion.eq_def, wp_bind]
  refine wp_mono _ (wp_tape (streams_yieldAll _) (Streaming.wp_yieldAll _ t.feed)) ?_
  rintro (e | u) _ ⟨f, rfl, -⟩
  · exact .of_nil hkept
  · exact KeptPost.of_nil hkept

theorem wp_createChatCompletion_turn (req : Request) (hstream : req.body.stream = true) :
    wp (watch Tape.note) (createChatCompletion req) (TurnPost req.body.model) {} := by
  have herror : ∀ e, TurnPost req.body.model (.error e) {} := turnPost_error rfl
  rw [createChatCompletion]
  refine wp_skip (p := validateSlot req.body.model) rfl (fun _ => rfl) herror fun _ => ?_
  cases req.idempotencyKey with
  | none => exact wp_serveClaimed_turn req none hstream rfl rfl rfl
  | some key =>
    dsimp only
    rw [wp_bind, gate]
    split
    · exact herror (.app "invalid_idempotency_key")
    refine wp_watch_step (p := claim) rfl (fun a e _ => turnPost_error rfl e) fun a result _ => ?_
    cases result with
    | claimed => exact wp_serveClaimed_turn req (some req.requestId) hstream rfl rfl rfl
    | inFlight => exact turnPost_error rfl (.app "idempotency_in_flight")
    | fingerprintMismatch => exact turnPost_error rfl (.app "idempotency_key_reuse")
    | replay envelope =>
      obtain ⟨response, cacheStatus⟩ := envelope
      dsimp only
      rw [wp_bind]
      cases response with
      | none => exact wp_serveClaimed_turn req none hstream rfl rfl rfl
      | some stored =>
        refine wp_mono _ (wp_serveReplay_retold req stored cacheStatus) ?_
        rintro r _ ⟨rfl, hretold⟩
        rcases r with e | replayed
        · exact turnPost_error rfl e
        · obtain ⟨served, rfl, hserved⟩ := hretold replayed rfl
          rw [Retold, if_pos hstream] at hserved
          obtain ⟨createdAt, rfl⟩ := hserved
          exact wp_streamCachedCompletion_blank _ _ _ _ rfl

/-- **The tape of a streamed turn.** -/
theorem wp_turn_kept (req : Request) (hstream : req.body.stream = true) :
    wp (watch Tape.note) (turn req) (KeptPost req.body.model) {} := by
  rw [turn, wp_bind]
  refine wp_mono _ (wp_createChatCompletion_turn req hstream) ?_
  intro r t' h'
  rcases r with e | served
  · exact h'
  · cases served with
    | json response xCache => exact h'
    | stream body xCache => exact h'

/-- **The tape of a retry**, streamed to its end. -/
theorem wp_turn_retried (req : Request) (hstream : req.body.stream = true)
    (hkey : req.idempotencyKey.isSome) :
    wp (watch Tape.note) (turn req) (fun r t => ∀ stored cacheStatus,
      t.claim = some (.result (.replay { response := some stored, cacheStatus })) → r = .ok () →
      ∃ createdAt, t.frames = cachedFrames (asReplayable stored createdAt) req.body.model
        stored.conversationId stored.messageId) {} := by
  rw [turn, wp_bind]
  refine wp_mono _ (wp_createChatCompletion_retried req hkey) ?_
  intro r t' h'
  rcases r with e | served
  · exact fun _ _ _ he => (nomatch he)
  · obtain ⟨a, hclaim, hretold⟩ := h' served rfl
    by_cases ha : ∃ stored cacheStatus,
        a = .result (.replay { response := some stored, cacheStatus })
    · obtain ⟨stored, cacheStatus, rfl⟩ := ha
      obtain ⟨hfeed, hserved⟩ := hretold stored cacheStatus rfl
      rw [Retold, if_pos hstream] at hserved
      obtain ⟨createdAt, rfl⟩ := hserved
      dsimp only
      rw [streamCachedCompletion.eq_def, wp_bind]
      refine wp_mono _ (wp_yieldAll_tape _ hfeed) ?_
      rintro (e | u) _ ⟨f, rfl, hsent⟩
      · exact fun _ _ _ he => (nomatch he)
      · intro stored' cacheStatus' hc _
        rw [show ({ t' with feed := f } : Tape).claim = t'.claim from rfl, hclaim] at hc
        cases hc
        exact ⟨createdAt, hsent u rfl⟩
    · refine wp_otherwise _ hclaim fun r t'' h stored cacheStatus hc _ => ?_
      exact absurd ⟨stored, cacheStatus, Option.some.inj (h.symm.trans hc)⟩ ha

end

/-! ## The two answers -/

/-- A retry that is streamed to its end recites the envelope. -/
theorem recites_of_retry {req req' : Request} {stored : ChatCompletionResponse}
    {cacheStatus : Option Exact.CacheStatus} {tr' : List (Event iface)}
    (hstream : req.body.stream = true) (h : (turn req').Runs tr' (.ok ()))
    (hretry : Retries req req' stored cacheStatus tr') :
    ∃ createdAt, Recites stored.content
      (cachedDone (asReplayable stored createdAt) req.body.model) (Tape.of tr').frames := by
  have hstream' : req'.body.stream = true := by
    rw [hretry.body]
    exact hstream
  obtain ⟨createdAt, hframes⟩ := wp_watch_sound (wp_turn_retried req' hstream' hretry.keyed) h
    stored cacheStatus hretry.replay rfl
  refine ⟨createdAt, ?_⟩
  rw [show (Tape.of tr').frames = _ from hframes, hretry.body]
  exact recites_cachedFrames _ _ _ _

/-- A question under a key. -/
def keyed : Request := { cold with idempotencyKey := some "k" }

/-- A router with one candidate, which answers. -/
def routing : (q : Ask) → Ans q
  | .routeStream =>
    let run := Router.against Router.oblige (Router.routeStream {} [Router.groq])
    ((Router.yielded run.1, .of run.2) : List RouteStreamEvent × Ending)
  | q => answering q

/-- The key was used before. -/
def retrying (stored : ChatCompletionResponse) (cacheStatus : Exact.CacheStatus) :
    (q : Ask) → Ans q
  | .claim => .result (.replay { response := some stored, cacheStatus := some cacheStatus })
  | q => answering q

/-- An answer to the question, as it is kept. -/
def keptBody (content messageId : String) (usage : UsageOut) : ChatCompletionResponse :=
  { id := "r", created := 0, model := Router.groq.model, content, finishReason := "stop", usage
    servedBy := Router.groq.servedBy, requestedSlot := auto, keyPool := some .shared
    conversationId := "conversation", messageId }

/-- What is kept of the live stream. -/
def keptStream : ChatCompletionResponse := keptBody "answer" "uuid" (UsageOut.of 7 1 true)

/-- And of the answer at once. -/
def keptAtOnce : ChatCompletionResponse := keptBody "hi" "message" (UsageOut.of 3 1 false)

theorem retries_retrying (req : Request) (stored : ChatCompletionResponse)
    (cacheStatus : Exact.CacheStatus) {tr : List (Event iface)} (hkey : req.idempotencyKey.isSome)
    (h : (Tape.of tr).claim =
      some (.result (.replay { response := some stored, cacheStatus := some cacheStatus }))) :
    Retries req req stored (some cacheStatus) tr := ⟨rfl, hkey, h⟩

-- so that instants are computed with
unseal Rat.add Rat.sub Rat.mul Rat.inv Rat.ofScientific

/-- What a stream's end discloses. -/
structure Disclosure where
  servedBy : ServedBy
  requestedSlot : String
  substituted : Bool
  degraded : Bool
  extractionTier : Option ExtractionTier
  messagesDropped : Nat
  keyPool : Option KeyPool
  attempts : Nat
  warning : Option String
  usage : UsageOut

def disclosure (d : DoneEvent) : Disclosure :=
  { servedBy := d.servedBy, requestedSlot := d.requestedSlot, substituted := d.substituted
    degraded := d.degraded, extractionTier := d.extractionTier
    messagesDropped := d.messagesDropped, keyPool := d.keyPool, attempts := d.attempts
    warning := d.warning, usage := d.usage }

end Chat

end LlmGateway
