import LlmGateway.Chat.Completions
import LlmGateway.Chat.Rules

/-!
# What is cached

The two modes of a turn decide for themselves whether an answer is written to
the exact cache: the endpoint by `is_cacheable` over the render report, the
collector by the fields of its result.
-/

namespace LlmGateway

namespace Chat

open Effects Streaming

/-! ## Writes to the cache -/

/-- The write of one event. -/
def putOf : Event iface → Option String
  | ⟨.cachePut key _, _⟩ => some key
  | _ => none

/-- The keys a trace writes to the cache. -/
def puts (tr : List (Event iface)) : List String := tr.filterMap putOf

/-- The writes so far, and those of one more event. -/
def notePut (keys : List String) (e : Event iface) : List String := keys ++ (putOf e).toList

theorem foldl_notePut (tr : List (Event iface)) (keys : List String) :
    tr.foldl notePut keys = keys ++ puts tr := by
  induction tr generalizing keys with
  | nil => exact (List.append_nil keys).symm
  | cons e tr ih =>
    rw [List.foldl_cons, ih, notePut, List.append_assoc, puts, puts, List.filterMap_cons]
    cases putOf e <;> rfl

/-- What holds of the writes where a program returns. -/
def Returning {α : Type} (P : List String → Prop) : Except Fault α → List String → Prop
  | .ok _, keys => P keys
  | .error _, _ => True

/-- The writes of a run that returns. -/
theorem puts_of_wp {α : Type} {p : Eff α} {P : List String → Prop} {tr : List (Event iface)}
    {a : α} (h : wp (watch notePut) p (Returning P) []) (hr : p.Runs tr (.ok a)) : P (puts tr) := by
  have hrun : P (tr.foldl notePut []) := wp_watch_sound h hr
  rwa [foldl_notePut] at hrun

section

variable {α β : Type} {P : List String → Prop} {keys : List String}

theorem notePut_skip {e : Event iface} (h : putOf e = none) : notePut keys e = keys := by
  rw [notePut, h]
  exact List.append_nil keys

/-- A step that writes nothing, where only what is returned counts. -/
theorem wp_step {p : Eff α} {f : α → Eff β} {q : Ask} {o : Ans q → Except Fault α}
    (hp : p = .ask q fun a => .ofExcept (o a)) (hq : ∀ a, putOf ⟨q, a⟩ = none)
    (hnext : ∀ a, wp (watch notePut) (f a) (Returning P) keys) :
    wp (watch notePut) (p >>= f) (Returning P) keys :=
  wp_watch_skip hp (fun a => notePut_skip (hq a)) (fun _ => trivial) hnext

/-- Such a step at the end. -/
theorem wp_last {p : Eff α} {q : Ask} {o : Ans q → Except Fault α}
    (hp : p = .ask q fun a => .ofExcept (o a)) (hq : ∀ a, putOf ⟨q, a⟩ = none) (hk : P keys) :
    wp (watch notePut) p (Returning P) keys := by
  refine wp_watch_last hp fun a => ?_
  rw [notePut_skip (hq a)]
  cases o a with
  | error e => trivial
  | ok b => exact hk

/-- A write, and what a program does behind it. -/
theorem wp_put {key : String} {value : Exact.CachedResponse} (hP : P (keys ++ [key])) :
    wp (watch notePut) (cachePut key value) (Returning P) keys := by
  rw [wp_cachePut]
  rintro a _ rfl
  cases shrugged (lift a.outcome) with
  | error e => trivial
  | ok u => exact hP

/-- One part behind another. -/
theorem wp_then {p : Eff α} {f : α → Eff β} (P' : List String → Prop)
    (h : wp (watch notePut) p (Returning P') keys)
    (hnext : ∀ a keys', P' keys' → wp (watch notePut) (f a) (Returning P) keys') :
    wp (watch notePut) (p >>= f) (Returning P) keys := by
  rw [wp_bind]
  refine wp_mono _ h ?_
  rintro (e | a) keys' hk
  · trivial
  · exact hnext a keys' hk

theorem wp_withSession {p : Eff α} (h : wp (watch notePut) p (Returning P) keys) :
    wp (watch notePut) (Collector.withSession p) (Returning P) keys := by
  rw [Collector.withSession]
  refine wp_step rfl (fun _ => rfl) fun _ => ?_
  rw [wp_bind, wp_attempt]
  refine wp_mono _ h ?_
  rintro (e | a) keys' hk
  · exact wp_step rfl (fun _ => rfl) fun _ => trivial
  · exact wp_step rfl (fun _ => rfl) fun _ => hk

/-! ## The collector -/

variable (c : Collector) (result : StreamResult) (spec : ModelSpec)

theorem wp_cacheAnswer_collector : wp (watch notePut) (c.cacheAnswer result spec)
    (Returning (· = keys ++ (c.cacheSlot result).toList)) keys := by
  rw [Collector.cacheAnswer]
  cases c.cacheSlot result with
  | none => exact (List.append_nil keys).symm
  | some key =>
    refine wp_step (q := .isoNow) (o := Except.ok) rfl (fun _ => rfl) fun _ => ?_
    exact wp_put rfl

theorem wp_completeClaim (hk : P keys) :
    wp (watch notePut) (c.completeClaim result spec) (Returning P) keys := by
  rw [Collector.completeClaim]
  cases c.idempotency with
  | none => exact hk
  | some requestId =>
    refine wp_step (q := .timestamp) (o := Except.ok) rfl (fun _ => rfl) fun _ => ?_
    exact wp_last rfl (fun _ => rfl) hk

/-- What the collector caches of a turn that was served. -/
theorem puts_persist {tr : List (Event iface)} (hok : result.status = .ok)
    (h : (c.persist result).Runs tr (.ok ())) : puts tr = (c.cacheSlot result).toList := by
  refine puts_of_wp (P := (· = (c.cacheSlot result).toList)) (wp_withSession ?_) h
  rw [if_pos hok, Collector.persistSuccess]
  cases result.spec with
  | none => trivial
  | some spec =>
    refine wp_then (· = (c.cacheSlot result).toList) ?_ fun _ keys hkeys =>
      wp_last rfl (fun _ => rfl) hkeys
    refine wp_step rfl (fun _ => rfl) fun _ => ?_
    refine wp_step rfl (fun _ => rfl) fun _ => ?_
    refine wp_then _ (wp_cacheAnswer_collector c result spec) fun _ keys hkeys => ?_
    exact wp_completeClaim c result spec hkeys

/-! ## The endpoint -/

theorem wp_cacheAnswer (req : Request) (outcome : RouterOutcome) :
    wp (watch notePut) (cacheAnswer req outcome)
      (Returning (· = keys ++ (cacheSlot req outcome.report).toList)) keys := by
  rw [cacheAnswer]
  cases cacheSlot req outcome.report with
  | none => exact (List.append_nil keys).symm
  | some key =>
    refine wp_step (q := .isoNow) (o := Except.ok) rfl (fun _ => rfl) fun _ => ?_
    exact wp_put rfl

/-- What the endpoint caches of a turn that was served. -/
theorem puts_serveOutcome {req : Request} {conversation : Conversation}
    {xCache : Exact.CacheStatus} {outcome : RouterOutcome} {served : Served}
    {tr : List (Event iface)}
    (h : (serveOutcome req conversation xCache outcome).Runs tr (.ok served)) :
    puts tr = (cacheSlot req outcome.report).toList := by
  refine puts_of_wp (P := (· = (cacheSlot req outcome.report).toList)) ?_ h
  rw [serveOutcome]
  refine wp_step (q := .elapsedMs) (o := Except.ok) rfl (fun _ => rfl) fun _ => ?_
  refine wp_step rfl (fun _ => rfl) fun _ => ?_
  refine wp_step rfl (fun _ => rfl) fun _ => ?_
  refine wp_step rfl (fun _ => rfl) fun _ => ?_
  refine wp_then _ (wp_cacheAnswer req outcome) fun _ keys hkeys => ?_
  exact wp_step (q := .timestamp) (o := Except.ok) rfl (fun _ => rfl) fun _ => hkeys

end

/-! ## One rule -/

/-- Documents were cut, and nothing else stands against caching the answer. -/
def OnlyDocumentsCut (req : Request) (report : RenderReport) : Prop :=
  req.cacheKey.isSome ∧ report.degraded = false ∧ report.messagesDropped = 0 ∧
    0 < report.documentsTruncated

theorem cache_of_cacheKey {req : Request} {key : String} (h : req.cacheKey = some key) :
    req.cache = true ∧ Exact.isCacheable req.body.temperature = true := by
  rw [Request.cacheKey] at h
  split at h
  next hc => exact Bool.and_eq_true_iff.mp hc
  next => cases h

/-- The endpoint's rule, over a request that may be cached. -/
theorem cacheSlot_eq {req : Request} (report : RenderReport) :
    cacheSlot req report =
      if report.degraded || report.truncated then none else req.cacheKey := by
  rw [cacheSlot]
  cases hkey : req.cacheKey with
  | none => split <;> split <;> rfl
  | some key =>
    have htemp := (cache_of_cacheKey hkey).2
    have hcold : ¬ 0 < req.body.temperature := by
      intro hpos
      rw [Exact.isCacheable, if_pos hpos] at htemp
      cases htemp
    rw [Exact.isCacheable, if_neg hcold]
    cases report.degraded <;> cases report.truncated <;> rfl

/-- The collector's, over the result of a turn with that report. -/
theorem collectorSlot_eq {req : Request} (ticket : Option ClaimTicket) (s : Turn)
    (done : StreamCompleted) :
    (req.collector ticket).cacheSlot (s.complete done).result =
      if done.report.degraded || done.report.messagesDropped != 0 then none
      else req.cacheKey := by
  change (if req.cache && !done.report.degraded && done.report.messagesDropped == 0 then
    req.cacheKey else none) = _
  cases hkey : req.cacheKey with
  | none => split <;> split <;> rfl
  | some key =>
    have hcache := (cache_of_cacheKey hkey).1
    rw [hcache]
    cases report : done.report.degraded <;> cases hd : done.report.messagesDropped == 0 <;>
      simp_all

/-- **One cacheability rule.** Over the same request and the same render report,
the streaming mode caches its answer just when the other does, unless documents
were cut and nothing else stands against it. -/
theorem puts_agree_iff {req : Request} {ticket : Option ClaimTicket}
    {conversation : Conversation} {xCache : Exact.CacheStatus} {outcome : RouterOutcome}
    {s : Turn} {done : StreamCompleted} (hsame : done.report = outcome.report)
    {tr tr' : List (Event iface)} {served : Served}
    (hstream : ((req.collector ticket).persist (s.complete done).result).Runs tr (.ok ()))
    (hserve : (serveOutcome req conversation xCache outcome).Runs tr' (.ok served)) :
    (puts tr ≠ [] ↔ puts tr' ≠ []) ↔ ¬ OnlyDocumentsCut req outcome.report := by
  rw [puts_persist _ _ rfl hstream, puts_serveOutcome hserve, cacheSlot_eq, collectorSlot_eq,
    hsame, OnlyDocumentsCut, RenderReport.truncated]
  cases hkey : req.cacheKey with
  | none => simp
  | some key =>
    cases hd : outcome.report.degraded with
    | true => simp
    | false =>
      by_cases hm : outcome.report.messagesDropped = 0
      · by_cases ht : 0 < outcome.report.documentsTruncated
        · simp [hm, ht]
        · simp [hm, ht]
      · have hpos : 0 < outcome.report.messagesDropped := Nat.pos_of_ne_zero hm
        simp [hm, hpos]

/-- The collector's part of such a turn. -/
def collected (report : RenderReport) : Eff Unit :=
  (cold.collector none).persist
    (Turn.complete
      { conversationId := "c", messageId := "m", requested := auto, pinned := none, buffer := ["hi"] }
      (streamed report)).result

/-- The endpoint's. -/
def servedAtOnce (report : RenderReport) : Eff Served :=
  serveOutcome cold { id := "c" } .miss (answered report)

/-- What the endpoint returns of it. -/
theorem servedAtOnce_returns (report : RenderReport) :
    ∃ served, (against oblige (servedAtOnce report)).2 = .ok served := by
  unfold servedAtOnce serveOutcome cacheAnswer
  cases cacheSlot cold (answered report).report <;> exact ⟨_, rfl⟩

/-- Both modes cache an answer over a whole history. -/
theorem puts_agree_iff_whole :
    (puts (against oblige (collected {})).1 ≠ [] ↔
      puts (against oblige (servedAtOnce {})).1 ≠ []) := by
  obtain ⟨served, hserved⟩ := servedAtOnce_returns {}
  have hstream : (collected {}).Runs (against oblige (collected {})).1 (.ok ()) :=
    against_runs oblige (collected {})
  have hserve : (servedAtOnce {}).Runs (against oblige (servedAtOnce {})).1 (.ok served) :=
    hserved ▸ against_runs oblige (servedAtOnce {})
  exact (puts_agree_iff rfl hstream hserve).mpr fun h => absurd h.2.2.2 (by decide)

/-- **The two rules differ.** An answer over documents that were cut is cached by
the streaming mode alone. -/
theorem not_puts_agree :
    ¬ ∀ (req : Request) (ticket : Option ClaimTicket) (conversation : Conversation)
      (xCache : Exact.CacheStatus) (outcome : RouterOutcome) (s : Turn) (done : StreamCompleted)
      (tr tr' : List (Event iface)) (served : Served), done.report = outcome.report →
      ((req.collector ticket).persist (s.complete done).result).Runs tr (.ok ()) →
      (serveOutcome req conversation xCache outcome).Runs tr' (.ok served) →
      (puts tr ≠ [] ↔ puts tr' ≠ []) := by
  intro h
  let cut : RenderReport := { documentsTruncated := 1 }
  obtain ⟨served, hserved⟩ := servedAtOnce_returns cut
  have hstream : (collected cut).Runs (against oblige (collected cut)).1 (.ok ()) :=
    against_runs oblige (collected cut)
  have hserve : (servedAtOnce cut).Runs (against oblige (servedAtOnce cut)).1 (.ok served) :=
    hserved ▸ against_runs oblige (servedAtOnce cut)
  have hagree := h cold none { id := "c" } .miss (answered cut) _ (streamed cut) _ _ served rfl
    hstream hserve
  exact absurd hagree (by decide)

end Chat

end LlmGateway
