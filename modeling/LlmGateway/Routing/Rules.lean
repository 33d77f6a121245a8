import LlmGateway.Routing.Interface

/-!
# Preconditions of the loop's questions

One rule for each question: what must hold of every answer the world admits.
A question that awaits hands its outcome on as it is, so its rule quantifies
over the outcome and the error paths need no rule of their own.
-/

namespace LlmGateway

namespace Router

open Effects

variable {σ : Type} (W : World iface σ) (g : σ)

section

variable (spec : ModelSpec) (provider model scope requestId payload key : String)
  (decision : BreakerDecision) (exc : ProviderError)

@[simp] theorem wp_now (Q : Except Exn Seconds → σ → Prop) :
    wp W now Q g ↔ ∀ t g', W g .now t g' → Q (.ok t) g' := Iff.rfl

@[simp] theorem wp_adapterForSpec (Q : Except Exn Unit → σ → Prop) :
    wp W (adapterForSpec spec) Q g ↔ ∀ r g', W g (.adapterForSpec spec) r g' → Q r g' :=
  wp_await W (fun _ => rfl) Q g

@[simp] theorem wp_forProvider (Q : Except Exn ResolvedKey → σ → Prop) :
    wp W (forProvider provider model) Q g ↔
      ∀ r g', W g (.forProvider provider model) r g' → Q r g' :=
  wp_await W (fun _ => rfl) Q g

@[simp] theorem wp_allows (Q : Except Exn BreakerDecision → σ → Prop) :
    wp W (allows provider model) Q g ↔ ∀ r g', W g (.allows provider model) r g' → Q r g' :=
  wp_await W (fun _ => rfl) Q g

@[simp] theorem wp_render (Q : Except Exn (Payload × RenderReport) → σ → Prop) :
    wp W (render spec) Q g ↔ ∀ r g', W g (.render spec) r g' → Q r g' :=
  wp_await W (fun _ => rfl) Q g

@[simp] theorem wp_uuid4 (Q : Except Exn String → σ → Prop) :
    wp W uuid4 Q g ↔ ∀ u g', W g .uuid4 u g' → Q (.ok u) g' := Iff.rfl

@[simp] theorem wp_reserve (tokens : Int) (extra : List WindowGrant)
    (Q : Except Exn QuotaDecision → σ → Prop) :
    wp W (reserve spec scope tokens requestId extra) Q g ↔
      ∀ r g', W g (.reserve spec scope tokens requestId extra) r g' → Q r g' :=
  wp_await W (fun _ => rfl) Q g

@[simp] theorem wp_complete (Q : Except Exn Completion → σ → Prop) :
    wp W (complete spec payload key) Q g ↔
      ∀ r g', W g (.complete spec payload key) r g' → Q r g' :=
  wp_await W (fun _ => rfl) Q g

@[simp] theorem wp_stream (Q : Except Exn (List StreamChunk × StreamEnd) → σ → Prop) :
    wp W (stream spec payload key) Q g ↔
      ∀ r g', W g (.stream spec payload key) r g' → Q r g' :=
  wp_await W (fun _ => rfl) Q g

@[simp] theorem wp_aclose (Q : Except Exn Unit → σ → Prop) :
    wp W aclose Q g ↔ ∀ r g', W g .aclose r g' → Q r g' :=
  wp_await W (fun _ => rfl) Q g

@[simp] theorem wp_yieldEvent (ev : RouteStreamEvent) (Q : Except Exn Unit → σ → Prop) :
    wp W (yieldEvent ev) Q g ↔ ∀ a g', W g (.yield ev) a g' → Q a.outcome g' :=
  wp_await W (fun _ => rfl) Q g

@[simp] theorem wp_commit (reservation : Reservation) (tokensIn tokensOut : Int)
    (Q : Except Exn Unit → σ → Prop) :
    wp W (commit reservation tokensIn tokensOut) Q g ↔
      ∀ a g', W g (.commit reservation tokensIn tokensOut) a g' → Q a.outcome g' :=
  wp_await W (fun _ => rfl) Q g

@[simp] theorem wp_takeHint (Q : Except Exn (Option QuotaHint) → σ → Prop) :
    wp W takeHint Q g ↔ ∀ h g', W g .takeHint h g' → Q (.ok h) g' := Iff.rfl

@[simp] theorem wp_applyHint (hint : QuotaHint) (Q : Except Exn Unit → σ → Prop) :
    wp W (applyHint spec scope hint) Q g ↔
      ∀ r g', W g (.applyHint spec scope hint) r g' → Q r g' :=
  wp_await W (fun _ => rfl) Q g

@[simp] theorem wp_recordAuthFailure (resolved : ResolvedKey) (Q : Except Exn Unit → σ → Prop) :
    wp W (recordAuthFailure resolved) Q g ↔
      ∀ r g', W g (.recordAuthFailure resolved) r g' → Q r g' :=
  wp_await W (fun _ => rfl) Q g

@[simp] theorem wp_uniform (lo hi : ℚ) (Q : Except Exn ℚ → σ → Prop) :
    wp W (uniform lo hi) Q g ↔ ∀ u g', W g (.uniform lo hi) u g' → Q (.ok u) g' := Iff.rfl

@[simp] theorem wp_sleep (delay : Seconds) (Q : Except Exn Unit → σ → Prop) :
    wp W (sleep delay) Q g ↔ ∀ r g', W g (.sleep delay) r g' → Q r g' :=
  wp_await W (fun _ => rfl) Q g

@[simp] theorem wp_recordFailure (Q : Except Exn Unit → σ → Prop) :
    wp W (recordFailure decision exc) Q g ↔
      ∀ r g', W g (.recordFailure decision exc) r g' → Q r g' :=
  wp_await W (fun _ => rfl) Q g

@[simp] theorem wp_recordSuccess (Q : Except Exn Unit → σ → Prop) :
    wp W (recordSuccess decision) Q g ↔ ∀ r g', W g (.recordSuccess decision) r g' → Q r g' :=
  wp_await W (fun _ => rfl) Q g

@[simp] theorem wp_metricsRecord (series : Series) (ms : Int) (Q : Except Exn Unit → σ → Prop) :
    wp W (metricsRecord provider model series ms) Q g ↔
      ∀ u g', W g (.metricsRecord provider model series ms) u g' → Q (.ok u) g' := Iff.rfl

@[simp] theorem wp_log (line : LogLine) (Q : Except Exn Unit → σ → Prop) :
    wp W (log line) Q g ↔ ∀ u g', W g (.log line) u g' → Q (.ok u) g' := Iff.rfl

end

end Router

end LlmGateway
