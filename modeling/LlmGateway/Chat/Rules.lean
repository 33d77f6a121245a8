import LlmGateway.Streaming.Orchestrator

/-!
# Preconditions of a turn's questions

Rules for the questions that every path of a turn may ask, over any world: what
must hold of every answer, read as the outcome the caller sees.
-/

namespace LlmGateway

namespace Chat

open Effects Streaming

variable {σ : Type} (W : World iface σ) (g : σ)

theorem wp_complete (response : ChatCompletionResponse) (cacheStatus : Option Exact.CacheStatus)
    (Q : Except Fault Unit → σ → Prop) :
    wp W (complete response cacheStatus) Q g ↔
      ∀ (a : Settled) g', W g (.complete response cacheStatus) a g' → Q (shrugged (lift a.outcome)) g' :=
  wp_await W (fun _ => rfl) Q g

theorem wp_cachePut (key : String) (value : Exact.CachedResponse)
    (Q : Except Fault Unit → σ → Prop) :
    wp W (cachePut key value) Q g ↔
      ∀ (a : Settled) g', W g (.cachePut key value) a g' → Q (shrugged (lift a.outcome)) g' :=
  wp_await W (fun _ => rfl) Q g

theorem wp_clientGone (Q : Except Fault Bool → σ → Prop) :
    wp W clientGone Q g ↔ ∀ r g', W g .isDisconnected r g' → Q (gone r) g' :=
  wp_await W (fun _ => rfl) Q g

theorem wp_recordAttempt (Q : Except Fault Unit → σ → Prop) :
    wp W recordAttempt Q g ↔ ∀ r g', W g .recordAttempt r g' → Q (shrugged (lift r)) g' :=
  wp_await W (fun _ => rfl) Q g

theorem wp_yieldFrame (frame : Frame) (Q : Except Fault Unit → σ → Prop) :
    wp W (yieldFrame frame) Q g ↔
      ∀ (a : Consumer) g', W g (.yield frame) a g' → Q (lift a.outcome) g' :=
  wp_await W (fun _ => rfl) Q g

end Chat

end LlmGateway
