import Mathlib.Data.Rat.Defs
import Mathlib.Tactic.Common

/-!
# The exact-match cache

What is stored under a request hash, which answers may be, and how a stored
answer is cut into deltas again.
-/

namespace LlmGateway

namespace Exact

/-- What is written to `cache:exact:{sha256}`. -/
structure CachedResponse where
  text : String
  provider : String
  model : String
  slot : String
  finishReason : String
  tokensIn : Int
  tokensOut : Int
  usageEstimated : Bool
  createdAt : String
  deriving DecidableEq, Repr

/-- The values of `X-Cache`. -/
inductive CacheStatus where
  | hit
  | miss
  | bypass
  deriving DecidableEq, Repr

def CacheStatus.name : CacheStatus → String
  | .hit => "HIT"
  | .miss => "MISS"
  | .bypass => "BYPASS"

/-- `is_cacheable`. The read side leaves the last two `false`. -/
def isCacheable (temperature : ℚ) (degraded truncated : Bool := false) : Bool :=
  if 0 < temperature then false else !degraded && !truncated

/-! ## Replayed deltas -/

/-- `CACHE_REPLAY_CHUNK_CHARS`. -/
def replayChunkChars : Nat := 24

/-- `rfind(" ")` within the first `n` characters. -/
def lastSpace (text : List Char) (n : Nat) : Option Nat :=
  (List.range n).reverse.find? fun i => text[i]? = some ' '

/-- Where the first piece ends. -/
def pieceEnd (text : List Char) : Nat :=
  if replayChunkChars < text.length then
    match lastSpace text replayChunkChars with
    | some boundary => if 0 < boundary then boundary + 1 else replayChunkChars
    | none => replayChunkChars
  else text.length

theorem pieceEnd_pos {text : List Char} (h : text ≠ []) : 0 < pieceEnd text := by
  unfold pieceEnd
  split
  · split
    · split <;> simp [replayChunkChars]
    · simp [replayChunkChars]
  · exact List.length_pos_iff.mpr h

/-- The loop of `chunk_for_replay`. -/
def pieces (text : List Char) : List (List Char) :=
  if h : text = [] then []
  else text.take (pieceEnd text) :: pieces (text.drop (pieceEnd text))
termination_by text.length
decreasing_by
  have hpos := pieceEnd_pos h
  have hlen := List.length_pos_iff.mpr h
  rw [List.length_drop]
  omega

/-- `chunk_for_replay`. -/
def chunkForReplay (text : String) : List String := (pieces text.toList).map String.ofList

theorem flatten_pieces (text : List Char) : (pieces text).flatten = text := by
  induction text using pieces.induct with
  | case1 => simp [pieces]
  | case2 text h ih =>
    rw [pieces, dif_neg h, List.flatten_cons, ih, List.take_append_drop]

theorem toList_join_map (chunks : List (List Char)) :
    (String.join (chunks.map String.ofList)).toList = chunks.flatten := by
  rw [String.toList_join, List.flatMap_map]
  simp [List.flatMap_def]

/-- Nothing is lost or added by cutting. -/
theorem join_chunkForReplay (text : String) : String.join (chunkForReplay text) = text := by
  apply String.toList_inj.mp
  rw [chunkForReplay, toList_join_map, flatten_pieces]

end Exact

end LlmGateway
