import LlmGateway.Streaming.Turn
import Mathlib.Computability.Language
import Mathlib.Order.CompletePartialOrder

/-!
# The wire

A client reads the frames of a response one by one and keeps what it may still
show: who is speaking, what has been said since, what it was told to forget. A
frame it has no rule for is an error.
-/

namespace LlmGateway

namespace Streaming

open scoped Computability

/-! ## The longest of some texts -/

/-- The first of the longest. -/
def longest (texts : List String) : String :=
  texts.foldl (fun best text => if best.length < text.length then text else best) ""

theorem longest_append (texts : List String) (text : String) :
    longest (texts ++ [text]) =
      if (longest texts).length < text.length then text else longest texts := by
  rw [longest, List.foldl_append]
  rfl

/-- It is among them, unless they are all empty. -/
theorem longest_mem (texts : List String) : longest texts = "" ∨ longest texts ∈ texts := by
  induction texts using List.reverseRecOn with
  | nil => exact .inl rfl
  | append_singleton texts text ih =>
    rw [longest_append]
    split
    · exact .inr (by simp)
    · exact ih.imp_right fun hmem => List.mem_append_left _ hmem

/-- And none is longer. -/
theorem length_le_longest {texts : List String} {text : String} (h : text ∈ texts) :
    text.length ≤ (longest texts).length := by
  induction texts using List.reverseRecOn with
  | nil => cases h
  | append_singleton texts last ih =>
    rw [longest_append]
    rcases List.mem_append.mp h with hmem | hmem
    · have hle := ih hmem
      split <;> omega
    · obtain rfl := List.mem_singleton.mp hmem
      split <;> omega

/-! ## The client -/

/-- What a client holds of a response. -/
structure Client where
  /-- The provider and model it was last told is speaking. -/
  speaker : Option (String × String) := none
  /-- The texts it was told to forget, in order. -/
  forgotten : List String := []
  /-- The deltas since. -/
  said : List String := []
  ended : Option DoneEvent := none
  deriving DecidableEq, Repr

namespace Client

/-- The text on the screen. -/
def text (c : Client) : String := String.join c.said

/-- What each attempt that was heard has delivered. -/
def delivered (c : Client) : List String := c.forgotten ++ [c.text]

/-- What a turn that ends so offers for salvage: the longest delivery of a
failed one, unless that is too short to be worth it. -/
def salvage (c : Client) (status : Status) : Option String :=
  if status = .failed ∧ minPartialContentChars ≤ (longest c.delivered).length then
    some (longest c.delivered)
  else none

/-- Still being read. -/
def Listening (c : Client) : Prop := c.speaker.isSome ∧ c.ended = none

instance (c : Client) : Decidable c.Listening := inferInstanceAs (Decidable (_ ∧ _))

/-- One frame. A restart is about the candidate that spoke and withdraws exactly
what it said; `done` offers what there is to salvage, and nothing follows it. -/
def hear (c : Client) : Frame → Option Client
  | .meta e => if c = {} then some { speaker := some (e.provider, e.model) } else none
  | .delta content =>
    if c.Listening then some { c with said := c.said ++ [content] } else none
  | .restart e =>
    if c.Listening ∧ c.said ≠ [] ∧ c.speaker = some (e.failedProvider, e.failedModel) ∧
        e.discardedChars = c.text.length then
      some
        { speaker := some (e.nextProvider, e.nextModel)
          forgotten := c.forgotten ++ [c.text], said := [], ended := none }
    else none
  | .done e =>
    if c.Listening ∧ c.said ≠ [] ∧ e.partialContent = c.salvage e.status then
      some { c with ended := some e }
    else none
  | .heartbeat => if c.Listening then some c else none

/-- A response that was not cut off between an opening and its first delta. -/
def Whole (c : Client) : Prop := c = {} ∨ c.said ≠ []

end Client

/-! ## The grammar -/

/-- The frames but for heartbeats, by name. -/
inductive Kind where
  | «meta»
  | delta
  | restart
  | done
  deriving DecidableEq, Repr

def Frame.kind : Frame → Option Kind
  | .meta _ => some .meta
  | .delta _ => some .delta
  | .restart _ => some .restart
  | .done _ => some .done
  | .heartbeat => none

/-- One frame of a kind. -/
def one (k : Kind) : Language Kind := {[k]}

/-- `delta+`. -/
def deltas : Language Kind := one .delta * (one .delta)∗

/-- `meta delta+ (restart delta+)*`. -/
def spoken : Language Kind := one .meta * deltas * (one .restart * deltas)∗

/-- `meta delta+ (restart delta+)* done?`. -/
def response : Language Kind := spoken * (1 + one .done)

theorem deltas_delta : deltas * one .delta ≤ deltas := by
  rw [deltas, mul_assoc]
  exact mul_le_mul_right kstar_mul_le_kstar (one .delta)

theorem delta_le : one .delta ≤ deltas := by
  calc one .delta = one .delta * 1 := (mul_one _).symm
    _ ≤ one .delta * (one .delta)∗ := mul_le_mul_right one_le_kstar (one .delta)

/-- Another delta. -/
theorem spoken_delta {x : List Kind} (hx : x ∈ spoken) : x ++ [.delta] ∈ spoken := by
  have hle : spoken * one .delta ≤ spoken := by
    have hstar : (one .restart * deltas)∗ =
        1 + (one .restart * deltas)∗ * (one .restart * deltas) := one_add_kstar_mul.symm
    have hlast : (one .restart * deltas)∗ * (one .restart * deltas) * one .delta ≤
        (one .restart * deltas)∗ := by
      rw [mul_assoc, mul_assoc]
      refine le_trans ?_ kstar_mul_le_kstar
      exact mul_le_mul_right (mul_le_mul_right deltas_delta _) _
    have hfirst : one .meta * deltas * one .delta ≤ spoken := by
      rw [mul_assoc]
      refine le_trans (mul_le_mul_right deltas_delta _) ?_
      calc one .meta * deltas = one .meta * deltas * 1 := (mul_one _).symm
        _ ≤ spoken := mul_le_mul_right one_le_kstar _
    calc spoken * one .delta
        = one .meta * deltas * one .delta +
          one .meta * deltas *
            ((one .restart * deltas)∗ * (one .restart * deltas) * one .delta) := by
          rw [spoken, mul_assoc, hstar, add_mul, one_mul, mul_add, ← hstar]
      _ ≤ spoken := add_le hfirst (mul_le_mul_right hlast _)
  exact hle (Language.append_mem_mul hx rfl)

/-- Another attempt, with its first delta. -/
theorem spoken_restart {x : List Kind} (hx : x ∈ spoken) :
    x ++ [.restart, .delta] ∈ spoken := by
  have hle : spoken * (one .restart * one .delta) ≤ spoken := by
    rw [spoken, mul_assoc]
    refine mul_le_mul_right (le_trans ?_ kstar_mul_le_kstar) _
    exact mul_le_mul_right (mul_le_mul_right delta_le _) _
  have hlast : [Kind.restart] ++ [Kind.delta] ∈ one .restart * one .delta :=
    Language.append_mem_mul rfl rfl
  exact hle (Language.append_mem_mul hx hlast)

/-- What the frames a client has read so far come to, by where it stands. -/
inductive Reads : Client → List Kind → Prop
  | silent : Reads {} []
  | opened {c : Client} (hc : c.Listening) (hs : c.said = []) : Reads c [.meta]
  | restarted {c : Client} {x : List Kind} (hc : c.Listening) (hs : c.said = [])
      (hx : x ∈ spoken) : Reads c (x ++ [.restart])
  | speaking {c : Client} {x : List Kind} (hc : c.Listening) (hs : c.said ≠ [])
      (hx : x ∈ spoken) : Reads c x
  | ended {c : Client} {x : List Kind} (hc : c.ended.isSome) (hs : c.said ≠ [])
      (hx : x ∈ spoken) : Reads c (x ++ [.done])

/-- The first delta behind the opening. -/
theorem spoken_opening : [Kind.meta, Kind.delta] ∈ spoken := by
  have hle : one .meta * one .delta ≤ spoken := by
    calc one .meta * one .delta ≤ one .meta * deltas := mul_le_mul_right delta_le _
      _ = one .meta * deltas * 1 := (mul_one _).symm
      _ ≤ spoken := mul_le_mul_right one_le_kstar _
  have hfirst : [Kind.meta] ++ [Kind.delta] ∈ one .meta * one .delta :=
    Language.append_mem_mul rfl rfl
  exact hle hfirst

/-- One more frame. -/
theorem Reads.hear {c c' : Client} {x : List Kind} {frame : Frame} (h : Reads c x)
    (hf : c.hear frame = some c') : Reads c' (x ++ frame.kind.toList) := by
  cases frame with
  | «meta» e =>
    rw [Client.hear] at hf
    split at hf
    next hc =>
      cases hf
      subst hc
      cases h with
      | silent => exact .opened ⟨rfl, rfl⟩ rfl
      | opened hc _ => cases hc.1
      | restarted hc _ _ => cases hc.1
      | speaking hc _ _ => cases hc.1
      | ended hc _ _ => cases hc
    next => cases hf
  | delta content =>
    rw [Client.hear] at hf
    split at hf
    next hc =>
      cases hf
      have hsaid : c.said ++ [content] ≠ [] := by simp
      cases h with
      | silent => cases hc.1
      | opened _ _ => exact .speaking hc hsaid spoken_opening
      | restarted _ _ hx =>
        rw [List.append_assoc]
        exact .speaking hc hsaid (spoken_restart hx)
      | speaking _ _ hx => exact .speaking hc hsaid (spoken_delta hx)
      | ended he _ _ => rw [hc.2] at he; cases he
    next => cases hf
  | restart e =>
    rw [Client.hear] at hf
    split at hf
    next hc =>
      cases hf
      cases h with
      | silent => cases hc.1.1
      | opened _ hs => exact absurd hs hc.2.1
      | restarted _ hs _ => exact absurd hs hc.2.1
      | speaking _ _ hx => exact .restarted ⟨rfl, rfl⟩ rfl hx
      | ended he _ _ => rw [hc.1.2] at he; cases he
    next => cases hf
  | done e =>
    rw [Client.hear] at hf
    split at hf
    next hc =>
      cases hf
      cases h with
      | silent => cases hc.1.1
      | opened _ hs => exact absurd hs hc.2.1
      | restarted _ hs _ => exact absurd hs hc.2.1
      | speaking _ hs hx => exact .ended rfl hs hx
      | ended he _ _ => rw [hc.1.2] at he; cases he
    next => cases hf
  | heartbeat =>
    rw [Client.hear] at hf
    split at hf
    next =>
      cases hf
      rwa [Frame.kind, Option.toList_none, List.append_nil]
    next => cases hf

theorem reads_of_hear {frames : List Frame} {c : Client}
    (h : frames.foldlM Client.hear {} = some c) : Reads c (frames.filterMap Frame.kind) := by
  induction frames using List.reverseRecOn generalizing c with
  | nil =>
    cases h
    exact .silent
  | append_singleton frames frame ih =>
    rw [List.foldlM_append] at h
    obtain ⟨c', hc', hlast⟩ := Option.bind_eq_some_iff.mp h
    rw [List.foldlM_cons] at hlast
    obtain ⟨c'', hhear, hnil⟩ := Option.bind_eq_some_iff.mp hlast
    cases hnil
    rw [List.filterMap_append]
    have hkind : [frame].filterMap Frame.kind = frame.kind.toList := by
      cases frame <;> rfl
    rw [hkind]
    exact (ih hc').hear hhear

/-- **The grammar.** What a client reads through without an error, and not cut
off right behind an opening, is no frame at all or a response. -/
theorem kinds_mem_response {frames : List Frame} {c : Client}
    (h : frames.foldlM Client.hear {} = some c) (hw : c.Whole) :
    frames.filterMap Frame.kind = [] ∨ frames.filterMap Frame.kind ∈ response := by
  have hreads := reads_of_hear h
  have hle : spoken ≤ response := by
    calc spoken = spoken * 1 := (mul_one _).symm
      _ ≤ response := mul_le_mul_right le_self_add _
  have hdone : spoken * one .done ≤ response :=
    mul_le_mul_right le_add_self _
  generalize frames.filterMap Frame.kind = x at hreads ⊢
  cases hreads with
  | silent => exact .inl rfl
  | opened hc hs =>
    rcases hw with rfl | hsaid
    · cases hc.1
    · exact absurd hs hsaid
  | restarted hc hs _ =>
    rcases hw with rfl | hsaid
    · cases hc.1
    · exact absurd hs hsaid
  | speaking _ _ hx => exact .inr (hle hx)
  | ended _ _ hx => exact .inr (hdone (Language.append_mem_mul hx rfl))

/-- The frames that went out are the beginning of a response. -/
theorem kinds_append_mem_response {frames : List Frame} {c : Client}
    (h : frames.foldlM Client.hear {} = some c) :
    ∃ rest, frames.filterMap Frame.kind ++ rest ∈ response := by
  have hreads := reads_of_hear h
  have hle : spoken ≤ response := by
    calc spoken = spoken * 1 := (mul_one _).symm
      _ ≤ response := mul_le_mul_right le_self_add _
  generalize frames.filterMap Frame.kind = x at hreads ⊢
  cases hreads with
  | silent => exact ⟨[.meta, .delta], hle spoken_opening⟩
  | opened _ _ => exact ⟨[.delta], hle spoken_opening⟩
  | restarted _ _ hx =>
    refine ⟨[.delta], hle ?_⟩
    rw [List.append_assoc]
    exact spoken_restart hx
  | speaking _ _ hx =>
    refine ⟨[], hle ?_⟩
    rwa [List.append_nil]
  | ended _ _ hx =>
    refine ⟨[], ?_⟩
    rw [List.append_nil]
    exact (mul_le_mul_right le_add_self _ : spoken * one .done ≤ response)
      (Language.append_mem_mul hx rfl)

/-- A heartbeat has its `meta` before it. -/
theorem meta_of_heartbeat {pre post : List Frame} {c : Client}
    (h : (pre ++ .heartbeat :: post).foldlM Client.hear {} = some c) :
    ∃ e, Frame.meta e ∈ pre := by
  rw [List.foldlM_append] at h
  obtain ⟨c', hc', hrest⟩ := Option.bind_eq_some_iff.mp h
  rw [List.foldlM_cons] at hrest
  obtain ⟨c'', hhear, -⟩ := Option.bind_eq_some_iff.mp hrest
  rw [Client.hear] at hhear
  split at hhear
  next hl =>
    have hpre : pre ≠ [] := by
      rintro rfl
      cases hc'
      exact absurd hl.1 (by decide)
    obtain ⟨frame, frames, rfl⟩ := List.exists_cons_of_ne_nil hpre
    rw [List.foldlM_cons] at hc'
    obtain ⟨c₁, hfirst, -⟩ := Option.bind_eq_some_iff.mp hc'
    cases frame with
    | «meta» e => exact ⟨e, List.mem_cons_self⟩
    | delta _ => cases hfirst
    | restart _ => cases hfirst
    | done _ => cases hfirst
    | heartbeat => cases hfirst
  next => cases hhear

end Streaming

end LlmGateway
