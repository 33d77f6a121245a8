import LlmGateway.Effects.Loop
import LlmGateway.Memory.Fitting

/-!
# The cutting loop, round by round

`_truncate_documents` as a `while` over its locals. What is measured behind a
cut need not be any less than before it, and need not be measured the same way
twice: that the loop ends rests on the texts and on the documents given up on.
-/

namespace LlmGateway

namespace Fitting

open Effects

/-- The locals of the loop. -/
structure Cut where
  current : List ResolvedAttachment
  exhausted : List Nat := []
  truncated : Nat := 0
  total : Int

namespace Cut

/-- What the loop can still do. -/
def left (s : Cut) : Nat := cuttable s.current s.exhausted

/-- The document at `index` is not asked again. -/
def giveUp (s : Cut) (index : Nat) : Cut := { s with exhausted := index :: s.exhausted }

/-- Keep `keep` characters of the document at `index`; `measure` is told which cut it is. -/
def cutAt (measure : Nat → List ResolvedAttachment → Int) (s : Cut) (index keep : Nat) : Cut :=
  let cut := cutTo (shorten (documentText s.current index) keep) index s.current
  { current := cut
    -- at the floor
    exhausted := if keep = minDocumentChars then index :: s.exhausted else s.exhausted
    truncated := s.truncated + 1
    total := measure s.truncated cut }

end Cut

/-- One round of the loop, `none` where it ends. -/
def round (measure : Nat → List ResolvedAttachment → Int) (budget : Int) (s : Cut) : Option Cut :=
  if s.total ≤ budget then none
  else
    match largestTruncatable s.current s.exhausted with
    | none => none
    | some index =>
      let text := documentText s.current index
      let keep := keepChars text (s.total - budget)
      if text.length ≤ (shorten text keep).length then some (s.giveUp index)
      else some (s.cutAt measure index keep)

/-- **A round asks a document**: the budget is not met, and this is the one with most to give. -/
structure Asks (budget : Int) (s : Cut) (index keep : Nat) : Prop where
  beyond : budget < s.total
  largest : largestTruncatable s.current s.exhausted = some index
  keep_eq : keep = keepChars (documentText s.current index) (s.total - budget)

/-- What is kept of it is no shorter than it is. -/
def Refuses (s : Cut) (index keep : Nat) : Prop :=
  (documentText s.current index).length ≤ (shorten (documentText s.current index) keep).length

variable {measure : Nat → List ResolvedAttachment → Int} {budget : Int} {s s' : Cut}

/-- **What a round can do.** -/
theorem round_cases (h : round measure budget s = some s') :
    ∃ index keep, Asks budget s index keep ∧
      (Refuses s index keep ∧ s' = s.giveUp index ∨
        ¬Refuses s index keep ∧ s' = s.cutAt measure index keep) := by
  unfold round at h
  split at h
  · cases h
  next hover =>
    split at h
    · cases h
    next index hlargest =>
      refine ⟨index, _, ⟨Int.not_le.mp hover, hlargest, rfl⟩, ?_⟩
      dsimp only at h
      split at h
      next hrefuses => exact .inl ⟨hrefuses, (Option.some.inj h).symm⟩
      next hrefuses => exact .inr ⟨hrefuses, (Option.some.inj h).symm⟩

/-- Where the loop ends. -/
theorem round_eq_none_iff :
    round measure budget s = none ↔
      s.total ≤ budget ∨ largestTruncatable s.current s.exhausted = none := by
  unfold round
  split
  next hfits => simp [hfits]
  next hover =>
    split
    next hnone => simp [hnone]
    next index hlargest =>
      dsimp only
      split <;> simp [hover, hlargest]

/-- **Every round leaves less to do**: a document is given up on, or has less text. -/
theorem left_round (h : round measure budget s = some s') : s'.left < s.left := by
  obtain ⟨index, keep, hasks, ⟨-, rfl⟩ | ⟨hrefuses, rfl⟩⟩ := round_cases h
  · exact cuttable_exhaust hasks.largest
  · refine cuttable_cut hasks.largest (Nat.lt_of_not_le hrefuses) ?_
    unfold Cut.cutAt
    dsimp only
    split
    · exact List.subset_cons_self _ _
    · exact List.Subset.refl _

/-- **Cutting documents ends**, after no more rounds than there are characters and documents,
whatever a message looks like and however it is measured, from one measuring to the next. -/
theorem truncateDocuments_ends {M : Type} [Speech M] (project : Nat → M → ByHash → String)
    (estimator : Nat → String → Int) (messages : List M) (attachments : List ResolvedAttachment)
    (budget total : Int) :
    let measure := fun (n : Nat) (current : List ResolvedAttachment) =>
      (messages.map fun message =>
        cost (project n) (estimator n) message (byHash current)).sum
    ∃ n ≤ (attachments.map fun attachment => (attachment.text.getD "").length).sum +
        attachments.length,
      ∃ s, rounds (round measure budget) n { current := attachments, total } = some s ∧
        round measure budget s = none := by
  intro measure
  have hless : ∀ s s', round measure budget s = some s' → s'.left < s.left :=
    fun s s' h => left_round h
  obtain ⟨n, hn, s, hrounds, hend⟩ :=
    exists_rounds_end Cut.left hless { current := attachments, total }
  refine ⟨n, ?_, s, hrounds, hend⟩
  -- At first every document can be asked.
  have hasked : (List.range attachments.length).filter (· ∉ ([] : List Nat)) =
      List.range attachments.length :=
    List.filter_eq_self.mpr fun index _ => decide_eq_true List.not_mem_nil
  rwa [Cut.left, cuttable, hasked, List.length_range] at hn

/-! ## The loop of the model -/

section

variable {M : Type} [Speech M] (project : M → ByHash → String) (estimator : String → Int)
  (messages : List M)

/-- What is measured where every measuring is the same. -/
def measured (_ : Nat) (current : List ResolvedAttachment) : Int :=
  (messages.map fun message => cost project estimator message (byHash current)).sum

/-- **The loop is `truncateLoop`** where every measuring is the same: it returns the locals the
rounds end with. -/
theorem truncateLoop_eq_of_rounds (budget : Int) (s : Cut) :
    ∀ n last, rounds (round (measured project estimator messages) budget) n s = some last →
      round (measured project estimator messages) budget last = none →
      truncateLoop project estimator messages budget s.current s.exhausted s.truncated s.total =
        (last.current, last.truncated, last.total) := by
  obtain ⟨current, exhausted, truncated, total⟩ := s
  dsimp only
  fun_induction truncateLoop project estimator messages budget current exhausted truncated total with
  | case1 current exhausted truncated total hfits =>
    intro n last hrounds _
    have hround : round (measured project estimator messages) budget
        ⟨current, exhausted, truncated, total⟩ = none := round_eq_none_iff.mpr (.inl hfits)
    rw [eq_of_rounds_of_none hrounds hround]
  | case2 current exhausted truncated total hover hnone =>
    intro n last hrounds _
    have hround : round (measured project estimator messages) budget
        ⟨current, exhausted, truncated, total⟩ = none := round_eq_none_iff.mpr (.inr hnone)
    rw [eq_of_rounds_of_none hrounds hround]
  | case3 current exhausted truncated total hover index hlargest text keep hlonger ih =>
    intro n last hrounds hend
    have hround : round (measured project estimator messages) budget
        ⟨current, exhausted, truncated, total⟩ =
          some ⟨current, index :: exhausted, truncated, total⟩ := by
      rw [round, if_neg hover]
      simp only [hlargest]
      exact if_pos hlonger
    obtain ⟨k, hrest⟩ := exists_rounds_of_some hrounds hend hround
    exact ih k last hrest hend
  | case4 current exhausted truncated total hover index hlargest text keep hshorter cut ih =>
    intro n last hrounds hend
    simp only [List.map_subtype, List.unattach_attach, dite_eq_ite] at ih
    have hround : round (measured project estimator messages) budget
        ⟨current, exhausted, truncated, total⟩ =
          some ⟨cut, if keep = minDocumentChars then index :: exhausted else exhausted,
            truncated + 1, measured project estimator messages truncated cut⟩ := by
      rw [round, if_neg hover]
      simp only [hlargest]
      exact if_neg hshorter
    obtain ⟨k, hrest⟩ := exists_rounds_of_some hrounds hend hround
    exact ih k last hrest hend

/-- **The rule of the cutting loop.** What giving up on a document and cutting one keep holds of
what the loop ends with. -/
theorem truncateLoop_rule {budget : Int} {J : Cut → Prop}
    (hgiveUp : ∀ s index keep, J s → Asks budget s index keep → Refuses s index keep →
      J (s.giveUp index))
    (hcutAt : ∀ s index keep, J s → Asks budget s index keep → ¬Refuses s index keep →
      J (s.cutAt (measured project estimator messages) index keep))
    {s : Cut} (h : J s) :
    ∃ last, J last ∧
      truncateLoop project estimator messages budget s.current s.exhausted s.truncated s.total =
        (last.current, last.truncated, last.total) ∧
      (last.total ≤ budget ∨ largestTruncatable last.current last.exhausted = none) := by
  have hless : ∀ s s', round (measured project estimator messages) budget s = some s' →
      s'.left < s.left := fun s s' h => left_round h
  obtain ⟨n, -, last, hrounds, hend⟩ := exists_rounds_end Cut.left hless s
  refine ⟨last, ?_, truncateLoop_eq_of_rounds project estimator messages budget s n last hrounds
    hend, round_eq_none_iff.mp hend⟩
  refine rounds_inv (fun s s' hs hround => ?_) h hrounds
  obtain ⟨index, keep, hasks, ⟨hrefuses, rfl⟩ | ⟨hrefuses, rfl⟩⟩ := round_cases hround
  · exact hgiveUp s index keep hs hasks hrefuses
  · exact hcutAt s index keep hs hasks hrefuses

end

end Fitting

end LlmGateway
