import LlmGateway.Memory.Honesty

/-!
# What a history tells of its omissions

A fit drops messages and has one that stays tell of them, together with what the
dropped ones told. So the counts add up: over the messages of a fit, and over
any number of fits of what the one before returned.
-/

namespace LlmGateway

namespace Fitting

open Speech

variable {M : Type} [Speech M] {project : M → ByHash → String} {estimator : String → Int}
  {history messages : List M} {attachments : List ResolvedAttachment} {budget : Int}
  {spec : RenderSpec} {strategy : FitStrategy} {result : FitResult M}

/-- **A fit returns the history behind its oldest turns**, and counts what it dropped. -/
theorem fit_trimmed
    (h : fit project estimator history attachments budget spec strategy = .ok result) :
    ∃ k, result.messages = trimmed history (oldest history k) ∧
      result.messagesDropped = (oldest history k).length := by
  cases strategy with
  | summarize => cases h
  | truncate =>
    obtain ⟨k, -, -, hcases⟩ := fit_cases project estimator history attachments budget spec
    refine ⟨k, ?_⟩
    rcases hcases with ⟨-, hfit⟩ | ⟨-, -, -, hfit⟩ | ⟨-, -, -, exc, hfit⟩
    · obtain rfl := Except.ok.inj (hfit.symm.trans h)
      exact ⟨rfl, rfl⟩
    · obtain rfl := Except.ok.inj (hfit.symm.trans h)
      exact ⟨rfl, rfl⟩
    · cases hfit.symm.trans h

/-! ## Who stays -/

/-- The message the code keeps whatever it drops: the last question, or the tail. -/
theorem exists_pinned (h : history ≠ []) : ∃ index < history.length, index ∈ pinnedIndices history := by
  have hpos : 0 < history.length := List.length_pos_iff.mpr h
  cases hlast : lastUser history with
  | some index =>
    obtain ⟨message, hat, -⟩ := Option.map_eq_some_iff.mp (lastUser_some hlast).1
    obtain ⟨hlt, -⟩ := List.getElem?_eq_some_iff.mp hat
    refine ⟨index, hlt, ?_⟩
    simp [pinnedIndices, hlast]
  | none =>
    have hne : history.isEmpty = false := List.isEmpty_eq_false_iff.mpr h
    refine ⟨history.length - 1, by omega, ?_⟩
    simp [pinnedIndices, hlast, hne]

/-- Nothing that is pinned is dropped. -/
theorem not_mem_turnsOf {index k : Nat} (h : index ∈ pinnedIndices history) :
    index ∉ oldest history k := by
  intro hmem
  obtain ⟨group, hgroup, hin⟩ := List.mem_flatten.mp hmem
  have hall : index ∈ (turnsOf history).flatten :=
    List.mem_flatten.mpr ⟨group, List.mem_of_mem_take hgroup, hin⟩
  rw [turnsOf, droppableGroups, flatten_bundle, List.mem_filter] at hall
  simp [h] at hall

/-- **Somebody stays.** -/
theorem survivors_ne_nil (h : history ≠ []) (k : Nat) :
    survivors history (oldest history k) ≠ [] := by
  obtain ⟨index, hlt, hpinned⟩ := exists_pinned h
  have hmem : (history[index], index) ∈ history.zipIdx := by
    rw [List.mk_mem_zipIdx_iff_getElem?]
    exact List.getElem?_eq_getElem hlt
  have hstays : history[index] ∈ survivors history (oldest history k) := by
    refine List.mem_map_of_mem (f := (·.1)) (List.mem_filter.mpr ⟨hmem, ?_⟩)
    exact decide_eq_true (not_mem_turnsOf hpinned)
  exact List.ne_nil_of_mem hstays

/-! ## The counts -/

/-- What the messages of a history tell to be missing. -/
def told (messages : List M) : Nat := (messages.map omissions).sum

/-- A marker adds what it is told. -/
theorem omissions_withOmissionMarker (message : M) (dropped : Nat) :
    omissions (withOmissionMarker message dropped) = omissions message + dropped := by
  unfold withOmissionMarker omissions
  rw [content_withContent]
  cases hmerge : mergeMarker dropped (content message) with
  | none =>
    simp only [Option.getD_none, List.map_cons, List.sum_cons]
    exact Nat.add_comm _ _
  | some blocks =>
    obtain ⟨before, count, reason, after, hbefore, rfl⟩ := mergeMarker_some hmerge
    rw [Option.getD_some, hbefore]
    simp only [List.map_append, List.map_cons, List.sum_append, List.sum_cons]
    change _ + ((count + dropped) + _) = _ + (count + _) + dropped
    omega

/-- One entry made greater makes a sum greater by as much. -/
theorem sum_map_modify_add {α : Type} {f : α → Nat} {g : α → α} {n : Nat}
    (hg : ∀ x, f (g x) = f x + n) : ∀ {xs : List α} {index : Nat}, index < xs.length →
      ((xs.modify index g).map f).sum = (xs.map f).sum + n
  | x :: xs, 0, _ => by
    simp only [List.modify_zero_cons, List.map_cons, List.sum_cons, hg]
    omega
  | x :: xs, index + 1, h => by
    have hrest := sum_map_modify_add hg (Nat.lt_of_succ_lt_succ h)
    simp only [List.modify_succ_cons, List.map_cons, List.sum_cons, hrest]
    omega

theorem markerPlace_lt (h : messages ≠ []) : markerPlace messages < messages.length := by
  have hpos : 0 < messages.length := List.length_pos_iff.mpr h
  unfold markerPlace
  split
  next hlong => exact hlong.2
  next => exact hpos

/-- What stays and what goes make up a history. -/
theorem told_survivors_add_gone (history : List M) (dropped : List Nat) :
    told (survivors history dropped) + told (gone history dropped) = told history := by
  have hperm : (history.zipIdx.filter (fun p => decide (p.2 ∉ dropped)) ++
      history.zipIdx.filter fun p => !decide (p.2 ∉ dropped)).Perm history.zipIdx :=
    List.filter_append_perm _ _
  have hgone : (fun p : M × ℕ => !decide (p.2 ∉ dropped)) = fun p => decide (p.2 ∈ dropped) := by
    funext p
    simp
  have hsum := ((hperm.map Prod.fst).map omissions).sum_nat
  rw [hgone, List.map_append, List.map_append, List.sum_append, List.zipIdx_map_fst] at hsum
  exact hsum

/-- **The history behind dropped messages tells of them**, and of all it told before. -/
theorem told_trimmed {dropped : List Nat} (h : dropped = [] ∨ survivors history dropped ≠ []) :
    told (trimmed history dropped) = told history + dropped.length := by
  unfold trimmed
  split
  next hnone =>
    subst hnone
    rfl
  next hsome =>
    have hstays := h.resolve_left hsome
    have hall := told_survivors_add_gone history dropped
    unfold told marked at *
    rw [sum_map_modify_add (omissions_withOmissionMarker · _) (markerPlace_lt hstays)]
    omega

theorem told_fit
    (h : fit project estimator history attachments budget spec strategy = .ok result) :
    told result.messages = told history + result.messagesDropped := by
  obtain ⟨k, hmessages, hdropped⟩ := fit_trimmed h
  rw [hmessages, hdropped]
  refine told_trimmed ?_
  by_cases hempty : history = []
  · subst hempty
    exact .inl (by simp [oldest, turnsOf, droppableGroups, bundle])
  · exact .inr (survivors_ne_nil hempty k)

/-! ## Fit after fit -/

/-- A history that has been made to fit any number of times, `dropped` messages in all: each time
what the time before returned, for whatever budget, and with whatever documents. -/
inductive Refitted (history : List M) : List M → Nat → Prop
  | unfitted : Refitted history history 0
  | again {messages : List M} {dropped : Nat} {project : M → ByHash → String}
      {estimator : String → Int} {attachments : List ResolvedAttachment} {budget : Int}
      {spec : RenderSpec} {strategy : FitStrategy} {result : FitResult M}
      (h : Refitted history messages dropped)
      (hfit : fit project estimator messages attachments budget spec strategy = .ok result) :
      Refitted history result.messages (dropped + result.messagesDropped)

/-- **Omissions are conserved.** What the messages of a fit tell to be missing is what the history
told and what the fit dropped; so whatever is made to fit again and again tells of all that was ever
dropped. -/
theorem told_conserved (history : List M) :
    (∀ (project : M → ByHash → String) (estimator : String → Int)
      (attachments : List ResolvedAttachment) (budget : Int) (spec : RenderSpec)
      (strategy : FitStrategy) (result : FitResult M),
      fit project estimator history attachments budget spec strategy = .ok result →
        told result.messages = told history + result.messagesDropped) ∧
    ∀ (messages : List M) (dropped : Nat), Refitted history messages dropped →
      told messages = told history + dropped := by
  refine ⟨fun _ _ _ _ _ _ _ h => told_fit h, fun messages dropped h => ?_⟩
  induction h with
  | unfitted => rfl
  | again _ hfit ih =>
    rw [told_fit hfit, ih]
    omega

/-- Three questions, the first of which tells of four messages that are missing. -/
def scarred : List Message :=
  [{ role := .user, content := [omissionMarker 4, .text "one"], seq := 0 },
    { role := .user, content := [.text "two"], seq := 1 },
    { role := .user, content := [.text "three"], seq := 2 }]

/-- The first goes, then the second, and the third tells of six. -/
theorem told_conserved_scarred :
    told [({ role := .user, content := [omissionMarker 6, .text "three"], seq := 2 } : Message)] =
      told scarred + 2 := by
  have hone : fit (fun _ _ => "") (fun _ => 0) scarred [] 8
      { slot := "s", provider := "p", model := "m", contextWindow := 20, maxOutputTokens := 8
        supportsVision := false, supportsPdf := false } .truncate = .ok
      ⟨[{ role := .user, content := [omissionMarker 5, .text "two"], seq := 1 },
        { role := .user, content := [.text "three"], seq := 2 }], [], 1, 0, 8⟩ := rfl
  have htwo : fit (fun _ _ => "") (fun _ => 0)
      [({ role := .user, content := [omissionMarker 5, .text "two"], seq := 1 } : Message),
        { role := .user, content := [.text "three"], seq := 2 }] [] 4
      { slot := "s", provider := "p", model := "m", contextWindow := 20, maxOutputTokens := 8
        supportsVision := false, supportsPdf := false } .truncate = .ok
      ⟨[{ role := .user, content := [omissionMarker 6, .text "three"], seq := 2 }], [], 1, 0, 4⟩ :=
    rfl
  exact (told_conserved scarred).2 _ _ (.again (.again .unfitted hone) htwo)

end Fitting

end LlmGateway
