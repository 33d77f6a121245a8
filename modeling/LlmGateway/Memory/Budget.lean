import LlmGateway.Memory.Honesty
import LlmGateway.Memory.Render
import Mathlib.Data.List.Forall2
import Mathlib.Algebra.Order.BigOperators.Group.List

/-!
# Fitting into a larger budget

Which documents are cut, and to what length, depends on the budget. But no cut
goes below a floor, and a history that is still over its budget has every
document at the floor or below it: so it costs no more than after any other
cutting.
-/

namespace LlmGateway

namespace Fitting

open Speech Render

/-! ## Documents side by side -/

/-- How much text a document has to give. -/
def size (attachment : ResolvedAttachment) : Nat := (attachment.text.getD "").length

/-- The length no cut goes below: what is always kept, and the notice. -/
def floorChars : Nat := minDocumentChars + truncationNotice.length

/-- The same file, but for its text. -/
def SameFile (attachment attachment' : ResolvedAttachment) : Prop :=
  ∃ text, attachment' = { attachment with text }

/-- The same document, with no more text if its text is what is sent. -/
structure Smaller (attachment attachment' : ResolvedAttachment) : Prop where
  same : SameFile attachment attachment'
  le : attachment.mode = .injected → size attachment ≤ size attachment'

/-- A document, and what cutting may have left of it. -/
structure CutOf (original current : ResolvedAttachment) : Prop where
  same : SameFile original current
  le : size current ≤ size original
  ge : min (size original) floorChars ≤ size current

theorem CutOf.refl (attachment : ResolvedAttachment) : CutOf attachment attachment where
  same := ⟨attachment.text, rfl⟩
  le := le_refl _
  ge := Nat.min_le_left _ _

/-- **What is at the floor is smallest**: however else a document was cut, there is no less of it. -/
theorem CutOf.smaller {original current current' : ResolvedAttachment} (h : CutOf original current)
    (h' : CutOf original current') (hfloor : current.mode = .injected → size current ≤ floorChars) :
    Smaller current current' := by
  obtain ⟨text, rfl⟩ := h.same
  obtain ⟨text', rfl⟩ := h'.same
  refine ⟨⟨text', rfl⟩, fun hinjected => ?_⟩
  have hle := h.le
  have hge := h'.ge
  have hsmall := hfloor hinjected
  omega

/-! ## What smaller documents cost -/

/-- Entry by entry, the longer texts make the longer whole. -/
theorem length_intercalate_le (separator : String) {texts texts' : List String}
    (h : List.Forall₂ (fun text text' : String => text.length ≤ text'.length) texts texts') :
    (separator.intercalate texts).length ≤ (separator.intercalate texts').length := by
  induction h with
  | nil => exact le_refl _
  | cons hle hrest ih =>
    cases hrest with
    | nil => simpa using hle
    | cons hle' hrest' =>
      simp only [String.intercalate_cons_cons, String.length_append] at ih ⊢
      omega

/-- The first entry found on either side, if the sides agree on what is looked for. -/
theorem rel_find? {α β : Type} {R : α → β → Prop} {p : α → Bool} {q : β → Bool}
    (hpq : ∀ a b, R a b → p a = q b) {xs : List α} {ys : List β} (h : List.Forall₂ R xs ys) :
    Option.Rel R (xs.find? p) (ys.find? q) := by
  induction h with
  | nil => exact .none
  | @cons x y _ _ hxy _ ih =>
    rw [List.find?_cons, List.find?_cons, ← hpq x y hxy]
    cases p x with
    | true => exact .some hxy
    | false => exact ih

/-- The entries of one list that are taken on either side. -/
theorem rel_filterMap_same {α β γ : Type} {R : β → γ → Prop} {f : α → Option β} {g : α → Option γ}
    (h : ∀ x, Option.Rel R (f x) (g x)) (xs : List α) :
    List.Forall₂ R (xs.filterMap f) (xs.filterMap g) := by
  have hsame : List.Forall₂ Eq xs xs := List.forall₂_same.mpr fun _ _ => rfl
  refine List.rel_filterMap (fun x y heq => ?_) hsame
  rw [← heq]
  exact h x

theorem rel_byHash {R : ResolvedAttachment → ResolvedAttachment → Prop}
    (hR : ∀ attachment attachment', R attachment attachment' → SameFile attachment attachment')
    {attachments attachments' : List ResolvedAttachment}
    (h : List.Forall₂ R attachments attachments') (fileHash : String) :
    Option.Rel R (byHash attachments fileHash) (byHash attachments' fileHash) := by
  refine rel_find? (fun attachment attachment' hsame => ?_) (List.rel_reverse h)
  obtain ⟨text, rfl⟩ := hR _ _ hsame
  rfl

/-- What stands around the text of a document is the same, whatever its text. -/
theorem length_documentEnvelope_add_le {attachment attachment' : ResolvedAttachment} {slack : Nat}
    (h : SameFile attachment attachment') (hle : size attachment + slack ≤ size attachment') :
    (documentEnvelope attachment).length + slack ≤ (documentEnvelope attachment').length := by
  obtain ⟨text, rfl⟩ := h
  unfold documentEnvelope
  dsimp only
  generalize ("<document name=\"" ++ attachment.filename ++ "\" source=\"extracted\"" ++ _ ++ ">\n") =
    opening
  simp only [String.length_append]
  unfold size at hle
  dsimp only at hle
  omega

section

variable {attachments attachments' : ByHash}

theorem rel_materializeBlock
    (h : ∀ fileHash, Option.Rel Smaller (attachments fileHash) (attachments' fileHash))
    (block : ContentBlock) :
    Option.Rel (fun text text' : String => text.length ≤ text'.length)
      (materializeBlock attachments block) (materializeBlock attachments' block) := by
  cases block with
  | text text => exact .some (le_refl _)
  | omissionMarker count reason => exact .some (le_refl _)
  | fileRef ref =>
    have hfile := h ref.fileHash
    unfold materializeBlock
    dsimp only
    generalize attachments ref.fileHash = found at hfile ⊢
    generalize attachments' ref.fileHash = found' at hfile ⊢
    cases hfile with
    | none => exact Option.Rel.none
    | @some attachment attachment' hsmaller =>
      refine Option.Rel.some ?_
      have hmode : attachment'.mode = attachment.mode := by
        obtain ⟨text, rfl⟩ := hsmaller.same
        rfl
      dsimp only
      rw [hmode]
      cases hattachment : attachment.mode with
      | injected =>
        have hle : size attachment + 0 ≤ size attachment' := hsmaller.le hattachment
        have hlength := length_documentEnvelope_add_le hsmaller.same hle
        rw [Nat.add_zero] at hlength
        exact hlength
      | native =>
        obtain ⟨text, rfl⟩ := hsmaller.same
        exact le_refl _

/-- Native bytes cost the same, whatever text is beside them. -/
theorem nativeTokens_eq {found found' : List ResolvedAttachment}
    (h : List.Forall₂ SameFile found found') : nativeTokens found = nativeTokens found' := by
  unfold nativeTokens
  induction h with
  | nil => rfl
  | @cons attachment attachment' _ _ hsame _ ih =>
    obtain ⟨text, rfl⟩ := hsame
    by_cases hnative : attachment.mode = .native
    · simp [hnative, ih]
    · simp [hnative, ih]

theorem nativeTokens_refs_eq
    (h : ∀ fileHash, Option.Rel Smaller (attachments fileHash) (attachments' fileHash))
    (message : Message) :
    nativeTokens (((content message).filterMap (·.ref?)).filterMap fun ref =>
        attachments ref.fileHash) =
      nativeTokens (((content message).filterMap (·.ref?)).filterMap fun ref =>
        attachments' ref.fileHash) := by
  have hfiles := rel_filterMap_same (fun ref : FileRef => h ref.fileHash)
    ((content message).filterMap (·.ref?))
  exact nativeTokens_eq (hfiles.imp fun attachment attachment' hsmaller => hsmaller.same)

theorem cost_le (h : ∀ fileHash, Option.Rel Smaller (attachments fileHash) (attachments' fileHash))
    (message : Message) :
    cost materialize estimateTextTokens message attachments ≤
      cost materialize estimateTextTokens message attachments' := by
  have hlength : (materialize message attachments).length ≤
      (materialize message attachments').length := by
    refine length_intercalate_le _ (rel_filterMap_same (rel_materializeBlock h) message.content)
  have hnative := nativeTokens_refs_eq h message
  have htokens : estimateTextTokens (materialize message attachments) ≤
      estimateTextTokens (materialize message attachments') := by
    unfold estimateTextTokens
    exact_mod_cast Nat.div_le_div_right hlength
  unfold cost
  rw [hnative]
  omega

end

/-- **Smaller documents cost no more.** -/
theorem price_le {attachments attachments' : List ResolvedAttachment}
    (h : List.Forall₂ Smaller attachments attachments') (messages : List Message) :
    price materialize estimateTextTokens messages (byHash attachments) ≤
      price materialize estimateTextTokens messages (byHash attachments') :=
  List.sum_le_sum fun message _ => cost_le (rel_byHash (fun _ _ hsmaller => hsmaller.same) h) message

/-! ## Cutting to the floor -/

/-- A document found is not forgotten. -/
theorem largestFrom_some (exhausted : List Nat) (found : Nat) :
    ∀ (attachments : List ResolvedAttachment) (index bestLength : Nat),
      largestFrom exhausted index (some found) bestLength attachments ≠ none
  | [], _, _ => fun h => nomatch h
  | attachment :: rest, index, bestLength => by
    unfold largestFrom
    dsimp only
    split
    · exact largestFrom_some exhausted found rest _ _
    · split
      · exact largestFrom_some exhausted index rest _ _
      · exact largestFrom_some exhausted found rest _ _

/-- If no document is found, each one was given up on or has little to give. -/
theorem largestFrom_none {exhausted : List Nat} {bestLength : Nat} :
    ∀ {attachments : List ResolvedAttachment} {start : Nat},
      largestFrom exhausted start none bestLength attachments = none →
      ∀ index attachment, attachments[index]? = some attachment → attachment.mode = .injected →
        start + index ∈ exhausted ∨ size attachment ≤ bestLength
  | [], _, _ => fun _ _ hat => nomatch hat
  | first :: rest, start, h => by
    unfold largestFrom at h
    dsimp only at h
    -- What a later pass passes over, the pass from here on passes over one place further.
    have hlater : largestFrom exhausted (start + 1) none bestLength rest = none →
        ∀ index attachment, rest[index]? = some attachment → attachment.mode = .injected →
          start + (index + 1) ∈ exhausted ∨ size attachment ≤ bestLength := by
      intro hrest index attachment hat hinjected
      have hfound := largestFrom_none hrest index attachment hat hinjected
      rwa [Nat.add_assoc, Nat.add_comm 1] at hfound
    split at h
    next hskip =>
      intro index attachment hat hinjected
      cases index with
      | succ index => exact hlater h index attachment hat hinjected
      | zero =>
        obtain rfl := Option.some.inj hat
        rcases hskip with hexhausted | hmode | htext
        · exact .inl hexhausted
        · exact absurd hinjected hmode
        · refine .inr ?_
          rw [size, htext]
          exact Nat.zero_le _
    next =>
      split at h
      next => exact absurd h (largestFrom_some _ _ _ _ _)
      next hshort =>
        intro index attachment hat hinjected
        cases index with
        | succ index => exact hlater h index attachment hat hinjected
        | zero =>
          obtain rfl := Option.some.inj hat
          exact .inr (Nat.not_lt.mp hshort)

/-- What is kept is no less than the floor keeps, and a document cut to it is at the floor. -/
theorem length_shorten (text : String) (keep : Nat) :
    (shorten text keep).length = min keep text.length + truncationNotice.length := by
  rw [shorten, String.length_append, String.length_ofList, List.length_take, String.length_toList]

theorem minDocumentChars_le_keepChars (text : String) (excess : Int) :
    minDocumentChars ≤ keepChars text excess := by
  unfold keepChars
  dsimp only
  omega

/-- A cut that is refused would have been to the floor. -/
theorem le_floorChars_of_refused {text : String} {excess : Int} (hexcess : 0 < excess)
    (h : text.length ≤ (shorten text (keepChars text excess)).length) :
    text.length ≤ floorChars := by
  rw [length_shorten] at h
  unfold keepChars at h
  unfold floorChars
  have hchars : charsPerToken = 4 := rfl
  dsimp only at h
  rw [hchars] at h
  omega

/-- The documents of `_truncate_documents`, in the middle of it: each is cut from the one it was,
and those given up on are at the floor or below. -/
structure Cutting (attachments current : List ResolvedAttachment) (exhausted : List Nat) : Prop where
  cut : List.Forall₂ CutOf attachments current
  floored : ∀ index ∈ exhausted, ∀ attachment, current[index]? = some attachment →
    size attachment ≤ floorChars

theorem Cutting.start (attachments : List ResolvedAttachment) :
    Cutting attachments attachments [] where
  cut := List.forall₂_same.mpr fun attachment _ => .refl attachment
  floored _ hmem := by cases hmem

/-- A document is given up on at the floor. -/
theorem Cutting.exhaust {attachments current : List ResolvedAttachment} {exhausted : List Nat}
    (h : Cutting attachments current exhausted) {index : Nat}
    (hsize : (documentText current index).length ≤ floorChars) :
    Cutting attachments current (index :: exhausted) := by
  refine ⟨h.cut, fun other hmem attachment hat => ?_⟩
  rcases List.mem_cons.mp hmem with rfl | hmem
  · rw [documentText, hat] at hsize
    exact hsize
  · exact h.floored other hmem attachment hat

/-- One entry replaced by another that is related. -/
theorem forall₂_modify {α β : Type} {R : α → β → Prop} {g : β → β} {xs : List α} {ys : List β}
    (h : List.Forall₂ R xs ys) {index : Nat}
    (hg : ∀ x y, ys[index]? = some y → R x y → R x (g y)) :
    List.Forall₂ R xs (ys.modify index g) := by
  induction h generalizing index with
  | nil => cases index <;> exact .nil
  | @cons x y xs ys hxy hrest ih =>
    cases index with
    | zero => exact .cons (hg x y rfl hxy) hrest
    | succ index => exact .cons hxy (ih fun x' y' hat => hg x' y' hat)

/-- A document that has text has the text it is cut to. -/
theorem documentText_cutTo {attachments : List ResolvedAttachment} {index : Nat} {text : String}
    (h : 0 < (documentText attachments index).length) :
    documentText (cutTo text index attachments) index = text := by
  unfold documentText at h ⊢
  rw [cutTo, List.getElem?_modify_eq]
  cases hat : attachments[index]? with
  | none => simp [hat] at h
  | some attachment => rfl

/-- A cut that shortens a document, to no less than what the floor keeps of it. -/
theorem Cutting.cutTo {attachments current : List ResolvedAttachment} {exhausted : List Nat}
    (h : Cutting attachments current exhausted) {index : Nat} {text : String}
    (hshorter : text.length < (documentText current index).length)
    (hfloor : floorChars ≤ text.length) :
    Cutting attachments (Fitting.cutTo text index current) exhausted := by
  refine ⟨forall₂_modify h.cut fun original attachment hat hcut => ?_, ?_⟩
  · obtain ⟨held, rfl⟩ := hcut.same
    have hle := hcut.le
    rw [documentText, hat] at hshorter
    refine ⟨⟨some text, rfl⟩, ?_, ?_⟩
    · exact (Nat.le_of_lt hshorter).trans hle
    · exact (Nat.min_le_right _ _).trans hfloor
  · intro other hmem attachment hat
    rw [Fitting.cutTo, List.getElem?_modify] at hat
    obtain ⟨before, hbefore, rfl⟩ := Option.map_eq_some_iff.mp hat
    have hfloored := h.floored other hmem before hbefore
    split
    next heq =>
      -- What was given up on is no longer than the floor, and is not cut again.
      subst heq
      rw [documentText, hbefore] at hshorter
      exact (Nat.le_of_lt hshorter).trans hfloored
    next => exact hfloored

/-! ### Round by round -/

section

variable {attachments : List ResolvedAttachment} {measure : Nat → List ResolvedAttachment → Int}
  {budget : Int} {s : Cut} {index keep : Nat}

/-- A document that is asked has more text than is always kept. -/
theorem Asks.lt_length (h : Asks budget s index keep) :
    minDocumentChars < (documentText s.current index).length := by
  obtain ⟨attachment, hat, -, -, hlong⟩ := largestTruncatable_spec h.largest
  rw [documentText, hat, Option.bind_some]
  exact hlong

theorem Asks.minDocumentChars_le (h : Asks budget s index keep) : minDocumentChars ≤ keep := by
  rw [h.keep_eq]
  exact minDocumentChars_le_keepChars _ _

/-- A document that gives nothing is at the floor or below it. -/
theorem Asks.le_floorChars (h : Asks budget s index keep) (hrefuses : Refuses s index keep) :
    (documentText s.current index).length ≤ floorChars := by
  have hexcess : 0 < s.total - budget := Int.sub_pos_of_lt h.beyond
  rw [Refuses, h.keep_eq] at hrefuses
  exact le_floorChars_of_refused hexcess hrefuses

theorem Cutting.giveUp (h : Cutting attachments s.current s.exhausted)
    (hasks : Asks budget s index keep) (hrefuses : Refuses s index keep) :
    Cutting attachments (s.giveUp index).current (s.giveUp index).exhausted :=
  h.exhaust (hasks.le_floorChars hrefuses)

theorem Cutting.cutAt (h : Cutting attachments s.current s.exhausted)
    (hasks : Asks budget s index keep) (hrefuses : ¬Refuses s index keep) :
    Cutting attachments (s.cutAt measure index keep).current
      (s.cutAt measure index keep).exhausted := by
  have hlong := hasks.lt_length
  have hkeep := hasks.minDocumentChars_le
  have hlength := length_shorten (documentText s.current index) keep
  have hfloor : floorChars ≤ (shorten (documentText s.current index) keep).length := by
    unfold floorChars
    omega
  have hcut := h.cutTo (Nat.lt_of_not_le hrefuses) hfloor
  unfold Cut.cutAt
  dsimp only
  split
  next hleast =>
    -- Cut to the least that is kept, it is at the floor.
    refine hcut.exhaust ?_
    rw [documentText_cutTo (Nat.lt_of_le_of_lt (Nat.zero_le _) hlong), hlength, hleast]
    exact Nat.add_le_add_right (Nat.min_le_left _ _) _
  next => exact hcut

end

/-- **Cutting ends within the budget or at the floor.** -/
theorem truncateLoop_cutting {M : Type} [Speech M] (project : M → ByHash → String)
    (estimator : String → Int) (messages : List M) (budget : Int)
    (attachments : List ResolvedAttachment) (total : Int) :
    let r := truncateLoop project estimator messages budget attachments [] 0 total
    List.Forall₂ CutOf attachments r.1 ∧ (r.2.2 ≤ budget ∨
      ∀ attachment ∈ r.1, attachment.mode = .injected → size attachment ≤ floorChars) := by
  obtain ⟨last, hlast, heq, hend⟩ := truncateLoop_rule project estimator messages
    (J := fun s => Cutting attachments s.current s.exhausted)
    (fun _ _ _ h hasks hrefuses => h.giveUp hasks hrefuses)
    (fun _ _ _ h hasks hrefuses => h.cutAt hasks hrefuses)
    (s := { current := attachments, total }) (.start attachments)
  dsimp only at heq ⊢
  rw [heq]
  refine ⟨hlast.cut, hend.imp_right fun hnone attachment hmem hinjected => ?_⟩
  obtain ⟨index, hat⟩ := List.mem_iff_getElem?.mp hmem
  rcases largestFrom_none hnone index attachment hat hinjected with hexhausted | hshort
  · rw [Nat.zero_add] at hexhausted
    exact hlast.floored index hexhausted attachment hat
  · exact hshort.trans (Nat.le_add_right _ _)

/-- **A fit leaves every file the file it was**, with some of its text cut at most. -/
theorem fit_cut {M : Type} [Speech M] {project : M → ByHash → String} {estimator : String → Int}
    {history : List M} {attachments : List ResolvedAttachment} {budget : Int} {spec : RenderSpec}
    {strategy : FitStrategy} {result : FitResult M}
    (h : fit project estimator history attachments budget spec strategy = .ok result) :
    List.Forall₂ CutOf attachments result.attachments := by
  cases strategy with
  | summarize => cases h
  | truncate =>
    obtain ⟨k, -, -, hcases⟩ := fit_cases project estimator history attachments budget spec
    rcases hcases with ⟨-, hfit⟩ | ⟨-, -, -, hfit⟩ | ⟨-, -, -, exc, hfit⟩
    · obtain rfl := Except.ok.inj (hfit.symm.trans h)
      exact (Cutting.start attachments).cut
    · obtain rfl := Except.ok.inj (hfit.symm.trans h)
      exact (truncateLoop_cutting project estimator _ budget attachments _).1
    · cases hfit.symm.trans h

/-! ## More room -/

/-- Documents cut to the floor are no greater than the same documents cut otherwise. -/
theorem smaller_of_floored {attachments current current' : List ResolvedAttachment}
    (h : List.Forall₂ CutOf attachments current) (h' : List.Forall₂ CutOf attachments current')
    (hfloor : ∀ attachment ∈ current, attachment.mode = .injected → size attachment ≤ floorChars) :
    List.Forall₂ Smaller current current' := by
  induction h generalizing current' with
  | nil =>
    cases h'
    exact .nil
  | cons hcut hrest ih =>
    cases h' with
    | cons hcut' hrest' =>
      refine .cons (hcut.smaller hcut' (hfloor _ List.mem_cons_self)) (ih hrest' ?_)
      exact fun attachment hmem => hfloor attachment (List.mem_cons_of_mem _ hmem)

theorem length_oldest_le {M : Type} [Speech M] (history : List M) {j k : Nat} (h : j ≤ k) :
    (oldest history j).length ≤ (oldest history k).length := by
  obtain ⟨more, hmore⟩ := List.take_prefix_take_left (l := turnsOf history) h
  unfold oldest
  rw [← hmore, List.flatten_append, List.length_append]
  exact Nat.le_add_right _ _

/-- **More room never hurts.** What fits a budget fits any larger one, and no more is dropped. -/
theorem fit_mono (history : List Message) (attachments : List ResolvedAttachment)
    (spec : RenderSpec) (strategy : FitStrategy) {budget budget' : Int} (hle : budget ≤ budget')
    {result : FitResult Message}
    (h : fit materialize estimateTextTokens history attachments budget spec strategy =
      .ok result) :
    ∃ result', fit materialize estimateTextTokens history attachments budget' spec strategy =
      .ok result' ∧ result'.messagesDropped ≤ result.messagesDropped := by
  cases strategy with
  | summarize => cases h
  | truncate =>
    obtain ⟨k, hk, -, hcases⟩ :=
      fit_cases materialize estimateTextTokens history attachments budget spec
    obtain ⟨k', hk', hleast', hcases'⟩ :=
      fit_cases materialize estimateTextTokens history attachments budget' spec
    have hdropped : result.messagesDropped = (oldest history k).length := by
      rcases hcases with ⟨-, hfit⟩ | ⟨-, -, -, hfit⟩ | ⟨-, -, -, exc, hfit⟩
      · obtain rfl := Except.ok.inj (hfit.symm.trans h)
        rfl
      · obtain rfl := Except.ok.inj (hfit.symm.trans h)
        rfl
      · cases hfit.symm.trans h
    -- The larger budget is met behind no more turns than the smaller.
    have hfewer : k' ≤ k := by
      rcases hcases with ⟨hfits, -⟩ | ⟨-, hall, -⟩ | ⟨-, hall, -⟩
      · refine Nat.not_lt.mp fun hlt => ?_
        have hover := hleast' k hlt
        omega
      · exact hall ▸ hk'
      · exact hall ▸ hk'
    have hless := length_oldest_le history hfewer
    rcases hcases' with ⟨-, hfit'⟩ | ⟨-, -, -, hfit'⟩ | ⟨hover', hall', hstuck, -⟩
    · exact ⟨_, hfit', hdropped ▸ hless⟩
    · exact ⟨_, hfit', hdropped ▸ hless⟩
    · -- Stuck, it has every document at the floor, and the smaller budget was met with no less.
      exfalso
      obtain rfl : k = k' := by omega
      rcases hcases with ⟨hfits, -⟩ | ⟨-, -, hfits, -⟩ | ⟨-, -, -, exc, hfit⟩
      · omega
      · obtain ⟨hcut, -⟩ := truncateLoop_cutting materialize estimateTextTokens
          (trimmed history (oldest history k)) budget attachments
          (price materialize estimateTextTokens (trimmed history (oldest history k))
            (byHash attachments))
        obtain ⟨hcut', hfloored⟩ := truncateLoop_cutting materialize estimateTextTokens
          (trimmed history (oldest history k)) budget' attachments
          (price materialize estimateTextTokens (trimmed history (oldest history k))
            (byHash attachments))
        obtain ⟨hprice, -, -⟩ := truncateLoop_spec materialize estimateTextTokens
          (trimmed history (oldest history k)) budget attachments [] 0 _ rfl
        obtain ⟨hprice', -, -⟩ := truncateLoop_spec materialize estimateTextTokens
          (trimmed history (oldest history k)) budget' attachments [] 0 _ rfl
        have hsmaller := smaller_of_floored hcut' hcut (hfloored.resolve_left (by omega))
        have hcheaper := price_le hsmaller (trimmed history (oldest history k))
        omega
      · cases hfit.symm.trans h

/-- A question that takes up most of a window, and a short one. -/
def longWinded : List Message :=
  [{ role := .user, content := [.text "Once upon a time, in a land so far away that few had been"]
     seq := 0 },
    { role := .user, content := [.text "hello?"], seq := 1 }]

/-- The long question goes to make fifteen tokens do; with forty it need not. -/
theorem fit_mono_longWinded :
    ∃ result', fit materialize estimateTextTokens longWinded [] 40
        { slot := "s", provider := "p", model := "m", contextWindow := 60, maxOutputTokens := 8
          supportsVision := false, supportsPdf := false } .truncate = .ok result' ∧
      result'.messagesDropped ≤ 1 := by
  have hfit : fit materialize estimateTextTokens longWinded [] 15
      { slot := "s", provider := "p", model := "m", contextWindow := 60, maxOutputTokens := 8
        supportsVision := false, supportsPdf := false } .truncate = .ok
      ⟨[{ role := .user, content := [omissionMarker 1, .text "hello?"], seq := 1 }], [], 1, 0, 13⟩ :=
    rfl
  exact fit_mono longWinded [] _ .truncate (by decide) hfit

end Fitting

end LlmGateway
