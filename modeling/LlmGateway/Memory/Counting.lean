import LlmGateway.Memory.Budget
import Mathlib.Data.List.Nodup

/-!
# Counting the documents that were cut

The loop asks the longest document, whether or not a message that is left refers
to it, and counts its cuts. What it says of the documents is true where the
documents that are shown are the ones it has to ask.
-/

namespace LlmGateway

namespace Fitting

open Render Speech

/-! ## What a cut saves -/

/-- One entry shorter by `slack`, among entries that are no longer. -/
theorem length_intercalate_add_le (separator : String) {pre pre' suf suf' : List String}
    {text text' : String} {slack : Nat}
    (hpre : List.Forall₂ (fun text text' : String => text.length ≤ text'.length) pre pre')
    (hsuf : List.Forall₂ (fun text text' : String => text.length ≤ text'.length) suf suf')
    (h : text.length + slack ≤ text'.length) :
    (separator.intercalate (pre ++ text :: suf)).length + slack ≤
      (separator.intercalate (pre' ++ text' :: suf')).length := by
  induction hpre with
  | nil =>
    rw [List.nil_append, List.nil_append]
    cases hsuf with
    | nil => simpa using h
    | cons hle hrest =>
      have hlater := length_intercalate_le separator (.cons hle hrest)
      simp only [String.intercalate_cons_cons, String.length_append]
      omega
  | cons hle _ ih =>
    rw [List.cons_append, List.cons_append, String.intercalate_cons_of_ne_nil (by simp),
      String.intercalate_cons_of_ne_nil (by simp)]
    simp only [String.length_append]
    omega

section

variable {attachments attachments' : ByHash}

/-- **A document that is shown saves what is cut of it**: four characters less are one token. -/
theorem cost_add_le
    (h : ∀ fileHash, Option.Rel Smaller (attachments fileHash) (attachments' fileHash))
    {message : Message} {ref : FileRef} (href : ref ∈ message.fileRefs)
    {attachment attachment' : ResolvedAttachment} (hat : attachments ref.fileHash = some attachment)
    (hat' : attachments' ref.fileHash = some attachment') (hinjected : attachment.mode = .injected)
    {saved : Nat} (hless : size attachment + charsPerToken * saved ≤ size attachment') :
    cost materialize estimateTextTokens message attachments + saved ≤
      cost materialize estimateTextTokens message attachments' := by
  have hsmaller : Smaller attachment attachment' := by
    have hrel := h ref.fileHash
    rw [hat, hat'] at hrel
    cases hrel with
    | some hsmaller => exact hsmaller
  have hinjected' : attachment'.mode = .injected := by
    obtain ⟨text, rfl⟩ := hsmaller.same
    exact hinjected
  have hlength : (materialize message attachments).length + charsPerToken * saved ≤
      (materialize message attachments').length := by
    obtain ⟨block, hblock, hkind⟩ := List.mem_filterMap.mp href
    obtain rfl : block = .fileRef ref := by
      cases block with
      | fileRef ref' =>
        obtain rfl := Option.some.inj hkind
        rfl
      | text _ => cases hkind
      | omissionMarker _ _ => cases hkind
    -- The message is what stands before the document, the document, and what stands behind it.
    obtain ⟨before, behind, hcontent⟩ := List.append_of_mem hblock
    have henvelope : materializeBlock attachments (.fileRef ref) =
        some (documentEnvelope attachment) := by
      simp only [materializeBlock, hat, Option.map_some, hinjected]
    have henvelope' : materializeBlock attachments' (.fileRef ref) =
        some (documentEnvelope attachment') := by
      simp only [materializeBlock, hat', Option.map_some, hinjected']
    rw [materialize, materialize, hcontent, List.filterMap_append, List.filterMap_append,
      List.filterMap_cons_some henvelope, List.filterMap_cons_some henvelope']
    exact length_intercalate_add_le _ (rel_filterMap_same (rel_materializeBlock h) before)
      (rel_filterMap_same (rel_materializeBlock h) behind)
      (length_documentEnvelope_add_le hsmaller.same hless)
  have hnative := nativeTokens_refs_eq h message
  have htokens : estimateTextTokens (materialize message attachments) + saved ≤
      estimateTextTokens (materialize message attachments') := by
    have hchars : charsPerToken = 4 := rfl
    unfold estimateTextTokens
    rw [hchars] at hlength ⊢
    omega
  unfold cost
  rw [hnative]
  omega

end

/-- Some message refers to the file. -/
def Shown (messages : List Message) (attachment : ResolvedAttachment) : Prop :=
  ∃ message ∈ messages, ∃ ref ∈ message.fileRefs, ref.fileHash = attachment.fileHash

theorem map_fileHash_eq {attachments attachments' : List ResolvedAttachment}
    (h : List.Forall₂ SameFile attachments attachments') :
    attachments.map (·.fileHash) = attachments'.map (·.fileHash) := by
  induction h with
  | nil => rfl
  | cons hsame _ ih =>
    obtain ⟨text, rfl⟩ := hsame
    rw [List.map_cons, List.map_cons, ih]

/-- Of files with distinct hashes, each is found under its own. -/
theorem byHash_of_nodup {attachments : List ResolvedAttachment} {attachment : ResolvedAttachment}
    (hdistinct : (attachments.map (·.fileHash)).Nodup) (h : attachment ∈ attachments) :
    byHash attachments attachment.fileHash = some attachment := by
  have hsome : (byHash attachments attachment.fileHash).isSome := by
    rw [byHash, List.find?_isSome]
    exact ⟨attachment, List.mem_reverse.mpr h, decide_eq_true rfl⟩
  obtain ⟨found, hfound⟩ := Option.isSome_iff_exists.mp hsome
  have hmem : found ∈ attachments := List.mem_reverse.mp (List.mem_of_find?_eq_some hfound)
  have hhash : found.fileHash = attachment.fileHash :=
    of_decide_eq_true (List.find?_some (p := fun a : ResolvedAttachment =>
      decide (a.fileHash = attachment.fileHash)) hfound)
  rw [hfound, List.inj_on_of_nodup_map hdistinct hmem h hhash]

/-- One entry less by `saved`, among entries that are no more. -/
theorem sum_map_add_le {α : Type} {f g : α → Int} {xs : List α} {x : α} {saved : Int} (hx : x ∈ xs)
    (hle : ∀ y ∈ xs, f y ≤ g y) (hless : f x + saved ≤ g x) :
    (xs.map f).sum + saved ≤ (xs.map g).sum := by
  obtain ⟨pre, suf, rfl⟩ := List.append_of_mem hx
  have hpre : (pre.map f).sum ≤ (pre.map g).sum :=
    List.sum_le_sum fun y hy => hle y (List.mem_append_left _ hy)
  have hsuf : (suf.map f).sum ≤ (suf.map g).sum :=
    List.sum_le_sum fun y hy => hle y (List.mem_append_right _ (List.mem_cons_of_mem x hy))
  simp only [List.map_append, List.sum_append, List.map_cons, List.sum_cons]
  omega

theorem price_add_le {attachments attachments' : List ResolvedAttachment} {messages : List Message}
    (h : List.Forall₂ Smaller attachments attachments')
    (hdistinct : (attachments'.map (·.fileHash)).Nodup)
    {index : Nat} {attachment attachment' : ResolvedAttachment}
    (hat : attachments[index]? = some attachment) (hat' : attachments'[index]? = some attachment')
    (hshown : Shown messages attachment') (hinjected : attachment.mode = .injected) {saved : Nat}
    (hless : size attachment + charsPerToken * saved ≤ size attachment') :
    price materialize estimateTextTokens messages (byHash attachments) + saved ≤
      price materialize estimateTextTokens messages (byHash attachments') := by
  have hrel := rel_byHash (fun _ _ hsmaller => Smaller.same hsmaller) h
  have hhashes := map_fileHash_eq (h.imp fun a a' hsmaller => hsmaller.same)
  obtain ⟨message, hmessage, ref, href, hhash⟩ := hshown
  have hfound' := byHash_of_nodup hdistinct (List.mem_of_getElem? hat')
  have hfound := byHash_of_nodup (hhashes ▸ hdistinct) (List.mem_of_getElem? hat)
  have heq : attachment.fileHash = attachment'.fileHash := by
    have hnth := congrArg (·[index]?) hhashes
    simpa [hat, hat'] using hnth
  rw [heq, ← hhash] at hfound
  rw [← hhash] at hfound'
  exact sum_map_add_le hmessage (fun other _ => cost_le hrel other)
    (cost_add_le hrel href hfound hfound' hinjected hless)

/-! ## What is left of a text -/

/-- The head of a text, no less of it than is always kept, and one notice. -/
def Headed (original current : ResolvedAttachment) : Prop :=
  ∃ text keep, original.text = some text ∧ minDocumentChars ≤ keep ∧
    keep + truncationNotice.length < text.length ∧ current.text = some (shorten text keep)

/-- A file whose text is what it was, or headed. -/
structure Kept (original current : ResolvedAttachment) : Prop where
  same : SameFile original current
  text : current.text = original.text ∨ original.mode = .injected ∧ Headed original current

theorem Kept.refl (attachment : ResolvedAttachment) : Kept attachment attachment where
  same := ⟨attachment.text, rfl⟩
  text := .inl rfl

/-- **The head of a head** is the head of the text, with one notice still. -/
theorem shorten_shorten {text : String} {keep keep' : Nat} (hle : keep' ≤ keep)
    (hin : keep ≤ text.length) : shorten (shorten text keep) keep' = shorten text keep' := by
  have hlen : (text.toList.take keep).length = keep := by
    rw [List.length_take, String.length_toList, Nat.min_eq_left hin]
  rw [shorten, shorten, shorten, String.toList_append, String.toList_ofList,
    List.take_append_of_le_length (by omega), List.take_take, Nat.min_eq_left hle]

/-- Headed, a text has less to give than it had. -/
theorem Headed.size_lt {original current : ResolvedAttachment} (h : Headed original current) :
    size current < size original := by
  obtain ⟨text, keep, horiginal, -, hless, hcurrent⟩ := h
  rw [size, size, horiginal, hcurrent, Option.getD_some, Option.getD_some, length_shorten]
  omega

/-- **However often a text is cut**, it is headed. -/
theorem Kept.headed {original current : ResolvedAttachment} (h : Kept original current)
    {text : String} (htext : current.text = some text) {excess : Int} (hexcess : 0 < excess)
    (hless : (shorten text (keepChars text excess)).length < text.length) :
    Headed original { current with text := some (shorten text (keepChars text excess)) } := by
  have hkeep := minDocumentChars_le_keepChars text excess
  rcases h.text with heq | ⟨-, whole, keep, horiginal, hfloor, hshort, hcut⟩
  · rw [length_shorten] at hless
    exact ⟨text, keepChars text excess, heq.symm.trans htext, hkeep, by omega, rfl⟩
  · -- What is kept of a head and its notice does not reach into the notice.
    obtain rfl : text = shorten whole keep := Option.some.inj (htext.symm.trans hcut)
    have hle : keepChars (shorten whole keep) excess ≤ keep := by
      have hlen := length_shorten whole keep
      have hchars : charsPerToken = 4 := rfl
      unfold keepChars
      dsimp only
      rw [hchars, hlen]
      omega
    refine ⟨whole, _, horiginal, hkeep, by omega, ?_⟩
    rw [shorten_shorten hle (by omega)]

section

variable {attachments : List ResolvedAttachment} {measure : Nat → List ResolvedAttachment → Int}
  {budget : Int} {s : Cut} {index keep : Nat}

/-- The document that is asked. -/
theorem Asks.document (h : Asks budget s index keep) :
    ∃ attachment text, s.current[index]? = some attachment ∧ index ∉ s.exhausted ∧
      attachment.mode = .injected ∧ attachment.text = some text ∧
      documentText s.current index = text ∧ minDocumentChars < text.length := by
  obtain ⟨attachment, hat, hfresh, hinjected, hlong⟩ := largestTruncatable_spec h.largest
  cases htext : attachment.text with
  | none =>
    rw [htext] at hlong
    exact absurd hlong (Nat.not_lt_zero _)
  | some text =>
    rw [htext, Option.getD_some] at hlong
    refine ⟨attachment, text, hat, hfresh, hinjected, htext, ?_, hlong⟩
    rw [documentText, hat, Option.bind_some, htext, Option.getD_some]

theorem kept_cutAt (h : List.Forall₂ Kept attachments s.current) (hasks : Asks budget s index keep)
    (hrefuses : ¬Refuses s index keep) :
    List.Forall₂ Kept attachments (s.cutAt measure index keep).current := by
  obtain ⟨asked, text, hasked, -, hinjected, htext, hdocument, -⟩ := hasks.document
  have hover : 0 < s.total - budget := Int.sub_pos_of_lt hasks.beyond
  rw [Refuses, hasks.keep_eq, hdocument, Nat.not_le] at hrefuses
  simp only [Cut.cutAt, cutTo, hasks.keep_eq, hdocument]
  refine forall₂_modify h fun original current hat hkept => ?_
  obtain rfl : asked = current := Option.some.inj (hasked.symm.trans hat)
  obtain ⟨held, rfl⟩ := hkept.same
  exact ⟨⟨_, rfl⟩, .inr ⟨hinjected, hkept.headed htext hover hrefuses⟩⟩

end

/-! ## Which document is asked -/

theorem documentText_of_getElem? {attachments : List ResolvedAttachment} {index : Nat}
    {attachment : ResolvedAttachment} (h : attachments[index]? = some attachment) :
    (documentText attachments index).length = size attachment := by
  rw [documentText, h, Option.bind_some, size]

/-- What a search comes to: `len` is the length of what it chose, and of all it might have chosen
none is longer, and none before it as long. -/
structure Chosen (exhausted : List Nat) (start : Nat) (best : Option Nat) (bestLength : Nat)
    (attachments : List ResolvedAttachment) (chosen len : Nat) : Prop where
  le : bestLength ≤ len
  most : ∀ offset attachment, attachments[offset]? = some attachment →
    start + offset ∉ exhausted → attachment.mode = .injected → 0 < size attachment →
    size attachment ≤ len ∧ (start + offset < chosen → size attachment < len)
  found : best = some chosen ∧ len = bestLength ∨
    ∃ offset attachment, chosen = start + offset ∧ attachments[offset]? = some attachment ∧
      len = size attachment ∧ bestLength < len

/-- What a later pass chooses, the pass from here on chooses, if that says of the first what it
says of the others. -/
theorem Chosen.cons {exhausted : List Nat} {start bestLength bestLength' chosen len : Nat}
    {best best' : Option Nat} {first : ResolvedAttachment} {rest : List ResolvedAttachment}
    (h : Chosen exhausted (start + 1) best' bestLength' rest chosen len) (hle : bestLength ≤ len)
    (hfirst : start ∉ exhausted → first.mode = .injected → 0 < size first →
      size first ≤ len ∧ (start < chosen → size first < len))
    (hfound : best' = some chosen ∧ len = bestLength' →
      best = some chosen ∧ len = bestLength ∨
        chosen = start ∧ len = size first ∧ bestLength < len)
    (hlater : bestLength ≤ bestLength') :
    Chosen exhausted start best bestLength (first :: rest) chosen len where
  le := hle
  most offset attachment hat hfresh hinjected hpos := by
    cases offset with
    | zero =>
      obtain rfl := Option.some.inj hat
      exact hfirst hfresh hinjected hpos
    | succ offset =>
      have hshift : start + (offset + 1) = start + 1 + offset := by omega
      rw [hshift] at hfresh ⊢
      exact h.most offset attachment hat hfresh hinjected hpos
  found := by
    rcases h.found with hbest | ⟨offset, attachment, rfl, hat, hlen, hlt⟩
    · rcases hfound hbest with hkept | ⟨rfl, hlen, hlt⟩
      · exact .inl hkept
      · exact .inr ⟨0, first, rfl, rfl, hlen, hlt⟩
    · exact .inr ⟨offset + 1, attachment, by omega, hat, hlen, by omega⟩

/-- **The search chooses the first of the longest.** -/
theorem largestFrom_chosen {exhausted : List Nat} :
    ∀ {attachments : List ResolvedAttachment} {start bestLength chosen : Nat} {best : Option Nat},
      largestFrom exhausted start best bestLength attachments = some chosen →
      (∀ held, best = some held → held < start) →
      ∃ len, Chosen exhausted start best bestLength attachments chosen len
  | [], start, bestLength, chosen, best, h, _ =>
    ⟨bestLength, ⟨le_refl _, fun _ _ hat => (by cases hat), .inl ⟨h, rfl⟩⟩⟩
  | first :: rest, start, bestLength, chosen, best, h, hheld => by
    unfold largestFrom at h
    dsimp only at h
    split at h
    next hskip =>
      obtain ⟨len, hchosen⟩ := largestFrom_chosen h fun held hbest =>
        Nat.lt_succ_of_lt (hheld held hbest)
      refine ⟨len, hchosen.cons hchosen.le (fun hfresh hinjected hpos => ?_) .inl (le_refl _)⟩
      -- What is skipped might not have been chosen.
      rcases hskip with hexhausted | hmode | htext
      · exact absurd hexhausted hfresh
      · exact absurd hinjected hmode
      · rw [size, htext] at hpos
        exact absurd hpos (Nat.lt_irrefl 0)
    next =>
      split at h
      next hlonger =>
        obtain ⟨len, hchosen⟩ := largestFrom_chosen h fun held hbest =>
          Nat.lt_succ_of_le (Option.some.inj hbest).ge
        have hle : size first ≤ len := hchosen.le
        have hlonger' : bestLength < size first := hlonger
        refine ⟨len, hchosen.cons (by omega) (fun _ _ _ => ⟨hle, fun hlt => ?_⟩)
          (fun hhere => ?_) (Nat.le_of_lt hlonger)⟩
        · rcases hchosen.found with ⟨hbest, -⟩ | ⟨_, _, -, -, -, hmore⟩
          · obtain rfl := Option.some.inj hbest
            exact absurd hlt (Nat.lt_irrefl _)
          · exact hmore
        · obtain ⟨hbest, hlen⟩ := hhere
          exact .inr ⟨(Option.some.inj hbest).symm, hlen, by omega⟩
      next hshort =>
        obtain ⟨len, hchosen⟩ := largestFrom_chosen h fun held hbest =>
          Nat.lt_succ_of_lt (hheld held hbest)
        have hle : size first ≤ bestLength := Nat.not_lt.mp hshort
        have hlen := hchosen.le
        refine ⟨len, hchosen.cons hchosen.le (fun _ _ _ => ⟨by omega, fun hlt => ?_⟩) .inl
          (le_refl _)⟩
        rcases hchosen.found with ⟨hbest, -⟩ | ⟨_, _, -, -, -, hmore⟩
        · have hbefore := hheld chosen hbest
          omega
        · omega

/-- The document at `index` goes before the one at `other`: it is longer, or as long and
earlier. -/
def Before (attachments : List ResolvedAttachment) (index other : Nat) : Prop :=
  (documentText attachments other).length < (documentText attachments index).length ∨
    (documentText attachments other).length = (documentText attachments index).length ∧
      index < other

instance (attachments : List ResolvedAttachment) (index other : Nat) :
    Decidable (Before attachments index other) :=
  inferInstanceAs (Decidable (_ ∨ _))

/-- **The document that is asked goes before every other that may be.** -/
theorem Asks.before {budget : Int} {s : Cut} {index keep other : Nat}
    {attachment : ResolvedAttachment} (h : Asks budget s index keep)
    (hat : s.current[other]? = some attachment) (hfresh : other ∉ s.exhausted)
    (hinjected : attachment.mode = .injected) (hpos : 0 < size attachment) (hne : other ≠ index) :
    Before s.current index other := by
  obtain ⟨len, hchosen⟩ := largestFrom_chosen h.largest fun _ hbest => nomatch hbest
  obtain ⟨hle, hlt⟩ := hchosen.most other attachment hat (by rwa [Nat.zero_add]) hinjected hpos
  rw [Nat.zero_add] at hlt
  rcases hchosen.found with ⟨hbest, -⟩ | ⟨offset, asked, hindex, hasked, hlen, -⟩
  · cases hbest
  · rw [Nat.zero_add] at hindex
    subst hindex
    rw [Before, documentText_of_getElem? hat, documentText_of_getElem? hasked, ← hlen]
    rcases Nat.lt_or_ge other index with hbefore | hbehind
    · exact .inl (hlt hbefore)
    · rcases Nat.lt_or_eq_of_le hle with hless | heq
      · exact .inl hless
      · exact .inr ⟨heq, by omega⟩

/-! ## The documents, place by place -/

theorem rel_of_getElem? {α β : Type} {R : α → β → Prop} {xs : List α} {ys : List β} {i : Nat}
    {x : α} {y : β} (h : List.Forall₂ R xs ys) (hx : xs[i]? = some x) (hy : ys[i]? = some y) :
    R x y := by
  obtain ⟨hi, rfl⟩ := List.getElem?_eq_some_iff.mp hx
  obtain ⟨hi', rfl⟩ := List.getElem?_eq_some_iff.mp hy
  exact h.get hi hi'

theorem forall₂_of_getElem? {α β : Type} {R : α → β → Prop} {xs : List α} {ys : List β}
    (hlen : xs.length = ys.length)
    (h : ∀ (i : Nat) x y, xs[i]? = some x → ys[i]? = some y → R x y) : List.Forall₂ R xs ys :=
  List.forall₂_of_length_eq_of_get hlen fun i hx hy =>
    h i _ _ (List.getElem?_eq_getElem hx) (List.getElem?_eq_getElem hy)

theorem exists_of_getElem? {α β : Type} {R : α → β → Prop} {xs : List α} {ys : List β} {i : Nat}
    {y : β} (h : List.Forall₂ R xs ys) (hy : ys[i]? = some y) : ∃ x, xs[i]? = some x ∧ R x y := by
  obtain ⟨hi, rfl⟩ := List.getElem?_eq_some_iff.mp hy
  have hx : xs[i]? = some (xs.get ⟨i, h.length_eq ▸ hi⟩) := List.getElem?_eq_getElem _
  exact ⟨_, hx, rel_of_getElem? h hx hy⟩

/-- A cut changes the text of one document. -/
theorem cutTo_cases {text : String} {index i : Nat} {current : List ResolvedAttachment}
    {attachment : ResolvedAttachment} (h : (cutTo text index current)[i]? = some attachment) :
    (i = index ∧ ∃ before, current[index]? = some before ∧
      attachment = { before with text := some text }) ∨
      i ≠ index ∧ current[i]? = some attachment := by
  rw [cutTo, List.getElem?_modify] at h
  obtain ⟨before, hbefore, heq⟩ := Option.map_eq_some_iff.mp h
  by_cases hi : index = i
  · subst hi
    rw [if_pos rfl] at heq
    exact .inl ⟨rfl, before, hbefore, heq.symm⟩
  · rw [if_neg hi] at heq
    exact .inr ⟨fun hi' => hi hi'.symm, heq ▸ hbefore⟩

/-- The document at `i`, `original` at first, says something else now. -/
def Altered (attachments current : List ResolvedAttachment) (i : Nat)
    (original : ResolvedAttachment) : Prop :=
  attachments[i]? = some original ∧ ∃ now, current[i]? = some now ∧ now.text ≠ original.text

/-- How many of the documents say something else than they did. -/
def changed (attachments current : List ResolvedAttachment) : Nat :=
  ((attachments.zip current).filter fun p => p.2.text ≠ p.1.text).length

/-- One more document changed. -/
theorem changed_cutTo {text : String} {attachments current : List ResolvedAttachment} {index : Nat}
    {original before : ResolvedAttachment} (hat : attachments[index]? = some original)
    (hbefore : current[index]? = some before) (hsame : before.text = original.text)
    (hnew : some text ≠ original.text) :
    changed attachments (cutTo text index current) = changed attachments current + 1 := by
  induction attachments generalizing current index with
  | nil => cases hat
  | cons first attachments ih =>
    cases current with
    | nil => cases hbefore
    | cons first' current =>
      unfold changed cutTo at ih ⊢
      cases index with
      | zero =>
        obtain rfl := Option.some.inj hat
        obtain rfl := Option.some.inj hbefore
        rw [List.modify_zero_cons, List.zip_cons_cons, List.zip_cons_cons,
          List.filter_cons_of_pos (by simpa using hnew),
          List.filter_cons_of_neg (by simpa using hsame), List.length_cons]
      | succ index =>
        have hrest := ih hat hbefore
        rw [List.modify_succ_cons, List.zip_cons_cons, List.zip_cons_cons, List.filter_cons,
          List.filter_cons]
        split
        · rw [List.length_cons, List.length_cons, hrest]
        · exact hrest

/-! ## The course of the loop -/

section

variable {messages : List Message} {attachments : List ResolvedAttachment} {budget : Int} {s : Cut}
  {index keep : Nat}

/-- What holds in every round. -/
structure Course (messages : List Message) (attachments : List ResolvedAttachment) (s : Cut) :
    Prop where
  kept : List.Forall₂ Kept attachments s.current
  cutting : Cutting attachments s.current s.exhausted
  priced : s.total = price materialize estimateTextTokens messages (byHash s.current)

/-- How the loop of `fit` measures. -/
abbrev tokens (messages : List Message) : Nat → List ResolvedAttachment → Int :=
  measured materialize estimateTextTokens messages

theorem Course.start (messages : List Message) (attachments : List ResolvedAttachment) :
    Course messages attachments
      { current := attachments
        total := price materialize estimateTextTokens messages (byHash attachments) } where
  kept := List.forall₂_same.mpr fun attachment _ => .refl attachment
  cutting := .start attachments
  priced := rfl

theorem Course.giveUp (h : Course messages attachments s) (hasks : Asks budget s index keep)
    (hrefuses : Refuses s index keep) : Course messages attachments (s.giveUp index) where
  kept := h.kept
  cutting := h.cutting.giveUp hasks hrefuses
  priced := h.priced

theorem Course.cutAt (h : Course messages attachments s) (hasks : Asks budget s index keep)
    (hrefuses : ¬Refuses s index keep) :
    Course messages attachments (s.cutAt (tokens messages) index keep) where
  kept := kept_cutAt h.kept hasks hrefuses
  cutting := h.cutting.cutAt hasks hrefuses
  priced := rfl

/-- No document has more text than it had. -/
theorem Course.size_le (h : Course messages attachments s) {i : Nat}
    {original current : ResolvedAttachment} (hat : attachments[i]? = some original)
    (hat' : s.current[i]? = some current) : size current ≤ size original :=
  (rel_of_getElem? h.cutting.cut hat hat').le

/-- A document that gives some of its text has more than the floor. -/
theorem Asks.floorChars_lt (h : Asks budget s index keep) (hrefuses : ¬Refuses s index keep) :
    floorChars < (documentText s.current index).length := by
  have hkeep := h.minDocumentChars_le
  have hlong := h.lt_length
  rw [Refuses, length_shorten] at hrefuses
  unfold floorChars
  omega

/-! ### Where only documents that are shown have to be cut -/

/-- The document, cut down to the floor. -/
def cutToFloor (attachment : ResolvedAttachment) : ResolvedAttachment :=
  { attachment with text := some (shorten (attachment.text.getD "") minDocumentChars) }

theorem size_cutToFloor {attachment : ResolvedAttachment} (h : floorChars < size attachment) :
    size (cutToFloor attachment) = floorChars := by
  unfold floorChars at h ⊢
  unfold size at h
  rw [size, cutToFloor, Option.getD_some, length_shorten]
  omega

/-- The documents, with every one that goes before the one at `index` cut down to the floor. -/
def flooredBefore (attachments : List ResolvedAttachment) (index : Nat) :
    List ResolvedAttachment :=
  attachments.mapIdx fun i attachment =>
    if attachment.mode = .injected ∧ floorChars < size attachment ∧ Before attachments i index
    then cutToFloor attachment else attachment

/-- **Spared**: the documents nothing refers to are not needed, since cutting those that go before
them is enough. -/
def Spared (messages : List Message) (attachments : List ResolvedAttachment) (budget : Int) :
    Prop :=
  ∀ index attachment, attachments[index]? = some attachment → attachment.mode = .injected →
    floorChars < size attachment → ¬Shown messages attachment →
      price materialize estimateTextTokens messages (byHash (flooredBefore attachments index)) ≤
        budget

/-- The loop where it cuts no document twice, and none that is not shown. -/
structure Tally (messages : List Message) (attachments : List ResolvedAttachment) (budget : Int)
    (s : Cut) : Prop extends Course messages attachments s where
  shown : ∀ i original, Altered attachments s.current i original → Shown messages original
  /-- A document that was cut met the budget, or is not asked again. -/
  spent : s.total ≤ budget ∨ ∀ i original, Altered attachments s.current i original →
    i ∈ s.exhausted
  counted : s.truncated = changed attachments s.current

/-- **The document asked is shown**, where the others are spared. -/
theorem Tally.shown_of_asks (h : Tally messages attachments budget s)
    (hspared : Spared messages attachments budget) (hasks : Asks budget s index keep)
    (hrefuses : ¬Refuses s index keep) {original : ResolvedAttachment}
    (hat : attachments[index]? = some original) : Shown messages original := by
  by_contra hhidden
  have hover := hasks.beyond
  have hspent := h.spent.resolve_left (Int.not_le.mpr hover)
  obtain ⟨asked, text, hasked, hfresh, hinjected, -⟩ := hasks.document
  have hbig := hasks.floorChars_lt hrefuses
  rw [documentText_of_getElem? hasked] at hbig
  have hsize := h.size_le hat hasked
  have hmode : original.mode = .injected := by
    obtain ⟨held, rfl⟩ := (rel_of_getElem? h.kept hat hasked).same
    exact hinjected
  have hfits := hspared index original hat hmode (by omega) hhidden
  -- Every document before it is at the floor by now.
  have hsmaller : List.Forall₂ Smaller s.current (flooredBefore attachments index) := by
    refine forall₂_of_getElem? (by simp [flooredBefore, h.kept.length_eq]) fun i current floored
      hcurrent hfloored => ?_
    rw [flooredBefore, List.getElem?_mapIdx] at hfloored
    obtain ⟨first, hfirst, rfl⟩ := Option.map_eq_some_iff.mp hfloored
    have hkept := rel_of_getElem? h.kept hfirst hcurrent
    have hle := h.size_le hfirst hcurrent
    obtain ⟨held, rfl⟩ := hkept.same
    split
    next hcut =>
      obtain ⟨hfirstmode, hfirstbig, hbefore⟩ := hcut
      refine ⟨⟨_, rfl⟩, fun _ => ?_⟩
      rw [size_cutToFloor hfirstbig]
      by_cases hexhausted : i ∈ s.exhausted
      · exact h.cutting.floored i hexhausted _ hcurrent
      · exfalso
        have hheld : held = first.text := by
          by_contra hne
          exact hexhausted (hspent i first ⟨hfirst, _, hcurrent, hne⟩)
        subst hheld
        have hcurrent' : s.current[i]? = some first := hcurrent
        have hne : i ≠ index := by
          rintro rfl
          rcases hbefore with hlt | ⟨-, hlt⟩
          · exact absurd hlt (Nat.lt_irrefl _)
          · exact absurd hlt (Nat.lt_irrefl _)
        have hasked' : asked.text = original.text := by
          by_contra hne'
          exact hfresh (hspent index original ⟨hat, asked, hasked, hne'⟩)
        have hpos : 0 < size first := by omega
        have hafter := hasks.before hcurrent' hexhausted hfirstmode hpos hne
        have heq : size asked = size original := by rw [size, size, hasked']
        rw [Before, documentText_of_getElem? hasked, documentText_of_getElem? hcurrent'] at hafter
        rw [Before, documentText_of_getElem? hat, documentText_of_getElem? hfirst] at hbefore
        omega
    next => exact ⟨⟨_, rfl⟩, fun _ => hle⟩
  have hprice := price_le hsmaller messages
  rw [← h.priced] at hprice
  omega

/-- A cut leaves every document with no more text. -/
theorem smaller_cutAt (hrefuses : ¬Refuses s index keep) :
    List.Forall₂ Smaller (s.cutAt (tokens messages) index keep).current s.current := by
  refine forall₂_of_getElem? (List.length_modify _ _ _) fun i cut before hcut hbefore => ?_
  rcases cutTo_cases hcut with ⟨rfl, before', hbefore', rfl⟩ | ⟨-, hsame⟩
  · obtain rfl : before = before' := Option.some.inj (hbefore.symm.trans hbefore')
    rw [Refuses, Nat.not_le, documentText_of_getElem? hbefore] at hrefuses
    exact ⟨⟨before.text, rfl⟩, fun _ => Nat.le_of_lt hrefuses⟩
  · obtain rfl : before = cut := Option.some.inj (hbefore.symm.trans hsame)
    exact ⟨⟨before.text, rfl⟩, fun _ => le_refl _⟩

/-- **One cut of a document that is shown meets the budget**, unless it cuts down to the floor. -/
theorem Course.total_cutAt_le (h : Course messages attachments s)
    (hdistinct : (attachments.map (·.fileHash)).Nodup) (hasks : Asks budget s index keep)
    (hrefuses : ¬Refuses s index keep) {original : ResolvedAttachment}
    (hat : attachments[index]? = some original) (hshown : Shown messages original)
    (hkeep : keep ≠ minDocumentChars) :
    (s.cutAt (tokens messages) index keep).total ≤ budget := by
  obtain ⟨asked, text, hasked, -, hinjected, htext, hdocument, hlong⟩ := hasks.document
  have hover := hasks.beyond
  obtain ⟨saved, hsaved⟩ := Int.eq_ofNat_of_zero_le (Int.sub_nonneg_of_le hover.le)
  have hsame := rel_of_getElem? (h.kept.imp fun _ _ hkept => Kept.same hkept) hat hasked
  have hhashes := map_fileHash_eq (h.kept.imp fun _ _ hkept => Kept.same hkept)
  have hshown' : Shown messages asked := by
    obtain ⟨held, rfl⟩ := hsame
    exact hshown
  have hcut : (s.cutAt (tokens messages) index keep).current[index]? =
      some { asked with text := some (shorten text keep) } := by
    simp only [Cut.cutAt, cutTo, hdocument, List.getElem?_modify_eq, hasked]
    rfl
  -- What is cut is four characters for each token that is too many.
  have hless : size { asked with text := some (shorten text keep) } + charsPerToken * saved ≤
      size asked := by
    have hkept := hasks.keep_eq
    have hchars : charsPerToken = 4 := rfl
    rw [hdocument] at hkept
    rw [size, size, htext, Option.getD_some, Option.getD_some, length_shorten]
    unfold keepChars at hkept
    dsimp only at hkept
    rw [hchars, hsaved] at hkept
    rw [hchars]
    omega
  have hprice := price_add_le (smaller_cutAt hrefuses) (hhashes ▸ hdistinct) hcut hasked hshown'
    hinjected hless
  rw [← h.priced] at hprice
  have htotal : (s.cutAt (tokens messages) index keep).total = price materialize estimateTextTokens
    messages (byHash (s.cutAt (tokens messages) index keep).current) := rfl
  omega

theorem Tally.giveUp (h : Tally messages attachments budget s) (hasks : Asks budget s index keep)
    (hrefuses : Refuses s index keep) : Tally messages attachments budget (s.giveUp index) where
  toCourse := h.toCourse.giveUp hasks hrefuses
  shown := h.shown
  spent := h.spent.imp_right fun hspent i original haltered =>
    List.mem_cons_of_mem index (hspent i original haltered)
  counted := h.counted

theorem Tally.cutAt (h : Tally messages attachments budget s)
    (hdistinct : (attachments.map (·.fileHash)).Nodup)
    (hspared : Spared messages attachments budget) (hasks : Asks budget s index keep)
    (hrefuses : ¬Refuses s index keep) :
    Tally messages attachments budget (s.cutAt (tokens messages) index keep) := by
  have hspent := h.spent.resolve_left (Int.not_le.mpr hasks.beyond)
  obtain ⟨asked, text, hasked, hfresh, -, htext, hdocument, -⟩ := hasks.document
  obtain ⟨original, hat, hkept⟩ := exists_of_getElem? h.kept hasked
  have hshown := h.shown_of_asks hspared hasks hrefuses hat
  -- What is cut now was not cut before.
  have hsame : asked.text = original.text := by
    by_contra hne
    exact hfresh (hspent index original ⟨hat, asked, hasked, hne⟩)
  have haltered : ∀ i first, Altered attachments (s.cutAt (tokens messages) index keep).current i
      first → i = index ∨ Altered attachments s.current i first := by
    rintro i first ⟨hfirst, now, hnow, hne⟩
    rcases cutTo_cases hnow with ⟨rfl, -⟩ | ⟨-, hbefore⟩
    · exact .inl rfl
    · exact .inr ⟨hfirst, now, hbefore, hne⟩
  refine ⟨h.toCourse.cutAt hasks hrefuses, fun i first hnow => ?_, ?_, ?_⟩
  · rcases haltered i first hnow with rfl | hbefore
    · obtain rfl : original = first := Option.some.inj (hat.symm.trans hnow.1)
      exact hshown
    · exact h.shown i first hbefore
  · by_cases hkeep : keep = minDocumentChars
    · refine .inr fun i first hnow => ?_
      rw [Cut.cutAt, if_pos hkeep]
      rcases haltered i first hnow with rfl | hbefore
      · exact List.mem_cons_self
      · exact List.mem_cons_of_mem _ (hspent i first hbefore)
    · exact .inl (h.total_cutAt_le hdistinct hasks hrefuses hat hshown hkeep)
  · have hnew : some (shorten text keep) ≠ original.text := by
      rw [← hsame, htext]
      intro heq
      rw [Refuses, hdocument, Option.some.inj heq] at hrefuses
      exact hrefuses (le_refl _)
    rw [Cut.cutAt, hdocument]
    dsimp only
    rw [changed_cutTo hat hasked hsame hnew, h.counted]

/-! ### Where another one has to be cut -/

/-- The document at `other` was cut, or only those before it were. -/
def Ranked (attachments : List ResolvedAttachment) (other : Nat) (s : Cut) : Prop :=
  (∃ original, Altered attachments s.current other original) ∨
    other ∉ s.exhausted ∧
      ∀ i original, Altered attachments s.current i original → Before attachments i other

theorem not_before_self {other : Nat} : ¬Before attachments other other := by
  rintro (hlt | ⟨-, hlt⟩)
  · exact absurd hlt (Nat.lt_irrefl _)
  · exact absurd hlt (Nat.lt_irrefl _)

/-- A document that was not cut has its text. -/
theorem size_of_not_altered {other : Nat} {unseen now : ResolvedAttachment}
    (h : ¬Altered attachments s.current other unseen) (hother : attachments[other]? = some unseen)
    (hnow : s.current[other]? = some now) : now.text = unseen.text := by
  by_contra hne
  exact h ⟨hother, now, hnow, hne⟩

section

variable {other : Nat} {unseen : ResolvedAttachment}

theorem Ranked.giveUp (h : Ranked attachments other s) (hother : attachments[other]? = some unseen)
    (hbig : floorChars < size unseen) (hasks : Asks budget s index keep)
    (hrefuses : Refuses s index keep) : Ranked attachments other (s.giveUp index) := by
  rcases h with haltered | ⟨hfresh, hbefore⟩
  · exact .inl haltered
  · refine .inr ⟨fun hmem => ?_, hbefore⟩
    rcases List.mem_cons.mp hmem with rfl | hmem
    · -- It has too much text to be given up on.
      obtain ⟨asked, text, hasked, -⟩ := hasks.document
      have hle := hasks.le_floorChars hrefuses
      have hsame := size_of_not_altered (fun haltered => not_before_self (hbefore _ _ haltered))
        hother hasked
      rw [documentText_of_getElem? hasked, size, hsame] at hle
      exact absurd hle (Nat.not_le.mpr hbig)
    · exact hfresh hmem

theorem Ranked.cutAt (h : Ranked attachments other s) (hcourse : Course messages attachments s)
    (hother : attachments[other]? = some unseen) (hmode : unseen.mode = .injected)
    (hbig : floorChars < size unseen) (hasks : Asks budget s index keep)
    (hrefuses : ¬Refuses s index keep) :
    Ranked attachments other (s.cutAt (tokens messages) index keep) := by
  obtain ⟨asked, text, hasked, hfresh, hinjected, htext, hdocument, -⟩ := hasks.document
  obtain ⟨original, hat, -⟩ := exists_of_getElem? hcourse.kept hasked
  have hcut : (s.cutAt (tokens messages) index keep).current[index]? =
      some { asked with text := some (shorten text keep) } := by
    simp only [Cut.cutAt, cutTo, hdocument, List.getElem?_modify_eq, hasked]
    rfl
  have hothers : ∀ i, i ≠ index →
      (s.cutAt (tokens messages) index keep).current[i]? = s.current[i]? := by
    intro i hi
    rw [Cut.cutAt, cutTo, List.getElem?_modify_ne]
    exact fun hi' => hi hi'.symm
  have hless : size asked ≤ size original := hcourse.size_le hat hasked
  by_cases hindex : index = other
  · subst hindex
    obtain rfl : original = unseen := Option.some.inj (hat.symm.trans hother)
    refine .inl ⟨original, hat, _, hcut, fun heq => ?_⟩
    -- The cut is shorter than what there was, and that is no longer than it was at first.
    rw [Refuses, hdocument, Nat.not_le] at hrefuses
    rw [size, size, ← heq, htext, Option.getD_some, Option.getD_some] at hless
    omega
  · rcases h with ⟨first, hfirst, now, hnow, hne⟩ | ⟨hfresh', hbefore⟩
    · exact .inl ⟨first, hfirst, now, (hothers other (Ne.symm hindex)).trans hnow, hne⟩
    · refine .inr ⟨?_, ?_⟩
      · rw [Cut.cutAt]
        dsimp only
        split
        · rintro (_ | ⟨_, hmem⟩)
          · exact hindex rfl
          · exact hfresh' hmem
        · exact hfresh'
      · rintro i first ⟨hfirst, now, hnow, hne⟩
        by_cases hi : i = index
        · subst hi
          obtain ⟨other', hother', -⟩ :
              ∃ now, s.current[other]? = some now ∧ SameFile unseen now := by
            have hlen := hcourse.kept.length_eq
            obtain ⟨hin, rfl⟩ := List.getElem?_eq_some_iff.mp hother
            have hnow' : s.current[other]? = some (s.current.get ⟨other, hlen ▸ hin⟩) :=
              List.getElem?_eq_getElem _
            exact ⟨_, hnow', (rel_of_getElem? hcourse.kept hother hnow').same⟩
          have hsame := size_of_not_altered
            (fun haltered => not_before_self (hbefore _ _ haltered)) hother hother'
          have hmode' : other'.mode = .injected := by
            obtain ⟨held, rfl⟩ := (rel_of_getElem? hcourse.kept hother hother').same
            exact hmode
          have heq : size other' = size unseen := by rw [size, size, hsame]
          have hafter := hasks.before hother' hfresh' hmode' (by omega) (Ne.symm hindex)
          rw [Before, documentText_of_getElem? hother', documentText_of_getElem? hasked] at hafter
          rw [Before, documentText_of_getElem? hother, documentText_of_getElem? hat]
          omega
        · exact hbefore i first ⟨hfirst, now, (hothers i hi).symm.trans hnow, hne⟩

/-- What is over the budget with those before `other` at the floor has to cut it. -/
theorem Ranked.price_le (h : Ranked attachments other s) (hcourse : Course messages attachments s)
    (hkept : ∀ original, ¬Altered attachments s.current other original) :
    price materialize estimateTextTokens messages (byHash (flooredBefore attachments other)) ≤
      s.total := by
  obtain ⟨-, hbefore⟩ := h.resolve_left fun ⟨original, haltered⟩ => hkept original haltered
  rw [hcourse.priced]
  have hlength := hcourse.kept.length_eq
  refine Fitting.price_le (forall₂_of_getElem? (by simp [flooredBefore, hlength])
    fun i floored now hfloored hnow => ?_) messages
  rw [flooredBefore, List.getElem?_mapIdx] at hfloored
  obtain ⟨original, hat, rfl⟩ := Option.map_eq_some_iff.mp hfloored
  have hcut := rel_of_getElem? hcourse.cutting.cut hat hnow
  have hform := (rel_of_getElem? hcourse.kept hat hnow).text
  have hge := hcut.ge
  obtain ⟨held, rfl⟩ := hcut.same
  split
  next hfloor =>
    refine ⟨⟨held, rfl⟩, fun _ => ?_⟩
    have hbig := hfloor.2.1
    rw [size_cutToFloor hbig]
    omega
  next hfloor =>
    refine ⟨⟨held, rfl⟩, fun _ => ?_⟩
    by_cases hsame : held = original.text
    · rw [size, size, hsame]
    · -- A document that was cut is longer than the floor, and goes before.
      exfalso
      obtain ⟨hmode, hheaded⟩ := hform.resolve_left hsame
      have hless := hheaded.size_lt
      have hpos := hbefore i original ⟨hat, _, hnow, hsame⟩
      exact hfloor ⟨hmode, by omega, hpos⟩

end

end

/-! ## Counting is honest -/

/-- **What the count of a fit promises**: it is the number of documents whose text is another, each
of these is referred to by a message that is left, and every text is what it was, or its head and
one notice. -/
structure CountsHonestly (attachments : List ResolvedAttachment) (result : FitResult Message) :
    Prop where
  kept : List.Forall₂ Kept attachments result.attachments
  counted : result.documentsTruncated = changed attachments result.attachments
  shown : ∀ i original, Altered attachments result.attachments i original →
    Shown result.messages original

section

variable {history : List Message} {attachments : List ResolvedAttachment} {budget : Int}

theorem not_altered_self {i : Nat} {original : ResolvedAttachment} :
    ¬Altered attachments attachments i original := by
  rintro ⟨hat, now, hnow, hne⟩
  obtain rfl : original = now := Option.some.inj (hat.symm.trans hnow)
  exact hne rfl

theorem changed_self : changed attachments attachments = 0 := by
  induction attachments with
  | nil => rfl
  | cons first rest ih =>
    rw [changed, List.zip_cons_cons, List.filter_cons_of_neg (by simp)]
    exact ih

/-- Where the documents of a fit are what they were, there is nothing to count. -/
theorem countsHonestly_uncut (messages : List Message) (dropped : Nat) (total : Int) :
    CountsHonestly attachments ⟨messages, attachments, dropped, 0, total⟩ where
  kept := List.forall₂_same.mpr fun attachment _ => .refl attachment
  counted := changed_self.symm
  shown _ _ haltered := absurd haltered not_altered_self

/-- Without some number of its oldest turns, the history is within the budget as it is. -/
def FitsUncut (history : List Message) (attachments : List ResolvedAttachment) (budget : Int) :
    Prop :=
  ∃ k ≤ (turnsOf history).length,
    price materialize estimateTextTokens (trimmed history (oldest history k)) (byHash attachments) ≤
      budget

/-- The history without any turn that can be dropped. -/
def remnant (history : List Message) : List Message :=
  trimmed history (oldest history (turnsOf history).length)

/-- **Where the others are spared, the loop counts honestly.** -/
theorem tally_truncateLoop (messages : List Message)
    (hdistinct : (attachments.map (·.fileHash)).Nodup)
    (hspared : Spared messages attachments budget) :
    ∃ last, Tally messages attachments budget last ∧
      truncateLoop materialize estimateTextTokens messages budget attachments [] 0
        (price materialize estimateTextTokens messages (byHash attachments)) =
          (last.current, last.truncated, last.total) := by
  have hstart : Tally messages attachments budget
      { current := attachments
        total := price materialize estimateTextTokens messages (byHash attachments) } :=
    { Course.start messages attachments with
      shown := fun _ _ haltered => absurd haltered not_altered_self
      spent := .inr fun _ _ haltered => absurd haltered not_altered_self
      counted := changed_self.symm }
  obtain ⟨last, hlast, heq, -⟩ := truncateLoop_rule materialize estimateTextTokens messages
    (fun _ _ _ h hasks hrefuses => Tally.giveUp h hasks hrefuses)
    (fun _ _ _ h hasks hrefuses => Tally.cutAt h hdistinct hspared hasks hrefuses) hstart
  exact ⟨last, hlast, heq⟩

/-- **Where one of the others is not, the loop cuts one of them or ends over the budget.** -/
theorem spared_of_truncateLoop (messages : List Message)
    (h : ∀ last : Cut, truncateLoop materialize estimateTextTokens messages budget attachments [] 0
      (price materialize estimateTextTokens messages (byHash attachments)) =
        (last.current, last.truncated, last.total) →
      last.total ≤ budget ∧ ∀ i original, Altered attachments last.current i original →
        Shown messages original) : Spared messages attachments budget := by
  intro other unseen hother hmode hbig hhidden
  have hstart : Course messages attachments
      { current := attachments
        total := price materialize estimateTextTokens messages (byHash attachments) } ∧
      Ranked attachments other
        { current := attachments
          total := price materialize estimateTextTokens messages (byHash attachments) } :=
    ⟨.start messages attachments,
      .inr ⟨List.not_mem_nil, fun _ _ haltered => absurd haltered not_altered_self⟩⟩
  -- `other` is hidden, so the loop has not cut it, and those before it are at the floor.
  obtain ⟨last, ⟨hcourse, hranked⟩, heq, -⟩ :=
    truncateLoop_rule materialize estimateTextTokens messages
      (J := fun s => Course messages attachments s ∧ Ranked attachments other s)
      (fun _ _ _ hs hasks hrefuses =>
        ⟨hs.1.giveUp hasks hrefuses, hs.2.giveUp hother hbig hasks hrefuses⟩)
      (fun _ _ _ hs hasks hrefuses =>
        ⟨hs.1.cutAt hasks hrefuses, hs.2.cutAt hs.1 hother hmode hbig hasks hrefuses⟩) hstart
  obtain ⟨hfits, hshown⟩ := h last heq
  have hkept : ∀ original, ¬Altered attachments last.current other original := by
    intro original haltered
    obtain rfl : unseen = original := Option.some.inj (hother.symm.trans haltered.1)
    exact hhidden (hshown other unseen haltered)
  exact (hranked.price_le hcourse hkept).trans hfits

/-- A fit that is not uncut is a run of the loop over what cannot be dropped. -/
theorem fit_cut_cases {spec : RenderSpec} {strategy : FitStrategy} {result : FitResult Message}
    (h : fit materialize estimateTextTokens history attachments budget spec strategy = .ok result) :
    (FitsUncut history attachments budget ∧ ∃ messages dropped total,
        result = ⟨messages, attachments, dropped, 0, total⟩) ∨
      ¬FitsUncut history attachments budget ∧ result.messages = remnant history ∧
        result.inputTokens ≤ budget ∧
        truncateLoop materialize estimateTextTokens (remnant history) budget attachments [] 0
          (price materialize estimateTextTokens (remnant history) (byHash attachments)) =
            (result.attachments, result.documentsTruncated, result.inputTokens) := by
  cases strategy with
  | summarize => cases h
  | truncate =>
    obtain ⟨k, hk, hleast, hcases⟩ :=
      fit_cases materialize estimateTextTokens history attachments budget spec
    rcases hcases with ⟨hfits, hfit⟩ | ⟨hover, hall, hcut, hfit⟩ | ⟨-, -, -, exc, hfit⟩
    · obtain rfl := Except.ok.inj (hfit.symm.trans h)
      exact .inl ⟨⟨k, hk, hfits⟩, _, _, _, rfl⟩
    · obtain rfl := Except.ok.inj (hfit.symm.trans h)
      subst hall
      refine .inr ⟨?_, rfl, hcut, rfl⟩
      -- Fewer turns dropped cost too much, and so does dropping all.
      rintro ⟨j, hj, hfits⟩
      rcases Nat.lt_or_eq_of_le hj with hlt | rfl
      · exact absurd (hleast j hlt) (Int.not_lt.mpr hfits)
      · exact absurd hover (Int.not_lt.mpr hfits)
    · cases hfit.symm.trans h

/-- A fit that counts honestly had to cut only documents that are shown. -/
theorem CountsHonestly.spared {spec : RenderSpec} {strategy : FitStrategy}
    {result : FitResult Message}
    (h : fit materialize estimateTextTokens history attachments budget spec strategy = .ok result)
    (hcounts : CountsHonestly attachments result) :
    FitsUncut history attachments budget ∨ Spared (remnant history) attachments budget := by
  rcases fit_cut_cases h with ⟨huncut, -⟩ | ⟨-, hmessages, hfits, hloop⟩
  · exact .inl huncut
  · refine .inr (spared_of_truncateLoop _ fun last heq => ?_)
    have hlast := hloop.symm.trans heq
    rw [Prod.mk.injEq, Prod.mk.injEq] at hlast
    obtain ⟨hattachments, -, htotal⟩ := hlast
    rw [← hattachments, ← htotal, ← hmessages]
    exact ⟨hfits, hcounts.shown⟩

/-- **Counting is honest exactly where only documents that are shown have to be cut.** -/
theorem fit_countsHonestly_iff {spec : RenderSpec} {strategy : FitStrategy}
    {result : FitResult Message} (hdistinct : (attachments.map (·.fileHash)).Nodup)
    (h : fit materialize estimateTextTokens history attachments budget spec strategy = .ok result) :
    CountsHonestly attachments result ↔
      FitsUncut history attachments budget ∨ Spared (remnant history) attachments budget := by
  constructor
  · exact CountsHonestly.spared h
  · intro hspared
    rcases fit_cut_cases h with ⟨-, messages, dropped, total, rfl⟩ | ⟨hstuck, hmessages, -, hloop⟩
    · exact countsHonestly_uncut _ _ _
    · obtain ⟨last, hlast, heq⟩ :=
        tally_truncateLoop _ hdistinct (hspared.resolve_left hstuck)
      rw [heq, Prod.mk.injEq, Prod.mk.injEq] at hloop
      obtain ⟨hattachments, htruncated, -⟩ := hloop
      refine ⟨hattachments ▸ hlast.kept, ?_, ?_⟩
      · rw [← hattachments, ← htruncated]
        exact hlast.counted
      · rw [← hattachments, hmessages]
        exact hlast.shown

end

/-- A document of `chars` characters. -/
def document (fileHash : String) (chars : Nat) : ResolvedAttachment :=
  { fileHash, filename := "f", mime := "m", sizeBytes := 4096, mode := .injected
    text := some (String.ofList (List.replicate chars 'x')) }

theorem size_document (fileHash : String) (chars : Nat) :
    size (document fileHash chars) = chars := by
  rw [size, document, Option.getD_some, String.length_ofList, List.length_replicate]

theorem cutOf_document (fileHash : String) {chars : Nat} (h : floorChars ≤ chars) :
    CutOf (document fileHash chars) (document fileHash floorChars) := by
  refine ⟨⟨_, rfl⟩, ?_, ?_⟩
  · rwa [size_document, size_document]
  · rw [size_document, size_document]
    exact Nat.min_le_right _ _

/-- A question about one document, its answer, and a question about another. -/
def twoDocuments : List Message :=
  [{ role := .user, content := [.fileRef ⟨"a", "f", "m", 400⟩], seq := 0 },
    { role := .assistant, content := [.text "ok"], seq := 1 },
    { role := .user, content := [.fileRef ⟨"b", "f", "m", 300⟩], seq := 2 }]

theorem length_envelope_document (fileHash : String) (chars : Nat) :
    (documentEnvelope (document fileHash chars)).length = 51 + chars := by
  have htext : documentEnvelope (document fileHash chars) =
      "<document name=\"f\" source=\"extracted\">\n" ++
        String.ofList (List.replicate chars 'x') ++ "\n</document>" := rfl
  have hopening : "<document name=\"f\" source=\"extracted\">\n".length = 39 := by decide
  have hclosing : "\n</document>".length = 12 := by decide
  rw [htext, String.length_append, String.length_append, hopening, hclosing, String.length_ofList,
    List.length_replicate]
  omega

/-- What the history costs with both questions in it. -/
theorem price_twoDocuments (chars chars' : Nat) :
    price materialize estimateTextTokens twoDocuments
      (byHash [document "a" chars, document "b" chars']) =
        ((51 + chars) / charsPerToken : Nat) + 4 +
          (4 + (((51 + chars') / charsPerToken : Nat) + 4)) := by
  have hanswer : "ok".length / charsPerToken = 0 := by decide
  have hsum : price materialize estimateTextTokens twoDocuments
      (byHash [document "a" chars, document "b" chars']) =
        ((documentEnvelope (document "a" chars)).length / charsPerToken : Nat) + 4 +
          (("ok".length / charsPerToken : Nat) + 4 +
            (((documentEnvelope (document "b" chars')).length / charsPerToken : Nat) + 4)) := rfl
  rw [hsum, hanswer, length_envelope_document, length_envelope_document]
  rfl

/-- What the second question costs, behind a marker for the first. -/
theorem price_remnant (chars chars' : Nat) :
    price materialize estimateTextTokens (remnant twoDocuments)
      (byHash [document "a" chars, document "b" chars']) =
        ((81 + chars') / charsPerToken : Nat) + 4 := by
  have hmarker : "[2 earlier messages omitted]\n\n".length = 30 := by decide
  have hlength : ("[2 earlier messages omitted]\n\n" ++
      documentEnvelope (document "b" chars')).length = 81 + chars' := by
    rw [String.length_append, hmarker, length_envelope_document]
    omega
  rw [← hlength]
  rfl

def tinySpec : RenderSpec :=
  { slot := "s", provider := "p", model := "m", contextWindow := 100, maxOutputTokens := 5 }

/-- With both documents at the floor, the second question is within ninety tokens. -/
theorem fit_twoDocuments : ∃ result, fit materialize estimateTextTokens twoDocuments
    [document "a" 400, document "b" 300] 90 tinySpec .truncate = .ok result := by
  obtain ⟨k, -, -, hcases⟩ := fit_cases materialize estimateTextTokens twoDocuments
    [document "a" 400, document "b" 300] 90 tinySpec
  rcases hcases with ⟨-, hfit⟩ | ⟨-, -, -, hfit⟩ | ⟨-, hall, hover, -⟩
  · exact ⟨_, hfit⟩
  · exact ⟨_, hfit⟩
  · exfalso
    subst hall
    obtain ⟨hcut, hend⟩ := truncateLoop_cutting materialize estimateTextTokens
      (remnant twoDocuments) 90 [document "a" 400, document "b" 300]
      (price materialize estimateTextTokens (remnant twoDocuments)
        (byHash [document "a" 400, document "b" 300]))
    obtain ⟨hprice, -, -⟩ := truncateLoop_spec materialize estimateTextTokens
      (remnant twoDocuments) 90 [document "a" 400, document "b" 300] [] 0 _ rfl
    have hfloor : List.Forall₂ CutOf [document "a" 400, document "b" 300]
        [document "a" floorChars, document "b" floorChars] :=
      .cons (cutOf_document "a" (by decide)) (.cons (cutOf_document "b" (by decide)) .nil)
    have hsmaller := smaller_of_floored hcut hfloor (hend.resolve_left (Int.not_le.mpr hover))
    have hcheaper := price_le hsmaller (remnant twoDocuments)
    have hfits : (((81 + floorChars) / charsPerToken : Nat) : Int) + 4 ≤ 90 := by decide
    rw [← price_remnant floorChars floorChars] at hfits
    exact absurd hover (Int.not_lt.mpr (hprice.le.trans (hcheaper.trans hfits)))

/-- The first document is the longer one, and no message that is left refers to it. -/
theorem not_spared_twoDocuments :
    ¬Spared (remnant twoDocuments) [document "a" 400, document "b" 300] 90 := by
  intro hspared
  have hhidden : ¬Shown (remnant twoDocuments) (document "a" 400) := by
    rintro ⟨message, hmessage, ref, href, hhash⟩
    obtain rfl := List.mem_singleton.mp hmessage
    obtain rfl := List.mem_singleton.mp href
    exact absurd hhash (by decide)
  have hbig : floorChars < size (document "a" 400) := by
    rw [size_document]
    decide
  have hfloored : flooredBefore [document "a" 400, document "b" 300] 0 =
      [document "a" 400, document "b" 300] := by
    have hbehind : ¬Before [document "a" 400, document "b" 300] 1 0 := by
      rw [Before, documentText_of_getElem? rfl, documentText_of_getElem? rfl, size_document,
        size_document]
      decide
    rw [flooredBefore, List.mapIdx_cons, List.mapIdx_cons, List.mapIdx_nil,
      if_neg fun h => not_before_self h.2.2, if_neg fun h => hbehind h.2.2]
  have hfits := hspared 0 (document "a" 400) rfl rfl hbig hhidden
  rw [hfloored, price_remnant] at hfits
  exact absurd hfits (by decide)

/-- With and without the first question, the documents are too long as they are. -/
theorem not_fitsUncut_twoDocuments :
    ¬FitsUncut twoDocuments [document "a" 400, document "b" 300] 90 := by
  rintro ⟨k, hk, hfits⟩
  have hturns : (turnsOf twoDocuments).length = 1 := rfl
  obtain rfl | rfl : k = 0 ∨ k = 1 := by omega
  · have hprice := price_twoDocuments 400 300
    exact absurd (hprice.symm.le.trans hfits) (by decide)
  · have hprice := price_remnant 400 300
    exact absurd (hprice.symm.le.trans hfits) (by decide)

/-- The document of the first question is cut, though that question is dropped. -/
theorem not_countsHonestly : ∃ result, fit materialize estimateTextTokens twoDocuments
    [document "a" 400, document "b" 300] 90 tinySpec .truncate = .ok result ∧
      ¬CountsHonestly [document "a" 400, document "b" 300] result := by
  obtain ⟨result, hfit⟩ := fit_twoDocuments
  refine ⟨result, hfit, fun hcounts => ?_⟩
  rcases hcounts.spared hfit with huncut | hspared
  · exact not_fitsUncut_twoDocuments huncut
  · exact not_spared_twoDocuments hspared

/-- What is said of the two documents. -/
theorem fit_countsHonestly_twoDocuments : ∃ result, fit materialize estimateTextTokens twoDocuments
    [document "a" 400, document "b" 300] 90 tinySpec .truncate = .ok result ∧
      (CountsHonestly [document "a" 400, document "b" 300] result ↔
        FitsUncut twoDocuments [document "a" 400, document "b" 300] 90 ∨
          Spared (remnant twoDocuments) [document "a" 400, document "b" 300] 90) := by
  obtain ⟨result, hfit⟩ := fit_twoDocuments
  exact ⟨result, hfit, fit_countsHonestly_iff (by decide) hfit⟩

end Fitting

end LlmGateway
