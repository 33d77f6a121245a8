import LlmGateway.Memory.Canonical
import Mathlib.Algebra.Order.Ring.Int

/-!
# Making a history fit a context window

What is thrown away when a conversation outgrows the model that has to read it:
whole turns first, oldest first, and then document text. How a message looks to
the model and how a text is measured are arguments.
-/

namespace LlmGateway

/-- What a render raises. -/
inductive RenderFailure where
  | violation (violation : InvariantViolation)
  | contextTooLong (exc : ProviderError)
  | notImplemented (message : String)
  | valueError (message : String)
  | fileUnreadable (fileHash filename : String)
  deriving DecidableEq, Repr

namespace Fitting

open Speech

/-- `CHARS_PER_TOKEN`. -/
def charsPerToken : Nat := 4

/-- `PER_MESSAGE_TOKEN_OVERHEAD`. -/
def perMessageTokenOverhead : Int := 4

/-- `MIN_DOCUMENT_CHARS`. -/
def minDocumentChars : Nat := 200

/-- `TRUNCATION_NOTICE`. -/
def truncationNotice : String := "\n[… document truncated to fit the context window]"

inductive FitStrategy where
  | truncate
  | summarize
  deriving DecidableEq, Repr

/-- The resolved attachments, by hash. -/
abbrev ByHash : Type := String → Option ResolvedAttachment

/-- `{a.file_hash: a for a in attachments}`: a later entry wins. -/
def byHash (attachments : List ResolvedAttachment) : ByHash := fun fileHash =>
  attachments.reverse.find? fun attachment => attachment.fileHash = fileHash

/-- What survived, and what it cost to get there. -/
structure FitResult (M : Type) where
  messages : List M
  attachments : List ResolvedAttachment
  messagesDropped : Nat
  documentsTruncated : Nat
  inputTokens : Int
  deriving DecidableEq, Repr

def estimateTextTokens (text : String) : Int := (text.length / charsPerToken : Nat)

/-- `input_budget`. A twentieth of the window is the safety margin. -/
def inputBudget {F : Type} (spec : RenderSpec) (params : GenParams F) : Int :=
  let reservedOut := match params.maxTokens with
    | some maxTokens => min maxTokens spec.maxOutputTokens
    | none => spec.maxOutputTokens
  spec.contextWindow - reservedOut - spec.contextWindow.tdiv 20

/-! ## Measurement -/

/-- `native_tokens`. An injected attachment's cost is in its text already. -/
def nativeTokens (attachments : List ResolvedAttachment) : Int :=
  ((attachments.filter (·.mode = .native)).map (·.tokenCost)).sum

section Fit

variable {M : Type} [Speech M] (project : M → ByHash → String) (estimator : String → Int)

/-- `_cost`: one message's text and the bytes riding on it. -/
def cost (message : M) (attachments : ByHash) : Int :=
  estimator (project message attachments) + perMessageTokenOverhead
    + nativeTokens (((content message).filterMap (·.ref?)).filterMap fun ref =>
        attachments ref.fileHash)

/-! ## Dropping turns -/

/-- The last message of a user. -/
def lastUser (messages : List M) : Option Nat :=
  (List.range messages.length).reverse.find? fun index =>
    messages[index]?.map role = some .user

/-- `_pinned_indices`: the system message and the final question. -/
def pinnedIndices (messages : List M) : List Nat :=
  let system := if messages.head?.map role = some .system then [0] else []
  match lastUser messages with
  | some index => system ++ [index]
  -- no user message at all: its tail is kept
  | none => if messages.isEmpty then system else system ++ [messages.length - 1]

/-- The loop of `_droppable_groups`: a user turn takes its answer with it. -/
def bundle (messages : List M) : List Nat → List (List Nat)
  | [] => []
  | [index] => [[index]]
  | index :: next :: rest =>
    if messages[index]?.map role = some .user ∧ next = index + 1
        ∧ messages[index + 1]?.map role = some .assistant then
      [index, next] :: bundle messages rest
    else [index] :: bundle messages (next :: rest)

/-- `_droppable_groups`, oldest first. -/
def droppableGroups (messages : List M) (pinned : List Nat) : List (List Nat) :=
  bundle messages ((List.range messages.length).filter (· ∉ pinned))

/-- Add `dropped` to the first marker of a content, if it has one. -/
def mergeMarker (dropped : Nat) : List ContentBlock → Option (List ContentBlock)
  | [] => none
  | .omissionMarker omittedCount _ :: rest =>
    some (omissionMarker (omittedCount + dropped) :: rest)
  | block :: rest => (mergeMarker dropped rest).map (block :: ·)

/-- `_with_omission_marker`. -/
def withOmissionMarker (message : M) (dropped : Nat) : M :=
  withContent message <|
    (mergeMarker dropped (content message)).getD (omissionMarker dropped :: content message)

def omittedCount : ContentBlock → Nat
  | .omissionMarker omittedCount _ => omittedCount
  | _ => 0

/-- The omissions a message already records. -/
def omissions (message : M) : Nat := ((content message).map omittedCount).sum

/-- The entries of `xs` that are alive, or those that are not. -/
def keeping {α : Type} (state : Bool) (alive : List Bool) (xs : List α) : List α :=
  (xs.zip alive).filterMap fun p => if p.2 = state then some p.1 else none

/-- `_apply_marker`: the surviving history, with one marker in it. -/
def applyMarker (messages : List M) (alive : List Bool) (costs : List Int)
    (attachments : ByHash) (dropped : Nat) : List M × List Int :=
  let survivors := keeping true alive messages
  let survivorCosts := keeping true alive costs
  if dropped = 0 then (survivors, survivorCosts)
  else
    -- markers on messages that are dropped themselves are carried forward
    let carried := ((keeping false alive messages).map omissions).sum
    let target :=
      if survivors.head?.map role = some .system ∧ 1 < survivors.length then 1 else 0
    match survivors[target]? with
    | none => (survivors, survivorCosts)
    | some survivor =>
      let marked := withOmissionMarker survivor (dropped + carried)
      (survivors.set target marked,
        survivorCosts.set target (cost project estimator marked attachments))

/-- The loop of `_drop_oldest_turns`. -/
def dropGroups (messages : List M) (costs : List Int) (attachments : ByHash)
    (budget : Int) (alive : List Bool) (dropped : Nat) :
    List (List Nat) → List M × List Int × Nat
  | [] =>
    let (survivors, survivorCosts) :=
      applyMarker project estimator messages alive costs attachments dropped
    (survivors, survivorCosts, dropped)
  | group :: groups =>
    let alive := group.foldl (fun alive index => alive.set index false) alive
    let dropped := dropped + group.length
    let (survivors, survivorCosts) :=
      applyMarker project estimator messages alive costs attachments dropped
    if survivorCosts.sum ≤ budget then (survivors, survivorCosts, dropped)
    else dropGroups messages costs attachments budget alive dropped groups

/-- `_drop_oldest_turns`: whole turns from the front, until it fits. -/
def dropOldestTurns (messages : List M) (costs : List Int) (attachments : ByHash)
    (budget : Int) : List M × List Int × Nat :=
  dropGroups project estimator messages costs attachments budget
    (List.replicate messages.length true) 0
    (droppableGroups messages (pinnedIndices messages))

/-! ## Truncating documents -/

/-- The loop of `_largest_truncatable`, from `index` on. -/
def largestFrom (exhausted : List Nat) (index : Nat) (best : Option Nat) (bestLength : Nat) :
    List ResolvedAttachment → Option Nat
  | [] => best
  | attachment :: rest =>
    if index ∈ exhausted ∨ attachment.mode ≠ .injected ∨ attachment.text = none then
      largestFrom exhausted (index + 1) best bestLength rest
    else
      let length := (attachment.text.getD "").length
      if bestLength < length then largestFrom exhausted (index + 1) (some index) length rest
      else largestFrom exhausted (index + 1) best bestLength rest

/-- `_largest_truncatable`. -/
def largestTruncatable (attachments : List ResolvedAttachment) (exhausted : List Nat) :
    Option Nat :=
  largestFrom exhausted 0 none minDocumentChars attachments

/-- How many characters of a document are kept when `excess` tokens are to go. -/
def keepChars (text : String) (excess : Int) : Nat :=
  let excessChars := excess * charsPerToken + truncationNotice.length
  (max (minDocumentChars : Int) (text.length - excessChars)).toNat

/-- The head of a document, and the notice. -/
def shorten (text : String) (keep : Nat) : String :=
  String.ofList (text.toList.take keep) ++ truncationNotice

/-- The text left to give, and the documents left to ask. -/
def cuttable (attachments : List ResolvedAttachment) (exhausted : List Nat) : Nat :=
  (attachments.map fun attachment => (attachment.text.getD "").length).sum
    + ((List.range attachments.length).filter (· ∉ exhausted)).length

/-- What is chosen was not tried out, and has text to give. -/
theorem largestFrom_spec {exhausted : List Nat} : ∀ {attachments : List ResolvedAttachment}
    {index bestLength : Nat} {best : Option Nat} {chosen : Nat},
    largestFrom exhausted index best bestLength attachments = some chosen →
      best = some chosen ∨ ∃ offset, ∃ attachment, chosen = index + offset
        ∧ attachments[offset]? = some attachment ∧ chosen ∉ exhausted
        ∧ attachment.mode = .injected ∧ bestLength < (attachment.text.getD "").length
  | [], _, _, _, _, h => .inl h
  | attachment :: rest, index, bestLength, best, chosen, h => by
    -- what a later pass finds, the pass from here on finds one place further
    have hlater : ∀ {best' : Option Nat} {bestLength' : Nat}, bestLength ≤ bestLength' →
        largestFrom exhausted (index + 1) best' bestLength' rest = some chosen →
        best' = some chosen ∨ ∃ offset, ∃ a, chosen = index + offset
          ∧ (attachment :: rest)[offset]? = some a ∧ chosen ∉ exhausted
          ∧ a.mode = .injected ∧ bestLength < (a.text.getD "").length := by
      intro best' bestLength' hle hrest
      rcases largestFrom_spec hrest with hbest | ⟨offset, a, hchosen, ha, hfresh, hmode, hlen⟩
      · exact .inl hbest
      · exact .inr ⟨offset + 1, a, by omega, by simpa using ha, hfresh, hmode, by omega⟩
    unfold largestFrom at h
    split at h
    · exact hlater le_rfl h
    · next hopen =>
      dsimp only at h
      split at h
      · next hlonger =>
        rcases hlater (Nat.le_of_lt hlonger) h with hbest | hfound
        · obtain rfl := Option.some.inj hbest
          simp only [not_or, ne_eq, not_not] at hopen
          exact .inr ⟨0, attachment, rfl, rfl, hopen.1, hopen.2.1, hlonger⟩
        · exact .inr hfound
      · exact hlater le_rfl h

theorem largestTruncatable_spec {attachments : List ResolvedAttachment} {exhausted : List Nat}
    {index : Nat} (h : largestTruncatable attachments exhausted = some index) :
    ∃ attachment, attachments[index]? = some attachment ∧ index ∉ exhausted
      ∧ attachment.mode = .injected
      ∧ minDocumentChars < (attachment.text.getD "").length := by
  rcases largestFrom_spec h with hnone | ⟨offset, attachment, rfl, hat, hfresh, hmode, hlen⟩
  · cases hnone
  · rw [Nat.zero_add] at hfresh ⊢
    exact ⟨attachment, hat, hfresh, hmode, hlen⟩

/-- The text of the document at `index`. -/
def documentText (attachments : List ResolvedAttachment) (index : Nat) : String :=
  (attachments[index]?.bind (·.text)).getD ""

/-- The document at `index`, cut down to `text`. -/
def cutTo (text : String) (index : Nat) (attachments : List ResolvedAttachment) :
    List ResolvedAttachment :=
  attachments.modify index fun attachment => { attachment with text := some text }

/-- One entry made smaller makes a sum smaller. -/
theorem sum_map_modify_lt {α : Type} {f : α → Nat} {g : α → α} : ∀ {xs : List α} {index : Nat}
    {x : α}, xs[index]? = some x → f (g x) < f x →
      ((xs.modify index g).map f).sum < (xs.map f).sum
  | y :: ys, 0, x, hat, hlt => by
    obtain rfl := Option.some.inj hat
    simpa using hlt
  | y :: ys, index + 1, x, hat, hlt => by
    have hrest : ((ys.modify index g).map f).sum < (ys.map f).sum :=
      sum_map_modify_lt (by simpa using hat) hlt
    simpa using hrest

/-- A document given up on is one less to ask. -/
theorem cuttable_exhaust {attachments : List ResolvedAttachment} {exhausted : List Nat}
    {index : Nat} (h : largestTruncatable attachments exhausted = some index) :
    cuttable attachments (index :: exhausted) < cuttable attachments exhausted := by
  obtain ⟨attachment, hat, hfresh, -, -⟩ := largestTruncatable_spec h
  obtain ⟨hindex, -⟩ := List.getElem?_eq_some_iff.mp hat
  let asked := (List.range attachments.length).filter (· ∉ exhausted)
  have hsplit : (List.range attachments.length).filter (· ∉ index :: exhausted)
      = asked.filter (· ≠ index) := by
    rw [List.filter_filter]
    apply List.filter_congr
    intro other _
    simp [not_or]
  have hasked : index ∈ asked := by
    simp [asked, hindex, hfresh]
  have hless : (asked.filter (· ≠ index)).length < asked.length :=
    List.length_filter_lt_length_iff_exists.mpr ⟨index, hasked, by simp⟩
  unfold cuttable
  rw [hsplit]
  exact Nat.add_lt_add_left hless _

/-- A document cut shorter has less to give. -/
theorem cuttable_cut {attachments : List ResolvedAttachment} {exhausted exhausted' : List Nat}
    {index : Nat} {text : String}
    (h : largestTruncatable attachments exhausted = some index)
    (hshorter : text.length < (documentText attachments index).length)
    (hsub : exhausted ⊆ exhausted') :
    cuttable (cutTo text index attachments) exhausted' < cuttable attachments exhausted := by
  obtain ⟨attachment, hat, -, -, -⟩ := largestTruncatable_spec h
  have htext : documentText attachments index = attachment.text.getD "" := by
    rw [documentText, hat, Option.bind_some]
  rw [htext] at hshorter
  have htexts : ((cutTo text index attachments).map fun a => (a.text.getD "").length).sum
      < (attachments.map fun a => (a.text.getD "").length).sum :=
    sum_map_modify_lt hat (by simpa using hshorter)
  have hasked : ((List.range attachments.length).filter (· ∉ exhausted')).length
      ≤ ((List.range attachments.length).filter (· ∉ exhausted)).length := by
    rw [← List.countP_eq_length_filter, ← List.countP_eq_length_filter]
    apply List.countP_mono_left
    intro other _ hother
    simp only [decide_eq_true_eq] at hother ⊢
    exact fun hmem => hother (hsub hmem)
  have hlength : (cutTo text index attachments).length = attachments.length :=
    List.length_modify _ _ _
  unfold cuttable
  rw [hlength]
  omega

/-- The loop of `_truncate_documents`. -/
def truncateLoop (messages : List M) (budget : Int) (current : List ResolvedAttachment)
    (exhausted : List Nat) (truncated : Nat) (total : Int) :
    List ResolvedAttachment × Nat × Int :=
  if total ≤ budget then (current, truncated, total)
  else
    match hlargest : largestTruncatable current exhausted with
    | none => (current, truncated, total)
    | some index =>
      let text := documentText current index
      let keep := keepChars text (total - budget)
      if hshorter : text.length ≤ (shorten text keep).length then
        -- a cut that does not shrink is refused
        truncateLoop messages budget current (index :: exhausted) truncated total
      else
        let cut := cutTo (shorten text keep) index current
        truncateLoop messages budget cut
          (if keep = minDocumentChars then index :: exhausted else exhausted) (truncated + 1)
          ((messages.map fun message => cost project estimator message (byHash cut)).sum)
termination_by cuttable current exhausted
decreasing_by
  · exact cuttable_exhaust hlargest
  · refine cuttable_cut hlargest (Nat.lt_of_not_le hshorter) ?_
    split
    · exact List.subset_cons_self _ _
    · exact List.Subset.refl _

/-- `fit`: make `messages` fit `budget`, or say why they cannot. -/
def fit (messages : List M) (attachments : List ResolvedAttachment) (budget : Int)
    (spec : RenderSpec) (strategy : FitStrategy := .truncate) :
    Except RenderFailure (FitResult M) :=
  match strategy with
  | .summarize => throw (.notImplemented
      "the SUMMARIZE fitting strategy is the §2.2.7 seam; see app/memory/summarize.py. v1 fits by truncation (D4).")
  | .truncate =>
    let costs := messages.map fun message => cost project estimator message (byHash attachments)
    let total := costs.sum
    if total ≤ budget then
      pure ⟨messages, attachments, 0, 0, total⟩
    else
      let (survivors, costs, dropped) :=
        dropOldestTurns project estimator messages costs (byHash attachments) budget
      let total := costs.sum
      if total ≤ budget then pure ⟨survivors, attachments, dropped, 0, total⟩
      else
        let (attachments, truncated, total) :=
          truncateLoop project estimator survivors budget attachments [] 0 total
        if budget < total then
          throw (.contextTooLong {
            kind := .contextTooLong (some budget)
            message := "this conversation needs about " ++ toString total
              ++ " input tokens and the model allows " ++ toString budget
            provider := spec.provider
            model := spec.model })
        else pure ⟨survivors, attachments, dropped, truncated, total⟩

end Fit

end Fitting

end LlmGateway
