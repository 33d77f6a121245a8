import LlmGateway.Memory.Budget
import LlmGateway.Perception.Lane
import LlmGateway.Providers.Texts

/-!
# What a render reports

The report counts the files of the whole history, each once; the payload has the
messages that fitting left, and a native part for each time one of them refers
to a native file. The two agree exactly if every file is still referred to and
goes out once.
-/

namespace LlmGateway

namespace Render

open Fitting Providers

variable {F : Type}

/-! ## What the lane resolves -/

/-- **A native file costs something**, whatever was measured of it. -/
theorem nativeTokenCost_pos (mime : String) (sizeBytes : Nat)
    (measurement : Perception.Measurement) :
    0 < Perception.nativeTokenCost mime sizeBytes measurement := by
  have hrate : Perception.tokensPerTile = 258 := rfl
  have htiles : Perception.unmeasuredImageTiles = 4 := rfl
  have hmin : Perception.tileEdgeMin = 256 := rfl
  have hmax : Perception.tileEdgeMax = 768 := rfl
  unfold Perception.nativeTokenCost
  split
  · dsimp only
    rw [hrate]
    omega
  · split
    next width height _ _ =>
      have hpos : 0 < Perception.imageTiles width height := by
        unfold Perception.imageTiles
        split
        · omega
        split
        · omega
        · next hempty _ =>
          dsimp only
          rw [hmin, hmax]
          generalize hedge : min 768 (max 256 (2 * min width height / 3)) = edge
          have hedgePos : 0 < edge := by omega
          have hceil : ∀ side : Int, 0 < side → 0 < Perception.ceilDiv side edge := by
            intro side hside
            unfold Perception.ceilDiv
            have hneg : -side / edge < 0 := Int.ediv_neg_of_neg_of_pos (by omega) hedgePos
            omega
          exact Int.mul_pos (hceil width (by omega)) (hceil height (by omega))
      rw [hrate]
      omega
    next => decide

theorem fileHash_distinctRefs (refs : List FileRef) (seen : List String) :
    ((Perception.distinctRefs seen refs).map (·.fileHash)).Nodup ∧
      ∀ fileHash ∈ (Perception.distinctRefs seen refs).map (·.fileHash), fileHash ∉ seen := by
  induction refs generalizing seen with
  | nil => exact ⟨List.nodup_nil, fun _ h => nomatch h⟩
  | cons ref refs ih =>
    unfold Perception.distinctRefs
    split
    · exact ih seen
    · next hfresh =>
      obtain ⟨hnodup, hunseen⟩ := ih (ref.fileHash :: seen)
      refine ⟨List.nodup_cons.mpr ⟨fun hmem => hunseen _ hmem List.mem_cons_self, hnodup⟩, ?_⟩
      intro fileHash hmem
      rcases List.mem_cons.mp hmem with rfl | hmem
      · exact hfresh
      · exact fun hseen => hunseen _ hmem (List.mem_cons_of_mem _ hseen)

/-- **What the lane resolves**: one file a hash, and the native ones at a cost. -/
theorem attached_spec {reading : String → Bool → Option Perception.Reading} {spec : RenderSpec}
    {ref : FileRef} {attachment : ResolvedAttachment}
    (hok : (match reading ref.fileHash (Perception.nativeWanted ref spec) with
      | some found => pure (found.attach ref)
      | none => throw (.fileUnreadable ref.fileHash ref.filename) :
        Except RenderFailure ResolvedAttachment) = .ok attachment) :
    attachment.fileHash = ref.fileHash ∧
      (attachment.mode = .native → 0 < attachment.tokenCost) := by
  split at hok
  next found _ =>
    obtain rfl := Except.ok.inj hok
    cases found with
    | native data measurement => exact ⟨rfl, fun _ => nativeTokenCost_pos _ _ _⟩
    | extracted extraction tier => exact ⟨rfl, fun hnative => (by cases hnative)⟩
  next => cases hok

theorem resolve_spec {reading : String → Bool → Option Perception.Reading} {refs : List FileRef}
    {spec : RenderSpec} {attachments : List ResolvedAttachment}
    (h : Perception.resolve reading refs spec = .ok attachments) :
    (attachments.map (·.fileHash)).Nodup ∧
      ∀ attachment ∈ attachments, attachment.mode = .native → 0 < attachment.tokenCost := by
  have hread := mapM_eq_ok_iff.mp h
  have hpairs := hread.imp fun ref attachment hok => attached_spec hok
  refine ⟨?_, fun attachment hmem => ?_⟩
  · rw [map_eq_map_of_forall₂ (hpairs.imp fun ref attachment h => h.1)]
    exact (fileHash_distinctRefs refs []).1
  · obtain ⟨ref, -, -, hcost⟩ := exists_of_forall₂ hpairs hmem
    exact hcost

/-! ## Counting references -/

/-- What the bytes of a file cost. -/
def bytesCost (attachment : ResolvedAttachment) : Int :=
  if attachment.mode = .native then attachment.tokenCost else 0

theorem nativeTokens_eq_sum (attachments : List ResolvedAttachment) :
    nativeTokens attachments = (attachments.map bytesCost).sum := by
  unfold nativeTokens
  induction attachments with
  | nil => rfl
  | cons attachment attachments ih =>
    by_cases hnative : attachment.mode = .native
    · simp [hnative, bytesCost, ih]
    · simp [hnative, bytesCost, ih]

theorem byHash_cons (attachment : ResolvedAttachment) (attachments : List ResolvedAttachment)
    (fileHash : String) : byHash (attachment :: attachments) fileHash =
      (byHash attachments fileHash).or
        (if attachment.fileHash = fileHash then some attachment else none) := by
  unfold byHash
  rw [List.reverse_cons, List.find?_append, List.find?_singleton]
  simp

theorem byHash_eq_none {attachments : List ResolvedAttachment} {fileHash : String}
    (h : fileHash ∉ attachments.map (·.fileHash)) : byHash attachments fileHash = none := by
  unfold byHash
  refine List.find?_eq_none.mpr fun attachment hmem heq => h ?_
  exact List.mem_map.mpr ⟨attachment, List.mem_reverse.mp hmem, of_decide_eq_true heq⟩

/-- What is found under a hash is the one file that has it. -/
theorem sum_at {attachments : List ResolvedAttachment} (hnodup : (attachments.map (·.fileHash)).Nodup)
    (weight : ResolvedAttachment → Int) (fileHash : String) :
    (attachments.map fun attachment =>
      if attachment.fileHash = fileHash then weight attachment else 0).sum =
        ((byHash attachments fileHash).map weight).getD 0 := by
  induction attachments with
  | nil => rfl
  | cons attachment attachments ih =>
    obtain ⟨hfresh, hrest⟩ := List.nodup_cons.mp hnodup
    rw [List.map_cons, List.sum_cons, ih hrest, byHash_cons]
    by_cases heq : attachment.fileHash = fileHash
    · subst heq
      simp [byHash_eq_none hfresh]
    · simp [heq]

/-- **What is sent costs each file as often as it is sent.** -/
theorem nativeTokens_filterMap {attachments : List ResolvedAttachment}
    (hnodup : (attachments.map (·.fileHash)).Nodup) (hashes : List String) :
    nativeTokens (hashes.filterMap (byHash attachments)) = (attachments.map fun attachment =>
      (hashes.count attachment.fileHash : Int) * bytesCost attachment).sum := by
  induction hashes with
  | nil => simp [nativeTokens]
  | cons fileHash hashes ih =>
    have hcount : ∀ attachment : ResolvedAttachment,
        ((fileHash :: hashes).count attachment.fileHash : Int) * bytesCost attachment =
          (hashes.count attachment.fileHash : Int) * bytesCost attachment +
            if attachment.fileHash = fileHash then bytesCost attachment else 0 := by
      intro attachment
      rw [List.count_cons]
      by_cases heq : attachment.fileHash = fileHash
      · subst heq
        simp [Int.add_mul]
      · simp [heq, Ne.symm heq]
    have hsum : (attachments.map fun attachment =>
        ((fileHash :: hashes).count attachment.fileHash : Int) * bytesCost attachment).sum =
          nativeTokens (hashes.filterMap (byHash attachments)) +
            ((byHash attachments fileHash).map bytesCost).getD 0 := by
      rw [ih, ← sum_at hnodup, ← List.sum_map_add]
      exact congrArg List.sum (List.map_congr_left fun attachment _ => hcount attachment)
    rw [hsum, List.filterMap_cons]
    cases byHash attachments fileHash with
    | none => simp
    | some attachment =>
      simp only [nativeTokens_eq_sum, List.map_cons, List.sum_cons, Option.map_some,
        Option.getD_some]
      omega

/-! ## Native parts -/

/-- The hashes messages refer to, as often as they do. -/
def hashesOf (messages : List Message) : List String :=
  (messages.flatMap (·.fileRefs)).map (·.fileHash)

/-- The hashes of the messages that are sent with their files beside them: all but the system's. -/
def sent (messages : List Message) : List String := hashesOf (messages.filter (·.role ≠ .system))

/-- The native files among those, one for each time it is referred to. -/
def embedded (attachments : ByHash) (messages : List Message) : List ResolvedAttachment :=
  ((sent messages).filterMap attachments).filter (·.mode = .native)

/-- The part that carries the bytes of a file. -/
def inlinePart (attachment : ResolvedAttachment) : Json.Value F :=
  .obj [("inline_data", .obj [("mime_type", .str attachment.mime),
    ("data", .str (String.ofList (b64encode (attachment.data.getD []))))])]

/-- Whether a part carries bytes. -/
def isInline (part : Json.Value F) : Bool := (part.get? "inline_data").isSome

/-- The native parts of a payload. -/
def nativeParts (payload : Json.Value F) : List (Json.Value F) :=
  (entriesOf payload).flatMap fun entry => (partsOf entry).filter isInline

/-- The part of one block, if it has one. -/
theorem eq_of_nativePart {attachments : ByHash} {block : ContentBlock}
    {part : Option (Json.Value F)} (h : nativePart attachments block = .ok part) :
    part = ((block.ref?.bind fun ref => attachments ref.fileHash).filter
      (·.mode = .native)).map inlinePart := by
  unfold nativePart at h
  cases hfound : block.ref?.bind fun ref => attachments ref.fileHash with
  | none =>
    rw [hfound] at h
    exact (Except.ok.inj h).symm
  | some attachment =>
    rw [hfound] at h
    cases hmode : attachment.mode with
    | injected =>
      simp only [hmode] at h
      rw [Option.filter_some, if_neg (by simp [hmode])]
      exact (Except.ok.inj h).symm
    | native =>
      cases hdata : attachment.data with
      | none =>
        simp only [hmode, hdata] at h
        cases h
      | some data =>
        simp only [hmode, hdata] at h
        rw [Option.filter_some, if_pos (by simp [hmode]), Option.map_some, inlinePart, hdata]
        exact (Except.ok.inj h).symm

/-- The parts of one message: its native files, in order. -/
theorem filterMap_nativePart {attachments : ByHash} {blocks : List ContentBlock}
    {native : List (Option (Json.Value F))} (h : blocks.mapM (nativePart attachments) = .ok native) :
    native.filterMap id = (((blocks.filterMap (·.ref?)).filterMap fun ref =>
      attachments ref.fileHash).filter (·.mode = .native)).map inlinePart := by
  have hmap := map_eq_map_of_forall₂ (g := id)
    ((mapM_eq_ok_iff.mp h).imp fun block part => eq_of_nativePart)
  rw [List.map_id] at hmap
  rw [hmap, List.filterMap_map, Function.id_comp, List.filterMap_filterMap, List.filter_filterMap,
    List.map_filterMap]

theorem filter_isInline_map (attachments : List ResolvedAttachment) :
    (attachments.map inlinePart).filter isInline =
      (attachments.map inlinePart : List (Json.Value F)) := by
  refine List.filter_eq_self.mpr fun part hmem => ?_
  obtain ⟨attachment, -, rfl⟩ := List.mem_map.mp hmem
  rfl

theorem filter_isInline_renderParts {attachments : ByHash} {message : Message}
    {parts : List (Json.Value F)} (h : renderParts attachments message = .ok parts) :
    parts.filter isInline = ((message.fileRefs.filterMap fun ref =>
      attachments ref.fileHash).filter (·.mode = .native)).map inlinePart := by
  unfold renderParts at h
  obtain ⟨text, -, h⟩ := bind_eq_ok_iff.mp h
  obtain ⟨native, hnative, h⟩ := bind_eq_ok_iff.mp h
  have hparts := filterMap_nativePart hnative
  rw [← Message.fileRefs] at hparts
  dsimp only at h
  rw [hparts] at h
  split at h
  · obtain rfl := Except.ok.inj h
    rw [List.filter_cons_of_neg Bool.false_ne_true, filter_isInline_map]
  · obtain rfl := Except.ok.inj h
    exact filter_isInline_map _

/-- **Gemini sends a native file each time a message refers to it.** -/
theorem nativeParts_gemini {messages : List Message} {spec : RenderSpec} {params : GenParams F}
    {attachments : List ResolvedAttachment} {payload : Json.Value F}
    (h : gemini.buildPayload messages spec params attachments = .ok payload) :
    nativeParts payload = (embedded (byHash attachments) messages).map inlinePart := by
  obtain ⟨texts, -, entries, hentries, rfl⟩ := geminiPayload_eq_ok_iff.mp h
  clear h
  unfold nativeParts embedded sent hashesOf
  rw [entriesOf_geminiObject]
  generalize messages.filter (·.role ≠ .system) = shown at hentries
  induction hentries with
  | nil => rfl
  | @cons message entry shown entries hentry _ ih =>
    obtain ⟨parts, hparts, rfl⟩ := hentry
    have hinline : (partsOf (geminiEntry message parts)).filter isInline = _ :=
      filter_isInline_renderParts hparts
    rw [List.flatMap_cons, ih, hinline, ← List.map_append, ← List.filter_append]
    simp [List.filterMap_append]

/-- A chat message that has a text has no file but injected ones. -/
theorem injected_of_renderText {refusal : ResolvedAttachment → String} {attachments : ByHash}
    {message : Message} {text : String}
    (h : renderText (injectOnly refusal) attachments message = .ok text) :
    Injected attachments message := by
  intro ref hmem
  obtain ⟨block, hblock, href⟩ := List.mem_filterMap.mp hmem
  obtain ⟨parts, hparts, -⟩ := bind_eq_ok_iff.mp h
  obtain ⟨part, -, hpart⟩ := exists_of_forall₂ (mapM_eq_ok_iff.mp hparts).flip hblock
  cases block with
  | text text => cases href
  | omissionMarker count reason => cases href
  | fileRef held =>
    obtain rfl : held = ref := Option.some.inj href
    change renderBlock (injectOnly refusal) attachments (.fileRef held) = .ok part at hpart
    unfold renderBlock injectOnly at hpart
    cases hfound : attachments held.fileHash with
    | none =>
      simp only [hfound] at hpart
      cases hpart
    | some attachment =>
      simp only [hfound] at hpart
      split at hpart
      next => cases hpart
      next hinjected => exact ⟨attachment, rfl, hinjected⟩

theorem entriesOf_chatObject (spec : RenderSpec) (params : GenParams F)
    (entries : List (Json.Value F)) : entriesOf (chatObject spec params entries) = [] := by
  unfold chatObject Providers.optional
  cases clamped spec params <;> cases params.topP <;> cases stops params <;> rfl

/-- **The others send none**: where there would be one, they raise. -/
theorem nativeParts_chat {refusal : ResolvedAttachment → String} {messages : List Message}
    {spec : RenderSpec} {params : GenParams F} {attachments : List ResolvedAttachment}
    {payload : Json.Value F}
    (h : chatPayload refusal messages spec params attachments = .ok payload) :
    nativeParts payload = (embedded (byHash attachments) messages).map inlinePart := by
  obtain ⟨entries, hentries, rfl⟩ := chatPayload_eq_ok_iff.mp h
  have hnone : embedded (byHash attachments) messages = [] := by
    refine List.filter_eq_nil_iff.mpr fun attachment hmem => ?_
    obtain ⟨fileHash, hhash, hfound⟩ := List.mem_filterMap.mp hmem
    obtain ⟨ref, href, rfl⟩ := List.mem_map.mp hhash
    obtain ⟨message, hmessage, hin⟩ := List.mem_flatMap.mp href
    obtain ⟨entry, -, text, htext, -⟩ :=
      exists_of_forall₂ hentries.flip (List.mem_of_mem_filter hmessage)
    obtain ⟨found, hfound', hinjected⟩ := injected_of_renderText htext ref hin
    obtain rfl := Option.some.inj (hfound.symm.trans hfound')
    simp [hinjected]
  unfold nativeParts
  rw [entriesOf_chatObject, hnone]
  rfl

/-! ## What the report is about -/

/-- The resolved files that messages refer to. -/
def carried (attachments : List ResolvedAttachment) (messages : List Message) :
    List ResolvedAttachment :=
  attachments.filter (·.fileHash ∈ hashesOf messages)

/-- **The report describes the payload**: its tokens are those of the text and of each native part,
and the rest is said of the files that the messages sent refer to. -/
structure Describes (adapter : ProviderAdapter F) (payload : Json.Value F)
    (attachments : List ResolvedAttachment) (messages : List Message) (report : PipelineReport) :
    Prop where
  estimatedTokens : report.estimatedTokens = adapter.estimateTokens payload +
    ((embedded (byHash attachments) messages).map (·.tokenCost)).sum
  attachmentsNative : report.attachmentsNative =
    ((carried attachments messages).filter (·.mode = .native)).length
  attachmentsInjected : report.attachmentsInjected =
    ((carried attachments messages).filter (·.mode = .injected)).length
  degraded : report.degraded = (carried attachments messages).any (·.confidence = some .low)
  extractionTier : report.extractionTier = worstTier (carried attachments messages)

/-- Every resolved file is one the messages refer to. -/
def Kept (attachments : List ResolvedAttachment) (messages : List Message) : Prop :=
  ∀ attachment ∈ attachments, attachment.fileHash ∈ hashesOf messages

/-- Every native file goes out once. -/
def Once (attachments : List ResolvedAttachment) (messages : List Message) : Prop :=
  ∀ attachment ∈ attachments, attachment.mode = .native →
    (sent messages).count attachment.fileHash = 1

/-- A native file only a system message refers to does not go out, and what others cost that go out
more than once makes up for it. -/
def Offset (attachments : List ResolvedAttachment) (messages : List Message) : Prop :=
  (∃ attachment ∈ attachments, attachment.mode = .native ∧ attachment.fileHash ∉ sent messages) ∧
    (attachments.map fun attachment =>
      ((sent messages).count attachment.fileHash : Int) * bytesCost attachment).sum =
        (attachments.map bytesCost).sum

section

variable {adapter : ProviderAdapter F} {payload : Json.Value F} {messages : List Message}
  {attachments : List ResolvedAttachment} {result : FitResult Message}

/-- Cutting texts changes no native part. -/
theorem embedded_cut {cut : List ResolvedAttachment} (h : List.Forall₂ CutOf attachments cut) :
    (embedded (byHash cut) messages).map inlinePart =
      ((embedded (byHash attachments) messages).map inlinePart : List (Json.Value F)) := by
  have hfound : List.Forall₂ SameFile ((sent messages).filterMap (byHash attachments))
      ((sent messages).filterMap (byHash cut)) :=
    (rel_filterMap_same (rel_byHash (fun _ _ hcut => hcut.same) h) _).imp fun _ _ hcut => hcut.same
  refine map_eq_map_of_forall₂ ((List.rel_filter (fun attachment attachment' hsame => ?_)
    hfound).imp fun attachment attachment' hsame => ?_)
  · obtain ⟨text, rfl⟩ := hsame
    exact Iff.rfl
  · obtain ⟨text, rfl⟩ := hsame
    rfl

/-- A sum is another's that is nowhere greater only if they agree throughout. -/
theorem eq_of_sum_eq {α : Type} {xs : List α} {f g : α → Int} (hle : ∀ x ∈ xs, f x ≤ g x)
    (h : (xs.map f).sum = (xs.map g).sum) : ∀ x ∈ xs, f x = g x := by
  intro x hx
  refine le_antisymm (hle x hx) (Int.not_lt.mp fun hlt => ?_)
  have hsum := List.sum_lt_sum f g hle ⟨x, hx, hlt⟩
  omega

/-- What the parts cost is what the files cost, once each. -/
theorem sum_count_eq_iff
    (hpos : ∀ attachment ∈ attachments, attachment.mode = .native → 0 < attachment.tokenCost) :
    (attachments.map fun attachment =>
      ((sent messages).count attachment.fileHash : Int) * bytesCost attachment).sum =
        (attachments.map bytesCost).sum ↔
      Once attachments messages ∨ Offset attachments messages := by
  constructor
  · intro hsum
    by_cases hmissing : ∃ attachment ∈ attachments, attachment.mode = .native ∧
        attachment.fileHash ∉ sent messages
    · exact .inr ⟨hmissing, hsum⟩
    · refine .inl fun attachment hmem hnative => ?_
      have hle : ∀ attachment ∈ attachments, bytesCost attachment ≤
          ((sent messages).count attachment.fileHash : Int) * bytesCost attachment := by
        intro attachment hmem
        unfold bytesCost
        split
        next hnative =>
          have hcost := hpos attachment hmem hnative
          have hcount : 0 < (sent messages).count attachment.fileHash := by
            refine List.count_pos_iff.mpr ?_
            by_contra hout
            exact hmissing ⟨attachment, hmem, hnative, hout⟩
          have hone : (1 : Int) ≤ (sent messages).count attachment.fileHash := by omega
          calc attachment.tokenCost = 1 * attachment.tokenCost := (Int.one_mul _).symm
            _ ≤ _ := Int.mul_le_mul_of_nonneg_right hone hcost.le
        next => rw [Int.mul_zero]
      have heq := eq_of_sum_eq hle hsum.symm attachment hmem
      have hcost := hpos attachment hmem hnative
      rw [bytesCost, if_pos hnative] at heq
      have hone : ((sent messages).count attachment.fileHash : Int) = 1 :=
        Int.eq_one_of_mul_eq_self_left hcost.ne' heq.symm
      exact_mod_cast hone
  · rintro (honce | hoffset)
    · refine congrArg List.sum (List.map_congr_left fun attachment hmem => ?_)
      unfold bytesCost
      split
      next hnative =>
        rw [honce attachment hmem hnative]
        exact Int.one_mul _
      next => exact Int.mul_zero _
    · exact hoffset.2

/-- A file is native or injected. -/
theorem length_modes (attachments : List ResolvedAttachment) :
    (attachments.filter (·.mode = .native)).length +
      (attachments.filter (·.mode = .injected)).length = attachments.length := by
  have hmode : ∀ attachment : ResolvedAttachment,
      decide (attachment.mode = .injected) = !decide (attachment.mode = .native) := by
    intro attachment
    cases attachment.mode <;> rfl
  simp only [hmode]
  exact (List.length_eq_length_filter_add _).symm

/-- **When a report describes its payload.** -/
theorem describes_report_iff (hnodup : (attachments.map (·.fileHash)).Nodup)
    (hpos : ∀ attachment ∈ attachments, attachment.mode = .native → 0 < attachment.tokenCost)
    (hcut : List.Forall₂ CutOf attachments result.attachments) :
    Describes adapter payload attachments result.messages
        (report adapter attachments result payload) ↔
      Kept attachments result.messages ∧
        (Once attachments result.messages ∨ Offset attachments result.messages) := by
  have htokens : nativeTokens result.attachments = (attachments.map bytesCost).sum := by
    rw [← nativeTokens_eq_sum]
    exact (nativeTokens_eq (hcut.imp fun _ _ h => h.same)).symm
  have hparts : ((embedded (byHash attachments) result.messages).map (·.tokenCost)).sum =
      (attachments.map fun attachment => ((sent result.messages).count attachment.fileHash : Int) *
        bytesCost attachment).sum := nativeTokens_filterMap hnodup _
  constructor
  · intro h
    refine ⟨?_, (sum_count_eq_iff hpos).mp ?_⟩
    · -- As many files are carried as there are.
      have hnative : (attachments.filter (·.mode = .native)).length = _ := h.attachmentsNative
      have hinjected : attachments.length - (attachments.filter (·.mode = .native)).length = _ :=
        h.attachmentsInjected
      have hall := length_modes attachments
      have hin := length_modes (carried attachments result.messages)
      have hlength : (carried attachments result.messages).length = attachments.length := by omega
      have hkept := List.length_filter_eq_length_iff.mp hlength
      exact fun attachment hmem => of_decide_eq_true (hkept attachment hmem)
    · have hestimated := h.estimatedTokens
      rw [report, htokens, hparts] at hestimated
      dsimp only at hestimated
      omega
  · rintro ⟨hkept, hsent⟩
    have hcarried : carried attachments result.messages = attachments :=
      List.filter_eq_self.mpr fun attachment hmem => decide_eq_true (hkept attachment hmem)
    have hsum := (sum_count_eq_iff hpos).mpr hsent
    refine ⟨?_, ?_, ?_, ?_, ?_⟩
    · rw [hparts, hsum, ← htokens]
      rfl
    · rw [hcarried]
      rfl
    · rw [hcarried]
      have hall := length_modes attachments
      change attachments.length - (attachments.filter (·.mode = .native)).length = _
      omega
    · rw [hcarried]
      rfl
    · rw [hcarried]
      rfl

/-- **The report describes the payload exactly if fitting leaves every file referred to, and each
native one goes out once** (or what is sent twice makes up for what is not sent). -/
theorem describes_iff {history : List CanonicalMessage} {spec : RenderSpec} {params : GenParams F}
    {reading : String → Bool → Option Perception.Reading} {strategy : FitStrategy}
    {report : PipelineReport} (hadapter : adapter = groq ∨ adapter = openrouter ∨ adapter = gemini)
    (h : render history spec params adapter (Perception.resolve reading) strategy =
      .ok (payload, report)) :
    ∃ attachments result,
      Perception.resolve reading ((history.map (·.toMessage)).flatMap (·.fileRefs)) spec =
        .ok attachments ∧
      fit materialize estimateTextTokens (history.map (·.toMessage)) attachments
        (inputBudget spec params) spec strategy = .ok result ∧
      nativeParts payload = (embedded (byHash attachments) result.messages).map inlinePart ∧
      (Describes adapter payload attachments result.messages report ↔
        Kept attachments result.messages ∧
          (Once attachments result.messages ∨ Offset attachments result.messages)) := by
  unfold render at h
  split at h
  next => cases h
  next =>
    unfold renderValid at h
    obtain ⟨attachments, hresolve, h⟩ := bind_eq_ok_iff.mp h
    obtain ⟨-, h⟩ := (check_eq_ok_iff rfl).mp h
    obtain ⟨result, hfit, h⟩ := bind_eq_ok_iff.mp h
    obtain ⟨payload', hpayload, h⟩ := bind_eq_ok_iff.mp h
    obtain ⟨rfl, rfl⟩ := Prod.mk.inj (Except.ok.inj h)
    obtain ⟨hnodup, hpos⟩ := resolve_spec hresolve
    have hcut := fit_cut hfit
    refine ⟨attachments, result, hresolve, hfit, ?_, describes_report_iff hnodup hpos hcut⟩
    have hparts : nativeParts payload' =
        (embedded (byHash result.attachments) result.messages).map inlinePart := by
      rcases hadapter with rfl | rfl | rfl
      · exact nativeParts_chat hpayload
      · exact nativeParts_chat hpayload
      · exact nativeParts_gemini hpayload
    rw [hparts]
    exact embedded_cut hcut

end

/-- A question about a file, its answer, and thanks. -/
def thanked : List CanonicalMessage :=
  [{ role := .user
     content := [.text "Read this.", .fileRef ⟨"4f1c", "minutes.pdf", "application/pdf", 9⟩]
     seq := 0 },
    { role := .assistant, content := [.text "Done."], seq := 1, «meta» := { providerUsed := some "p" } },
    { role := .user, content := [.text "Thanks."], seq := 2 }]

/-- A model that reads such files itself, and has no room for this one. -/
def smallReader : RenderSpec where
  slot := "s"
  provider := "p"
  model := "m"
  contextWindow := 100
  maxOutputTokens := 40
  supportsPdf := true

/-- A file of one page. -/
def onePage (_ : String) (_ : Bool) : Option Perception.Reading :=
  some (.native [37, 80, 68, 70] { pages := some 1 })

/-- The page, as the lane resolves it. -/
def page : ResolvedAttachment :=
  Perception.native ⟨"4f1c", "minutes.pdf", "application/pdf", 9⟩ [37, 80, 68, 70]
    { pages := some 1 }

/-- The history with the question and its answer dropped. -/
def onlyThanks : FitResult Message where
  messages := [{ role := .user, content := [omissionMarker 2, .text "Thanks."], seq := 2 }]
  attachments := [page]
  messagesDropped := 2
  documentsTruncated := 0
  inputTokens := 13

/-- What is sent of it. -/
def thanksPayload : Json.Value Unit :=
  geminiObject smallReader { temperature := () } [] [.obj [("role", .str "user"),
    ("parts", .arr [.obj [("text", .str "[2 earlier messages omitted]\n\nThanks.")]])]]

theorem render_thanked : render thanked smallReader { temperature := () } gemini
    (Perception.resolve onePage) .truncate =
      .ok (thanksPayload, report gemini [page] onlyThanks thanksPayload) :=
  rfl

theorem describes_iff_thanked : ∃ attachments result,
    Perception.resolve onePage ((thanked.map (·.toMessage)).flatMap (·.fileRefs)) smallReader =
      .ok attachments ∧
    fit materialize estimateTextTokens (thanked.map (·.toMessage)) attachments
      (inputBudget smallReader ({ temperature := () } : GenParams Unit)) smallReader .truncate =
        .ok result ∧
    nativeParts thanksPayload = (embedded (byHash attachments) result.messages).map inlinePart ∧
    (Describes gemini thanksPayload attachments result.messages
        (report gemini [page] onlyThanks thanksPayload) ↔
      Kept attachments result.messages ∧
        (Once attachments result.messages ∨ Offset attachments result.messages)) :=
  describes_iff (.inr (.inr rfl)) render_thanked

/-- The page is dropped with the question, and the report goes on counting it. -/
theorem not_describes : ¬ ∀ (adapter : ProviderAdapter Unit) (history : List CanonicalMessage)
    (spec : RenderSpec) (params : GenParams Unit)
    (reading : String → Bool → Option Perception.Reading) (strategy : FitStrategy)
    (payload : Json.Value Unit) (report : PipelineReport) (attachments : List ResolvedAttachment)
    (result : FitResult Message), (adapter = groq ∨ adapter = openrouter ∨ adapter = gemini) →
      render history spec params adapter (Perception.resolve reading) strategy =
        .ok (payload, report) →
      Perception.resolve reading ((history.map (·.toMessage)).flatMap (·.fileRefs)) spec =
        .ok attachments →
      fit materialize estimateTextTokens (history.map (·.toMessage)) attachments
        (inputBudget spec params) spec strategy = .ok result →
      Describes adapter payload attachments result.messages report := by
  intro h
  have hfit : fit materialize estimateTextTokens (thanked.map (·.toMessage)) [page]
      (inputBudget smallReader ({ temperature := () } : GenParams Unit)) smallReader .truncate =
        .ok onlyThanks := by
    decide
  have hdescribes := h gemini thanked smallReader { temperature := () } onePage .truncate
    thanksPayload _ [page] onlyThanks (.inr (.inr rfl)) render_thanked rfl hfit
  -- One native file is reported, and none is carried.
  exact absurd hdescribes.attachmentsNative (by decide)

end Render

end LlmGateway
