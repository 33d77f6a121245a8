import LlmGateway.Effects.Checked
import LlmGateway.Providers.Payloads

/-!
# What a payload says

The adapters write their payloads separately, and `materialize` measures a
message before there is one. Read back from each payload, the text of a message
whose files are injected is the text that was measured.
-/

namespace LlmGateway

namespace Providers

open Fitting Render

variable {F : Type}

/-! ## Reading a payload -/

/-- The text of one message of a chat payload. -/
def contentOf (message : Json.Value F) : Option String :=
  match message.get? "content" with
  | some (.str text) => some text
  | _ => none

/-- The texts of a chat payload, message by message. -/
def chatTexts (payload : Json.Value F) : List (Option String) :=
  match payload.get? "messages" with
  | some (.arr messages) => messages.map contentOf
  | _ => []

/-- The text of one part; bytes have none. -/
def partText (part : Json.Value F) : String :=
  match part.get? "text" with
  | some (.str text) => text
  | _ => ""

/-- The parts of an entry of a Gemini payload. -/
def partsOf (entry : Json.Value F) : List (Json.Value F) :=
  match entry.get? "parts" with
  | some (.arr parts) => parts
  | _ => []

/-- The text of an entry: Gemini joins its parts with nothing between. -/
def entryText (entry : Json.Value F) : String := String.join ((partsOf entry).map partText)

/-- The entries of a Gemini payload, one for each message but the system's. -/
def entriesOf (payload : Json.Value F) : List (Json.Value F) :=
  match payload.get? "contents" with
  | some (.arr entries) => entries
  | _ => []

/-- What a Gemini payload says for the system. -/
def systemText (payload : Json.Value F) : Option String :=
  (payload.get? "system_instruction").map entryText

/-! ## Writing one -/

/-- The payload of a chat-completions provider, of its entries. -/
def chatObject (spec : RenderSpec) (params : GenParams F) (entries : List (Json.Value F)) :
    Json.Value F :=
  .obj ([("model", .str spec.model), ("messages", .arr entries),
      ("temperature", .float params.temperature), ("stream", .bool params.stream)]
    ++ optional "max_tokens" (clamped spec params) .int
    ++ optional "top_p" params.topP .float
    ++ optional "stop" (stops params) strings)

/-- The payload of Gemini, of the texts for the system and the entries. -/
def geminiObject (spec : RenderSpec) (params : GenParams F) (texts : List String)
    (entries : List (Json.Value F)) : Json.Value F :=
  .obj ([("_model", .str spec.model)]
    ++ optional "system_instruction" (if texts.isEmpty then none else some texts) (fun texts =>
      .obj [("parts", .arr [.obj [("text", .str (String.intercalate "\n\n" texts))]])])
    ++ [("contents", .arr entries),
      ("generationConfig", .obj ([("temperature", .float params.temperature)]
        ++ optional "maxOutputTokens" (clamped spec params) .int
        ++ optional "topP" params.topP .float
        ++ optional "stopSequences" (stops params) strings))])

/-- The entry of a chat message. -/
def chatEntry (message : Message) (text : String) : Json.Value F :=
  .obj [("role", .str (roleName message.role)), ("content", .str text)]

/-- The entry of a Gemini message. -/
def geminiEntry (message : Message) (parts : List (Json.Value F)) : Json.Value F :=
  .obj [("role", .str (geminiRole message.role)), ("parts", .arr parts)]

theorem entriesOf_geminiObject (spec : RenderSpec) (params : GenParams F) (texts : List String)
    (entries : List (Json.Value F)) :
    entriesOf (geminiObject spec params texts entries) = entries := by
  cases texts <;> rfl

/-- The text of a part. -/
theorem partText_obj (text : String) : partText (.obj [("text", .str text)] : Json.Value F) = text :=
  rfl

/-- A lone part is read as it is. -/
theorem entryText_single (message : Message) (text : String) :
    entryText (geminiEntry message [(.obj [("text", .str text)] : Json.Value F)]) = text := by
  change String.join [partText (.obj [("text", .str text)] : Json.Value F)] = text
  rw [partText_obj]
  simp

theorem systemText_geminiObject (spec : RenderSpec) (params : GenParams F) (texts : List String)
    (entries : List (Json.Value F)) : systemText (geminiObject spec params texts entries) =
      if texts = [] then none else some (String.intercalate "\n\n" texts) := by
  cases texts with
  | nil => rfl
  | cons text texts =>
    rw [if_neg (List.cons_ne_nil _ _)]
    change some (String.join [partText (F := F) (.obj [("text", .str _)])]) = _
    rw [partText_obj]
    simp

section

variable {messages : List Message} {spec : RenderSpec} {params : GenParams F}
  {attachments : List ResolvedAttachment} {payload : Json.Value F}

/-- A chat payload is built if the text of each message is. -/
theorem chatPayload_eq_ok_iff {refusal : ResolvedAttachment → String} :
    chatPayload refusal messages spec params attachments = .ok payload ↔ ∃ entries,
      List.Forall₂ (fun message entry => ∃ text,
        renderText (injectOnly refusal) (byHash attachments) message = .ok text ∧
          entry = chatEntry message text)
        messages entries ∧ payload = chatObject spec params entries := by
  unfold chatPayload
  rw [bind_pure_eq_ok_iff]
  simp only [mapM_eq_ok_iff, bind_pure_eq_ok_iff]
  rfl

/-- A Gemini payload is built if the text of the system and the parts of each message are. -/
theorem geminiPayload_eq_ok_iff :
    geminiPayload messages spec params attachments = .ok payload ↔ ∃ texts,
      List.Forall₂ (fun message text =>
        renderText injectOrLeave (byHash attachments) message = .ok text)
        (messages.filter (·.role = .system)) texts ∧ ∃ entries,
      List.Forall₂ (fun message entry => ∃ parts,
        renderParts (byHash attachments) message = .ok parts ∧
          entry = geminiEntry message parts)
        (messages.filter (·.role ≠ .system)) entries ∧
      payload = geminiObject spec params texts entries := by
  unfold geminiPayload
  rw [bind_eq_ok_iff]
  refine exists_congr fun texts => and_congr mapM_eq_ok_iff ?_
  rw [bind_pure_eq_ok_iff]
  simp only [mapM_eq_ok_iff, bind_pure_eq_ok_iff]
  rfl

end

/-! ## One text for all -/

/-- Every file a message refers to is injected. -/
def Injected (attachments : ByHash) (message : Message) : Prop :=
  ∀ ref ∈ message.fileRefs, ∃ attachment, attachments ref.fileHash = some attachment ∧
    attachment.mode = .injected

/-- What is read of a message whose files are injected is what was measured of it. -/
def Shows (attachments : ByHash) (message : Message) (text : Option String) : Prop :=
  Injected attachments message → text = some (materialize message attachments)

section

variable {attachments : ByHash} {message : Message}

/-- **What is sent is what was measured**, however else an adapter places a file. -/
theorem renderText_eq {place : ResolvedAttachment → Except RenderFailure (Option String)}
    (hplace : ∀ attachment, attachment.mode = .injected →
      place attachment = .ok (some (documentEnvelope attachment)))
    (h : Injected attachments message) :
    renderText place attachments message = .ok (materialize message attachments) := by
  have hblocks : message.content.mapM (renderBlock place attachments) =
      .ok (message.content.map (materializeBlock attachments)) := by
    refine mapM_eq_ok fun block hmem => ?_
    cases block with
    | text text => rfl
    | omissionMarker count reason => rfl
    | fileRef ref =>
      obtain ⟨attachment, hfound, hinjected⟩ := h ref (List.mem_filterMap.mpr ⟨_, hmem, rfl⟩)
      simp only [renderBlock, materializeBlock, hfound, Option.map_some, hinjected]
      exact hplace attachment hinjected
  unfold renderText materialize
  rw [hblocks]
  change Except.ok (String.intercalate "\n\n" (List.filterMap id (List.map _ _))) = _
  rw [List.filterMap_map, Function.id_comp]

theorem injectOnly_injected (refusal : ResolvedAttachment → String)
    (attachment : ResolvedAttachment) (h : attachment.mode = .injected) :
    injectOnly refusal attachment = .ok (some (documentEnvelope attachment)) := by
  unfold injectOnly
  rw [h]
  rfl

theorem injectOrLeave_injected (attachment : ResolvedAttachment)
    (h : attachment.mode = .injected) :
    injectOrLeave attachment = .ok (some (documentEnvelope attachment)) := by
  unfold injectOrLeave
  rw [h]
  rfl

/-- A message without native bytes is one text part. -/
theorem renderParts_eq (h : Injected attachments message) :
    renderParts attachments message =
      .ok [(.obj [("text", .str (materialize message attachments))] : Json.Value F)] := by
  have hnative : message.content.mapM (nativePart (F := F) attachments) =
      .ok (message.content.map fun _ => none) := by
    refine mapM_eq_ok fun block hmem => ?_
    cases block with
    | text text => rfl
    | omissionMarker count reason => rfl
    | fileRef ref =>
      obtain ⟨attachment, hfound, hinjected⟩ := h ref (List.mem_filterMap.mpr ⟨_, hmem, rfl⟩)
      simp only [nativePart, ContentBlock.ref?, Option.bind_some, hfound, hinjected]
      rfl
  have hnone : (message.content.map fun _ => (none : Option (Json.Value F))).filterMap id = [] := by
    simp
  unfold renderParts
  rw [renderText_eq injectOrLeave_injected h, hnative]
  change (if _ ∨ List.filterMap id _ = [] then _ else _) = _
  rw [if_pos (.inr hnone), hnone]
  rfl

end

/-! ## Every payload -/

section

variable {messages : List Message} {spec : RenderSpec} {params : GenParams F}
  {attachments : List ResolvedAttachment} {payload : Json.Value F}

/-- One entry for each message, and what is read of the entry is what the message says. -/
theorem forall₂_shows {α : Type} {R : Message → α → Prop} (read : α → Option String)
    {entries : List α} (h : List.Forall₂ R messages entries)
    (hread : ∀ message entry, R message entry → Shows (byHash attachments) message (read entry)) :
    List.Forall₂ (Shows (byHash attachments)) messages (entries.map read) :=
  List.forall₂_map_right_iff.mpr (h.imp hread)

/-- If all files are injected, all that is read is what was measured. -/
theorem eq_map_of_shows {messages : List Message} {attachments : ByHash}
    {texts : List (Option String)} (h : List.Forall₂ (Shows attachments) messages texts)
    (hall : ∀ message ∈ messages, Injected attachments message) :
    texts = messages.map fun message => some (materialize message attachments) := by
  induction h with
  | nil => rfl
  | cons hshows _ ih =>
    rw [List.map_cons, hshows (hall _ List.mem_cons_self),
      ih fun message hmem => hall message (List.mem_cons_of_mem _ hmem)]

theorem chatTexts_shows {refusal : ResolvedAttachment → String}
    (h : chatPayload refusal messages spec params attachments = .ok payload) :
    List.Forall₂ (Shows (byHash attachments)) messages (chatTexts payload) := by
  obtain ⟨entries, hentries, rfl⟩ := chatPayload_eq_ok_iff.mp h
  refine forall₂_shows contentOf hentries fun message entry hentry hinjected => ?_
  obtain ⟨text, htext, rfl⟩ := hentry
  rw [renderText_eq (injectOnly_injected refusal) hinjected] at htext
  exact congrArg some (Except.ok.inj htext).symm

theorem geminiTexts_shows (h : geminiPayload messages spec params attachments = .ok payload) :
    List.Forall₂ (Shows (byHash attachments)) (messages.filter (·.role ≠ .system))
      ((entriesOf payload).map fun entry => some (entryText entry)) ∧
    ∃ texts : List String, List.Forall₂ (Shows (byHash attachments))
      (messages.filter (·.role = .system)) (texts.map some) ∧
      systemText payload = if texts = [] then none else some (String.intercalate "\n\n" texts) := by
  obtain ⟨texts, htexts, entries, hentries, rfl⟩ := geminiPayload_eq_ok_iff.mp h
  refine ⟨?_, texts, ?_, ?_⟩
  · rw [entriesOf_geminiObject]
    refine forall₂_shows (fun entry => some (entryText entry)) hentries
      fun message entry hentry hinjected => ?_
    obtain ⟨parts, hparts, rfl⟩ := hentry
    rw [renderParts_eq hinjected] at hparts
    obtain rfl := Except.ok.inj hparts
    exact congrArg some (entryText_single _ _)
  · refine forall₂_shows some htexts fun message text htext hinjected => ?_
    rw [renderText_eq injectOrLeave_injected hinjected] at htext
    exact congrArg some (Except.ok.inj htext).symm
  · exact systemText_geminiObject _ _ _ _

/-- **Every provider is shown the same text.** A message whose files are injected reads, in each of
the three payloads, as `materialize` makes it; and if all messages are such, each payload is built. -/
theorem shown_eq_materialize (messages : List Message) (spec : RenderSpec) (params : GenParams F)
    (attachments : List ResolvedAttachment) :
    (∀ payload, groq.buildPayload messages spec params attachments = .ok payload →
      List.Forall₂ (Shows (byHash attachments)) messages (chatTexts payload)) ∧
    (∀ payload, openrouter.buildPayload messages spec params attachments = .ok payload →
      List.Forall₂ (Shows (byHash attachments)) messages (chatTexts payload)) ∧
    (∀ payload, gemini.buildPayload messages spec params attachments = .ok payload →
      List.Forall₂ (Shows (byHash attachments)) (messages.filter (·.role ≠ .system))
        ((entriesOf payload).map fun entry => some (entryText entry)) ∧
      ∃ texts : List String, List.Forall₂ (Shows (byHash attachments))
        (messages.filter (·.role = .system)) (texts.map some) ∧
        systemText payload =
          if texts = [] then none else some (String.intercalate "\n\n" texts)) ∧
    ((∀ message ∈ messages, Injected (byHash attachments) message) →
      ∀ adapter ∈ [groq, openrouter, gemini], ∃ payload,
        adapter.buildPayload messages spec params attachments = .ok payload) := by
  refine ⟨fun _ h => chatTexts_shows h, fun _ h => chatTexts_shows h,
    fun _ h => geminiTexts_shows h, fun hinjected adapter hadapter => ?_⟩
  have hchat : ∀ refusal, ∃ payload,
      chatPayload refusal messages spec params attachments = .ok payload := by
    intro refusal
    refine ⟨_, chatPayload_eq_ok_iff.mpr ⟨messages.map fun message =>
      chatEntry message (materialize message (byHash attachments)), ?_, rfl⟩⟩
    refine List.forall₂_map_right_iff.mpr (List.forall₂_same.mpr fun message hmem => ?_)
    exact ⟨_, renderText_eq (injectOnly_injected refusal) (hinjected message hmem), rfl⟩
  simp only [List.mem_cons, List.not_mem_nil, or_false] at hadapter
  rcases hadapter with rfl | rfl | rfl
  · exact hchat _
  · exact hchat _
  · refine ⟨_, geminiPayload_eq_ok_iff.mpr ⟨(messages.filter (·.role = .system)).map fun message =>
      materialize message (byHash attachments), ?_, (messages.filter (·.role ≠ .system)).map
      fun message => geminiEntry message
        [.obj [("text", .str (materialize message (byHash attachments)))]], ?_, rfl⟩⟩
    · refine List.forall₂_map_right_iff.mpr (List.forall₂_same.mpr fun message hmem => ?_)
      exact renderText_eq injectOrLeave_injected (hinjected message (List.mem_of_mem_filter hmem))
    · refine List.forall₂_map_right_iff.mpr (List.forall₂_same.mpr fun message hmem => ?_)
      exact ⟨_, renderParts_eq (hinjected message (List.mem_of_mem_filter hmem)), rfl⟩

end

/-- Minutes of a meeting, as a model read them. -/
def minutes : ResolvedAttachment where
  fileHash := "4f1c"
  filename := "minutes.pdf"
  mime := "application/pdf"
  sizeBytes := 9
  mode := .injected
  text := some "All agreed."
  confidence := some .high
  tier := some .llm

/-- A question about them, behind two messages that are missing. -/
def agreed : Message where
  role := .user
  content := [omissionMarker 2, .text "Who agreed?",
    .fileRef { fileHash := "4f1c", filename := "minutes.pdf", mime := "application/pdf", bytes := 9 },
    .text "Be brief."]
  seq := 0

/-- A model that reads no files. -/
def smallModel : RenderSpec where
  slot := "s"
  provider := "p"
  model := "m"
  contextWindow := 60
  maxOutputTokens := 8

/-- Groq and Gemini are told alike. -/
theorem shown_eq_materialize_agreed :
    ∃ payload payload' : Json.Value Unit,
      groq.buildPayload [agreed] smallModel { temperature := () } [minutes] = .ok payload ∧
      gemini.buildPayload [agreed] smallModel { temperature := () } [minutes] = .ok payload' ∧
      chatTexts payload = [some (materialize agreed (byHash [minutes]))] ∧
      ((entriesOf payload').map fun entry => some (entryText entry)) =
        [some (materialize agreed (byHash [minutes]))] := by
  have hall : ∀ message ∈ [agreed], Injected (byHash [minutes]) message := by
    intro message hmem ref href
    rw [List.mem_singleton.mp hmem] at href
    simp only [agreed, Message.fileRefs, omissionMarker, List.filterMap_cons, ContentBlock.ref?,
      List.filterMap_nil, List.mem_singleton] at href
    subst href
    exact ⟨minutes, rfl, rfl⟩
  obtain ⟨hgroq, -, hgemini, hbuilt⟩ :=
    shown_eq_materialize [agreed] smallModel { temperature := () } [minutes]
  obtain ⟨payload, hpayload⟩ := hbuilt hall groq (by simp)
  obtain ⟨payload', hpayload'⟩ := hbuilt hall gemini (by simp)
  exact ⟨payload, payload', hpayload, hpayload', eq_map_of_shows (hgroq payload hpayload) hall,
    eq_map_of_shows (hgemini payload' hpayload').1 hall⟩

end Providers

end LlmGateway
