import LlmGateway.Cache.Exact
import LlmGateway.Perception.Lane
import LlmGateway.Providers.Payloads
import Mathlib.Data.List.Basic
import Mathlib.Data.List.Forall2

/-!
# The key of the exact cache

What makes two requests the same question, hashed, and what rendering two
questions under one key has in common.
-/

namespace LlmGateway

namespace Exact

open Json Providers Render

variable {F : Type}

/-- What `request_hash` is asked with. -/
structure Question (F : Type) where
  requestedSlot : String
  history : List CanonicalMessage
  temperature : F
  maxTokens : Option Int := none
  topP : Option F := none
  stop : List String := []
  deriving Repr

/-- The knobs a turn over this question is rendered with. -/
def Question.params (question : Question F) (stream : Bool) : GenParams F where
  temperature := question.temperature
  maxTokens := question.maxTokens
  topP := question.topP
  stop := question.stop
  stream := stream

/-- `CACHE_FORMAT_VERSION`. -/
def cacheFormatVersion : Int := 2

/-- `_identity_of`: a file reference is its hash, and anything else is itself. -/
def identityOf : ContentBlock → Value F
  | .fileRef ref => .obj [("type", .str "file_ref"), ("file_hash", .str ref.fileHash)]
  | .text text => .obj [("type", .str "text"), ("text", .str text)]
  | .omissionMarker omittedCount reason =>
    .obj [("type", .str "omission_marker"), ("omitted_count", .int omittedCount),
      ("reason", .str reason.name)]

def entryOf (message : CanonicalMessage) : Value F :=
  .obj [("role", .str (roleName message.role)), ("seq", .int message.seq),
    ("content", .arr (message.content.map identityOf))]

/-- A value, or `null`. -/
def orNull {α : Type} (toJson : α → Value F) : Option α → Value F
  | some a => toJson a
  | none => .null

/-- What is hashed. -/
def Question.payload (question : Question F) : Value F :=
  .obj [("v", .int cacheFormatVersion), ("slot", .str question.requestedSlot),
    ("history", .arr (question.history.map entryOf)),
    ("temperature", .float question.temperature),
    ("max_tokens", orNull .int question.maxTokens),
    ("top_p", orNull .float question.topP),
    ("stop", strings question.stop)]

/-- `request_hash`, where `sha256` takes a text to the digest of its bytes. -/
def requestHash (format : FloatFormat F) (sha256 : String → String) (question : Question F) :
    String :=
  sha256 (dumps format (sortKeys question.payload))

/-! ## What the key holds -/

section Sorted

theorem sortKeys_identityOf_text (text : String) :
    sortKeys (identityOf (.text text) : Value F)
      = .obj [("text", .str text), ("type", .str "text")] := by
  simp [identityOf, sortKeys, sortMembers, insertMember]

theorem sortKeys_identityOf_omissionMarker (omittedCount : Nat) (reason : TruncationReason) :
    sortKeys (identityOf (.omissionMarker omittedCount reason) : Value F)
      = .obj [("omitted_count", .int omittedCount), ("reason", .str reason.name),
          ("type", .str "omission_marker")] := by
  simp [identityOf, sortKeys, sortMembers, insertMember]

theorem sortKeys_identityOf_fileRef (ref : FileRef) :
    sortKeys (identityOf (.fileRef ref) : Value F)
      = .obj [("file_hash", .str ref.fileHash), ("type", .str "file_ref")] := by
  simp [identityOf, sortKeys, sortMembers, insertMember]

theorem sortKeys_entryOf (message : CanonicalMessage) :
    sortKeys (entryOf message : Value F)
      = .obj [("content", .arr (message.content.map fun block => sortKeys (identityOf block))),
          ("role", .str (roleName message.role)), ("seq", .int message.seq)] := by
  simp [entryOf, sortKeys, sortMembers, insertMember, sortItems_eq_map, Function.comp_def]

theorem sortKeys_orNull {α : Type} {toJson : α → Value F}
    (hplain : ∀ a, sortKeys (toJson a) = toJson a) (value : Option α) :
    sortKeys (orNull toJson value) = orNull toJson value := by
  cases value with
  | none => rfl
  | some a => exact hplain a

theorem sortKeys_strings (texts : List String) :
    sortKeys (strings texts : Value F) = strings texts := by
  rw [strings, sortKeys, sortItems_eq_map, List.map_map]
  rfl

theorem sortKeys_payload (question : Question F) :
    sortKeys question.payload
      = .obj [("history", .arr (question.history.map fun message => sortKeys (entryOf message))),
          ("max_tokens", orNull .int question.maxTokens),
          ("slot", .str question.requestedSlot),
          ("stop", strings question.stop),
          ("temperature", .float question.temperature),
          ("top_p", orNull .float question.topP),
          ("v", .int cacheFormatVersion)] := by
  have hint : ∀ n : Int, sortKeys (.int n : Value F) = .int n := fun _ => rfl
  have hfloat : ∀ x : F, sortKeys (.float x) = .float x := fun _ => rfl
  simp [Question.payload, sortKeys, sortMembers, insertMember, sortItems_eq_map,
    sortKeys_orNull hint, sortKeys_orNull hfloat, sortKeys_strings, Function.comp_def]

end Sorted

/-- Two blocks that are one block but for the label of a file. -/
inductive SameBlock : ContentBlock → ContentBlock → Prop
  | text (text : String) : SameBlock (.text text) (.text text)
  | omissionMarker (omittedCount : Nat) (reason : TruncationReason) :
    SameBlock (.omissionMarker omittedCount reason) (.omissionMarker omittedCount reason)
  | fileRef {ref ref' : FileRef} (hash : ref.fileHash = ref'.fileHash) :
    SameBlock (.fileRef ref) (.fileRef ref')

/-- Two messages that are one message but for the labels of files. -/
structure SameMessage (message message' : CanonicalMessage) : Prop where
  role : message.role = message'.role
  seq : message.seq = message'.seq
  content : List.Forall₂ SameBlock message.content message'.content

/-- The block behind its entry. -/
theorem sameBlock_of_identityOf_eq {block block' : ContentBlock}
    (h : sortKeys (identityOf block : Value F) = sortKeys (identityOf block')) :
    SameBlock block block' := by
  cases block <;> cases block' <;>
    simp only [sortKeys_identityOf_text, sortKeys_identityOf_omissionMarker,
      sortKeys_identityOf_fileRef, Value.obj.injEq, List.cons.injEq, Prod.mk.injEq,
      Value.str.injEq, Value.int.injEq, Int.natCast_inj, true_and, and_true] at h
  case text.text =>
    subst h
    exact .text _
  case omissionMarker.omissionMarker _ reason _ reason' =>
    obtain ⟨rfl, -⟩ := h
    cases reason
    cases reason'
    exact .omissionMarker _ _
  case fileRef.fileRef => exact .fileRef h
  all_goals simp at h

theorem roleName_injective : Function.Injective roleName := by
  intro role role' h
  cases role <;> cases role' <;> first | rfl | simp [roleName] at h

/-- Equal images of two lists relate them entry by entry. -/
theorem forall₂_of_map_eq {α β : Type} {f : α → β} {R : α → α → Prop}
    (hf : ∀ a b, f a = f b → R a b) {xs ys : List α} (h : xs.map f = ys.map f) :
    List.Forall₂ R xs ys := by
  have heq : List.Forall₂ Eq (xs.map f) (ys.map f) := by rw [h, List.forall₂_eq_eq_eq]
  rw [List.forall₂_map_left_iff, List.forall₂_map_right_iff] at heq
  exact heq.imp fun a b => hf a b

theorem sameMessage_of_entryOf_eq {message message' : CanonicalMessage}
    (h : sortKeys (entryOf message : Value F) = sortKeys (entryOf message')) :
    SameMessage message message' := by
  simp only [sortKeys_entryOf, Value.obj.injEq, List.cons.injEq, Prod.mk.injEq, Value.arr.injEq,
    Value.str.injEq, Value.int.injEq, true_and, and_true] at h
  obtain ⟨hcontent, hrole, hseq⟩ := h
  exact ⟨roleName_injective hrole, hseq,
    forall₂_of_map_eq (fun _ _ => sameBlock_of_identityOf_eq) hcontent⟩

theorem orNull_injective {α : Type} {toJson : α → Value F}
    (hinj : Function.Injective toJson) (hnull : ∀ a, toJson a ≠ .null) :
    Function.Injective (orNull toJson) := by
  intro value value' h
  cases value with
  | none =>
    cases value' with
    | none => rfl
    | some b => exact absurd h.symm (hnull b)
  | some a =>
    cases value' with
    | none => exact absurd h (hnull a)
    | some b => rw [hinj h]

/-- Two questions that ask the same, but for the labels of files. -/
structure SameQuestion (question question' : Question F) : Prop where
  requestedSlot : question.requestedSlot = question'.requestedSlot
  history : List.Forall₂ SameMessage question.history question'.history
  params : question.params = question'.params

/-- **A key says what is asked.** -/
theorem sameQuestion_of_requestHash_eq {format : FloatFormat F} {sha256 : String → String}
    (hsha256 : Function.Injective sha256) {question question' : Question F}
    (h : requestHash format sha256 question = requestHash format sha256 question') :
    SameQuestion question question' := by
  have hpayload := dumps_injective format (hsha256 h)
  simp only [sortKeys_payload, Value.obj.injEq, List.cons.injEq, Prod.mk.injEq, Value.arr.injEq,
    Value.str.injEq, Value.float.injEq, true_and, and_true] at hpayload
  obtain ⟨hhistory, hmaxTokens, hslot, hstop, htemperature, htopP⟩ := hpayload
  have hmax : question.maxTokens = question'.maxTokens :=
    orNull_injective (fun _ _ => Value.int.inj) (by simp) hmaxTokens
  have htop : question.topP = question'.topP :=
    orNull_injective (fun _ _ => Value.float.inj) (by simp) htopP
  have hstops : question.stop = question'.stop :=
    List.map_injective_iff.mpr (fun _ _ => Value.str.inj) (Value.arr.inj hstop)
  refine ⟨hslot, forall₂_of_map_eq (fun _ _ => sameMessage_of_entryOf_eq) hhistory, ?_⟩
  funext stream
  unfold Question.params
  rw [htemperature, hmax, htop, hstops]

/-! ## What rendering makes of it -/

/-- The names of the files a history refers to, block by block. -/
def labels (history : List CanonicalMessage) : List (List (Option String)) :=
  history.map fun message => message.content.map fun block => block.ref?.map (·.filename)

/-- A file's type and size are what an upload reads off its bytes, so they go with the hash. -/
def Uploaded (sniffed : String → String × Nat) (history : List CanonicalMessage) : Prop :=
  ∀ message ∈ history, ∀ ref ∈ message.fileRefs, (ref.mime, ref.bytes) = sniffed ref.fileHash

variable {sniffed : String → String × Nat}

/-- The label is all there is to tell two such blocks apart. -/
theorem SameBlock.eq {block block' : ContentBlock} (hsame : SameBlock block block')
    (hlabel : block.ref?.map (·.filename) = block'.ref?.map (·.filename))
    (hup : ∀ ref, block.ref? = some ref → (ref.mime, ref.bytes) = sniffed ref.fileHash)
    (hup' : ∀ ref, block'.ref? = some ref → (ref.mime, ref.bytes) = sniffed ref.fileHash) :
    block = block' := by
  cases hsame with
  | text text => rfl
  | omissionMarker omittedCount reason => rfl
  | @fileRef ref ref' hash =>
    have hname : ref.filename = ref'.filename := Option.some.inj hlabel
    have hbytes : (ref.mime, ref.bytes) = (ref'.mime, ref'.bytes) := by
      rw [hup ref rfl, hup' ref' rfl, hash]
    obtain ⟨hmime, hsize⟩ := Prod.mk.inj hbytes
    cases ref
    cases ref'
    simp_all

theorem content_eq {content content' : List ContentBlock}
    (hsame : List.Forall₂ SameBlock content content')
    (hlabels : (content.map fun block => block.ref?.map (·.filename))
      = content'.map fun block => block.ref?.map (·.filename))
    (hup : ∀ ref ∈ content.filterMap (·.ref?), (ref.mime, ref.bytes) = sniffed ref.fileHash)
    (hup' : ∀ ref ∈ content'.filterMap (·.ref?), (ref.mime, ref.bytes) = sniffed ref.fileHash) :
    content = content' := by
  induction hsame with
  | nil => rfl
  | @cons block block' rest rest' hblock _ ih =>
    rw [List.map_cons, List.map_cons, List.cons.injEq] at hlabels
    have hhead : block = block' := by
      refine hblock.eq hlabels.1 (fun ref href => hup ref ?_) (fun ref href => hup' ref ?_)
      · exact List.mem_filterMap.mpr ⟨block, List.mem_cons_self, href⟩
      · exact List.mem_filterMap.mpr ⟨block', List.mem_cons_self, href⟩
    have htail : rest = rest' := by
      refine ih hlabels.2 (fun ref href => hup ref ?_) (fun ref href => hup' ref ?_)
      · obtain ⟨b, hb, hbref⟩ := List.mem_filterMap.mp href
        exact List.mem_filterMap.mpr ⟨b, List.mem_cons_of_mem _ hb, hbref⟩
      · obtain ⟨b, hb, hbref⟩ := List.mem_filterMap.mp href
        exact List.mem_filterMap.mpr ⟨b, List.mem_cons_of_mem _ hb, hbref⟩
    rw [hhead, htail]

/-- Histories that ask the same under the same names say the same. -/
theorem messages_eq {history history' : List CanonicalMessage}
    (hsame : List.Forall₂ SameMessage history history')
    (hlabels : labels history = labels history')
    (hup : Uploaded sniffed history) (hup' : Uploaded sniffed history') :
    history.map (·.toMessage) = history'.map (·.toMessage) := by
  induction hsame with
  | nil => rfl
  | @cons message message' rest rest' hmessage _ ih =>
    rw [labels, labels, List.map_cons, List.map_cons, List.cons.injEq] at hlabels
    have hcontent := content_eq hmessage.content hlabels.1
      (hup message List.mem_cons_self) (hup' message' List.mem_cons_self)
    have hhead : message.toMessage = message'.toMessage :=
      Message.ext hmessage.role hcontent hmessage.seq
    have htail := ih hlabels.2 (fun m hm => hup m (List.mem_cons_of_mem _ hm))
      (fun m hm => hup' m (List.mem_cons_of_mem _ hm))
    rw [List.map_cons, List.map_cons, hhead, htail]

/-- **Requests under one key are answered alike.** They ask for the same slot with the same
knobs over the same history, the labels of files aside; and where those agree as well,
rendering them for one candidate with the same readings sends the same payload. -/
theorem rendered_alike {format : FloatFormat F} {sha256 : String → String}
    (hsha256 : Function.Injective sha256) {question question' : Question F}
    (hkey : requestHash format sha256 question = requestHash format sha256 question') :
    SameQuestion question question' ∧
      ∀ sniffed : String → String × Nat, Uploaded sniffed question.history →
        Uploaded sniffed question'.history →
        labels question.history = labels question'.history →
        validate question.history = .ok () → validate question'.history = .ok () →
        ∀ (spec : RenderSpec) (adapter : ProviderAdapter F)
          (reading : String → Bool → Option Perception.Reading) (stream : Bool)
          (strategy : Fitting.FitStrategy),
          render question.history spec (question.params stream) adapter
              (Perception.resolve reading) strategy
            = render question'.history spec (question'.params stream) adapter
              (Perception.resolve reading) strategy := by
  have hsame := sameQuestion_of_requestHash_eq hsha256 hkey
  refine ⟨hsame, ?_⟩
  intro sniffed hup hup' hlabels hvalid hvalid' spec adapter reading stream strategy
  have hsay := messages_eq hsame.history hlabels hup hup'
  rw [hsame.params]
  exact render_congr hvalid hvalid' hsay spec _ adapter _ strategy

/-! ## Two copies of one document -/

/-- Floats that are whole print as they do elsewhere; any other has a text of its own. -/
def decimal : FloatFormat ℚ where
  write q := writeInt q.num ++ '.' :: Nat.toDigits 10 (q.den - 1)
  injective := by
    intro q r h
    have hdot : '.' ∉ writeInt q.num := fun hmem => (not_marked_writeInt hmem).1 rfl
    have hdot' : '.' ∉ Nat.toDigits 10 (q.den - 1) := fun hmem =>
      absurd (isDigit_toDigits hmem) (by decide)
    obtain ⟨hnum, -, hden⟩ := (List.append_cons_inj_of_notMem hdot hdot').mp h
    have hpos := q.den_pos
    have hpos' := r.den_pos
    have hpred := toDigits_inj hden
    exact Rat.ext (writeInt_inj hnum) (by omega)
  numeral := by
    intro q c hc
    rcases List.mem_append.mp hc with hnum | hden
    · exact isNumeral_writeInt hnum
    · rcases List.mem_cons.mp hden with rfl | hdigit
      · rfl
      · simp [isNumeral, isDigit_toDigits hdigit]
  marked q := ⟨'.', by simp, .inl rfl⟩

/-- A thread about a document its owner calls `name`, answered by `provider` once. -/
def filed (name provider : String) : Question ℚ where
  requestedSlot := "auto"
  temperature := 0
  history := [
    { role := .user, seq := 0,
      content := [.text "What is the total?",
        .fileRef ⟨"99b91d5a1c3dd6253db7e1d86a941f8f313e627867996dbd2757dbfdab296d11",
          name, "application/pdf", 9⟩] },
    { role := .assistant, seq := 1, content := [.text "Twelve."],
      «meta» := { providerUsed := some provider } },
    { role := .user, seq := 2, content := [.text "And the mean?"] }]

/-- What is hashed of it. -/
def filedText : String :=
  "\x7b\"history\":[\x7b\"content\":[\x7b\"text\":\"What is the total?\",\"type\":\"text" ++
  "\"\x7d,\x7b\"file_hash\":\"99b91d5a1c3dd6253db7e1d86a941f8f313e627867996dbd2757dbfdab2" ++
  "96d11\",\"type\":\"file_ref\"\x7d],\"role\":\"user\",\"seq\":0\x7d,\x7b\"content\":[" ++
  "\x7b\"text\":\"Twelve.\",\"type\":\"text\"\x7d],\"role\":\"assistant\",\"seq\":1\x7d," ++
  "\x7b\"content\":[\x7b\"text\":\"And the mean?\",\"type\":\"text\"\x7d],\"role\":\"user" ++
  "\",\"seq\":2\x7d],\"max_tokens\":null,\"slot\":\"auto\",\"stop\":[],\"temperature\":0." ++
  "0,\"top_p\":null,\"v\":2\x7d"

example : dumps decimal (sortKeys (Question.payload { (filed "" "") with history := [] })) =
    "\x7b\"history\":[],\"max_tokens\":null,\"slot\":\"auto\",\"stop\":[],\"temperature\":0.0," ++
      "\"top_p\":null,\"v\":2\x7d" := by
  decide

/-- The digest of that text, and a mark of its own for any other. -/
def digest (text : String) : String :=
  if text = filedText then
    "27e56bb0fe23317b442964e710e35fad6209927251c1a0549b33eb06a9d13ea1"
  else "sha256:" ++ text

theorem digest_injective : Function.Injective digest := by
  have hapart : ∀ text : String, "sha256:" ++ text
      ≠ "27e56bb0fe23317b442964e710e35fad6209927251c1a0549b33eb06a9d13ea1" := by
    intro text h
    have hhead := congrArg (fun s => s.toList.head?) h
    simp at hhead
  intro text text' h
  unfold digest at h
  split at h
  · next htext =>
    split at h
    · next htext' => rw [htext, htext']
    · exact absurd h.symm (hapart _)
  · split at h
    · exact absurd h (hapart _)
    · simpa using h

/-- A candidate that reads text and nothing else. -/
def textOnly : RenderSpec where
  slot := "general"
  provider := "groq"
  model := "llama-3.3-70b-versatile"
  contextWindow := 131072
  maxOutputTokens := 32768

/-- Every file reads the same. -/
def totals (fileHash : String) (_ : Bool) : Option Perception.Reading :=
  some (.extracted ⟨fileHash, "Total: 12", .high, "llm", "gemini", "gemini-2.5-flash"⟩ .cache)

theorem uploaded_filed (name provider : String) :
    Uploaded (fun _ => ("application/pdf", 9)) (filed name provider).history := by
  intro message hmessage ref href
  simp only [filed, List.mem_cons, List.not_mem_nil, or_false] at hmessage
  rcases hmessage with rfl | rfl | rfl <;>
    simp [Message.fileRefs, ContentBlock.ref?] at href
  rw [href]

theorem validate_filed (name provider : String) :
    validate (filed name provider).history = .ok () := rfl

/-- Two threads under one key and one name, answered by two providers before. -/
theorem rendered_alike_filed :
    render (filed "report.pdf" "groq").history textOnly ((filed "report.pdf" "groq").params false)
        groq (Perception.resolve totals) .truncate
      = render (filed "report.pdf" "gemini").history textOnly
        ((filed "report.pdf" "gemini").params false) groq (Perception.resolve totals) .truncate :=
  have hkey : requestHash decimal digest (filed "report.pdf" "groq")
      = requestHash decimal digest (filed "report.pdf" "gemini") := rfl
  (rendered_alike digest_injective hkey).2 _ (uploaded_filed _ _) (uploaded_filed _ _) rfl
    (validate_filed _ _) (validate_filed _ _) textOnly groq totals false .truncate

/-- The prompt of a chat payload, message by message. -/
def promptOf (rendered : Except RenderFailure (Value ℚ × PipelineReport)) :
    Option (List (Option String)) :=
  match rendered with
  | .ok (payload, _) =>
    match payload.get? "messages" with
    | some (.arr messages) => some (messages.map fun message =>
        match message.get? "content" with
        | some (.str text) => some text
        | _ => none)
    | _ => none
  | .error _ => none

/-- Two people who named one document differently share a key, whatever the digest is, and
each model is told the name it was given. -/
theorem not_rendered_alike :
    (∀ (format : FloatFormat ℚ) (sha256 : String → String),
      requestHash format sha256 (filed "report.pdf" "groq")
        = requestHash format sha256 (filed "salaries.pdf" "groq")) ∧
      promptOf (render (filed "report.pdf" "groq").history textOnly
          ((filed "report.pdf" "groq").params false) groq (Perception.resolve totals))
        ≠ promptOf (render (filed "salaries.pdf" "groq").history textOnly
          ((filed "salaries.pdf" "groq").params false) groq (Perception.resolve totals)) := by
  refine ⟨fun format sha256 => rfl, ?_⟩
  -- only the name attribute of the envelope differs
  decide +kernel

end Exact

end LlmGateway
