import LlmGateway.Codec.Json
import LlmGateway.Effects.Checked
import LlmGateway.Memory.Canonical

/-!
# The columns of a message

`content` and `meta` are JSONB, and JSONB holds anything: a migration, a fix by hand
or another version of the code may have written it. `parse_content` and `from_jsonb`
stand between the columns and the rest of the code. A value is what `json.loads`
makes of a column; an object is asked by key, since the database keeps no order of
members.
-/

namespace LlmGateway

namespace Stored

open Json

variable {F : Type}

/-! ## Violations -/

/-- `InvariantViolation`, as it is raised at the boundary. -/
structure Violation where
  message : String
  invariant : Option Nat := none
  deriving DecidableEq, Repr

/-- Its text. -/
def Violation.str (violation : Violation) : String :=
  match violation.invariant with
  | none => violation.message
  | some invariant => s!"[invariant {invariant}] {violation.message}"

/-- `type(value).__name__`. -/
def typeName : Value F → String
  | .null => "NoneType"
  | .bool _ => "bool"
  | .int _ => "int"
  | .float _ => "float"
  | .str _ => "str"
  | .arr _ => "list"
  | .obj _ => "dict"

/-! ## Blocks -/

/-- `RESERVED_BLOCK_TYPES`. -/
def reservedBlockTypes : List String := ["tool_call", "tool_result", "summary"]

/-- `_KNOWN_BLOCK_TYPES`. -/
def knownBlockTypes : List String := ["text", "file_ref", "omission_marker"]

/-- The types `_BLOCK_FIELDS` asks for. -/
inductive FieldType where
  | str
  | int
  deriving DecidableEq, Repr

def FieldType.name : FieldType → String
  | .str => "str"
  | .int => "int"

/-- `isinstance`, or `_is_int`: a boolean is no integer. -/
def FieldType.admits : FieldType → Value F → Bool
  | .str, .str _ => true
  | .int, .int _ => true
  | _, _ => false

/-- `_BLOCK_FIELDS`. -/
def blockFields : List (String × List (String × FieldType)) :=
  [("text", [("text", .str)]),
    ("file_ref", [("file_hash", .str), ("filename", .str), ("mime", .str), ("bytes", .int)]),
    ("omission_marker", [("omitted_count", .int), ("reason", .str)])]

/-- `_BLOCK_FIELDS[block_type]`. -/
def fieldsOf (blockType : String) : List (String × FieldType) :=
  (blockFields.lookup blockType).getD []

@[simp] theorem fieldsOf_text : fieldsOf "text" = [("text", .str)] := rfl

@[simp] theorem fieldsOf_fileRef :
    fieldsOf "file_ref" =
      [("file_hash", .str), ("filename", .str), ("mime", .str), ("bytes", .int)] := rfl

@[simp] theorem fieldsOf_omissionMarker :
    fieldsOf "omission_marker" = [("omitted_count", .int), ("reason", .str)] := rfl

section

variable (repr : Value F → String)

/-- `sorted` of some names, as it is written. -/
def sortedNames (names : List String) : String :=
  let sorted := names.foldr (fun name => insertMember (name, (.null : Value F))) []
  "[" ++ ", ".intercalate (sorted.map fun member => repr (.str member.1)) ++ "]"

/-- The invariant a block of the type stands for. -/
def keysInvariant (blockType : String) : Option Nat :=
  if blockType = "file_ref" then some 6 else none

/-- The type a block says it has, if there are such blocks. -/
def blockTypeOf (raw : Value F) : Except Violation String := do
  let .obj _ := raw
    | throw { message := s!"a content block must be an object, got {typeName raw}" }
  let some (.str blockType) := raw.get? "type"
    | throw { message := "a content block must carry a string 'type'" }
  if reservedBlockTypes.contains blockType then
    throw { message := "block type " ++ repr (.str blockType) ++
      " is reserved and not implemented in v1 " ++
      "(tool_call/tool_result are D3; summary is the §2.2.7 seam)" }
  if !knownBlockTypes.contains blockType then
    throw { message := "unknown content block type " ++ repr (.str blockType) }
  return blockType

/-- `set(raw)`. -/
def keysOf : Value F → List String
  | .obj members => members.map (·.1)
  | _ => []

/-- The keys of a block, checked in both directions. -/
def checkKeys (blockType : String) (fields : List (String × FieldType)) (raw : Value F) :
    Except Violation Unit := do
  let expected := fields.map (·.1) ++ ["type"]
  let missing := expected.filter fun key => !(keysOf raw).contains key
  if missing ≠ [] then
    throw { message := blockType ++ " block is missing " ++ sortedNames repr missing
            invariant := keysInvariant blockType }
  let extra := (keysOf raw).filter fun key => !expected.contains key
  if extra ≠ [] then
    throw { message := blockType ++ " block carries unexpected keys " ++
              sortedNames repr extra ++
              "; a file_ref stores only the hash, never bytes and never extracted text"
            invariant := keysInvariant blockType }

/-- The values of a block are of the types they should be of. -/
def checkFields (blockType : String) (raw : Value F) :
    List (String × FieldType) → Except Violation Unit
  | [] => return ()
  | (name, expectedType) :: fields => do
    if !((raw.get? name).any expectedType.admits) then
      throw { message := blockType ++ "." ++ name ++ " must be " ++ expectedType.name }
    checkFields blockType raw fields

/-- `get_args(TruncationReason)`. -/
def truncationReasons : List String := ["context_truncation"]

/-- What is asked of the values beyond their types. -/
def checkValues (blockType : String) (raw : Value F) : Except Violation Unit :=
  if blockType = "omission_marker" then
    match raw.get? "reason", raw.get? "omitted_count" with
    | some (.str reason), some (.int omittedCount) => do
      if !truncationReasons.contains reason then
        throw { message := "omission_marker.reason is unknown: " ++ repr (.str reason) }
      if omittedCount < 1 then
        throw { message := "omission_marker.omitted_count must be at least 1" }
    | _, _ => return ()
  else if blockType = "file_ref" then
    match raw.get? "bytes" with
    | some (.int bytes) =>
      if bytes < 0 then throw { message := "file_ref.bytes must not be negative" } else return ()
    | _ => return ()
  else return ()

/-- `parse_block`: the same object, once it has passed. -/
def parseBlock (raw : Value F) : Except Violation (Value F) := do
  let blockType ← blockTypeOf repr raw
  checkKeys repr blockType (fieldsOf blockType) raw
  checkFields blockType raw (fieldsOf blockType)
  checkValues repr blockType raw
  return raw

/-- `parse_content`. -/
def parseContent (raw : Value F) : Except Violation (List (Value F)) := do
  let .arr blocks := raw
    | throw { message := s!"content must be an array, got {typeName raw}", invariant := some 4 }
  if blocks.isEmpty then
    throw { message := "content is empty; an empty generation is an error, not a stored message"
            invariant := some 4 }
  blocks.mapM (parseBlock repr)

end

/-! ## Metadata -/

/-- `MessageMeta`, as it is read back: a count may be any integer. -/
structure StoredMeta where
  providerUsed : Option String := none
  modelUsed : Option String := none
  slotUsed : Option String := none
  requestedSlot : Option String := none
  substituted : Bool := false
  attempts : Int := 1
  tokensIn : Option Int := none
  tokensOut : Option Int := none
  wastedTokensOut : Int := 0
  degraded : Bool := false
  extractionTier : Option ExtractionTier := none
  messagesDropped : Int := 0
  keyPool : Option KeyPool := none
  deriving DecidableEq, Repr

def tierName : ExtractionTier → String
  | .cache => "cache"
  | .native => "native"
  | .llm => "llm"
  | .local => "local"

def poolName : KeyPool → String
  | .shared => "shared"
  | .private => "private"

/-- A value, or null. -/
def orNull {α : Type} (value : α → Value F) : Option α → Value F
  | none => .null
  | some a => value a

/-- The members of `to_jsonb`: every field, defaults included. -/
def StoredMeta.members (m : StoredMeta) : List (String × Value F) :=
  [("provider_used", orNull .str m.providerUsed), ("model_used", orNull .str m.modelUsed),
    ("slot_used", orNull .str m.slotUsed), ("requested_slot", orNull .str m.requestedSlot),
    ("substituted", .bool m.substituted), ("attempts", .int m.attempts),
    ("tokens_in", orNull .int m.tokensIn), ("tokens_out", orNull .int m.tokensOut),
    ("wasted_tokens_out", .int m.wastedTokensOut), ("degraded", .bool m.degraded),
    ("extraction_tier", orNull (fun tier => .str (tierName tier)) m.extractionTier),
    ("messages_dropped", .int m.messagesDropped),
    ("key_pool", orNull (fun pool => .str (poolName pool)) m.keyPool)]

/-- `to_jsonb`. -/
def StoredMeta.toJsonb (m : StoredMeta) : Value F := .obj m.members

def strOf : Value F → Option String
  | .str value => some value
  | _ => none

def intOf : Value F → Option Int
  | .int value => some value
  | _ => none

def boolOf : Value F → Option Bool
  | .bool value => some value
  | _ => none

/-- One of some names. -/
def namedOf {α : Type} (names : List (String × α)) (value : Value F) : Option α :=
  (strOf value).bind fun name => names.lookup name

section

variable {α : Type} (pick : Value F → Option α) (raw : Value F) (key : String)

/-- A field that may be null, and is null where it is not there. -/
def optional (wrong : Value F → String) : Except Violation (Option α) :=
  match raw.get? key with
  | none | some .null => return none
  | some value =>
    match pick value with
    | some a => return some a
    | none => throw { message := "meta." ++ key ++ wrong value }

/-- A field that has a default. -/
def defaulted (default : α) (wrong : String) : Except Violation α :=
  match raw.get? key with
  | none => return default
  | some value =>
    match pick value with
    | some a => return a
    | none => throw { message := "meta." ++ key ++ wrong }

end

section

variable (raw : Value F) (key : String)

/-- `_opt_str`. -/
def optStr : Except Violation (Option String) :=
  optional strOf raw key fun _ => " must be a string or null"

/-- `_opt_int`. -/
def optInt : Except Violation (Option Int) :=
  optional intOf raw key fun _ => " must be an integer or null"

/-- `_int`. -/
def int (default : Int) : Except Violation Int :=
  defaulted intOf raw key default " must be an integer"

/-- `_bool`. -/
def bool (default : Bool) : Except Violation Bool :=
  defaulted boolOf raw key default " must be a boolean"

end

/-- `get_args(ExtractionTier)`. -/
def tiers : List (String × ExtractionTier) :=
  [("cache", .cache), ("native", .native), ("llm", .llm), ("local", .local)]

def pools : List (String × KeyPool) := [("shared", .shared), ("private", .private)]

/-- `from_jsonb`, of an object. -/
def readMeta (repr : Value F → String) (raw : Value F) : Except Violation StoredMeta := do
  let extractionTier ← optional (namedOf tiers) raw "extraction_tier" fun tier =>
    " is not a known tier: " ++ repr tier
  let keyPool ← optional (namedOf pools) raw "key_pool" fun pool =>
    " is not a known pool: " ++ repr pool
  let providerUsed ← optStr raw "provider_used"
  let modelUsed ← optStr raw "model_used"
  let slotUsed ← optStr raw "slot_used"
  let requestedSlot ← optStr raw "requested_slot"
  let substituted ← bool raw "substituted" false
  let attempts ← int raw "attempts" 1
  let tokensIn ← optInt raw "tokens_in"
  let tokensOut ← optInt raw "tokens_out"
  let wastedTokensOut ← int raw "wasted_tokens_out" 0
  let degraded ← bool raw "degraded" false
  let messagesDropped ← int raw "messages_dropped" 0
  return { providerUsed, modelUsed, slotUsed, requestedSlot, substituted, attempts, tokensIn
           tokensOut, wastedTokensOut, degraded, extractionTier, messagesDropped, keyPool }

/-- `from_jsonb`, `parse_meta`. -/
def fromJsonb (repr : Value F → String) : Value F → Except Violation StoredMeta
  | .null => return {}
  | .obj members => readMeta repr (.obj members)
  | raw => throw { message := s!"meta must be a JSON object, got {typeName raw}" }

/-! ## Asking by key -/

/-- Two values that cannot be told apart by key. -/
def Alike (v w : Value F) : Prop := ∀ key, v.get? key = w.get? key

theorem Alike.symm {v w : Value F} (h : Alike v w) : Alike w v := fun key => (h key).symm

theorem Alike.trans {u v w : Value F} (h : Alike u v) (h' : Alike v w) : Alike u w :=
  fun key => (h key).trans (h' key)

theorem mem_keysOf {raw : Value F} {key : String} :
    key ∈ keysOf raw ↔ (raw.get? key).isSome = true := by
  cases raw with
  | obj members => simp [keysOf, Value.get?, List.find?_isSome]
  | _ => simp [keysOf, Value.get?]

@[simp] theorem get?_nil {key : String} : (Value.obj [] : Value F).get? key = none := rfl

@[simp] theorem get?_cons {key : String} {member : String × Value F}
    {members : List (String × Value F)} :
    (Value.obj (member :: members)).get? key =
      if member.1 = key then some member.2 else (Value.obj members).get? key := by
  by_cases h : member.1 = key
  · simp [Value.get?, h]
  · simp [Value.get?, h]

/-- An object with these members. -/
theorem get?_obj {members : List (String × Value F)} (hkeys : (members.map (·.1)).Nodup)
    {member : String × Value F} (h : member ∈ members) :
    (Value.obj members).get? member.1 = some member.2 := by
  induction members with
  | nil => cases h
  | cons head members ih =>
    obtain ⟨hnew, hrest⟩ := List.nodup_cons.mp hkeys
    rcases List.mem_cons.mp h with rfl | hmem
    · simp [Value.get?]
    · have hne : head.1 ≠ member.1 := by
        intro heq
        exact hnew (List.mem_map.mpr ⟨member, hmem, heq.symm⟩)
      have := ih hrest hmem
      simpa [Value.get?, hne] using this

/-- An object is what it has under its keys. -/
theorem alike_obj {raw : Value F} {members : List (String × Value F)}
    (hnodup : (members.map (·.1)).Nodup)
    (hkeys : ∀ key, key ∈ keysOf raw ↔ key ∈ members.map (·.1))
    (hvalues : ∀ member ∈ members, raw.get? member.1 = some member.2) :
    Alike raw (.obj members) := by
  intro key
  -- A key of the members has one value, and any other key has none on either side.
  by_cases hkey : key ∈ members.map (·.1)
  · obtain ⟨member, hmem, rfl⟩ := List.mem_map.mp hkey
    rw [hvalues member hmem, get?_obj hnodup hmem]
  · have hraw : raw.get? key = none := by
      rw [← Option.not_isSome_iff_eq_none, ← mem_keysOf, hkeys]
      exact hkey
    have hobj : (Value.obj members).get? key = none := by
      rw [← Option.not_isSome_iff_eq_none, ← mem_keysOf]
      exact hkey
    rw [hraw, hobj]

/-! ## What `parse_block` passes -/

section

variable {repr : Value F → String} {raw : Value F} {blockType : String}
  {fields : List (String × FieldType)}

theorem blockTypeOf_eq_ok :
    blockTypeOf repr raw = .ok blockType ↔
      raw.get? "type" = some (.str blockType) ∧ blockType ∈ knownBlockTypes := by
  have hreserved : ∀ t ∈ knownBlockTypes, t ∉ reservedBlockTypes := by decide
  cases raw with
  | obj members =>
    unfold blockTypeOf
    dsimp only
    split
    · rename_i found hfound
      rw [hfound]
      refine (check_eq_ok_iff rfl).trans ((and_congr_right' (check_eq_ok_iff rfl)).trans ?_)
      simp only [List.contains_iff_mem, Bool.not_eq_true', Bool.not_eq_false, Option.some.injEq,
        Value.str.injEq]
      constructor
      · rintro ⟨-, hknown, hfound⟩
        cases hfound
        exact ⟨rfl, by simpa using hknown⟩
      · rintro ⟨rfl, hknown⟩
        exact ⟨hreserved _ hknown, by simpa using hknown, rfl⟩
    · rename_i hnone
      refine iff_of_false (fun h => ?_) fun h => hnone _ h.1
      cases h
  | _ => simp [blockTypeOf, Value.get?, throw, throwThe, MonadExceptOf.throw]

theorem checkKeys_eq_ok :
    checkKeys repr blockType fields raw = .ok () ↔
      ∀ key, key ∈ keysOf raw ↔ key ∈ fields.map (·.1) ++ ["type"] := by
  unfold checkKeys
  dsimp only
  refine (check_eq_ok_iff rfl).trans ((and_congr_right' last_check_eq_ok_iff).trans ?_)
  rw [not_not, not_not, List.filter_eq_nil_iff, List.filter_eq_nil_iff]
  simp only [Bool.not_eq_true', Bool.not_eq_false, List.contains_iff_mem]
  constructor
  · rintro ⟨hmissing, hextra⟩ key
    exact ⟨hextra key, hmissing key⟩
  · intro h
    exact ⟨fun key => (h key).mpr, fun key => (h key).mp⟩

theorem checkFields_eq_ok :
    checkFields blockType raw fields = .ok () ↔
      ∀ field ∈ fields, ∃ v, raw.get? field.1 = some v ∧ field.2.admits v = true := by
  induction fields with
  | nil => simp [checkFields, pure, Except.pure]
  | cons field fields ih =>
    obtain ⟨name, expectedType⟩ := field
    rw [List.forall_mem_cons, ← ih]
    refine (check_eq_ok_iff rfl).trans (and_congr_left' ?_)
    rw [Bool.not_eq_true', Bool.not_eq_false]
    exact Option.any_eq_true _ _

/-- What is asked of the values, where they are of their types. -/
theorem checkValues_eq_ok :
    checkValues repr blockType raw = .ok () ↔
      (blockType = "omission_marker" → ∀ reason omittedCount,
        raw.get? "reason" = some (.str reason) →
        raw.get? "omitted_count" = some (.int omittedCount) →
          reason ∈ truncationReasons ∧ 1 ≤ omittedCount) ∧
      (blockType = "file_ref" → ∀ bytes, raw.get? "bytes" = some (.int bytes) → 0 ≤ bytes) := by
  unfold checkValues
  split
  · rename_i hmarker
    have hne : blockType ≠ "file_ref" := by
      rw [hmarker]
      decide
    simp only [hmarker, forall_const]
    split
    · rename_i reason omittedCount hreason hcount
      refine (check_eq_ok_iff rfl).trans ((and_congr_right' last_check_eq_ok_iff).trans ?_)
      rw [hreason, hcount]
      simp
    · rename_i hnone
      refine iff_of_true rfl ⟨fun reason omittedCount hreason hcount => ?_, by simp⟩
      exact absurd hcount (hnone reason omittedCount hreason)
  · rename_i hmarker
    simp only [hmarker, false_implies, true_and]
    split
    · rename_i href
      simp only [href, forall_const]
      split
      · rename_i bytes hbytes
        rw [last_check_eq_ok_iff, hbytes]
        simp
      · rename_i hnone
        exact iff_of_true rfl fun bytes hbytes => absurd hbytes (hnone bytes)
    · rename_i href
      exact iff_of_true rfl fun h => absurd h href

end

/-! ## Blocks as they are stored -/

/-- A block as an object. -/
def rawOf : ContentBlock → Value F
  | .text text => .obj [("type", .str "text"), ("text", .str text)]
  | .fileRef ref =>
    .obj [("type", .str "file_ref"), ("file_hash", .str ref.fileHash),
      ("filename", .str ref.filename), ("mime", .str ref.mime), ("bytes", .int ref.bytes)]
  | .omissionMarker omittedCount reason =>
    .obj [("type", .str "omission_marker"), ("omitted_count", .int omittedCount),
      ("reason", .str reason.name)]

/-- A marker stands for something. -/
def Sound : ContentBlock → Prop
  | .omissionMarker omittedCount _ => 1 ≤ omittedCount
  | _ => True

/-- What a block passes by. -/
structure Passes (raw : Value F) (blockType : String) : Prop where
  type : raw.get? "type" = some (.str blockType)
  known : blockType ∈ knownBlockTypes
  keys : ∀ key, (raw.get? key).isSome = true ↔
    key ∈ (fieldsOf blockType).map (·.1) ++ ["type"]
  fields : ∀ field ∈ fieldsOf blockType,
    ∃ v, raw.get? field.1 = some v ∧ field.2.admits v = true
  marker : blockType = "omission_marker" → ∀ reason omittedCount,
    raw.get? "reason" = some (.str reason) →
    raw.get? "omitted_count" = some (.int omittedCount) →
      reason ∈ truncationReasons ∧ 1 ≤ omittedCount
  size : blockType = "file_ref" → ∀ bytes, raw.get? "bytes" = some (.int bytes) → 0 ≤ bytes

section

variable {repr : Value F → String} {raw raw' parsed : Value F} {blockType : String}

theorem parseBlock_eq_ok_passes :
    parseBlock repr raw = .ok parsed ↔ parsed = raw ∧ ∃ blockType, Passes raw blockType := by
  unfold parseBlock
  rw [bind_eq_ok_iff]
  constructor
  · rintro ⟨blockType, htype, hrest⟩
    obtain ⟨⟨⟩, hkeys, hrest⟩ := bind_eq_ok_iff.mp hrest
    obtain ⟨⟨⟩, hfields, hrest⟩ := bind_eq_ok_iff.mp hrest
    obtain ⟨⟨⟩, hvalues, hrest⟩ := bind_eq_ok_iff.mp hrest
    obtain ⟨htype, hknown⟩ := blockTypeOf_eq_ok.mp htype
    obtain ⟨hmarker, hsize⟩ := checkValues_eq_ok.mp hvalues
    cases hrest
    exact ⟨rfl, blockType, htype, hknown, fun key => mem_keysOf.symm.trans
      (checkKeys_eq_ok.mp hkeys key), checkFields_eq_ok.mp hfields, hmarker, hsize⟩
  · rintro ⟨rfl, blockType, h⟩
    refine ⟨blockType, blockTypeOf_eq_ok.mpr ⟨h.type, h.known⟩, ?_⟩
    refine bind_eq_ok_iff.mpr ⟨(), checkKeys_eq_ok.mpr fun key => ?_, ?_⟩
    · exact mem_keysOf.trans (h.keys key)
    refine bind_eq_ok_iff.mpr ⟨(), checkFields_eq_ok.mpr h.fields, ?_⟩
    exact bind_eq_ok_iff.mpr ⟨(), checkValues_eq_ok.mpr ⟨h.marker, h.size⟩, rfl⟩

/-- It is asked by key only. -/
theorem Passes.alike (h : Passes raw blockType) (halike : Alike raw raw') :
    Passes raw' blockType where
  type := (halike _).symm.trans h.type
  known := h.known
  keys key := by
    rw [← halike key]
    exact h.keys key
  fields field hfield := by
    rw [← halike field.1]
    exact h.fields field hfield
  marker := by
    rw [← halike "reason", ← halike "omitted_count"]
    exact h.marker
  size := by
    rw [← halike "bytes"]
    exact h.size

theorem passes_rawOf {block : ContentBlock} (h : Sound block) :
    ∃ blockType, Passes (rawOf block : Value F) blockType := by
  cases block with
  | text text =>
    refine ⟨"text", rfl, by decide, fun key => ?_, ?_, fun hne => ?_, fun hne => ?_⟩
    · rw [← mem_keysOf]
      simp [rawOf, keysOf, or_comm]
    · simp [rawOf, FieldType.admits]
    · exact absurd hne (by decide)
    · exact absurd hne (by decide)
  | fileRef ref =>
    refine ⟨"file_ref", rfl, by decide, fun key => ?_, ?_, fun hne => ?_, fun _ bytes hbytes => ?_⟩
    · rw [← mem_keysOf]
      simp [rawOf, keysOf]
      tauto
    · simp [rawOf, FieldType.admits]
    · exact absurd hne (by decide)
    · simp [rawOf] at hbytes
      omega
  | omissionMarker omittedCount reason =>
    refine ⟨"omission_marker", rfl, by decide, fun key => ?_, ?_, fun _ said count hreason hcount =>
      ?_, fun hne => ?_⟩
    · rw [← mem_keysOf]
      simp [rawOf, keysOf]
      tauto
    · simp [rawOf, FieldType.admits]
    · have hpos : 1 ≤ omittedCount := h
      simp [rawOf] at hreason hcount
      cases reason
      refine ⟨?_, by omega⟩
      rw [← hreason]
      decide
    · exact absurd hne (by decide)

theorem exists_str {key : String} (h : ∃ v, raw.get? key = some v ∧ FieldType.str.admits v = true) :
    ∃ s, raw.get? key = some (.str s) := by
  obtain ⟨v, hv, hstr⟩ := h
  cases v with
  | str s => exact ⟨s, hv⟩
  | _ => cases hstr

theorem exists_int {key : String} (h : ∃ v, raw.get? key = some v ∧ FieldType.int.admits v = true) :
    ∃ n, raw.get? key = some (.int n) := by
  obtain ⟨v, hv, hint⟩ := h
  cases v with
  | int n => exact ⟨n, hv⟩
  | _ => cases hint

/-- **What passes is a block.** -/
theorem Passes.block (h : Passes raw blockType) :
    ∃ block : ContentBlock, Sound block ∧ Alike raw (rawOf block) := by
  have hkeys : ∀ key, key ∈ keysOf raw ↔ key ∈ (fieldsOf blockType).map (·.1) ++ ["type"] :=
    fun key => mem_keysOf.trans (h.keys key)
  have htype := h.type
  have hknown : blockType = "text" ∨ blockType = "file_ref" ∨ blockType = "omission_marker" := by
    simpa [knownBlockTypes] using h.known
  -- The values of the fields are those of a block, and there is no other key.
  rcases hknown with rfl | rfl | rfl
  · obtain ⟨text, htext⟩ := exists_str (h.fields ("text", .str) (by simp))
    refine ⟨.text text, trivial, alike_obj (by simp) (fun key => ?_) ?_⟩
    · rw [hkeys key]
      simp [or_comm]
    · simp [htype, htext]
  · obtain ⟨fileHash, hhash⟩ := exists_str (h.fields ("file_hash", .str) (by simp))
    obtain ⟨filename, hname⟩ := exists_str (h.fields ("filename", .str) (by simp))
    obtain ⟨mime, hmime⟩ := exists_str (h.fields ("mime", .str) (by simp))
    obtain ⟨bytes, hbytes⟩ := exists_int (h.fields ("bytes", .int) (by simp))
    obtain ⟨size, rfl⟩ := Int.eq_ofNat_of_zero_le (h.size rfl bytes hbytes)
    refine ⟨.fileRef { fileHash, filename, mime, bytes := size }, trivial,
      alike_obj (by simp) (fun key => ?_) ?_⟩
    · rw [hkeys key]
      simp
      tauto
    · simp [htype, hhash, hname, hmime, hbytes]
  · obtain ⟨omittedCount, hcount⟩ := exists_int (h.fields ("omitted_count", .int) (by simp))
    obtain ⟨reason, hreason⟩ := exists_str (h.fields ("reason", .str) (by simp))
    obtain ⟨hmem, hpos⟩ := h.marker rfl reason omittedCount hreason hcount
    obtain ⟨count, rfl⟩ := Int.eq_ofNat_of_zero_le (by omega : 0 ≤ omittedCount)
    obtain rfl : reason = TruncationReason.contextTruncation.name := by
      simpa [truncationReasons, TruncationReason.name] using hmem
    have hsound : 1 ≤ count := by omega
    refine ⟨.omissionMarker count .contextTruncation, hsound,
      alike_obj (by simp) (fun key => ?_) ?_⟩
    · rw [hkeys key]
      simp
      tauto
    · simp [htype, hcount, hreason]

/-- **`parse_block` passes what can be stored as a block, and nothing else.** -/
theorem parseBlock_eq_ok :
    parseBlock repr raw = .ok parsed ↔
      parsed = raw ∧ ∃ block : ContentBlock, Sound block ∧ Alike raw (rawOf block) := by
  rw [parseBlock_eq_ok_passes]
  refine and_congr_right' ⟨fun ⟨_, h⟩ => h.block, ?_⟩
  rintro ⟨block, hsound, halike⟩
  obtain ⟨blockType, h⟩ := passes_rawOf (F := F) hsound
  exact ⟨blockType, h.alike halike.symm⟩

/-- **So does `parse_content`**, of a list of blocks that is not empty. -/
theorem parseContent_eq_ok {content : List (Value F)} :
    parseContent repr raw = .ok content ↔
      raw = .arr content ∧ ∃ blocks : List ContentBlock, blocks ≠ [] ∧
        (∀ block ∈ blocks, Sound block) ∧
        List.Forall₂ (fun v block => Alike v (rawOf block)) content blocks := by
  -- A loop that hands back its own entries, each of them some block.
  have hloop : ∀ vs ws : List (Value F), vs.mapM (parseBlock repr) = .ok ws ↔
      ws = vs ∧ ∃ blocks : List ContentBlock, (∀ block ∈ blocks, Sound block) ∧
        List.Forall₂ (fun v block => Alike v (rawOf block)) vs blocks := by
    intro vs ws
    rw [mapM_eq_ok_iff]
    induction vs generalizing ws with
    | nil =>
      rw [List.forall₂_nil_left_iff]
      exact ⟨fun h => ⟨h, [], by simp, .nil⟩, fun h => h.1⟩
    | cons v vs ih =>
      constructor
      · intro h
        cases h with
        | cons hv hrest =>
          obtain ⟨rfl, block, hsound, halike⟩ := parseBlock_eq_ok.mp hv
          obtain ⟨rfl, blocks, hsounds, hall⟩ := (ih _).mp hrest
          exact ⟨rfl, block :: blocks, List.forall_mem_cons.mpr ⟨hsound, hsounds⟩,
            .cons halike hall⟩
      · rintro ⟨rfl, blocks, hsounds, hall⟩
        cases hall with
        | cons halike hall =>
          obtain ⟨hsound, hsounds⟩ := List.forall_mem_cons.mp hsounds
          exact .cons (parseBlock_eq_ok.mpr ⟨rfl, _, hsound, halike⟩)
            ((ih _).mpr ⟨rfl, _, hsounds, hall⟩)
  cases raw with
  | arr vs =>
    refine (check_eq_ok_iff rfl).trans ((and_congr_right' (hloop vs content)).trans ?_)
    simp only [List.isEmpty_iff, Value.arr.injEq]
    constructor
    · rintro ⟨hne, rfl, blocks, hsounds, hall⟩
      refine ⟨rfl, blocks, ?_, hsounds, hall⟩
      rintro rfl
      exact hne (List.forall₂_nil_right_iff.mp hall)
    · rintro ⟨rfl, blocks, hne, hsounds, hall⟩
      refine ⟨?_, rfl, blocks, hsounds, hall⟩
      rintro rfl
      exact hne (List.forall₂_nil_left_iff.mp hall)
  | _ => exact iff_of_false (fun h => by cases h) fun h => by cases h.1

end

/-! ## What `from_jsonb` reads -/

/-- What a key is read as that is not there. -/
def defaultOf (key : String) : Value F :=
  ((({} : StoredMeta).toJsonb : Value F).get? key).getD .null

/-- An object says what is stored of a message, with the defaults for what it does not say. -/
def Says (raw : Value F) (m : StoredMeta) : Prop :=
  ∀ member ∈ (m.members : List (String × Value F)),
    (raw.get? member.1).getD (defaultOf member.1) = member.2

/-- A table of names that tell their values apart. -/
theorem lookup_eq_some_iff {α : Type} {names : List (String × α)} {nameOf : α → String}
    (hnames : ∀ entry ∈ names, entry.1 = nameOf entry.2)
    (hall : ∀ a, names.lookup (nameOf a) = some a) (name : String) (a : α) :
    names.lookup name = some a ↔ name = nameOf a := by
  constructor
  · intro h
    obtain ⟨before, after, hsplit, -⟩ := List.lookup_eq_some_iff.mp h
    have hmem : (name, a) ∈ names := hsplit ▸ List.mem_append_right _ List.mem_cons_self
    exact hnames (name, a) hmem
  · rintro rfl
    exact hall a

theorem lookup_tiers (name : String) (tier : ExtractionTier) :
    tiers.lookup name = some tier ↔ name = tierName tier := by
  refine lookup_eq_some_iff (by decide) (fun a => ?_) name tier
  cases a <;> rfl

theorem lookup_pools (name : String) (pool : KeyPool) :
    pools.lookup name = some pool ↔ name = poolName pool := by
  refine lookup_eq_some_iff (by decide) (fun a => ?_) name pool
  cases a <;> rfl

theorem StoredMeta.nodup_members (m : StoredMeta) :
    ((m.members : List (String × Value F)).map (·.1)).Nodup := by
  have hnames : (m.members : List (String × Value F)).map (·.1) =
      (({} : StoredMeta).members : List (String × Value Unit)).map (·.1) := rfl
  rw [hnames]
  decide

section

variable {repr : Value F → String} {raw : Value F} {key : String}

/-- What is picked out of a value tells the values apart. -/
theorem value_inj {α : Type} {pick : Value F → Option α} {value : α → Value F}
    (hpick : ∀ v a, pick v = some a ↔ v = value a) (a b : α) : value a = value b ↔ a = b := by
  rw [← hpick, (hpick _ a).mpr rfl, Option.some.injEq]

theorem optional_eq_ok {α : Type} {pick : Value F → Option α} {value : α → Value F}
    {wrong : Value F → String} (hpick : ∀ v a, pick v = some a ↔ v = value a)
    (hnull : ∀ a, value a ≠ .null) {found : Option α} :
    optional pick raw key wrong = .ok found ↔ (raw.get? key).getD .null = orNull value found := by
  have hinj := value_inj hpick
  unfold optional
  generalize raw.get? key = got
  split
  · cases found with
    | none => exact iff_of_true rfl rfl
    | some a => exact iff_of_false (fun h => by cases h) fun h => hnull a h.symm
  · cases found with
    | none => exact iff_of_true rfl rfl
    | some a => exact iff_of_false (fun h => by cases h) fun h => hnull a h.symm
  · rename_i v hne
    rw [Option.getD_some]
    split
    · rename_i a ha
      obtain rfl := (hpick v a).mp ha
      cases found with
      | none => exact iff_of_false (fun h => by cases h) (hnull a)
      | some b => simp [orNull, pure, Except.pure, hinj]
    · rename_i hnone
      refine iff_of_false (fun h => by cases h) fun h => ?_
      cases found with
      | none => exact hne h
      | some b =>
        rw [(hpick v b).mpr h] at hnone
        cases hnone

theorem defaulted_eq_ok {α : Type} {pick : Value F → Option α} {value : α → Value F}
    {wrong : String} (hpick : ∀ v a, pick v = some a ↔ v = value a) {default found : α} :
    defaulted pick raw key default wrong = .ok found ↔
      (raw.get? key).getD (value default) = value found := by
  have hinj := value_inj hpick
  unfold defaulted
  generalize raw.get? key = got
  split
  · simp [pure, Except.pure, hinj]
  · rename_i v
    rw [Option.getD_some]
    split
    · rename_i a ha
      obtain rfl := (hpick v a).mp ha
      simp [pure, Except.pure, hinj]
    · rename_i hnone
      refine iff_of_false (fun h => by cases h) fun h => ?_
      rw [(hpick v found).mpr h] at hnone
      cases hnone

theorem strOf_eq_some {v : Value F} {s : String} : strOf v = some s ↔ v = .str s := by
  cases v <;> simp [strOf]

theorem intOf_eq_some {v : Value F} {n : Int} : intOf v = some n ↔ v = .int n := by
  cases v <;> simp [intOf]

theorem boolOf_eq_some {v : Value F} {b : Bool} : boolOf v = some b ↔ v = .bool b := by
  cases v <;> simp [boolOf]

theorem namedOf_eq_some {α : Type} {names : List (String × α)} {nameOf : α → String}
    (hnames : ∀ name a, names.lookup name = some a ↔ name = nameOf a) {v : Value F} {a : α} :
    namedOf names v = some a ↔ v = .str (nameOf a) := by
  unfold namedOf
  rw [Option.bind_eq_some_iff]
  simp only [strOf_eq_some, hnames]
  exact ⟨fun ⟨name, hv, hname⟩ => hname ▸ hv, fun hv => ⟨_, hv, rfl⟩⟩

/-- **`from_jsonb` reads what is said, over the defaults**, and refuses everything that says what
no metadata can. -/
theorem readMeta_eq_ok {m : StoredMeta} : readMeta repr raw = .ok m ↔ Says raw m := by
  have hstr : ∀ a : String, (.str a : Value F) ≠ .null := by simp
  have hint : ∀ a : Int, (.int a : Value F) ≠ .null := by simp
  unfold readMeta optStr optInt Stored.int Stored.bool
  simp only [bind_eq_ok_iff, optional_eq_ok (fun _ _ => strOf_eq_some) hstr,
    optional_eq_ok (fun _ _ => intOf_eq_some) hint, defaulted_eq_ok fun _ _ => intOf_eq_some,
    defaulted_eq_ok fun _ _ => boolOf_eq_some,
    optional_eq_ok (fun _ _ => namedOf_eq_some lookup_tiers) fun _ => hstr _,
    optional_eq_ok (fun _ _ => namedOf_eq_some lookup_pools) fun _ => hstr _]
  constructor
  · rintro ⟨tier, htier, pool, hpool, provider, hprovider, model, hmodel, slot, hslot, requested,
      hrequested, substituted, hsubstituted, attempts, hattempts, tokensIn, hin, tokensOut, hout,
      wasted, hwasted, degraded, hdegraded, dropped, hdropped, hm⟩
    cases hm
    simp only [Says, StoredMeta.members, List.forall_mem_cons, List.not_mem_nil, false_implies,
      implies_true, and_true]
    exact ⟨hprovider, hmodel, hslot, hrequested, hsubstituted, hattempts, hin, hout, hwasted,
      hdegraded, htier, hdropped, hpool⟩
  · intro h
    simp only [Says, StoredMeta.members, List.forall_mem_cons, List.not_mem_nil, false_implies,
      implies_true, and_true] at h
    obtain ⟨hprovider, hmodel, hslot, hrequested, hsubstituted, hattempts, hin, hout, hwasted,
      hdegraded, htier, hdropped, hpool⟩ := h
    exact ⟨_, htier, _, hpool, _, hprovider, _, hmodel, _, hslot, _, hrequested, _, hsubstituted,
      _, hattempts, _, hin, _, hout, _, hwasted, _, hdegraded, _, hdropped, rfl⟩

/-- What is written is what is read. -/
theorem says_toJsonb (m : StoredMeta) : Says (m.toJsonb : Value F) m := by
  intro member hmem
  have hget : (m.toJsonb : Value F).get? member.1 = some member.2 := get?_obj m.nodup_members hmem
  rw [hget]
  rfl

/-- Whoever is asked by key, says the same. -/
theorem Says.alike {raw' : Value F} {m : StoredMeta} (h : Says raw m) (halike : Alike raw raw') :
    Says raw' m := by
  intro member hmem
  rw [← halike member.1]
  exact h member hmem

/-- No object says two things. -/
theorem Says.unique {m m' : StoredMeta} (h : Says raw m) (h' : Says raw m') : m = m' := by
  have hread := (@readMeta_eq_ok F (fun _ => "") raw _).mpr h
  have hread' := (@readMeta_eq_ok F (fun _ => "") raw _).mpr h'
  rw [hread] at hread'
  exact Except.ok.inj hread'

end

end Stored

end LlmGateway
