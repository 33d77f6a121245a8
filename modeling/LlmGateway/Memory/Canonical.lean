import LlmGateway.Providers.Types

/-!
# The canonical conversation

The one shape conversational state is stored in, and the invariants a message
and a history may break.
-/

namespace LlmGateway

inductive Role where
  | system
  | user
  | assistant
  deriving DecidableEq, Repr

/-! ## Content blocks -/

/-- A pointer to an uploaded file: never its bytes, never its text. -/
structure FileRef where
  fileHash : String
  filename : String
  mime : String
  bytes : Nat
  deriving DecidableEq, Repr

inductive TruncationReason where
  | contextTruncation
  deriving DecidableEq, Repr

def TruncationReason.name : TruncationReason → String
  | .contextTruncation => "context_truncation"

inductive ContentBlock where
  | text (text : String)
  | fileRef (ref : FileRef)
  | omissionMarker (omittedCount : Nat) (reason : TruncationReason)
  deriving DecidableEq, Repr

/-- `omission_marker`, the scar of a truncation. -/
def omissionMarker (omittedCount : Nat) : ContentBlock :=
  .omissionMarker omittedCount .contextTruncation

/-! ## Messages -/

/-- Provenance of one stored message. -/
structure MessageMeta where
  providerUsed : Option String := none
  modelUsed : Option String := none
  slotUsed : Option String := none
  requestedSlot : Option String := none
  substituted : Bool := false
  attempts : Nat := 1
  tokensIn : Option Int := none
  tokensOut : Option Int := none
  wastedTokensOut : Nat := 0
  degraded : Bool := false
  extractionTier : Option ExtractionTier := none
  messagesDropped : Nat := 0
  keyPool : Option KeyPool := none
  deriving DecidableEq, Repr

/-- What a message says, to whoever is shown it. -/
@[ext] structure Message where
  role : Role
  content : List ContentBlock
  seq : Int
  deriving DecidableEq, Repr

/-- One stored message. -/
structure CanonicalMessage extends Message where
  «meta» : MessageMeta := {}
  deriving DecidableEq, Repr

def ContentBlock.ref? : ContentBlock → Option FileRef
  | .fileRef ref => some ref
  | _ => none

/-- Every file reference of a message, in order. -/
def Message.fileRefs (message : Message) : List FileRef := message.content.filterMap (·.ref?)

/-- `with_content`: the same message, saying something else. -/
def Message.withContent (message : Message) (content : List ContentBlock) : Message :=
  { message with content }

/-- A message of a conversation: as it is stored, or what it says. -/
class Speech (M : Type) where
  role : M → Role
  content : M → List ContentBlock
  /-- `with_content`: the same message, saying something else. -/
  withContent : M → List ContentBlock → M
  role_withContent (message : M) (blocks : List ContentBlock) :
    role (withContent message blocks) = role message
  content_withContent (message : M) (blocks : List ContentBlock) :
    content (withContent message blocks) = blocks

instance : Speech Message where
  role := Message.role
  content := Message.content
  withContent := Message.withContent
  role_withContent _ _ := rfl
  content_withContent _ _ := rfl

instance : Speech CanonicalMessage where
  role message := message.role
  content message := message.content
  withContent message content := { message with content }
  role_withContent _ _ := rfl
  content_withContent _ _ := rfl

/-! ## Violations -/

/-- A rule of the schema was broken. -/
inductive InvariantViolation where
  | emptyContent
  | systemNotFirst (seq : Int)
  | noProvider
  | claimsProvider (provider : String)
  | firstNotZero (seq : Int)
  | gap (seq previous : Int)
  | secondSystem
  | consecutiveAssistants
  | duplicateSeq (seq : Int)
  | misordered (seq previous : Int)
  | startsLate (seq : Int)
  deriving DecidableEq, Repr

/-- Which of the six invariants it is. -/
def InvariantViolation.invariant : InvariantViolation → Nat
  | .systemNotFirst _ | .secondSystem => 1
  | .firstNotZero _ | .gap _ _ | .duplicateSeq _ | .misordered _ _ | .startsLate _ => 2
  | .consecutiveAssistants => 3
  | .emptyContent => 4
  | .noProvider | .claimsProvider _ => 5

/-- `validate_message`: what a message can break on its own. -/
def validateMessage (role : Role) (content : List ContentBlock) («meta» : MessageMeta)
    (seq : Int) : Except InvariantViolation Unit := do
  if content.isEmpty then throw .emptyContent
  if role = .system ∧ seq ≠ 0 then throw (.systemNotFirst seq)
  if role = .assistant ∧ «meta».providerUsed = none then throw .noProvider
  match role, «meta».providerUsed with
  | .user, some provider => throw (.claimsProvider provider)
  | _, _ => pure ()

/-- `validate_append`: what it can break behind the message before it. -/
def validateAppend (previous : Option CanonicalMessage) (role : Role) (seq : Int) :
    Except InvariantViolation Unit :=
  match previous with
  | none => if seq ≠ 0 then throw (.firstNotZero seq) else pure ()
  | some tail => do
    if seq ≠ tail.seq + 1 then throw (.gap seq tail.seq)
    if role = .system then throw .secondSystem
    if role = .assistant ∧ tail.role = .assistant then throw .consecutiveAssistants

/-- What the loop of `validate` checks of one message. -/
def validateNext (seen : List Int) (previous : Option CanonicalMessage)
    (message : CanonicalMessage) : Except InvariantViolation Unit := do
  if message.seq ∈ seen then throw (.duplicateSeq message.seq)
  match previous with
  | some tail => if message.seq ≤ tail.seq then throw (.misordered message.seq tail.seq)
  | none => if message.seq ≠ 0 then throw (.startsLate message.seq)
  validateMessage message.role message.content message.meta message.seq
  validateAppend previous message.role message.seq

/-- The loop of `validate`, behind the messages whose numbers are `seen`. -/
def validateFrom (seen : List Int) (previous : Option CanonicalMessage) :
    List CanonicalMessage → Except InvariantViolation Unit
  | [] => pure ()
  | message :: rest => do
    validateNext seen previous message
    validateFrom (message.seq :: seen) (some message) rest

/-- `validate`: the six invariants over a whole history. -/
def validate (messages : List CanonicalMessage) : Except InvariantViolation Unit :=
  validateFrom [] none messages

end LlmGateway
