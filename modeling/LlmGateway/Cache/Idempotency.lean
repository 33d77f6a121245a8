import LlmGateway.Codec.Json
import LlmGateway.Effects.Keyspace
import LlmGateway.Routing.Interface

/-!
# The idempotency store

What is kept at `idem:{user_id}:{idem_key}`, how it is read back, and the three
things a request does with it: claim, complete, release.
-/

namespace LlmGateway

namespace Idempotency

open Effects Json

variable {F : Type}

/-! ## The envelope -/

inductive EnvelopeState where
  | inFlight
  | done
  deriving DecidableEq, Repr

def EnvelopeState.name : EnvelopeState → String
  | .inFlight => "in_flight"
  | .done => "done"

/-- `IdempotencyEnvelope`. -/
structure Envelope (F : Type) where
  state : EnvelopeState
  fingerprint : String
  requestId : String
  stream : Bool
  response : Option (List (String × Value F)) := none
  cacheStatus : Option String := none
  deriving Repr

/-- A stored text: the JSON of a value, or no JSON at all. -/
inductive Text (F : Type) where
  | json (v : Value F)
  | other (text : String)
  deriving Repr

/-- What `from_json` raises its `ValueError` over. -/
inductive Misread where
  | notJson
  | notAnObject
  | unknownState
  | notAString (field : String)
  | notABoolean (field : String)
  | notAnObjectOrNull (field : String)
  | notAStringOrNull (field : String)
  deriving DecidableEq, Repr

namespace Envelope

/-- `to_json`: written in full, defaults included. -/
def toJson (envelope : Envelope F) : Value F :=
  .obj [("state", .str envelope.state.name), ("fingerprint", .str envelope.fingerprint),
    ("request_id", .str envelope.requestId), ("stream", .bool envelope.stream),
    ("response", match envelope.response with
      | some members => .obj members
      | none => .null),
    ("cache_status", match envelope.cacheStatus with
      | some status => .str status
      | none => .null)]

def readState : Option (Value F) → Except Misread EnvelopeState
  | some (.str "in_flight") => .ok .inFlight
  | some (.str "done") => .ok .done
  | _ => .error .unknownState

def readString (data : Value F) (field : String) : Except Misread String :=
  match data.get? field with
  | some (.str text) => .ok text
  | _ => .error (.notAString field)

/-- An absent flag is `false`. -/
def readFlag (data : Value F) (field : String) : Except Misread Bool :=
  match data.get? field with
  | none => .ok false
  | some (.bool b) => .ok b
  | some _ => .error (.notABoolean field)

def readObject (data : Value F) (field : String) :
    Except Misread (Option (List (String × Value F))) :=
  match data.get? field with
  | none | some .null => .ok none
  | some (.obj members) => .ok (some members)
  | some _ => .error (.notAnObjectOrNull field)

def readStatus (data : Value F) (field : String) : Except Misread (Option String) :=
  match data.get? field with
  | none | some .null => .ok none
  | some (.str text) => .ok (some text)
  | some _ => .error (.notAStringOrNull field)

/-- The fields of a parsed object. -/
def ofObject (data : Value F) : Except Misread (Envelope F) := do
  let state ← readState (data.get? "state")
  let fingerprint ← readString data "fingerprint"
  let requestId ← readString data "request_id"
  let stream ← readFlag data "stream"
  let response ← readObject data "response"
  let cacheStatus ← readStatus data "cache_status"
  return { state, fingerprint, requestId, stream, response, cacheStatus }

/-- `from_json`. -/
def fromJson : Text F → Except Misread (Envelope F)
  | .json (.obj members) => ofObject (.obj members)
  | .json _ => .error .notAnObject
  | .other _ => .error .notJson

/-- **What is written can be read.** -/
theorem fromJson_toJson (envelope : Envelope F) : fromJson (.json envelope.toJson) = .ok envelope := by
  obtain ⟨state, fingerprint, requestId, stream, response, cacheStatus⟩ := envelope
  cases state <;> cases response <;> cases cacheStatus <;>
    simp [toJson, fromJson, ofObject, readState, readString, readFlag, readObject, readStatus,
      Value.get?, EnvelopeState.name] <;> rfl

end Envelope

/-! ## The commands -/

/-- The commands of the store, and the request between its claim and its end: the
answer it came to with the `X-Cache` it returned, if it came to one. -/
inductive Ask (F : Type) where
  | set (key : String) (value : Text F) (nx : Bool) (ex : ℕ)
  | get (key : String)
  | delete (key : String)
  | serve

def Ans : Ask F → Type
  | .set _ _ _ _ => Except Exn Bool
  | .get _ => Except Exn (Option (Text F))
  | .delete _ => Except Exn ℕ
  | .serve => Option (List (String × Value F) × Option String)

abbrev iface (F : Type) : Iface := ⟨Ask F, Ans⟩

abbrev Eff (F α : Type) : Type := Prog (iface F) Exn α

def set (key : String) (value : Text F) (nx : Bool) (ex : ℕ) : Eff F Bool :=
  .ask (.set key value nx ex) .ofExcept

def get (key : String) : Eff F (Option (Text F)) := .ask (.get key) .ofExcept

def delete (key : String) : Eff F ℕ := .ask (.delete key) .ofExcept

/-- What `except Exception` catches. -/
def caught : Exn → Bool
  | .cancelled | .generatorExit => false
  | .provider _ | .other _ => true

/-! ## The store -/

/-- `keys.idempotency`. -/
def redisKey (userId idemKey : String) : String := "idem:" ++ userId ++ ":" ++ idemKey

/-- `IDEMPOTENCY_TTL_S`. -/
def ttlS : ℕ := 86400

/-- `ClaimTicket`. -/
structure ClaimTicket where
  key : String
  userId : String
  fingerprint : String
  requestId : String
  stream : Bool
  deriving DecidableEq, Repr

inductive ClaimResult (F : Type) where
  | claimed
  | replay (envelope : Envelope F)
  | inFlight (envelope : Envelope F)
  | fingerprintMismatch (envelope : Envelope F)
  deriving Repr

namespace ClaimTicket

def redisKey (ticket : ClaimTicket) : String := Idempotency.redisKey ticket.userId ticket.key

/-- The envelope a claim writes. -/
def pending (ticket : ClaimTicket) : Envelope F where
  state := .inFlight
  fingerprint := ticket.fingerprint
  requestId := ticket.requestId
  stream := ticket.stream

/-- The two commands of a claim: nothing if it took the key, and otherwise what it read. -/
def contend (ticket : ClaimTicket) : Eff F (Option (Option (Text F))) := do
  let claimed ← set ticket.redisKey (.json ticket.pending.toJson) true ttlS
  if claimed then return none
  let raw ← get ticket.redisKey
  return some raw

/-- What a claim that was refused the key makes of what it reads there. -/
def classify (ticket : ClaimTicket) : Option (Text F) → ClaimResult F
  -- The holder released, or the key expired, between the two commands.
  | none => .claimed
  | some raw => match Envelope.fromJson raw with
    | .error _ => .claimed
    | .ok stored =>
      if stored.fingerprint ≠ ticket.fingerprint then .fingerprintMismatch stored
      else match stored.state with
        | .done => .replay stored
        | .inFlight => .inFlight stored

/-- What a claim makes of how its commands came out: it fails open. -/
def verdict (ticket : ClaimTicket) : Except Exn (Option (Option (Text F))) → Eff F (ClaimResult F)
  | .error e => if caught e then return .claimed else .raise e
  | .ok none => return .claimed
  | .ok (some raw) => return ticket.classify raw

/-- `IdempotencyStore.claim`. -/
def claim (ticket : ClaimTicket) : Eff F (ClaimResult F) := do
  let commands ← ticket.contend.attempt
  ticket.verdict commands

/-- A command whose `Exception`s are logged and forgotten. -/
def shrug {α : Type} (p : Eff F α) : Eff F Unit := do
  match ← p.attempt with
  | .ok _ => return
  | .error e => if caught e then return else .raise e

/-- The envelope of an answer. -/
def finished (ticket : ClaimTicket) (response : List (String × Value F))
    (cacheStatus : Option String) : Envelope F where
  state := .done
  fingerprint := ticket.fingerprint
  requestId := ticket.requestId
  stream := ticket.stream
  response := response
  cacheStatus := cacheStatus

/-- `ClaimTicket.complete`. -/
def complete (ticket : ClaimTicket) (response : List (String × Value F))
    (cacheStatus : Option String) : Eff F Unit :=
  shrug (set ticket.redisKey (.json (ticket.finished response cacheStatus).toJson) false ttlS)

/-- `ClaimTicket.release`. -/
def release (ticket : ClaimTicket) : Eff F Unit := shrug (delete ticket.redisKey)

/-- What becomes of a claim: an answer completes it, a failure releases it. -/
def settle (ticket : ClaimTicket) :
    Option (List (String × Value F) × Option String) → Eff F Unit
  | some (response, cacheStatus) => ticket.complete response cacheStatus
  | none => ticket.release

/-- What a request does once it knows the result of its claim. One that was not
granted the key owns nothing. -/
def proceed (ticket : ClaimTicket) : ClaimResult F → Eff F Unit
  | .claimed => .ask .serve ticket.settle
  | .replay _ | .inFlight _ | .fingerprintMismatch _ => return

/-- A request, as far as its key is concerned. -/
def request (ticket : ClaimTicket) : Eff F Unit := do
  let result ← ticket.claim
  ticket.proceed result

end ClaimTicket

end Idempotency

end LlmGateway
