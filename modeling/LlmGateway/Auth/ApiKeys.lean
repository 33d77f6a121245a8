import LlmGateway.Effects.Pool
import LlmGateway.Effects.Sessions
import LlmGateway.Routing.Interface
import LlmGateway.Text.Words
import Mathlib.Algebra.Order.Ring.Rat

/-!
# The gateway's own keys

A key is shown once and kept as a digest. Any number of requests come through one
door, with a session token or with a key, and those with a session may mint keys
and revoke them. Each request runs its statements one by one, and what it has
written is seen by the others when it commits.
-/

namespace LlmGateway

namespace ApiKeys

open Effects

/-! ## The shape of a key -/

/-- `KEY_PREFIX`. -/
def keyPrefix : String := "gw_live_"

/-- `KEY_SECRET_LENGTH`. -/
def keySecretLength : Nat := 32

/-- `LAST_4_LENGTH`. -/
def last4Length : Nat := 4

/-- `BASE62_ALPHABET`. -/
def base62Alphabet : List Char :=
  "abcdefghijklmnopqrstuvwxyzABCDEFGHIJKLMNOPQRSTUVWXYZ0123456789".toList

/-- `GeneratedKey`. -/
structure GeneratedKey where
  plaintext : String
  keyHash : String
  keyPrefix : String
  last4 : String
  deriving DecidableEq, Repr

/-- `generate_api_key`, of the secret that was drawn. -/
def generateApiKey (sha256 : String → String) (secret : String) : GeneratedKey :=
  let plaintext := keyPrefix ++ secret
  { plaintext, keyHash := sha256 plaintext, keyPrefix
    last4 := String.ofList (plaintext.toList.drop (plaintext.length - last4Length)) }

/-- `parse_api_key`. -/
def parseApiKey (raw : Option String) : Option String := do
  let candidate := Text.strip (← raw).toList
  if candidate.length ≠ keyPrefix.length + keySecretLength then none
  else if ¬ keyPrefix.toList.isPrefixOf candidate then none
  else if ¬ (candidate.drop keyPrefix.length).all Char.isAlphanum then none
  else some (String.ofList candidate)

/-- A secret that may be drawn. -/
def Drawn (secret : String) : Prop :=
  secret.length = keySecretLength ∧ ∀ c ∈ secret.toList, c ∈ base62Alphabet

theorem of_mem_base62Alphabet {c : Char} (h : c ∈ base62Alphabet) :
    c.isAlphanum = true ∧ Text.isSpace c = false := by
  have hall : base62Alphabet.all (fun c => c.isAlphanum && !Text.isSpace c) = true := by decide
  have hc := List.all_eq_true.mp hall c h
  rw [Bool.and_eq_true, Bool.not_eq_true'] at hc
  exact hc

/-- **A key that is minted has the shape** that is looked for. -/
theorem parse_generate {sha256 : String → String} {secret : String} (h : Drawn secret) :
    parseApiKey (some (generateApiKey sha256 secret).plaintext) =
      some (generateApiKey sha256 secret).plaintext := by
  have hchars : ∀ c ∈ (keyPrefix ++ secret).toList, Text.isSpace c = false := by
    intro c hc
    rw [String.toList_append, List.mem_append] at hc
    rcases hc with hprefix | hsecret
    · have hall : keyPrefix.toList.all (fun c => !Text.isSpace c) = true := by decide
      have hplain := List.all_eq_true.mp hall c hprefix
      rwa [Bool.not_eq_true'] at hplain
    · exact (of_mem_base62Alphabet (h.2 c hsecret)).2
  have hdrop : ∀ text : List Char, (∀ c ∈ text, Text.isSpace c = false) →
      text.dropWhile Text.isSpace = text := by
    intro text htext
    cases text with
    | nil => rfl
    | cons c text => exact List.dropWhile_cons_of_neg (by simp [htext c List.mem_cons_self])
  have hstrip : Text.strip (keyPrefix ++ secret).toList = (keyPrefix ++ secret).toList := by
    rw [Text.strip, hdrop _ hchars, hdrop _ (fun c hc => hchars c (List.mem_reverse.mp hc)),
      List.reverse_reverse]
  have hlength : (keyPrefix ++ secret).toList.length = keyPrefix.length + keySecretLength := by
    rw [String.toList_append, List.length_append, String.length_toList, String.length_toList, h.1]
  have hsecret : ((keyPrefix ++ secret).toList.drop keyPrefix.length).all Char.isAlphanum = true := by
    have htail : (keyPrefix ++ secret).toList.drop keyPrefix.length = secret.toList := by
      rw [String.toList_append, ← String.length_toList, List.drop_left]
    rw [htail, List.all_eq_true]
    exact fun c hc => (of_mem_base62Alphabet (h.2 c hc)).1
  have hprefix : keyPrefix.toList.isPrefixOf (keyPrefix ++ secret).toList = true := by
    rw [String.toList_append, List.isPrefixOf_iff_prefix]
    exact List.prefix_append _ _
  show parseApiKey (some (keyPrefix ++ secret)) = some (keyPrefix ++ secret)
  unfold parseApiKey
  show (if _ then none else _) = _
  rw [hstrip, if_neg (not_not_intro hlength), if_neg (not_not_intro hprefix),
    if_neg (not_not_intro hsecret), String.ofList_toList]

/-- `mask`. -/
def mask (keyPrefix last4 : String) : String := keyPrefix ++ "…" ++ last4

/-! ## Rows -/

/-- A row of `users`. -/
structure User where
  id : String
  email : String
  emailVerified : Bool
  tier : String
  deriving DecidableEq, Repr

/-- A row of `api_keys`. -/
structure ApiKey where
  id : String
  userId : String
  keyHash : String
  keyPrefix : String
  last4 : String
  nickname : Option String
  isActive : Bool := true
  lastUsedAt : Option Seconds := none
  createdAt : Seconds
  deriving DecidableEq

/-- `ApiKeyOut`. -/
structure ApiKeyOut where
  id : String
  masked : String
  nickname : Option String
  isActive : Bool
  lastUsedAt : Option Seconds
  createdAt : Seconds
  deriving DecidableEq

/-- `_to_out`. -/
def toOut (key : ApiKey) : ApiKeyOut :=
  { id := key.id, masked := mask key.keyPrefix key.last4, nickname := key.nickname
    isActive := key.isActive, lastUsedAt := key.lastUsedAt, createdAt := key.createdAt }

/-- What is used of the claims of a token. -/
structure Claims where
  sub : String
  email : String
  emailVerified : Bool
  deriving DecidableEq, Repr

inductive AuthMethod where
  | session
  | apiKey
  deriving DecidableEq, Repr

/-- `Principal`. -/
structure Principal where
  userId : String
  authMethod : AuthMethod
  apiKeyId : Option String
  tier : String
  deriving DecidableEq, Repr

/-! ## The interface -/

/-- What a request is refused with. -/
inductive Raised where
  | unauthenticated (message code : String)
  | forbidden (message code : String)
  | notFound (message code : String)
  | conflict (message code : String)
  | exn (e : Exn)
  deriving DecidableEq, Repr

/-- What a statement on `users` fails with. -/
inductive UserError where
  | integrityError
  | exn (e : Exn)
  deriving DecidableEq, Repr

/-- The questions of a request. -/
inductive Ask where
  /-- `verify_token`. -/
  | verifyToken (token : String)
  | upsertUser (userId email : String) (emailVerified : Bool)
  | getActiveWithUser (keyHash : String)
  | now
  | touchLastUsed (keyId : String) (now : Seconds)
  | generateSecret
  | insertKey (userId keyHash keyPrefix last4 : String) (nickname : Option String)
  | revoke (keyId userId : String)
  | listForUser (userId : String)
  | commit
  deriving DecidableEq

def Ans : Ask → Type
  | .verifyToken _ => Except Raised Claims
  | .upsertUser _ _ _ => Except UserError User
  | .getActiveWithUser _ => Except Exn (Option (ApiKey × User))
  | .now => Seconds
  | .touchLastUsed _ _ => Except Exn Unit
  | .generateSecret => String
  | .insertKey _ _ _ _ _ => Except Exn ApiKey
  | .revoke _ _ => Except Exn Bool
  | .listForUser _ => Except Exn (List ApiKey)
  | .commit => Except Exn Unit

abbrev iface : Iface := ⟨Ask, Ans⟩

abbrev Eff (α : Type) : Type := Prog iface Raised α

def db {α : Type} : Except Exn α → Except Raised α
  | .ok a => .ok a
  | .error e => .error (.exn e)

def commit : Eff Unit := .ask .commit fun a => .ofExcept (db a)

/-! ## The door -/

def invalidHeader : Raised :=
  .unauthenticated "The Authorization header must be of the form 'Bearer <token>'."
    "invalid_authorization_header"

def invalidKey : Raised := .unauthenticated "The provided API key is not valid." "invalid_api_key"

def missingCredentials : Raised :=
  .unauthenticated ("Provide a Supabase session token in the Authorization header, or a gateway " ++
    "API key in X-API-Key.") "missing_credentials"

/-- `_bearer_token`. -/
def bearerToken (header : Option String) : Except Raised (Option String) :=
  match header with
  | none => .ok none
  | some value =>
    let scheme := value.toList.takeWhile (· ≠ ' ')
    let token := Text.strip ((value.toList.dropWhile (· ≠ ' ')).drop 1)
    if scheme.map Char.toLower ≠ "bearer".toList ∨ token = [] then .error invalidHeader
    else .ok (some (String.ofList token))

/-- `normalize_email`. -/
def normalizeEmail (email : String) : String :=
  String.ofList ((Text.strip email.toList).map Char.toLower)

/-- `upsert_from_claims`. -/
def upsertFromClaims (claims : Claims) : Eff User :=
  .ask (.upsertUser claims.sub (normalizeEmail claims.email) claims.emailVerified) fun a =>
    match a with
    | .ok user => .ret user
    | .error .integrityError => .raise (.conflict
        "This email address is already registered to a different account." "email_taken")
    | .error (.exn e) => .raise (.exn e)

/-- `_principal_from_jwt`. -/
def principalFromJwt (token : String) : Eff Principal :=
  .ask (.verifyToken token) fun a => do
    let claims ← Prog.ofExcept a
    let user ← upsertFromClaims claims
    commit
    return { userId := user.id, authMethod := .session, apiKeyId := none, tier := user.tier }

/-- `touch_last_used`. -/
def touchLastUsed (keyId : String) : Eff Unit :=
  .ask .now fun now => .ask (.touchLastUsed keyId now) fun a => .ofExcept (db a)

/-- `_principal_from_api_key`. -/
def principalFromApiKey (sha256 : String → String) (presented : String) : Eff Principal :=
  .ask (.getActiveWithUser (sha256 presented)) fun a => do
    match ← Prog.ofExcept (db a) with
    | none => .raise invalidKey
    | some (apiKey, user) =>
      touchLastUsed apiKey.id
      commit
      return { userId := user.id, authMethod := .apiKey, apiKeyId := some apiKey.id
               tier := user.tier }

/-- What a request shows at the door. -/
structure Credentials where
  authorization : Option String
  apiKey : Option String
  deriving DecidableEq, Repr

/-- `get_principal`. -/
def getPrincipal (sha256 : String → String) (shown : Credentials) : Eff Principal :=
  match bearerToken shown.authorization with
  | .error e => .raise e
  | .ok (some token) => principalFromJwt token
  | .ok none =>
    match shown.apiKey with
    | none => .raise missingCredentials
    | some raw =>
      match parseApiKey (some raw) with
      | none => .raise invalidKey
      | some presented => principalFromApiKey sha256 presented

/-! ## The endpoints -/

/-- `_require_session`. -/
def requireSession (principal : Principal) : Except Raised Unit :=
  if principal.authMethod = .session then .ok ()
  else .error (.forbidden "API keys can only be managed from a signed-in session."
    "session_required")

/-- `ApiKeyCreated`. -/
structure ApiKeyCreated extends ApiKeyOut where
  key : String
  deriving DecidableEq

/-- What a request is answered with. -/
inductive Response where
  /-- Any endpoint that goes on with the principal. -/
  | served (principal : Principal)
  | created (key : ApiKeyCreated)
  | listed (keys : List ApiKeyOut)
  | revoked
  deriving DecidableEq

/-- `create_key`. -/
def createKey (sha256 : String → String) (nickname : Option String) (principal : Principal) :
    Eff Response := do
  Prog.ofExcept (requireSession principal)
  .ask .generateSecret fun secret =>
    let generated := generateApiKey sha256 secret
    .ask (.insertKey principal.userId generated.keyHash generated.keyPrefix generated.last4
      nickname) fun a => do
      let apiKey ← Prog.ofExcept (db a)
      commit
      return .created { toOut apiKey with key := generated.plaintext }

/-- `list_keys`. -/
def listKeys (principal : Principal) : Eff Response := do
  Prog.ofExcept (requireSession principal)
  .ask (.listForUser principal.userId) fun a => do
    let keys ← Prog.ofExcept (db a)
    return .listed (keys.map toOut)

/-- `revoke_key`. -/
def revokeKey (keyId : String) (principal : Principal) : Eff Response := do
  Prog.ofExcept (requireSession principal)
  .ask (.revoke keyId principal.userId) fun a => do
    if ← Prog.ofExcept (db a) then
      commit
      return .revoked
    else .raise (.notFound "No such API key." "api_key_not_found")

/-- What a request asks for. -/
inductive Endpoint where
  | serve
  | createKey (nickname : Option String)
  | listKeys
  | revokeKey (keyId : String)
  deriving DecidableEq, Repr

structure Request where
  shown : Credentials
  endpoint : Endpoint
  deriving DecidableEq, Repr

/-- An endpoint, for the one that came through the door. -/
def Endpoint.run (sha256 : String → String) (principal : Principal) : Endpoint → Eff Response
  | .serve => return .served principal
  | .createKey nickname => ApiKeys.createKey sha256 nickname principal
  | .listKeys => ApiKeys.listKeys principal
  | .revokeKey keyId => ApiKeys.revokeKey keyId principal

/-- A request. -/
def handle (sha256 : String → String) (request : Request) : Eff Response := do
  let principal ← getPrincipal sha256 request.shown
  request.endpoint.run sha256 principal

/-! ## The tables -/

/-- What a transaction has written and not committed. -/
inductive Write where
  | upsertUser (user : User)
  | touchLastUsed (keyId : String) (now : Seconds)
  | insertKey (key : ApiKey)
  | revoke (keyId userId : String)
  deriving DecidableEq

/-- `LAST_USED_THROTTLE_S`. -/
def lastUsedThrottleS : Seconds := 60

structure Tables where
  users : List User := []
  keys : List ApiKey := []

/-- What an update makes of a row. -/
def Write.onKey (write : Write) (key : ApiKey) : ApiKey :=
  match write with
  | .touchLastUsed keyId now =>
    if key.id = keyId ∧ ∀ at_ ∈ key.lastUsedAt, at_ < now - lastUsedThrottleS then
      { key with lastUsedAt := some now }
    else key
  | .revoke keyId userId =>
    if key.id = keyId ∧ key.userId = userId then { key with isActive := false } else key
  | _ => key

/-- The row an insert adds. -/
def Write.inserted? : Write → Option ApiKey
  | .insertKey key => some key
  | _ => none

/-- A mirrored user. The tier of one that is known stays. -/
def Write.onUsers (write : Write) (users : List User) : List User :=
  match write with
  | .upsertUser user =>
    if users.any (·.id = user.id) then
      users.map fun old => if old.id = user.id then { user with tier := old.tier } else old
    else users ++ [user]
  | _ => users

/-- The rows of `api_keys`. No statement deletes one. -/
def keyRows : Rows ApiKey Write where
  update write key := some (write.onKey key)
  insert := Write.inserted?

def Tables.apply (t : Tables) (write : Write) : Tables where
  users := write.onUsers t.users
  keys := keyRows.apply t.keys write

/-- The row an upsert returns. -/
def Tables.mirrored (t : Tables) (userId email : String) (emailVerified : Bool) : User :=
  { id := userId, email, emailVerified
    tier := ((t.users.find? (·.id = userId)).map (·.tier)).getD "free" }

/-- `get_active_with_user`. -/
def Tables.activeWithUser (t : Tables) (keyHash : String) : Option (ApiKey × User) := do
  let key ← t.keys.find? fun key => key.keyHash = keyHash ∧ key.isActive = true
  let user ← t.users.find? fun user => user.id = key.userId
  return (key, user)

/-- The committed tables, and what each request has written. -/
abbrev Store (ι : Type) : Type := Sessions ι Tables Write

section

variable {ι : Type} [DecidableEq ι]

/-- A value of a unique column that nobody has taken. -/
def Free (s : Store ι) (column : ApiKey → String) (value : String) : Prop :=
  keyRows.Free column value s.tables.keys s.pending

/-- The world of member `i`, where `claimsOf` says which tokens are good. Statements read what is
committed; a statement that fails ends the transaction; and a commit that fails may have been one. -/
inductive Serves (claimsOf : String → Option Claims) (i : ι) : World iface (Store ι)
  | verifyToken {s : Store ι} {token : String} {claims : Claims} (h : claimsOf token = some claims) :
      Serves claimsOf i s (.verifyToken token) (.ok claims) s
  | refuseToken {s : Store ι} (token : String) (e : Raised) :
      Serves claimsOf i s (.verifyToken token) (.error e) s
  | upsertUser {s : Store ι} (userId email : String) (emailVerified : Bool) :
      Serves claimsOf i s (.upsertUser userId email emailVerified)
        (.ok (s.tables.mirrored userId email emailVerified))
        (s.push i (.upsertUser (s.tables.mirrored userId email emailVerified)))
  | upsertUserFails {s : Store ι} (userId email : String) (emailVerified : Bool) (e : UserError) :
      Serves claimsOf i s (.upsertUser userId email emailVerified) (.error e) (s.rollback i)
  | getActiveWithUser {s : Store ι} (keyHash : String) :
      Serves claimsOf i s (.getActiveWithUser keyHash) (.ok (s.tables.activeWithUser keyHash)) s
  | getActiveWithUserFails {s : Store ι} (keyHash : String) (e : Exn) :
      Serves claimsOf i s (.getActiveWithUser keyHash) (.error e) (s.rollback i)
  | now {s : Store ι} (t : Seconds) : Serves claimsOf i s .now t s
  | touchLastUsed {s : Store ι} (keyId : String) (t : Seconds) :
      Serves claimsOf i s (.touchLastUsed keyId t) (.ok ()) (s.push i (.touchLastUsed keyId t))
  | touchLastUsedFails {s : Store ι} (keyId : String) (t : Seconds) (e : Exn) :
      Serves claimsOf i s (.touchLastUsed keyId t) (.error e) (s.rollback i)
  | generateSecret {s : Store ι} {secret : String} (h : Drawn secret) :
      Serves claimsOf i s .generateSecret secret s
  -- an insert waits for the transactions that hold one of its values
  | insertKey {s : Store ι} (id userId keyHash keyPrefix last4 : String) (nickname : Option String)
      (createdAt : Seconds) (hid : Free s ApiKey.id id) (hhash : Free s ApiKey.keyHash keyHash) :
      Serves claimsOf i s (.insertKey userId keyHash keyPrefix last4 nickname)
        (.ok { id, userId, keyHash, keyPrefix, last4, nickname, createdAt })
        (s.push i (.insertKey { id, userId, keyHash, keyPrefix, last4, nickname, createdAt }))
  | insertKeyFails {s : Store ι} (userId keyHash keyPrefix last4 : String)
      (nickname : Option String) (e : Exn) :
      Serves claimsOf i s (.insertKey userId keyHash keyPrefix last4 nickname) (.error e)
        (s.rollback i)
  | revoke {s : Store ι} (keyId userId : String) :
      Serves claimsOf i s (.revoke keyId userId)
        (.ok (s.tables.keys.any fun key => key.id = keyId ∧ key.userId = userId))
        (s.push i (.revoke keyId userId))
  | revokeFails {s : Store ι} (keyId userId : String) (e : Exn) :
      Serves claimsOf i s (.revoke keyId userId) (.error e) (s.rollback i)
  | listForUser {s : Store ι} (userId : String) :
      Serves claimsOf i s (.listForUser userId)
        (.ok ((s.tables.keys.filter fun key => key.userId = userId).mergeSort
          fun a b => decide (b.createdAt ≤ a.createdAt))) s
  | listForUserFails {s : Store ι} (userId : String) (e : Exn) :
      Serves claimsOf i s (.listForUser userId) (.error e) (s.rollback i)
  | commit {s : Store ι} : Serves claimsOf i s .commit (.ok ()) (s.commit Tables.apply i)
  | commitUnheard {s : Store ι} (e : Exn) :
      Serves claimsOf i s .commit (.error e) (s.commit Tables.apply i)
  | commitFails {s : Store ι} (e : Exn) : Serves claimsOf i s .commit (.error e) (s.rollback i)

end

/-- The requests of a process, before the first of them. -/
def serving {ι : Type} (sha256 : String → String) (requests : ι → Request) :
    Pool ι iface Raised Response (Store ι) :=
  ⟨{ tables := {} }, fun i => handle sha256 (requests i)⟩

end ApiKeys

end LlmGateway
