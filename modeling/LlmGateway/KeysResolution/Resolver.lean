import LlmGateway.Routing.Interface
import Mathlib.Logic.Function.Basic
import Mathlib.Logic.Relation

/-!
# Who pays for a candidate

The resolver of credentials and quota scopes: a user's own key for a provider
first, the shared pool second. What it has loaded and decrypted it keeps for
the life of a request.
-/

namespace LlmGateway

namespace KeysResolution

/-- A UUID, by its hexadecimal digits. -/
structure Uuid where
  digits : List (Fin 16)
  length_digits : digits.length = 32
  deriving DecidableEq, Repr

namespace Uuid

/-- One digit, written in lower case. -/
def digitChar (d : Fin 16) : Char := Nat.digitChar d

/-- `str(uuid)`: the digits in groups of 8, 4, 4, 4 and 12. -/
def str (u : Uuid) : String :=
  let text := u.digits.map digitChar
  String.ofList
    (text.take 8 ++ '-' :: (text.drop 8).take 4 ++ '-' :: (text.drop 12).take 4 ++
      '-' :: (text.drop 16).take 4 ++ '-' :: text.drop 20)

theorem digitChar_ne (d : Fin 16) : digitChar d ≠ 's' := by
  revert d
  decide

/-- It begins with a digit. -/
theorem str_head (u : Uuid) : ∃ d : Fin 16, u.str.toList.head? = some (digitChar d) := by
  obtain ⟨digits, hlength⟩ := u
  cases digits with
  | nil => cases hlength
  | cons d digits => exact ⟨d, by simp [str]⟩

end Uuid

/-- `SYSTEM_SCOPE`. -/
def systemScope : String := "system"

/-- A row of `provider_keys`, as far as it is read. -/
structure ProviderKey where
  id : Uuid
  provider : String
  encryptedKey : String
  deriving DecidableEq, Repr

/-- A row of `user_quota_allocations`. -/
structure Allocation where
  provider : String
  model : String
  dailyCap : ℤ
  deriving DecidableEq, Repr

/-- What the one session of a resolver finds. -/
structure Holdings where
  rows : List ProviderKey
  allocations : List Allocation
  deriving DecidableEq, Repr

/-- `_by_provider`: of two rows of a provider the later counts. -/
def Holdings.byProvider (h : Holdings) (provider : String) : Option ProviderKey :=
  h.rows.reverse.find? (·.provider = provider)

/-- `_caps`. -/
def Holdings.caps (h : Holdings) (provider model : String) : Option ℤ :=
  (h.allocations.reverse.find? fun a => a.provider = provider ∧ a.model = model).map (·.dailyCap)

/-- What a resolver reaches outside itself. -/
structure Surroundings where
  load : Except Exn Holdings
  /-- `decrypt_provider_key`; `none` where it raises `CredentialUnreadable`. -/
  decrypt : String → Option String
  /-- `registry.system_key`. -/
  systemKey : String → Except Exn String

/-- What `limits.yaml` says of a tier, as far as it is read. -/
structure TierLimits where
  sharedPoolDailyCap : Option ℤ
  deriving DecidableEq, Repr

/-- `UserCredentials` of one user. -/
structure UserCredentials (user : Uuid) where
  limits : Option (String → Option TierLimits)
  tier : String
  loaded : Option Holdings := none
  decrypted : String → Option String := fun _ => none

namespace UserCredentials

variable {user : Uuid}

/-- `_cap_for`. -/
def capFor (c : UserCredentials user) (h : Holdings) (provider model : String) : Option ℤ :=
  match h.caps provider model with
  | some override => some override
  | none => (c.limits.bind fun gateway => gateway c.tier).bind (·.sharedPoolDailyCap)

/-- `_shared`. -/
def shared (c : UserCredentials user) (env : Surroundings) (h : Holdings)
    (provider model : String) : Except Exn ResolvedKey := do
  let key ← env.systemKey provider
  return { provider, key, pool := .shared, scope := systemScope
           sharedDailyCap := c.capFor h provider model, userId := some user.str }

/-- A resolution to a row of the user's own. -/
def ownKey (user : Uuid) (row : ProviderKey) (provider plaintext : String) : ResolvedKey :=
  { provider, key := plaintext, pool := .«private», scope := user.str, keyId := some row.id.str
    userId := some user.str }

/-- `for_provider`, once the rows are loaded. -/
def resolve (c : UserCredentials user) (env : Surroundings) (h : Holdings)
    (provider model : String) : Except Exn ResolvedKey × UserCredentials user :=
  match h.byProvider provider with
  | none => (c.shared env h provider model, c)
  | some row =>
    match c.decrypted provider with
    | some plaintext => (.ok (ownKey user row provider plaintext), c)
    | none =>
      match env.decrypt row.encryptedKey with
      -- a row that will not decrypt does not take the user's gateway down
      | none => (c.shared env h provider model, c)
      | some plaintext =>
        (.ok (ownKey user row provider plaintext),
          { c with decrypted := Function.update c.decrypted provider (some plaintext) })

/-- `for_provider`: `_load_once`, and then from what is held. -/
def forProvider (c : UserCredentials user) (env : Surroundings) (provider model : String) :
    Except Exn ResolvedKey × UserCredentials user :=
  match c.loaded with
  | some h => c.resolve env h provider model
  | none =>
    match env.load with
    | .error e => (.error e, c)
    | .ok h => resolve { c with loaded := some h } env h provider model

end UserCredentials

/-- The two implementations of `ProviderCredentials`. -/
inductive Credentials (user : Uuid) where
  | system
  | user (c : UserCredentials user)

/-- `for_provider`. -/
def Credentials.forProvider {user : Uuid} (env : Surroundings) (provider model : String) :
    Credentials user → Except Exn ResolvedKey × Credentials user
  | .system =>
    (do
      let key ← env.systemKey provider
      return { provider, key, pool := .shared, scope := systemScope }, .system)
  | .user c =>
    let (r, c) := c.forProvider env provider model
    (r, .user c)

/-- Any calls of a resolver, one after another. -/
def Credentials.Moves {user : Uuid} : Credentials user → Credentials user → Prop :=
  Relation.ReflTransGen fun c c' => ∃ env provider model, (c.forProvider env provider model).2 = c'

/-- `quota_scope_for`. -/
def quotaScopeFor (pool : Option KeyPool) (user : Uuid) : String :=
  if pool = some .«private» then user.str else systemScope

/-- **What a resolution is**: for the provider that was asked about, on a scope its pool
determines, and with no personal cap on a key of the user's own. -/
structure Resolution (user : Uuid) (provider : String) (r : ResolvedKey) : Prop where
  provider : r.provider = provider
  scope : r.scope = quotaScopeFor (some r.pool) user
  uncapped : r.pool = .«private» → r.sharedDailyCap = none

section

variable {user : Uuid} {env : Surroundings} {provider model : String} {r : ResolvedKey}

theorem UserCredentials.resolution_shared {c : UserCredentials user} {h : Holdings}
    (hr : c.shared env h provider model = .ok r) : Resolution user provider r := by
  unfold shared at hr
  cases hkey : env.systemKey provider with
  | error e =>
    rw [hkey] at hr
    cases hr
  | ok key =>
    rw [hkey] at hr
    cases hr
    exact ⟨rfl, rfl, nofun⟩

theorem UserCredentials.resolution_ownKey (row : ProviderKey) (plaintext : String) :
    Resolution user provider (ownKey user row provider plaintext) :=
  ⟨rfl, rfl, fun _ => rfl⟩

theorem UserCredentials.resolution_resolve {c : UserCredentials user} {h : Holdings}
    (hr : (c.resolve env h provider model).1 = .ok r) : Resolution user provider r := by
  unfold resolve at hr
  cases hrow : h.byProvider provider with
  | none =>
    rw [hrow] at hr
    exact resolution_shared hr
  | some row =>
    rw [hrow] at hr
    dsimp only at hr
    split at hr
    · cases hr
      exact resolution_ownKey row _
    · split at hr
      · exact resolution_shared hr
      · cases hr
        exact resolution_ownKey row _

/-- **Whatever a resolver answers is such a resolution.** -/
theorem Credentials.resolution {c : Credentials user}
    (hr : (c.forProvider env provider model).1 = .ok r) : Resolution user provider r := by
  cases c with
  | system =>
    change (do
      let key ← env.systemKey provider
      return { provider, key, pool := .shared, scope := systemScope } : Except Exn ResolvedKey) =
        .ok r at hr
    cases hkey : env.systemKey provider with
    | error e =>
      rw [hkey] at hr
      cases hr
    | ok key =>
      rw [hkey] at hr
      cases hr
      exact ⟨rfl, rfl, nofun⟩
  | user c =>
    change (c.forProvider env provider model).1 = .ok r at hr
    unfold UserCredentials.forProvider at hr
    cases hloaded : c.loaded with
    | some h =>
      rw [hloaded] at hr
      exact UserCredentials.resolution_resolve hr
    | none =>
      rw [hloaded] at hr
      cases hload : env.load with
      | error e =>
        rw [hload] at hr
        cases hr
      | ok h =>
        rw [hload] at hr
        exact UserCredentials.resolution_resolve hr

end

end KeysResolution

end LlmGateway
