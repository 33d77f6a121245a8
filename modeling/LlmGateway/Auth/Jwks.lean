import LlmGateway.Codec.Json
import LlmGateway.Effects.Pool
import LlmGateway.Effects.Twin
import LlmGateway.Providers.Types
import Mathlib.Algebra.Order.Ring.Rat
import Mathlib.Tactic.NormNum

/-!
# The signing keys

`JwksCache`: the public keys of the identity provider, fetched once and reused.
Any number of calls look for their key, and those that miss it queue on one lock
to fetch the set again. Behind the lock a call goes back without a word when
somebody else has fetched since it came, and also when the last attempt is too
recent; and a call that goes back looks for its key once more.
-/

namespace LlmGateway

namespace Jwks

open Effects Json

/-! ## Fetching -/

/-- A set of keys: under a `kid`, its JWK. -/
abbrev Keys (F : Type) : Type := List (String × Value F)

/-- What `_fetch` raises. -/
inductive FetchError where
  /-- `httpx.HTTPError`. -/
  | httpError
  | valueError
  /-- Any other exception. -/
  | other (name : String)
  deriving DecidableEq, Repr

section

variable {F ι : Type}

/-- What the request comes to, up to its body. -/
inductive Response (F : Type) where
  | raised (error : FetchError)
  | json (document : Value F)

/-- `ALLOWED_ALGORITHMS`. -/
def allowedAlgorithms : List String := ["ES256", "RS256"]

/-- `alg in ALLOWED_ALGORITHMS`, which hashes what it looks for. -/
def allowed : Option (Value F) → Except FetchError Bool
  | some (.str alg) => return allowedAlgorithms.contains alg
  | some (.arr _) | some (.obj _) => throw (.other "TypeError")
  | _ => return false

/-- The loop over the raw keys. -/
def indexKeys (keys : Keys F) : List (Value F) → Except FetchError (Keys F)
  | [] => return keys
  | .obj key :: rest =>
    match (Value.obj key).get? "kid" with
    | some (.str kid) => do
      if ← allowed ((Value.obj key).get? "alg") then
        indexKeys ((kid, .obj key) :: keys.filter (·.1 ≠ kid)) rest
      else indexKeys keys rest
    | _ => indexKeys keys rest
  | _ :: rest => indexKeys keys rest

/-- `_fetch`. -/
def fetch : Response F → Except FetchError (Keys F)
  | .raised error => throw error
  | .json document =>
    match document with
    | .obj _ =>
      match document.get? "keys" with
      | some (.arr (first :: rest)) => do
        let keys ← indexKeys [] (first :: rest)
        if keys.isEmpty then throw .valueError else return keys
      | _ => throw .valueError
    | _ => throw .valueError

/-! ## The interface -/

/-- The constants of a cache. -/
structure Config where
  ttlS : Seconds
  minRefreshIntervalS : Seconds

/-- The constants the application runs with. -/
def defaults : Config where
  ttlS := 12 * 60 * 60
  minRefreshIntervalS := 60

/-- The cache, and whose its lock is. -/
structure Cache (F ι : Type) where
  keys : Keys F := []
  fetchedAt : Option Seconds := none
  lastAttemptAt : Option Seconds := none
  holder : Option ι := none

/-- The questions of a call. -/
inductive Ask (F : Type) where
  | now
  | fetchedAt
  | keys
  /-- The clock and the last attempt, behind the lock. -/
  | lastAttempt
  | setLastAttemptAt (now : Seconds)
  | acquire
  | release
  /-- The request. -/
  | get
  /-- The keys are set, and with them the instant. -/
  | publish (keys : Keys F)

def Ans : Ask F → Type
  | .now => Seconds
  | .fetchedAt => Option Seconds
  | .keys => Keys F
  | .lastAttempt => Seconds × Option Seconds
  | .setLastAttemptAt _ => Unit
  | .acquire => Unit
  | .release => Unit
  | .get => Response F
  | .publish _ => Unit

/-- The interface of the cache. -/
abbrev iface (F : Type) : Iface := ⟨Ask F, Ans⟩

/-- What a call raises. -/
inductive Raised where
  | unauthenticated (message code : String)
  | serviceUnavailable (message code : String)
  | uncaught (error : FetchError)
  deriving DecidableEq, Repr

abbrev Eff (F α : Type) : Type := Prog (iface F) Raised α

/-- `_invalid_token`. -/
def invalidToken : Raised :=
  .unauthenticated "The provided session token is not valid." "invalid_token"

def jwksUnavailable : Raised :=
  .serviceUnavailable "Authentication is temporarily unavailable." "jwks_unavailable"

def now : Eff F Seconds := .ask .now .ret

def fetchedAt : Eff F (Option Seconds) := .ask .fetchedAt .ret

def keys : Eff F (Keys F) := .ask .keys .ret

def lastAttempt : Eff F (Seconds × Option Seconds) := .ask .lastAttempt .ret

def setLastAttemptAt (t : Seconds) : Eff F Unit := .ask (.setLastAttemptAt t) .ret

def acquire : Eff F Unit := .ask .acquire .ret

def release : Eff F Unit := .ask .release .ret

def get : Eff F (Response F) := .ask .get .ret

def publish (keys : Keys F) : Eff F Unit := .ask (.publish keys) .ret

/-! ## The calls -/

/-- `_cached`. -/
def cached (cfg : Config) (kid : String) : Eff F (Option (Value F)) := do
  match ← fetchedAt with
  | none => return none
  | some since =>
    let t ← now
    if cfg.ttlS ≤ t - since then return none
    else return (← keys).lookup kid

/-- `_refresh`, from the request on. -/
def fetchKeys : Eff F Unit := do
  match fetch (← get) with
  | .ok fetched => publish fetched
  | .error (.other name) => .raise (.uncaught (.other name))
  | .error _ =>
    -- With stale keys a bad minute of the provider's logs nobody out.
    if (← keys).isEmpty then .raise jwksUnavailable else return

/-- `_refresh`, behind the lock. -/
def refreshLocked (cfg : Config) (waitingSince : Seconds) : Eff F Unit := do
  if (← fetchedAt).any (waitingSince ≤ ·) then return
  else
    let (t, last) ← lastAttempt
    if last.any (t - · < cfg.minRefreshIntervalS) then return
    else
      setLastAttemptAt t
      fetchKeys

/-- `_refresh`. The lock is released however its block is left. -/
def refresh (cfg : Config) : Eff F Unit := do
  let waitingSince ← now
  acquire
  match ← (refreshLocked cfg waitingSince).attempt with
  | .ok () => release
  | .error raised =>
    release
    .raise raised

/-- `get_key`. -/
def getKey (cfg : Config) (kid : String) : Eff F (Value F) := do
  match ← cached cfg kid with
  | some key => return key
  | none =>
    refresh cfg
    match (← keys).lookup kid with
    | some key => return key
    | none => .raise invalidToken

/-! ## The process -/

/-- The process, answering call `i`. The clock may read anything. -/
inductive Serves (i : ι) : World (iface F) (Cache F ι)
  | now {s : Cache F ι} (t : Seconds) : Serves i s .now t s
  | fetchedAt {s : Cache F ι} : Serves i s .fetchedAt s.fetchedAt s
  | keys {s : Cache F ι} : Serves i s .keys s.keys s
  | lastAttempt {s : Cache F ι} (now : Seconds) :
      Serves i s .lastAttempt (now, s.lastAttemptAt) s
  | setLastAttemptAt {s : Cache F ι} (now : Seconds) :
      Serves i s (.setLastAttemptAt now) () { s with lastAttemptAt := some now }
  | acquire {s : Cache F ι} (h : s.holder = none) :
      Serves i s .acquire () { s with holder := some i }
  | release {s : Cache F ι} : Serves i s .release () { s with holder := none }
  | get {s : Cache F ι} (response : Response F) : Serves i s .get response s
  | publish {s : Cache F ι} (keys : Keys F) (now : Seconds) :
      Serves i s (.publish keys) () { s with keys, fetchedAt := some now }

/-- Calls for keys, all before anything has been fetched. -/
def calls (cfg : Config) (kids : ι → String) :
    Pool ι (iface F) Raised (Value F) (Cache F ι) :=
  ⟨{}, fun i => getKey cfg (kids i)⟩

/-! ## While nothing has been fetched -/

/-- What a step has to meet: whoever gets behind the lock does so no sooner than the floor after
the last attempt, and the request fails in a way that is known. -/
def Meets (cfg : Config) (s : Cache F ι) : (q : Ask F) → Ans q → Prop
  | .lastAttempt, answer =>
    s.fetchedAt = none → ∀ last ∈ answer.2, cfg.minRefreshIntervalS ≤ answer.1 - last
  | .get, response => s.fetchedAt = none → ∀ name, fetch response ≠ .error (.other name)
  | _, _ => True

/-- The process, as long as every step meets what it has to. -/
def ServesWell (cfg : Config) (i : ι) : World (iface F) (Cache F ι) :=
  fun s q a s' => Serves i s q a s' ∧ Meets cfg s q a

/-- Before anything has been fetched there are no keys. -/
def Bare (s : Cache F ι) : Prop := s.fetchedAt = none → s.keys = []

/-- What others may do: what has been fetched stays fetched, and without a fetch there are no
keys. -/
def others : Rely (Cache F ι) where
  step s s' := (s'.fetchedAt = none → s.fetchedAt = none) ∧ (Bare s → Bare s')
  refl _ := ⟨id, id⟩
  trans h h' := ⟨h.1 ∘ h'.1, h'.2 ∘ h.2⟩

/-- Every answer keeps to that. -/
theorem Serves.others {i : ι} {s s' : Cache F ι} {q : Ask F} {a : Ans q} (h : Serves i s q a s') :
    others.step s s' := by
  cases h with
  | publish keys now => exact ⟨fun hnone => (nomatch hnone), fun _ hnone => (nomatch hnone)⟩
  | _ => exact ⟨id, id⟩

/-- What is to come of a call: as long as nothing has been fetched, that the keys are
unavailable. -/
def Unavailable {α : Type} (r : Except Raised α) (s : Cache F ι) : Prop :=
  Bare s ∧ (s.fetchedAt = none → r = .error jwksUnavailable)

section

variable {cfg : Config} {i : ι} {α : Type} {s : Cache F ι}

theorem unavailable_of_fetched (h : s.fetchedAt ≠ none) (r : Except Raised α) : Unavailable r s :=
  ⟨fun hnone => absurd hnone h, fun hnone => absurd hnone h⟩

/-- Once something has been fetched, nothing more is to be shown. -/
theorem settles_of_fetched {p : Eff F α} (h : s.fetchedAt ≠ none) :
    Settles (ServesWell cfg i) others others.step p Unavailable s := by
  induction p generalizing s with
  | ret a => exact fun s' hs => unavailable_of_fetched (fun hnone => h (hs.1 hnone)) _
  | raise e => exact fun s' hs => unavailable_of_fetched (fun hnone => h (hs.1 hnone)) _
  | ask q k ih =>
    intro s' hs a s'' hw
    have hstep := hw.1.others
    exact ⟨hstep, ih a fun hnone => h (hs.1 (hstep.1 hnone))⟩

/-- One question, of a process that has fetched nothing and still has not. -/
theorem settles_ask {q : Ask F} {k : Ans q → Eff F α} (hs : Bare s)
    (h : ∀ s' a s'', Bare s' → s'.fetchedAt = none → ServesWell cfg i s' q a s'' →
      Bare s'' → s''.fetchedAt = none →
        Settles (ServesWell cfg i) others others.step (k a) Unavailable s'') :
    Settles (ServesWell cfg i) others others.step (.ask q k) Unavailable s := by
  intro s' hr a s'' hw
  have hstep := hw.1.others
  have hbare : Bare s' := hr.2 hs
  refine ⟨hstep, ?_⟩
  by_cases hnone : s''.fetchedAt = none
  · exact h s' a s'' hbare (hstep.1 hnone) hw (hstep.2 hbare) hnone
  · exact settles_of_fetched hnone

theorem settles_raise (hs : Bare s) :
    Settles (ServesWell cfg i) others others.step
      (.raise jwksUnavailable : Eff F α) Unavailable s :=
  fun _ hr => ⟨hr.2 hs, fun _ => rfl⟩

/-- A request that failed, and no keys to go on with. -/
theorem settles_stale (cfg : Config) (i : ι) (hs : Bare s) :
    Settles (ServesWell cfg i) others others.step
      (keys >>= fun ks : Keys F => if ks.isEmpty then .raise jwksUnavailable else .ret ())
      Unavailable s := by
  refine settles_ask (q := .keys) hs fun s' _ _ hbare hnone hw hs _ => ?_
  obtain ⟨hserves, -⟩ := hw
  cases hserves
  rw [hbare hnone]
  exact settles_raise hs

/-- The request fails, in a way that is known. -/
theorem settles_fetchKeys (cfg : Config) (i : ι) (hs : Bare s) :
    Settles (ServesWell cfg i) others others.step (fetchKeys : Eff F Unit) Unavailable s := by
  refine settles_ask (q := .get) hs fun s' response s'' _ hnone hw hs _ => ?_
  change Settles _ _ _ (match fetch response with
    | .ok fetched => publish fetched
    | .error (.other name) => .raise (.uncaught (.other name))
    | .error _ => keys >>= fun ks => if ks.isEmpty then .raise jwksUnavailable else .ret ()) _ _
  have hknown : ∀ name, fetch response ≠ .error (.other name) := hw.2 hnone
  cases hfetch : fetch response with
  | ok fetched =>
    -- A set that is published is one that has been fetched.
    refine settles_ask (q := .publish fetched) hs fun _ _ _ _ _ hw _ hnone => ?_
    obtain ⟨hserves, -⟩ := hw
    cases hserves
    cases hnone
  | error e =>
    cases e with
    | httpError => exact settles_stale cfg i hs
    | valueError => exact settles_stale cfg i hs
    | other name => exact absurd hfetch (hknown name)

/-- Nobody has fetched meanwhile, and the floor has passed. -/
theorem settles_refreshLocked (cfg : Config) (i : ι) (waitingSince : Seconds) (hs : Bare s) :
    Settles (ServesWell cfg i) others others.step (refreshLocked cfg waitingSince : Eff F Unit)
      Unavailable s := by
  refine settles_ask (q := .fetchedAt) hs fun _ _ s _ hnone hw hs _ => ?_
  obtain ⟨hserves, -⟩ := hw
  cases hserves
  rw [hnone]
  refine settles_ask (q := .lastAttempt) hs fun _ answer s _ hnone hw hs _ => ?_
  obtain ⟨-, hmeets⟩ := hw
  obtain ⟨t, last⟩ := answer
  have hfloor : ¬ (last.any (t - · < cfg.minRefreshIntervalS)) = true := by
    rw [Option.any_eq_true]
    rintro ⟨attempted, hattempted, hlt⟩
    exact absurd (hmeets hnone attempted hattempted) (not_le.mpr (of_decide_eq_true hlt))
  change Settles _ _ _ (if last.any (t - · < cfg.minRefreshIntervalS) then _ else _) _ _
  rw [if_neg hfloor]
  exact settles_ask (q := .setLastAttemptAt t) hs fun _ _ _ _ _ _ hs _ =>
    settles_fetchKeys cfg i hs

theorem settles_refresh (cfg : Config) (i : ι) (hs : Bare s) :
    Settles (ServesWell cfg i) others others.step (refresh cfg : Eff F Unit) Unavailable s := by
  refine settles_ask (q := .now) hs fun _ waitingSince _ _ _ _ hs _ => ?_
  refine settles_ask (q := .acquire) hs fun _ _ _ _ _ _ hs _ => ?_
  change Settles _ _ _ ((refreshLocked cfg waitingSince).attempt >>= _) _ _
  refine Settles.bind (Settles.attempt ((settles_refreshLocked cfg i waitingSince hs).mono ?_))
  intro r s h
  by_cases hnone : s.fetchedAt = none
  · rw [h.2 hnone]
    exact settles_ask (q := .release) h.1 fun _ _ _ _ _ _ hs _ => settles_raise hs
  · exact settles_of_fetched hnone

/-- **A call for a key** comes to nothing but that the keys are unavailable, whatever the others
do, while nothing has been fetched. -/
theorem settles_getKey (cfg : Config) (i : ι) (kid : String) (hs : Bare s) :
    Settles (ServesWell cfg i) others others.step (getKey cfg kid : Eff F (Value F)) Unavailable
      s := by
  refine settles_ask (q := .fetchedAt) hs fun _ _ s _ hnone hw hs _ => ?_
  obtain ⟨hserves, -⟩ := hw
  cases hserves
  rw [hnone]
  change Settles _ _ _ (refresh cfg >>= _) _ _
  refine Settles.bind ((settles_refresh cfg i hs).mono ?_)
  intro r s h
  by_cases hnone : s.fetchedAt = none
  · rw [h.2 hnone]
    exact ⟨h.1, fun _ => rfl⟩
  · cases r with
    | ok _ => exact settles_of_fetched hnone
    | error e => exact unavailable_of_fetched hnone _

end

/-! ## The outage -/

/-- What the outage comes to for whoever has ended before anything was fetched. -/
def Blameless (p : Eff F (Value F)) : Prop :=
  match p with
  | .ask _ _ => True
  | .ret _ => False
  | .raise e => e = jwksUnavailable

/-- **An outage of the key server is nobody's fault but its own**, as long as the floor keeps
nobody from trying: in every run of calls whose steps meet what they have to, whoever has come to
an end before anything was fetched was told that the keys are unavailable. -/
theorem outage_of_meets [DecidableEq ι] (cfg : Config) (kids : ι → String)
    {c : Pool ι (iface F) Raised (Value F) (Cache F ι)}
    (h : Pool.Reach (ServesWell cfg) (fun _ _ => False) (calls cfg kids) c)
    (hnever : c.store.fetchedAt = none) (i : ι) : Blameless (c.prog i) := by
  have hsettles := h.settles (R := fun _ => others) (G := fun _ => others.step)
    (Q := fun _ => Unavailable) (fun _ _ _ _ _ hstep => hstep) (fun _ _ _ hfalse => hfalse.elim)
    (fun i => settles_getKey cfg i (kids i) fun _ => rfl) i
  cases hprog : c.prog i with
  | ask q k => trivial
  | ret key =>
    rw [hprog] at hsettles
    cases (hsettles c.store (others.refl _)).2 hnever
  | raise e =>
    rw [hprog] at hsettles
    exact Except.error.inj ((hsettles c.store (others.refl _)).2 hnever)

/-- A call that finds nothing fetched, gets the lock and is the first to try: its request fails. -/
theorem leads_first (cfg : Config) (kid : String) (i : ι) (t : Seconds) :
    Leads (ServesWell cfg i) (getKey cfg kid : Eff F (Value F)) {} (.error jwksUnavailable)
      { lastAttemptAt := some t } := by
  refine leads_ask.mpr ⟨none, _, ⟨.fetchedAt, trivial⟩, ?_⟩
  refine leads_ask.mpr ⟨t, _, ⟨.now t, trivial⟩, ?_⟩
  refine leads_ask.mpr ⟨(), _, ⟨.acquire rfl, trivial⟩, ?_⟩
  refine leads_ask.mpr ⟨none, _, ⟨.fetchedAt, trivial⟩, ?_⟩
  refine leads_ask.mpr ⟨(t, none), _, ⟨.lastAttempt t, fun _ _ hlast => nomatch hlast⟩, ?_⟩
  refine leads_ask.mpr ⟨(), _, ⟨.setLastAttemptAt t, trivial⟩, ?_⟩
  refine leads_ask.mpr ⟨.raised .httpError, _, ⟨.get _, fun _ _ hother => nomatch hother⟩, ?_⟩
  refine leads_ask.mpr ⟨[], _, ⟨.keys, trivial⟩, ?_⟩
  refine leads_ask.mpr ⟨(), _, ⟨.release, trivial⟩, ?_⟩
  exact leads_raise.mpr ⟨rfl, rfl⟩

/-- A call behind the lock within the floor goes back, and finds no key. -/
theorem leads_throttled (cfg : Config) (kid : String) (i : ι) {last t : Seconds}
    (hfloor : t - last < cfg.minRefreshIntervalS) :
    Leads (Serves i) (getKey cfg kid : Eff F (Value F)) { lastAttemptAt := some last }
      (.error invalidToken) { lastAttemptAt := some last } := by
  refine leads_ask.mpr ⟨none, _, .fetchedAt, ?_⟩
  refine leads_ask.mpr ⟨t, _, .now t, ?_⟩
  refine leads_ask.mpr ⟨(), _, .acquire rfl, ?_⟩
  refine leads_ask.mpr ⟨none, _, .fetchedAt, ?_⟩
  refine leads_ask.mpr ⟨(t, some last), _, .lastAttempt t, ?_⟩
  have hrecent : (some last).any (t - · < cfg.minRefreshIntervalS) = true := decide_eq_true hfloor
  change Leads _ (((if (some last).any (t - · < cfg.minRefreshIntervalS) then .ret ()
    else setLastAttemptAt t >>= fun _ => fetchKeys : Eff F Unit).attempt >>= _) >>= _) _ _ _
  rw [if_pos hrecent]
  refine leads_ask.mpr ⟨(), _, .release, ?_⟩
  refine leads_ask.mpr ⟨[], _, .keys, ?_⟩
  exact leads_raise.mpr ⟨rfl, rfl⟩

/-- One such call, on its own. -/
theorem outage_one_call :
    ∃ c : Pool Unit (iface Unit) Raised (Value Unit) (Cache Unit Unit),
      c.prog () = .raise jwksUnavailable ∧ Blameless (c.prog ()) := by
  obtain ⟨_, hruns, haccepts⟩ := leads_first (F := Unit) defaults "k" () 0
  have hstart : Pool.Reach (ServesWell defaults) (fun _ _ => False)
      (calls (F := Unit) defaults fun _ : Unit => "k") (calls defaults fun _ => "k") := .start
  have hreach := hstart.runs hruns haccepts
  exact ⟨_, rfl, outage_of_meets defaults _ hreach rfl ()⟩

/-- Two calls for one key within a minute, while the key server fails: to the second it looks
as if its key were unknown. -/
theorem not_outage :
    ¬ ∀ c : Pool Bool (iface Unit) Raised (Value Unit) (Cache Unit Bool),
      Pool.Reach Serves (fun _ _ => False) (calls defaults fun _ => "k") c →
        c.store.fetchedAt = none → ∀ i, Blameless (c.prog i) := by
  intro h
  obtain ⟨_, hfirst, hfirst'⟩ := leads_first (F := Unit) defaults "k" false 0
  obtain ⟨_, hsecond, hsecond'⟩ :=
    leads_throttled (F := Unit) defaults "k" true (show (1 : Seconds) - 0 < 60 by norm_num)
  have hstart : Pool.Reach Serves (fun _ _ => False)
      (calls (F := Unit) defaults fun _ : Bool => "k") (calls defaults fun _ => "k") := .start
  have hone := hstart.runs hfirst (hfirst'.mono fun _ _ _ _ hw => hw.1)
  have htwo := hone.runs (i := true) hsecond hsecond'
  cases h _ htwo rfl true

end

end Jwks

end LlmGateway
