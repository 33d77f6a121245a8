import LlmGateway.Effects.Embed
import LlmGateway.Perception.Lane

/-!
# The chain of tiers

`_run_chain` and what it calls: tier 0 and its two stores, native passthrough,
the extraction behind its lock, the local tier. Every call that leaves the
process is a question.
-/

namespace LlmGateway

namespace Perception

namespace Lane

open Effects

/-- What a call of the lane may raise. -/
inductive Fault where
  | redis
  | exn (e : Exn)
  | fileUnreadable (fileHash filename : String)
  deriving DecidableEq, Repr

/-- A row of `file_extractions`. -/
structure FileExtraction where
  fileHash : String
  text : String
  extractedByProvider : String
  extractedByModel : String
  extractionConfidence : String
  tier : String
  deriving DecidableEq, Repr

/-- The structured log lines of the lane. -/
inductive LogLine where
  | cacheReadFailed
  | cacheWriteFailed
  | cacheUnreadable
  | slotMissing
  | lockUnavailable
  | lockReleaseFailed
  | lockWaitSatisfied (fileHash : String)
  | lockWaitExpired (fileHash : String)
  | tierFailed (tier : ExtractionTier) (fileHash : String)
  | fileUnreadable (ref : FileRef) (provider model : String)
  deriving DecidableEq, Repr

/-- The questions of the lane. -/
inductive Ask where
  /-- `GET extract:{hash}`. -/
  | redisGet (fileHash : String)
  /-- The row, in a session of its own. -/
  | rowGet (fileHash : String)
  /-- `SET extract:{hash}`. -/
  | redisSet (extraction : Extraction)
  /-- `registry.candidates("perception")`. -/
  | candidates
  | uuid4
  /-- `SET lock:extract:{hash} NX EX 60`. -/
  | lockSet (fileHash token : String)
  | lockGet (fileHash : String)
  | lockDelete (fileHash : String)
  | sleep (delayS : Seconds)
  /-- A question of the walk. -/
  | walk (q : Perception.Ask)
  | fetch (fileHash : String)
  | measure (mime : String) (data : List UInt8)
  | extractLocally (fileHash mime : String) (data : List UInt8)
  | persistLocal (extraction : Extraction)
  | log (line : LogLine)

/-- A key may be absent, or hold what does not parse. -/
abbrev Cached : Type := Option (Option Extraction)

def Ans : Ask → Type
  | .redisGet _ => Except Fault Cached
  | .rowGet _ => Except Fault (Option FileExtraction)
  | .redisSet _ => Except Fault Unit
  | .candidates => Option (List Candidate)
  | .uuid4 => String
  | .lockSet _ _ => Except Fault Bool
  | .lockGet _ => Except Fault (Option String)
  | .lockDelete _ => Except Fault Unit
  | .sleep _ => Except Fault Unit
  | .walk q => Perception.Ans q
  | .fetch _ => Except Fault (List UInt8)
  | .measure _ _ => Except Fault Measurement
  | .extractLocally _ _ _ => Except Fault (Option Extraction)
  | .persistLocal _ => Except Fault Unit
  | .log _ => Unit

/-- The interface of the lane. -/
abbrev iface : Iface := ⟨Ask, Ans⟩

/-- A computation of the lane. -/
abbrev Eff (α : Type) : Type := Prog iface Fault α

def redisGet (fileHash : String) : Eff Cached := .ask (.redisGet fileHash) .ofExcept

def rowGet (fileHash : String) : Eff (Option FileExtraction) := .ask (.rowGet fileHash) .ofExcept

def redisSet (extraction : Extraction) : Eff Unit := .ask (.redisSet extraction) .ofExcept

def candidates : Eff (Option (List Candidate)) := .ask .candidates .ret

def uuid4 : Eff String := .ask .uuid4 .ret

def lockSet (fileHash token : String) : Eff Bool := .ask (.lockSet fileHash token) .ofExcept

def lockGet (fileHash : String) : Eff (Option String) := .ask (.lockGet fileHash) .ofExcept

def lockDelete (fileHash : String) : Eff Unit := .ask (.lockDelete fileHash) .ofExcept

def sleep (delayS : Seconds) : Eff Unit := .ask (.sleep delayS) .ofExcept

def fetch (fileHash : String) : Eff (List UInt8) := .ask (.fetch fileHash) .ofExcept

def measure (mime : String) (data : List UInt8) : Eff Measurement :=
  .ask (.measure mime data) .ofExcept

def extractLocally (fileHash mime : String) (data : List UInt8) : Eff (Option Extraction) :=
  .ask (.extractLocally fileHash mime data) .ofExcept

def persistLocal (extraction : Extraction) : Eff Unit :=
  .ask (.persistLocal extraction) .ofExcept

def log (line : LogLine) : Eff Unit := .ask (.log line) .ret

/-- What the resolver is built with. -/
structure Config where
  /-- Whether there is a Redis. -/
  redis : Bool := true
  /-- Whether there is a quota tracker. -/
  quota : Bool := true
  /-- `PERCEPTION_LOCAL_ONLY`. -/
  localOnly : Bool := false
  /-- `grade`, of the text of a reading. -/
  grade : String → Confidence

/-- `except RedisError`, with a log line. -/
def orLog {α : Type} (p : Eff α) (line : LogLine) (a : α) : Eff α := do
  match ← p.attempt with
  | .ok b => return b
  | .error .redis =>
    log line
    return a
  | .error e => .raise e

/-! ## Tier 0 -/

/-- `_as_confidence`. -/
def asConfidence (raw : String) : Confidence :=
  if raw = "high" then .high else if raw = "medium" then .medium else .low

/-- The reading a row holds. -/
def FileExtraction.extraction (row : FileExtraction) : Extraction where
  fileHash := row.fileHash
  text := row.text
  confidence := asConfidence row.extractionConfidence
  tier := if row.tier = "llm" then "llm" else "local"
  provider := row.extractedByProvider
  model := row.extractedByModel

/-- `_cache`. -/
def cache (cfg : Config) (extraction : Extraction) : Eff Unit :=
  if cfg.redis then orLog (redisSet extraction) .cacheWriteFailed () else return

/-- The fast half of `load_cached`. -/
def loadFast (cfg : Config) (fileHash : String) : Eff (Option Extraction) :=
  if cfg.redis then do
    match ← orLog (redisGet fileHash) .cacheReadFailed none with
    | none => return none
    | some none =>
      log .cacheUnreadable
      return none
    | some (some cached) => return some cached
  else return none

/-- `load_cached`: Redis first, Postgres second. -/
def loadCached (cfg : Config) (fileHash : String) : Eff (Option Extraction) := do
  match ← loadFast cfg fileHash with
  | some cached => return some cached
  | none =>
    match ← rowGet fileHash with
    | none => return none
    | some row =>
      cache cfg row.extraction
      return some row.extraction

/-! What tier 0 asks. -/

section

variable {A : Ask → Prop} {cfg : Config}

theorem asks_orLog {α : Type} {p : Eff α} {line : LogLine} {a : α} (hline : A (.log line))
    (hp : p.Asks A) : (orLog p line a).Asks A := by
  unfold orLog
  refine Prog.Asks.bind (Prog.Asks.attempt hp) fun r => ?_
  split
  · trivial
  · exact ⟨hline, fun _ => trivial⟩
  · trivial

theorem asks_cache {extraction : Extraction} (hset : A (.redisSet extraction))
    (hlog : ∀ line, A (.log line)) : (cache cfg extraction).Asks A := by
  unfold cache
  split
  · exact asks_orLog (hlog _) ⟨hset, fun _ => Prog.asks_ofExcept _⟩
  · trivial

theorem asks_loadCached {fileHash : String} (hget : A (.redisGet fileHash))
    (hrow : A (.rowGet fileHash)) (hset : ∀ extraction, A (.redisSet extraction))
    (hlog : ∀ line, A (.log line)) : (loadCached cfg fileHash).Asks A := by
  unfold loadCached loadFast
  refine Prog.Asks.bind ?_ fun fast => ?_
  · split
    · refine Prog.Asks.bind (asks_orLog (hlog _) ⟨hget, fun _ => Prog.asks_ofExcept _⟩)
        fun found => ?_
      split
      · trivial
      · exact ⟨hlog _, fun _ => trivial⟩
      · trivial
    · trivial
  · split
    · trivial
    · refine Prog.Asks.bind ⟨hrow, fun _ => Prog.asks_ofExcept _⟩ fun row => ?_
      split
      · trivial
      · exact Prog.Asks.bind (asks_cache (hset _) hlog) fun _ => trivial

end

/-! ## Tier 2 -/

/-- `LOCK_POLL_S`. -/
def lockPollS : Seconds := 1 / 4

/-- The polls that fit into `LOCK_WAIT_S`, ten seconds. -/
def lockPolls : Nat := 40

/-- The loop of `_await_winner`, with `polls` left. -/
def awaitWinner (cfg : Config) (fileHash : String) : Nat → Eff (Option Extraction)
  | 0 => return none
  | polls + 1 => do
    sleep lockPollS
    match ← loadCached cfg fileHash with
    | some found =>
      log (.lockWaitSatisfied fileHash)
      return some found
    | none => awaitWinner cfg fileHash polls

/-- `_Lock.acquire`: whether to go on at once, and whether the lock is held. -/
def acquire (cfg : Config) (fileHash token : String) : Eff (Bool × Bool) :=
  if cfg.redis then
    -- Redis being unreachable disables the guard, not the extraction
    orLog (do let won ← lockSet fileHash token; return (won, won)) .lockUnavailable (true, false)
  else return (true, false)

/-- `_Lock.release`. -/
def release (cfg : Config) (fileHash token : String) (held : Bool) : Eff Unit :=
  if cfg.redis && held then
    orLog (do
      let current ← lockGet fileHash
      if current = some token then lockDelete fileHash else return) .lockReleaseFailed ()
  else return

/-- `try p finally q`. -/
def finally' {α : Type} (p : Eff α) (q : Eff Unit) : Eff α := do
  let r ← (p.attempt : Eff (Except Fault α))
  q
  .ofExcept r

/-- The walk, its questions passed on. -/
def walk (cfg : Config) (fileHash : String) (sizeBytes : Nat) (chain : List Candidate) :
    Eff (Option Extraction) :=
  ((walkCandidates { fileHash, sizeBytes, quota := cfg.quota, grade := cfg.grade } chain).mapError
    Fault.exn).embed Ask.walk fun _ a => a

/-- What is done under the lock: tier 0 again, then the walk. -/
def underLock (cfg : Config) (fileHash : String) (sizeBytes : Nat) (chain : List Candidate) :
    Eff (Option Extraction) := do
  match ← loadCached cfg fileHash with
  | some cached => return some cached
  | none => walk cfg fileHash sizeBytes chain

/-- What follows the attempt to take the lock. -/
def behindLock (cfg : Config) (fileHash token : String) (sizeBytes : Nat)
    (chain : List Candidate) (goOn held : Bool) : Eff (Option Extraction) := do
  let waited ← if goOn then pure none else awaitWinner cfg fileHash lockPolls
  match waited with
  | some waited => return some waited
  | none =>
    if goOn then pure () else log (.lockWaitExpired fileHash)
    finally' (underLock cfg fileHash sizeBytes chain) (release cfg fileHash token held)

/-- `extract_with_llm`. -/
def extractWithLlm (cfg : Config) (fileHash : String) (sizeBytes : Nat) :
    Eff (Option Extraction) := do
  match ← candidates with
  | none =>
    log .slotMissing
    return none
  | some chain =>
    let token ← uuid4
    let (goOn, held) ← acquire cfg fileHash token
    behindLock cfg fileHash token sizeBytes chain goOn held

/-! ## The chain -/

/-- Whether `except Exception` of `_guarded` swallows it. -/
def Fault.swallowed : Fault → Bool
  | .redis | .exn (.provider _) | .exn (.other _) => true
  | .exn .cancelled | .exn .generatorExit | .fileUnreadable _ _ => false

/-- `_guarded`: what a tier raises is a log line, and nothing found. -/
def guarded {α : Type} (tier : ExtractionTier) (fileHash : String) (step : Eff (Option α)) :
    Eff (Option α) := do
  match ← step.attempt with
  | .ok found => return found
  | .error e =>
    if e.swallowed then
      log (.tierFailed tier fileHash)
      return none
    else .raise e

/-- What `_Lazy` has: nothing yet, or what the one fetch came to. -/
abbrev Bytes : Type := Option (Option (List UInt8))

/-- The bytes, fetched once. -/
def bytesOf (tier : ExtractionTier) (fileHash : String) (bytes : Bytes) :
    Eff (Option (List UInt8)) :=
  match bytes with
  | some fetched => return fetched
  | none => guarded tier fileHash (some <$> fetch fileHash)

/-- Tier 1, where it is wanted. -/
def tierOne (ref : FileRef) (nativeWanted : Bool) : Eff (Option Reading × Bytes) :=
  if nativeWanted then do
    match ← bytesOf .native ref.fileHash none with
    | some data =>
      let measurement ← guarded .native ref.fileHash (some <$> measure ref.mime data)
      return (some (.native data (measurement.getD {})), some (some data))
    | none => return (none, some none)
  else return (none, none)

/-- Tier 2, unless the lane is local only. -/
def tierTwo (cfg : Config) (ref : FileRef) (bytes : Bytes) : Eff (Option Extraction × Bytes) :=
  if cfg.localOnly then return (none, bytes)
  else do
    let data ← bytesOf .llm ref.fileHash bytes
    match data with
    | some found =>
      let extracted ← guarded .llm ref.fileHash
        (extractWithLlm cfg ref.fileHash found.length)
      return (extracted, some data)
    | none => return (none, some data)

/-- `_local`. -/
def readLocally (cfg : Config) (ref : FileRef) (data : List UInt8) : Eff (Option Extraction) := do
  match ← extractLocally ref.fileHash ref.mime data with
  | none => return none
  | some reading =>
    if cfg.localOnly then pure () else persistLocal reading
    return some reading

/-- Tier 3, and the bottom of the chain. -/
def tierThree (cfg : Config) (ref : FileRef) (spec : RenderSpec) (bytes : Bytes) :
    Eff Reading := do
  let reading ← match ← bytesOf .local ref.fileHash bytes with
    | some data => guarded .local ref.fileHash (readLocally cfg ref data)
    | none => pure none
  match reading with
  | some reading => return .extracted reading .local
  | none =>
    log (.fileUnreadable ref spec.provider spec.model)
    .raise (.fileUnreadable ref.fileHash ref.filename)

/-- `_run_chain`, once tier 0 came to `cached`. -/
def behindTierZero (cfg : Config) (ref : FileRef) (spec : RenderSpec) (nativeWanted : Bool)
    (cached : Option Extraction) : Eff Reading := do
  let (native, bytes) ← tierOne ref nativeWanted
  match native with
  | some reading => return reading
  | none =>
    let (extracted, bytes) ← tierTwo cfg ref bytes
    match extracted, cached with
    | some extraction, _ => return .extracted extraction .llm
    -- the reading held back, now that tier 2 had its chance
    | none, some held => return .extracted held .cache
    | none, none => tierThree cfg ref spec bytes

/-- Tier 0, skipped wholesale under the flag. -/
def tierZero (cfg : Config) (ref : FileRef) : Eff (Option Extraction) :=
  if cfg.localOnly then return none
  else guarded .cache ref.fileHash (loadCached cfg ref.fileHash)

/-- **`_run_chain`**, up to the label. -/
def runChain (cfg : Config) (ref : FileRef) (spec : RenderSpec) (nativeWanted : Bool) :
    Eff Reading := do
  let cached ← tierZero cfg ref
  match cached with
  | some extraction =>
    if extraction.tier = "llm" then return .extracted extraction .cache
    else behindTierZero cfg ref spec nativeWanted cached
  | none => behindTierZero cfg ref spec nativeWanted cached

end Lane

end Perception

end LlmGateway
