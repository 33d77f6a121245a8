import LlmGateway.Api.Multipart
import LlmGateway.Effects.Checked
import LlmGateway.Effects.Pool
import LlmGateway.Effects.Twin
import LlmGateway.Routing.Interface
import Mathlib.Data.List.Nodup

/-!
# Uploads

`POST /v1/files`: the bytes go to the object store under their digest, and a row
records that this user may name it. Any number of uploads run at once over one
store and one table; the store may fail at any call and the database at any
statement.
-/

namespace LlmGateway

namespace Files

open Effects

/-! ## Types -/

/-- `sniff_mime`. -/
def sniffMime (head : Bytes) : Option String :=
  if (ascii "%PDF-").isPrefixOf head then some "application/pdf"
  else if [0x89, 0x50, 0x4e, 0x47, 0x0d, 0x0a, 0x1a, 0x0a].isPrefixOf head then some "image/png"
  else if [0xff, 0xd8, 0xff].isPrefixOf head then some "image/jpeg"
  else if head.take 4 = ascii "RIFF" ∧ (head.drop 8).take 4 = ascii "WEBP" then some "image/webp"
  else none

/-- `SNIFF_PREFIX_BYTES`. -/
def sniffPrefixBytes : Nat := 12

/-- `MAX_FILENAME_LENGTH`. -/
def maxFilenameLength : Nat := 255

/-- `object_path`, unless the digest is too short. -/
def objectPath (fileHash : String) : Option String :=
  if fileHash.length < 2 then none
  else some (String.ofList (fileHash.toList.take 2 ++ '/' :: fileHash.toList))

/-- **Two digests, two paths.** -/
theorem objectPath_inj {fileHash fileHash' path : String} (h : objectPath fileHash = some path)
    (h' : objectPath fileHash' = some path) : fileHash = fileHash' := by
  have hdrop : ∀ {fileHash : String}, objectPath fileHash = some path →
      path.toList.drop 3 = fileHash.toList := by
    intro fileHash hpath
    unfold objectPath at hpath
    split at hpath
    next => cases hpath
    next hlen =>
      obtain rfl := Option.some.inj hpath
      have htake : (fileHash.toList.take 2).length = 2 := by
        rw [List.length_take, String.length_toList]
        omega
      rw [String.toList_ofList, List.drop_append, htake,
        List.drop_eq_nil_of_le (by omega), List.nil_append]
      rfl
  exact String.toList_inj.mp ((hdrop h).symm.trans (hdrop h'))

/-! ## Rows -/

/-- A row of `files`: one user's right to name one digest. -/
structure File where
  userId : String
  fileHash : String
  filename : String
  mime : String
  bytes : Nat
  storagePath : String
  createdAt : String
  deriving DecidableEq, Repr

/-- The unique constraint. -/
def File.key (file : File) : String × String := (file.userId, file.fileHash)

/-- `FileOut`. -/
structure FileOut where
  fileHash : String
  filename : String
  mime : String
  bytes : Nat
  createdAt : String
  deriving DecidableEq, Repr

/-- `_to_out`. -/
def toOut (row : File) : FileOut :=
  { fileHash := row.fileHash, filename := row.filename, mime := row.mime, bytes := row.bytes
    createdAt := row.createdAt }

/-- `FileUploadResponse`. -/
structure FileUploadResponse extends FileOut where
  deduplicated : Bool
  deriving DecidableEq, Repr

/-! ## The interface -/

/-- The questions of an upload. -/
inductive Ask where
  | getOwned (userId fileHash : String)
  | exists (path : String)
  | put (path : String) (data : Bytes)
  /-- `INSERT … ON CONFLICT DO NOTHING RETURNING`. -/
  | insert (userId fileHash filename mime : String) (bytes : Nat) (storagePath : String)
  | commit
  deriving DecidableEq, Repr

/-- The store answers `StorageUnavailable` with its text. -/
def Ans : Ask → Type
  | .getOwned _ _ => Except Exn (Option File)
  | .exists _ => Except String Bool
  | .put _ _ => Except String Unit
  | .insert _ _ _ _ _ _ => Except Exn (Option File)
  | .commit => Except Exn Unit

abbrev iface : Iface := ⟨Ask, Ans⟩

/-- What an upload raises. -/
inductive Raised where
  | refused (refusal : Refused)
  | exn (e : Exn)
  deriving DecidableEq, Repr

abbrev Eff (α : Type) : Type := Prog iface Raised α

def db {α : Type} : Except Exn α → Except Raised α
  | .ok a => .ok a
  | .error e => .error (.exn e)

def storageUnavailable : Refused :=
  .serviceUnavailable "File storage is temporarily unavailable. Try the upload again."
    "storage_unavailable"

def stored {α : Type} : Except String α → Except Raised α
  | .ok a => .ok a
  | .error _ => .error (.refused storageUnavailable)

def getOwned (userId fileHash : String) : Eff (Option File) :=
  .ask (.getOwned userId fileHash) fun a => .ofExcept (db a)

def «exists» (path : String) : Eff Bool := .ask (.exists path) fun a => .ofExcept (stored a)

def put (path : String) (data : Bytes) : Eff Unit :=
  .ask (.put path data) fun a => .ofExcept (stored a)

def commit : Eff Unit := .ask .commit fun a => .ofExcept (db a)

/-! ## The endpoint -/

/-- `create_if_absent`. -/
def createIfAbsent (userId fileHash filename mime : String) (bytes : Nat) (storagePath : String) :
    Eff (File × Bool) :=
  .ask (.insert userId fileHash filename mime bytes storagePath) fun a => do
    match ← Prog.ofExcept (db a) with
    | some created => return (created, true)
    | none =>
      match ← getOwned userId fileHash with
      | some existing => return (existing, false)
      | none => .raise (.exn (.other "RuntimeError"))

/-- The name that is stored. -/
def filenameFor (upload : StreamedUpload) : String :=
  let filename := (upload.filename.filter (· ≠ "")).getD "upload"
  if maxFilenameLength < filename.length then
    String.ofList (filename.toList.take maxFilenameLength)
  else filename

def unsupported : Refused :=
  .unsupportedMediaType ("That file is not a PDF, PNG, JPEG or WebP. Those are the formats " ++
    "the gateway can read.")

section

variable (sha256 : Bytes → String)

/-- The store, if the object is not there yet. -/
def storeObject (path : String) (data : Bytes) : Eff Unit := do
  if ← «exists» path then return
  else put path data

/-- `upload_file`, behind the dedup. -/
def claimFile (userId : String) (upload : StreamedUpload) (fileHash mime : String) :
    Eff FileUploadResponse :=
  match objectPath fileHash with
  | none => .raise (.exn (.other "ValueError"))
  | some path => do
    storeObject path upload.data
    let (row, created) ←
      createIfAbsent userId fileHash (filenameFor upload) mime upload.size path
    commit
    return { toOut row with deduplicated := !created }

/-- **`upload_file`**, of what has been read of the body. -/
def uploadFile (userId : String) (upload : StreamedUpload) : Eff FileUploadResponse :=
  match sniffMime (upload.data.take sniffPrefixBytes) with
  | none => .raise (.refused unsupported)
  | some mime => do
    let fileHash := sha256 upload.digest
    match ← getOwned userId fileHash with
    | some owned => return { toOut owned with deduplicated := true }
    | none => claimFile userId upload fileHash mime

end

/-- `read_file`. -/
def readFile (rows : List File) (userId fileHash : String) : Except Refused FileOut :=
  match rows.find? fun row => row.key = (userId, fileHash) with
  | none => .error (.notFound "That file does not exist." "file_not_found")
  | some row => .ok (toOut row)

/-! ## The store and the table -/

/-- The objects, the committed rows, and the row each transaction has inserted. -/
structure Store (ι : Type) where
  objects : String → Option Bytes := fun _ => none
  rows : List File := []
  pending : ι → Option File := fun _ => none

section

variable {ι : Type} [DecidableEq ι]

/-- The row a request owns, as its transaction sees the table. -/
def Store.owned (s : Store ι) (userId fileHash : String) : Option File :=
  s.rows.find? fun row => row.key = (userId, fileHash)

/-- The world of member `i`. A call that fails may have had its effect or not; an insert waits for
the transactions that hold its key. -/
inductive Serves (i : ι) : World iface (Store ι)
  | getOwned {s : Store ι} (userId fileHash : String) :
      Serves i s (.getOwned userId fileHash) (.ok (s.owned userId fileHash)) s
  | exists {s : Store ι} (path : String) :
      Serves i s (.exists path) (.ok (s.objects path).isSome) s
  | existsFails {s : Store ι} (path reason : String) : Serves i s (.exists path) (.error reason) s
  | put {s : Store ι} (path : String) (data : Bytes) :
      Serves i s (.put path data) (.ok ())
        { s with objects := Function.update s.objects path (some data) }
  | putFails {s : Store ι} (path : String) (data : Bytes) (reason : String) :
      Serves i s (.put path data) (.error reason) s
  | putUnheard {s : Store ι} (path : String) (data : Bytes) (reason : String) :
      Serves i s (.put path data) (.error reason)
        { s with objects := Function.update s.objects path (some data) }
  | insert {s : Store ι} (userId fileHash filename mime : String) (bytes : Nat)
      (storagePath createdAt : String)
      (hfree : ∀ other ∈ s.rows, other.key ≠ (userId, fileHash))
      (hwait : ∀ j, ∀ other ∈ s.pending j, other.key ≠ (userId, fileHash)) :
      Serves i s (.insert userId fileHash filename mime bytes storagePath)
        (.ok (some { userId, fileHash, filename, mime, bytes, storagePath, createdAt }))
        { s with
          pending := Function.update s.pending i
            (some { userId, fileHash, filename, mime, bytes, storagePath, createdAt }) }
  | conflict {s : Store ι} (userId fileHash filename mime : String) (bytes : Nat) (path : String)
      (htaken : ∃ other ∈ s.rows, other.key = (userId, fileHash)) :
      Serves i s (.insert userId fileHash filename mime bytes path) (.ok none) s
  | commit {s : Store ι} :
      Serves i s .commit (.ok ())
        { s with
          rows := s.rows ++ (s.pending i).toList, pending := Function.update s.pending i none }
  | commitUnheard {s : Store ι} (e : Exn) :
      Serves i s .commit (.error e)
        { s with
          rows := s.rows ++ (s.pending i).toList, pending := Function.update s.pending i none }
  -- a statement that fails ends the transaction
  | getOwnedFails {s : Store ι} (userId fileHash : String) (e : Exn) :
      Serves i s (.getOwned userId fileHash) (.error e)
        { s with pending := Function.update s.pending i none }
  | insertFails {s : Store ι} (userId fileHash filename mime : String) (bytes : Nat)
      (path : String) (e : Exn) :
      Serves i s (.insert userId fileHash filename mime bytes path) (.error e)
        { s with pending := Function.update s.pending i none }
  | commitFails {s : Store ι} (e : Exn) :
      Serves i s .commit (.error e) { s with pending := Function.update s.pending i none }

end

/-- A request: whose it is, and what the parser calls for its body. -/
structure Upload where
  userId : String
  contentType : Option Bytes
  callbacks : List Callback

section

variable (lib : Headers) (maxBytes : Nat) (sha256 : Bytes → String)

/-- The endpoint, body and all. -/
def postFile (request : Upload) : Eff FileUploadResponse :=
  match readUpload lib maxBytes request.contentType request.callbacks with
  | .error refusal => .raise (.refused refusal)
  | .ok upload => uploadFile sha256 request.userId upload

/-- The uploads of a process, before the first of them. -/
def uploads {ι : Type} (requests : ι → Upload) : Pool ι iface Raised FileUploadResponse (Store ι) :=
  ⟨{}, fun i => postFile lib maxBytes sha256 (requests i)⟩

end

/-! ## What holds of store and table -/

/-- The object of a row is there: its digest, its length and its type are the row's. -/
def Backed {ι : Type} (sha256 : Bytes → String) (s : Store ι) (row : File) : Prop :=
  ∃ data, s.objects row.storagePath = some data ∧ sha256 data = row.fileHash ∧
    data.length = row.bytes ∧ sniffMime (data.take sniffPrefixBytes) = some row.mime

/-- **Store and table are sound**: every object is where its digest says, every row has its object,
and no user has two rows for one digest. -/
structure Sound {ι : Type} (sha256 : Bytes → String) (s : Store ι) : Prop where
  objects : ∀ path data, s.objects path = some data → objectPath (sha256 data) = some path
  rows : ∀ row ∈ s.rows, Backed sha256 s row
  pending : ∀ i, ∀ row ∈ s.pending i, Backed sha256 s row
  unique : s.rows.Pairwise fun row row' => row.key ≠ row'.key
  fresh : ∀ i, ∀ row ∈ s.pending i, ∀ other ∈ s.rows, other.key ≠ row.key
  apart : ∀ i j, i ≠ j → ∀ row ∈ s.pending i, ∀ other ∈ s.pending j, row.key ≠ other.key

/-- Nothing is lost. -/
structure Grows {ι : Type} (s s' : Store ι) : Prop where
  objects : ∀ path data, s.objects path = some data → s'.objects path = some data
  rows : ∀ row ∈ s.rows, row ∈ s'.rows

section

variable {ι : Type} {sha256 : Bytes → String} {s s' s'' : Store ι}

theorem Grows.refl : Grows s s := ⟨fun _ _ h => h, fun _ h => h⟩

theorem Grows.trans (h : Grows s s') (h' : Grows s' s'') : Grows s s'' :=
  ⟨fun path data hd => h'.objects path data (h.objects path data hd),
    fun row hrow => h'.rows row (h.rows row hrow)⟩

theorem Backed.grows {row : File} (h : Backed sha256 s row) (hg : Grows s s') :
    Backed sha256 s' row := by
  obtain ⟨data, hdata, hrest⟩ := h
  exact ⟨data, hg.objects _ _ hdata, hrest⟩

theorem sound_start : Sound sha256 ({} : Store ι) where
  objects _ _ h := by cases h
  rows _ h := absurd h List.not_mem_nil
  pending _ _ h := by cases h
  unique := List.Pairwise.nil
  fresh _ _ h := by cases h
  apart _ _ _ _ h := by cases h

/-- An object that is written, and may have been there: with these very bytes. -/
theorem Sound.put (h : Sound sha256 s) (hsha : Function.Injective sha256) {path : String}
    {data : Bytes} (hpath : objectPath (sha256 data) = some path) :
    Sound sha256 { s with objects := Function.update s.objects path (some data) } ∧
      Grows s { s with objects := Function.update s.objects path (some data) } := by
  have hg : Grows s { s with objects := Function.update s.objects path (some data) } := by
    refine ⟨fun path' data' hdata => ?_, fun _ hrow => hrow⟩
    by_cases hp : path' = path
    · have hsame : sha256 data' = sha256 data :=
        objectPath_inj (h.objects path' data' hdata) (hp ▸ hpath)
      rw [hp, hsha hsame]
      exact Function.update_self ..
    · exact (Function.update_of_ne hp ..).trans hdata
  refine ⟨⟨fun path' data' hdata => ?_, fun row hrow => (h.rows row hrow).grows hg,
    fun j row hrow => (h.pending j row hrow).grows hg, h.unique, h.fresh, h.apart⟩, hg⟩
  by_cases hp : path' = path
  · have hsome : some data = some data' := by
      rw [← hdata, hp]
      exact (Function.update_self path (some data) s.objects).symm
    rw [← Option.some.inj hsome, hp]
    exact hpath
  · exact h.objects path' data' ((Function.update_of_ne hp ..).symm.trans hdata)

/-- What a lookup finds. -/
theorem mem_of_owned {userId fileHash : String} {row : File} (h : s.owned userId fileHash = some row) :
    row ∈ s.rows ∧ row.key = (userId, fileHash) := by
  have hfind : s.rows.find? (fun row => row.key = (userId, fileHash)) = some row := h
  exact ⟨List.mem_of_find?_eq_some hfind, by simpa using List.find?_some hfind⟩

/-- A row is the only one of its key. -/
theorem Sound.readFile (h : Sound sha256 s) {row : File} (hrow : row ∈ s.rows) :
    readFile s.rows row.userId row.fileHash = .ok (toOut row) := by
  have hfind : s.rows.find? (fun other => other.key = (row.userId, row.fileHash)) = some row := by
    cases hf : s.rows.find? fun other => other.key = (row.userId, row.fileHash) with
    | none => exact absurd (List.find?_eq_none.mp hf row hrow) (by simp [File.key])
    | some other =>
      have hkey : other.key = (row.userId, row.fileHash) := by simpa using List.find?_some hf
      have hnodup : (s.rows.map File.key).Nodup := List.pairwise_map.mpr h.unique
      rw [List.inj_on_of_nodup_map hnodup (List.mem_of_find?_eq_some hf) hrow hkey]
  rw [Files.readFile, hfind]

/-- What a member may rely on. -/
def others (sha256 : Bytes → String) (i : ι) : Rely (Store ι) where
  step s s' := (Sound sha256 s → Sound sha256 s' ∧ Grows s s') ∧ s'.pending i = s.pending i
  refl _ := ⟨fun h => ⟨h, .refl⟩, rfl⟩
  trans h h' := ⟨fun hs => ⟨(h'.1 (h.1 hs).1).1, (h.1 hs).2.trans (h'.1 (h.1 hs).1).2⟩,
    h'.2.trans h.2⟩

/-- What a member guarantees. -/
def Leaves (sha256 : Bytes → String) (i : ι) (s s' : Store ι) : Prop :=
  (Sound sha256 s → Sound sha256 s' ∧ Grows s s') ∧ ∀ j, i ≠ j → s'.pending j = s.pending j

/-- What a member has to know to ask. -/
def Proper (sha256 : Bytes → String) (s : Store ι) : Ask → Prop
  | .put path data => objectPath (sha256 data) = some path
  | .insert _ fileHash _ mime bytes path => ∃ data, s.objects path = some data ∧
      sha256 data = fileHash ∧ data.length = bytes ∧
        sniffMime (data.take sniffPrefixBytes) = some mime
  | _ => True

end

section

variable {ι : Type} [DecidableEq ι] {sha256 : Bytes → String} {s s' : Store ι} {i : ι}

/-- The rows that are left when a transaction is over. -/
theorem mem_update_none {i j : ι} {row : File}
    (h : row ∈ Function.update s.pending i none j) : row ∈ s.pending j ∧ i ≠ j := by
  by_cases hj : j = i
  · rw [hj, Function.update_self] at h
    cases h
  · rw [Function.update_of_ne hj] at h
    exact ⟨h, Ne.symm hj⟩

/-- A transaction that is rolled back. -/
theorem Sound.rollback (h : Sound sha256 s) (i : ι) :
    Sound sha256 { s with pending := Function.update s.pending i none } where
  objects := h.objects
  rows := h.rows
  pending j row hrow := h.pending j row (mem_update_none hrow).1
  unique := h.unique
  fresh j row hrow := h.fresh j row (mem_update_none hrow).1
  apart j k hne row hrow other hother :=
    h.apart j k hne row (mem_update_none hrow).1 other (mem_update_none hother).1

/-- One that is committed. -/
theorem Sound.commit (h : Sound sha256 s) (i : ι) :
    Sound sha256 { s with
      rows := s.rows ++ (s.pending i).toList, pending := Function.update s.pending i none } where
  objects := h.objects
  rows row hrow := by
    rcases List.mem_append.mp hrow with hrow | hrow
    · exact h.rows row hrow
    · exact h.pending i row (Option.mem_toList.mp hrow)
  pending j row hrow := h.pending j row (mem_update_none hrow).1
  unique := by
    refine List.pairwise_append.mpr ⟨h.unique, ?_, ?_⟩
    · cases s.pending i with
      | none => exact List.Pairwise.nil
      | some row => exact List.pairwise_singleton _ _
    · intro other hother row hrow
      exact h.fresh i row (Option.mem_toList.mp hrow) other hother
  fresh j row hrow other hother := by
    obtain ⟨hrow, hne⟩ := mem_update_none hrow
    rcases List.mem_append.mp hother with hother | hother
    · exact h.fresh j row hrow other hother
    · exact h.apart i j hne other (Option.mem_toList.mp hother) row hrow
  apart j k hne row hrow other hother :=
    h.apart j k hne row (mem_update_none hrow).1 other (mem_update_none hother).1

/-- A row that is inserted. -/
theorem Sound.insert (h : Sound sha256 s) (i : ι) {row : File} (hrow : Backed sha256 s row)
    (hfree : ∀ other ∈ s.rows, other.key ≠ row.key)
    (hwait : ∀ j, ∀ other ∈ s.pending j, other.key ≠ row.key) :
    Sound sha256 { s with pending := Function.update s.pending i (some row) } := by
  have hcases : ∀ j r, r ∈ Function.update s.pending i (some row) j →
      (r = row ∧ j = i) ∨ (r ∈ s.pending j ∧ j ≠ i) := by
    intro j r hr
    by_cases hj : j = i
    · rw [hj, Function.update_self] at hr
      exact .inl ⟨(Option.some.inj hr).symm, hj⟩
    · rw [Function.update_of_ne hj] at hr
      exact .inr ⟨hr, hj⟩
  refine ⟨h.objects, h.rows, fun j r hr => ?_, h.unique, fun j r hr other hother => ?_,
    fun j k hne r hr other hother => ?_⟩
  · rcases hcases j r hr with ⟨rfl, -⟩ | ⟨hr, -⟩
    · exact hrow
    · exact h.pending j r hr
  · rcases hcases j r hr with ⟨rfl, -⟩ | ⟨hr, -⟩
    · exact hfree other hother
    · exact h.fresh j r hr other hother
  · rcases hcases j r hr with ⟨rfl, rfl⟩ | ⟨hheld, -⟩
    · rcases hcases k other hother with ⟨-, hk⟩ | ⟨hother, -⟩
      · exact absurd hk.symm hne
      · exact Ne.symm (hwait k other hother)
    · rcases hcases k other hother with ⟨rfl, -⟩ | ⟨hother, -⟩
      · exact hwait j r hheld
      · exact h.apart j k hne r hheld other hother

/-- **One call** of a member that knows what it has to. -/
theorem Serves.leaves (hsha : Function.Injective sha256) {q : Ask} {a : Ans q}
    (h : Serves i s q a s') (hproper : Sound sha256 s → Proper sha256 s q) :
    Leaves sha256 i s s' := by
  have hother : ∀ p, ∀ j, i ≠ j → Function.update s.pending i p j = s.pending j :=
    fun p j hj => Function.update_of_ne (Ne.symm hj) ..
  have hsame : Leaves sha256 i s s := ⟨fun hs => ⟨hs, .refl⟩, fun _ _ => rfl⟩
  have hback : Leaves sha256 i s { s with pending := Function.update s.pending i none } :=
    ⟨fun hs => ⟨hs.rollback i, ⟨fun _ _ hd => hd, fun _ hr => hr⟩⟩, hother none⟩
  have hcommit : Leaves sha256 i s { s with
      rows := s.rows ++ (s.pending i).toList, pending := Function.update s.pending i none } :=
    ⟨fun hs => ⟨hs.commit i, ⟨fun _ _ hd => hd, fun _ hr => List.mem_append_left _ hr⟩⟩,
      hother none⟩
  have hput : ∀ {path data}, (Sound sha256 s → objectPath (sha256 data) = some path) →
      Leaves sha256 i s { s with objects := Function.update s.objects path (some data) } :=
    fun hp => ⟨fun hs => hs.put hsha (hp hs), fun _ _ => rfl⟩
  cases h with
  | getOwned => exact hsame
  | «exists» => exact hsame
  | existsFails => exact hsame
  | put path data => exact hput hproper
  | putFails => exact hsame
  | putUnheard path data => exact hput hproper
  | insert _ _ _ _ _ _ _ hfree hwait =>
    exact ⟨fun hs => ⟨hs.insert i (hproper hs) hfree hwait,
      ⟨fun _ _ hd => hd, fun _ hr => hr⟩⟩, hother (some _)⟩
  | conflict => exact hsame
  | commit => exact hcommit
  | commitUnheard => exact hcommit
  | getOwnedFails => exact hback
  | insertFails => exact hback
  | commitFails => exact hback

/-! ## One upload -/

/-- What an upload comes to: if it is answered, this user has a row for this digest, and it is the
row the answer shows. -/
def Answers (sha256 : Bytes → String) (userId : String) (data : Bytes)
    (r : Except Raised FileUploadResponse) (s : Store ι) : Prop :=
  Sound sha256 s ∧ ∀ response, r = .ok response → ∃ row ∈ s.rows,
    row.key = (userId, sha256 data) ∧ toOut row = response.toFileOut

section

variable {α : Type} {userId : String} {data : Bytes}

/-- One call, of a member that knows `K`, which nobody else undoes. -/
theorem settles_ask (hsha : Function.Injective sha256) {q : Ask} {k : Ans q → Eff α}
    {Q : Except Raised α → Store ι → Prop} {K : Store ι → Prop}
    (hK : ∀ s s', Grows s s' → s'.pending i = s.pending i → K s → K s')
    (hproper : ∀ s, K s → Proper sha256 s q) (hs : Sound sha256 s) (hk : K s)
    (h : ∀ s a s', Sound sha256 s' → K s → Grows s s' → Serves i s q a s' →
      Settles (Serves i) (others sha256 i) (Leaves sha256 i) (k a) Q s') :
    Settles (Serves i) (others sha256 i) (Leaves sha256 i) (.ask q k) Q s := by
  intro s₁ hr a s₂ hw
  obtain ⟨hs₁, hg⟩ := hr.1 hs
  have hk₁ : K s₁ := hK s s₁ hg hr.2 hk
  have hleaves := hw.leaves hsha fun _ => hproper s₁ hk₁
  exact ⟨hleaves, h s₁ a s₂ (hleaves.1 hs₁).1 hk₁ (hleaves.1 hs₁).2 hw⟩

theorem settles_raise (hs : Sound sha256 s) (raised : Raised) :
    Settles (Serves i) (others sha256 i) (Leaves sha256 i)
      (.raise raised) (Answers sha256 userId data) s :=
  fun _ hr => ⟨(hr.1 hs).1, fun _ hok => by cases hok⟩

/-- An answer that shows a row of the table. -/
theorem settles_answer (hs : Sound sha256 s) {row : File} (hrow : row ∈ s.rows)
    (hkey : row.key = (userId, sha256 data)) (deduplicated : Bool) :
    Settles (Serves i) (others sha256 i) (Leaves sha256 i)
      (.ret { toOut row with deduplicated }) (Answers sha256 userId data) s := by
  intro s' hr
  obtain ⟨hs', hg⟩ := hr.1 hs
  refine ⟨hs', fun response hok => ⟨row, hg.rows row hrow, hkey, ?_⟩⟩
  rw [← Except.ok.inj hok]

/-- The commit behind a row that was inserted, or was there. -/
theorem settles_commit (hsha : Function.Injective sha256) (hs : Sound sha256 s) {row : File}
    (hrow : s.pending i = some row ∨ row ∈ s.rows) (hkey : row.key = (userId, sha256 data))
    (created : Bool) :
    Settles (Serves i) (others sha256 i) (Leaves sha256 i)
      (commit >>= fun _ => .ret { toOut row with deduplicated := !created })
      (Answers sha256 userId data) s := by
  refine settles_ask hsha (K := fun s => s.pending i = some row ∨ row ∈ s.rows) ?_
    (fun _ _ => trivial) hs hrow ?_
  · intro s s' hg hpending hk
    exact hk.imp (hpending ▸ id) (hg.rows row)
  · intro s a s' hs' hk hg hw
    cases hw with
    | commit =>
      refine settles_answer hs' (List.mem_append.mpr ?_) hkey _
      rcases hk with hpending | hmem
      · exact .inr (by simp [hpending])
      · exact .inl hmem
    | commitUnheard e => exact settles_raise hs' _
    | commitFails e => exact settles_raise hs' _

/-- The row, once the object is there. -/
theorem settles_createIfAbsent (hsha : Function.Injective sha256) (hs : Sound sha256 s)
    {filename mime path : String} (hmime : sniffMime (data.take sniffPrefixBytes) = some mime)
    (hobject : s.objects path = some data) :
    Settles (Serves i) (others sha256 i) (Leaves sha256 i)
      (createIfAbsent userId (sha256 data) filename mime data.length path >>= fun p =>
        commit >>= fun _ => .ret { toOut p.1 with deduplicated := !p.2 })
      (Answers sha256 userId data) s := by
  refine settles_ask hsha (K := fun s => s.objects path = some data)
    (fun _ _ hg _ hk => hg.objects _ _ hk) (fun _ hk => ⟨data, hk, rfl, rfl, hmime⟩) hs hobject ?_
  intro s a s' hs' _ hg hw
  cases hw with
  | insert => exact settles_commit hsha hs' (.inl (Function.update_self ..)) rfl true
  | insertFails => exact settles_raise hs' _
  | conflict _ _ _ _ _ _ htaken =>
    -- The row is there already, and stays.
    refine settles_ask hsha
      (K := fun s => ∃ other ∈ s.rows, other.key = (userId, sha256 data)) ?_
      (fun _ _ => trivial) hs' htaken ?_
    · rintro s s' hg - ⟨other, hother, hkey⟩
      exact ⟨other, hg.rows other hother, hkey⟩
    · intro s a s' hs' hk hg hw
      cases hw with
      | getOwnedFails => exact settles_raise hs' _
      | getOwned =>
        cases howned : s.owned userId (sha256 data) with
        | none =>
          obtain ⟨other, hother, hkey⟩ := hk
          exact absurd (List.find?_eq_none.mp howned other hother) (by simpa using hkey)
        | some row =>
          obtain ⟨hmem, hkey⟩ := mem_of_owned howned
          exact settles_commit hsha hs' (.inr hmem) hkey false

/-- The object, if it is not there yet. What is there already is these very bytes. -/
theorem settles_storeObject (hsha : Function.Injective sha256) (hs : Sound sha256 s) {path : String}
    (hpath : objectPath (sha256 data) = some path) {f : Unit → Eff FileUploadResponse}
    (hf : ∀ s : Store ι, Sound sha256 s → s.objects path = some data →
      Settles (Serves i) (others sha256 i) (Leaves sha256 i) (f ())
        (Answers sha256 userId data) s) :
    Settles (Serves i) (others sha256 i) (Leaves sha256 i) (storeObject path data >>= f)
      (Answers sha256 userId data) s := by
  refine settles_ask hsha (K := fun _ => True) (fun _ _ _ _ h => h) (fun _ _ => trivial) hs
    trivial ?_
  intro s a s' hs' _ hg hw
  cases hw with
  | existsFails => exact settles_raise hs' _
  | «exists» =>
    cases hobject : s.objects path with
    | some found =>
      have hsame : found = data := hsha (objectPath_inj (hs'.objects path found hobject) hpath)
      exact hf s hs' (hsame ▸ hobject)
    | none =>
      refine settles_ask hsha (K := fun _ => True) (fun _ _ _ _ h => h) (fun _ _ => hpath) hs'
        trivial ?_
      intro s a s' hs' _ hg hw
      cases hw with
      | put => exact hf _ hs' (Function.update_self ..)
      | putFails => exact settles_raise hs' _
      | putUnheard => exact settles_raise hs' _

/-- **One upload**, whatever the others do. -/
theorem settles_uploadFile (hsha : Function.Injective sha256) (hs : Sound sha256 s)
    {upload : StreamedUpload} (hdigest : upload.digest = upload.data)
    (hsize : upload.size = upload.data.length) :
    Settles (Serves i) (others sha256 i) (Leaves sha256 i) (uploadFile sha256 userId upload)
      (Answers sha256 userId upload.data) s := by
  unfold uploadFile
  split
  next => exact settles_raise hs _
  next mime hmime =>
    rw [hdigest]
    refine settles_ask hsha (K := fun _ => True) (fun _ _ _ _ h => h) (fun _ _ => trivial) hs
      trivial ?_
    intro s a s' hs' _ hg hw
    cases hw with
    | getOwnedFails => exact settles_raise hs' _
    | getOwned =>
      cases howned : s.owned userId (sha256 upload.data) with
      | some row =>
        obtain ⟨hmem, hkey⟩ := mem_of_owned howned
        exact settles_answer hs' hmem hkey true
      | none =>
        show Settles _ _ _ (claimFile userId upload (sha256 upload.data) mime) _ _
        unfold claimFile
        split
        next => exact settles_raise hs' _
        next path hpath =>
          rw [hsize]
          exact settles_storeObject hsha hs' hpath fun s hs hobject =>
            settles_createIfAbsent hsha hs hmime hobject

end

/-! ## All of them -/

theorem capped_of_readUpload {lib : Headers} {maxBytes : Nat} {contentType : Option Bytes}
    {callbacks : List Callback} {upload : StreamedUpload}
    (h : readUpload lib maxBytes contentType callbacks = .ok upload) : Capped maxBytes upload := by
  have hkept : ∃ r, callbacks.foldlM (FilePartReader.on lib uploadField maxBytes) {} = .ok r ∧
      checkUpload r.upload = .ok upload := by
    unfold readUpload at h
    dsimp only at h
    split at h
    next => cases h
    next =>
      split at h
      next => cases h
      next => exact bind_eq_ok_iff.mp h
  obtain ⟨r, hr, hcheck⟩ := hkept
  have hcapped : Capped maxBytes r.upload := Capped.run ⟨rfl, rfl, Nat.zero_le _⟩ hr
  unfold checkUpload at hcheck
  split at hcheck
  next => cases hcheck
  next =>
    split at hcheck
    next => cases hcheck
    next =>
      obtain rfl := Except.ok.inj hcheck
      exact hcapped

/-- What a request is answered with: the user has the row that is shown, for the digest of what was
read of the body. -/
def Posted (lib : Headers) (maxBytes : Nat) (sha256 : Bytes → String) (request : Upload)
    (r : Except Raised FileUploadResponse) (s : Store ι) : Prop :=
  Sound sha256 s ∧ ∀ response, r = .ok response → ∃ upload,
    readUpload lib maxBytes request.contentType request.callbacks = .ok upload ∧
      ∃ row ∈ s.rows, row.key = (request.userId, sha256 upload.data) ∧
        toOut row = response.toFileOut

theorem settles_postFile {lib : Headers} {maxBytes : Nat} (hsha : Function.Injective sha256)
    (hs : Sound sha256 s) (request : Upload) :
    Settles (Serves i) (others sha256 i) (Leaves sha256 i) (postFile lib maxBytes sha256 request)
      (Posted lib maxBytes sha256 request) s := by
  unfold postFile
  split
  next => exact fun _ hr => ⟨(hr.1 hs).1, fun _ hok => by cases hok⟩
  next upload hread =>
    have hcapped := capped_of_readUpload hread
    refine (settles_uploadFile hsha hs hcapped.digest hcapped.size).mono ?_
    rintro r s ⟨hs, hanswers⟩
    exact ⟨hs, fun response hok => ⟨upload, hread, hanswers response hok⟩⟩

/-- **An upload that is answered can be used.** However any number of uploads interleave, and
whatever fails on the way: store and table are sound, and a user whose upload was answered has one
row for it, which is the one the answer shows, and the very bytes that were read are in the store
under their digest. -/
theorem uploads_sound (lib : Headers) (maxBytes : Nat) (hsha : Function.Injective sha256)
    (requests : ι → Upload) {c : Pool ι iface Raised FileUploadResponse (Store ι)}
    (h : Pool.Reach Serves (fun _ _ => False) (uploads lib maxBytes sha256 requests) c) :
    Sound sha256 c.store ∧ ∀ i response, c.prog i = .ret response → ∃ upload path,
      readUpload lib maxBytes (requests i).contentType (requests i).callbacks = .ok upload ∧
      upload.data.length ≤ maxBytes ∧
      readFile c.store.rows (requests i).userId (sha256 upload.data) = .ok response.toFileOut ∧
      objectPath (sha256 upload.data) = some path ∧ c.store.objects path = some upload.data ∧
      response.bytes = upload.data.length ∧
      sniffMime (upload.data.take sniffPrefixBytes) = some response.mime := by
  have hsettles := fun i => h.settles (R := others sha256) (G := Leaves sha256)
    (Q := fun i => Posted lib maxBytes sha256 (requests i))
    (fun i j _ _ hne hleaves => ⟨hleaves.1, hleaves.2 j hne⟩) (fun _ _ _ hfalse => hfalse.elim)
    (fun i => settles_postFile hsha sound_start (requests i)) i
  have hsound : Sound sha256 c.store :=
    h.kept (R := others sha256) (G := Leaves sha256)
      (Q := fun i => Posted lib maxBytes sha256 (requests i))
      (fun i j _ _ hne hleaves => ⟨hleaves.1, hleaves.2 j hne⟩) (fun _ _ _ hfalse => hfalse.elim)
      (fun i => settles_postFile hsha sound_start (requests i)) sound_start
      (fun _ _ _ hleaves hs => (hleaves.1 hs).1) (fun _ _ hfalse => hfalse.elim)
  refine ⟨hsound, fun i response hprog => ?_⟩
  have hi := hsettles i
  rw [hprog] at hi
  obtain ⟨-, hposted⟩ := hi c.store ((others sha256 i).refl _)
  obtain ⟨upload, hread, row, hrow, hkey, hshown⟩ := hposted response rfl
  have hcapped := capped_of_readUpload hread
  have huser : row.userId = (requests i).userId := congrArg Prod.fst hkey
  have hhash : row.fileHash = sha256 upload.data := congrArg Prod.snd hkey
  obtain ⟨data, hobject, hdigest, hbytes, hmime⟩ := hsound.rows row hrow
  have hsame : data = upload.data := hsha (hdigest.trans hhash)
  rw [hsame] at hobject hbytes hmime
  refine ⟨upload, row.storagePath, hread, ?_, ?_, ?_, hobject, ?_, ?_⟩
  · rw [← hcapped.size]
    exact hcapped.cap
  · rw [← huser, ← hhash, hsound.readFile hrow, hshown]
  · exact hsound.objects _ _ hobject
  · rw [hbytes, ← hshown]
    rfl
  · rw [hmime, ← hshown]
    rfl

end

/-! ## One upload -/

/-- A file that says it is a PDF, and nothing else. -/
def tinyPdf : Bytes := ascii "%PDF-1.7" ++ [10]

/-- Its digest, and a mark of its own for any other bytes. -/
def digestOf (data : Bytes) : String :=
  if data = tinyPdf then "0716f9264c9fe19f5d7455276107f3ddcc1d3497f63d60689a73558ae8a1bf5e"
  else "sha256:" ++ latin1 data

theorem digestOf_injective : Function.Injective digestOf := by
  have hlatin : Function.Injective latin1 := by
    intro data data' h
    refine List.map_injective_iff.mpr (fun a b hab => ?_) (String.ofList_injective h)
    have hsmall : ∀ b : UInt8, (Char.ofNat b.toNat).toNat = b.toNat := fun b => by
      have hlt := b.toNat_lt
      unfold Char.ofNat
      rw [dif_pos (.inl (by omega))]
      rfl
    exact UInt8.toNat_inj.mp (by rw [← hsmall a, ← hsmall b, hab])
  have hapart : ∀ data, "sha256:" ++ latin1 data ≠
      "0716f9264c9fe19f5d7455276107f3ddcc1d3497f63d60689a73558ae8a1bf5e" := by
    intro data h
    have hhead := congrArg (fun s => s.toList.head?) h
    simp at hhead
  intro data data' h
  unfold digestOf at h
  split at h
  · next hdata =>
    split at h
    · next hdata' => rw [hdata, hdata']
    · exact absurd h.symm (hapart _)
  · split at h
    · exact absurd h (hapart _)
    · exact hlatin (by simpa using h)

/-- The two headers that are read, as they are read. -/
def plainHeaders : Headers where
  parseOptionsHeader header :=
    if header = some (ascii "multipart/form-data; boundary=b") then
      (ascii "multipart/form-data", [(ascii "boundary", ascii "b")])
    else if header = some (ascii "form-data; name=\"file\"; filename=\"a.pdf\"") then
      (ascii "form-data", [(ascii "name", ascii "file"), (ascii "filename", ascii "a.pdf")])
    else ([], [])
  decodeUtf8 := latin1

/-- It is posted, its body cut in two. -/
def tinyRequest : Upload where
  userId := "u"
  contentType := some (ascii "multipart/form-data; boundary=b")
  callbacks :=
    [.partBegin, .headerField (ascii "Content-"), .headerField (ascii "Disposition"),
      .headerValue (ascii "form-data; name=\"file\"; filename=\"a.pdf\""), .headerEnd,
      .headersFinished, .partData (ascii "%PDF"), .partData (ascii "-1.7" ++ [10]), .partEnd]

def tinyUpload : StreamedUpload where
  filename := some "a.pdf"
  data := tinyPdf
  digest := tinyPdf
  size := 9
  complete := true

theorem readUpload_tiny : readUpload plainHeaders 10000000 tinyRequest.contentType
    tinyRequest.callbacks = .ok tinyUpload := by
  decide

def tinyRow : File where
  userId := "u"
  fileHash := digestOf tinyPdf
  filename := "a.pdf"
  mime := "application/pdf"
  bytes := 9
  storagePath := "07/0716f9264c9fe19f5d7455276107f3ddcc1d3497f63d60689a73558ae8a1bf5e"
  createdAt := "now"

/-- What is left behind it. -/
def tinyStore : Store Unit where
  objects := Function.update (fun _ => none) tinyRow.storagePath (some tinyPdf)
  rows := [tinyRow]

/-- Nothing fails, and nobody else is there. -/
theorem leads_tiny : Leads (Serves ()) (postFile plainHeaders 10000000 digestOf tinyRequest) {}
    (.ok { toOut tinyRow with deduplicated := false }) tinyStore := by
  have hpath : objectPath (digestOf tinyPdf) = some tinyRow.storagePath := by decide
  have hmime : sniffMime (tinyUpload.data.take sniffPrefixBytes) = some "application/pdf" := by
    decide
  rw [postFile, readUpload_tiny]
  show Leads _ (uploadFile digestOf "u" tinyUpload) _ _ _
  rw [uploadFile, hmime]
  refine leads_ask.mpr ⟨.ok none, _, .getOwned "u" (digestOf tinyPdf), ?_⟩
  show Leads _ (claimFile "u" tinyUpload (digestOf tinyPdf) "application/pdf") _ _ _
  rw [claimFile, hpath]
  refine leads_ask.mpr ⟨.ok false, _, .exists tinyRow.storagePath, ?_⟩
  refine leads_ask.mpr ⟨.ok (), _, .put tinyRow.storagePath tinyPdf, ?_⟩
  refine leads_ask.mpr ⟨.ok (some tinyRow), _, .insert "u" (digestOf tinyPdf) "a.pdf"
    "application/pdf" 9 tinyRow.storagePath "now" (fun _ h => absurd h List.not_mem_nil)
    (fun _ _ h => by cases h), ?_⟩
  refine leads_ask.mpr ⟨.ok (), _, .commit, ?_⟩
  refine leads_ret.mpr ⟨rfl, ?_⟩
  rw [tinyStore]
  congr 1

theorem uploads_sound_tiny :
    ∃ c : Pool Unit iface Raised FileUploadResponse (Store Unit),
      c.prog () = .ret { toOut tinyRow with deduplicated := false } ∧ Sound digestOf c.store ∧
      readFile c.store.rows "u" (digestOf tinyPdf) = .ok (toOut tinyRow) := by
  obtain ⟨_, hruns, haccepts⟩ := leads_tiny
  have hstart : Pool.Reach Serves (fun _ _ => False)
      (uploads plainHeaders 10000000 digestOf fun _ : Unit => tinyRequest)
      (uploads plainHeaders 10000000 digestOf fun _ => tinyRequest) := .start
  have hreach := hstart.runs hruns haccepts
  obtain ⟨hsound, hanswered⟩ := uploads_sound plainHeaders 10000000 digestOf_injective _ hreach
  obtain ⟨upload, path, hread, -, hfound, -⟩ := hanswered () _ rfl
  obtain rfl := Except.ok.inj (readUpload_tiny.symm.trans hread)
  exact ⟨_, rfl, hsound, hfound⟩

end Files

end LlmGateway
