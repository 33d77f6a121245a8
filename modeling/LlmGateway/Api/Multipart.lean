import LlmGateway.Text.Words
import Mathlib.Data.List.Forall2

/-!
# The body of an upload

`_FilePartReader` over the callbacks of a multipart parser. The parser hands on
headers and bodies in pieces that depend on where the network cut the body; what
is kept is the first part of the right name, and never more of it than the cap.
-/

namespace LlmGateway

namespace Files

abbrev Bytes : Type := List UInt8

/-! ## Refusals -/

/-- What an upload is refused with. -/
inductive Refused where
  | payloadTooLarge (message : String)
  | invalidRequest (message code : String)
  | unsupportedMediaType (message : String)
  | serviceUnavailable (message code : String)
  | notFound (message code : String)
  deriving DecidableEq, Repr

/-- Digits in groups of three, the last first. -/
def groupDigits : List Char → List Char
  | a :: b :: c :: d :: rest => a :: b :: c :: ',' :: groupDigits (d :: rest)
  | digits => digits

/-- `f"{n:,}"`. -/
def withCommas (n : Nat) : String :=
  String.ofList (groupDigits (Nat.toDigits 10 n).reverse).reverse

def tooLarge (maxBytes : Nat) : Refused :=
  .payloadTooLarge
    ("The file is larger than the " ++ withCommas maxBytes ++ "-byte limit this gateway accepts.")

/-! ## The reader -/

/-- `_StreamedUpload`: one file part, hashed and counted as it arrived. -/
structure StreamedUpload where
  filename : Option String := none
  declaredMime : Option String := none
  data : Bytes := []
  /-- What `digest.update` has been given. -/
  digest : Bytes := []
  size : Nat := 0
  complete : Bool := false
  deriving DecidableEq, Repr

/-- `_FilePartReader`. Of two headers of one name the later is looked up. -/
structure FilePartReader where
  headerName : Bytes := []
  headerValue : Bytes := []
  headers : List (Bytes × Bytes) := []
  keeping : Bool := false
  upload : StreamedUpload := {}
  deriving DecidableEq, Repr

inductive Callback where
  | partBegin
  | headerField (data : Bytes)
  | headerValue (data : Bytes)
  | headerEnd
  | headersFinished
  | partData (data : Bytes)
  | partEnd
  deriving DecidableEq, Repr

/-- The bytes of an ASCII text. -/
def ascii (text : String) : Bytes := text.toList.map fun c => UInt8.ofNat c.toNat

/-- `bytes.lower`. -/
def lower (text : Bytes) : Bytes :=
  text.map fun b => if 65 ≤ b.toNat ∧ b.toNat ≤ 90 then b + 32 else b

/-- `bytes.decode("latin-1")`. -/
def latin1 (text : Bytes) : String := String.ofList (text.map fun b => Char.ofNat b.toNat)

/-- What the reader leaves to others: `parse_options_header`, and decoding with replacement. -/
structure Headers where
  parseOptionsHeader : Option Bytes → Bytes × List (Bytes × Bytes)
  decodeUtf8 : Bytes → String

section

variable (lib : Headers) (fieldName : String) (maxBytes : Nat)

/-- The options of a part's `Content-Disposition`. -/
def dispositionOf (headers : List (Bytes × Bytes)) : List (Bytes × Bytes) :=
  (lib.parseOptionsHeader (headers.lookup (ascii "content-disposition"))).2

/-- Whether a part has the name that is looked for. -/
def named (headers : List (Bytes × Bytes)) : Bool :=
  latin1 (((dispositionOf lib headers).lookup (ascii "name")).getD []) = fieldName

/-- The filename of a part, behind one that may be known already. -/
def filenameOf (known : Option String) (headers : List (Bytes × Bytes)) : Option String :=
  match (dispositionOf lib headers).lookup (ascii "filename") with
  | some raw => some (lib.decodeUtf8 raw)
  | none => known

/-- And its declared type. -/
def declaredOf (known : Option String) (headers : List (Bytes × Bytes)) : Option String :=
  match headers.lookup (ascii "content-type") with
  | some declared => some (String.ofList (Text.strip (latin1 declared).toList))
  | none => known

namespace FilePartReader

def onPartBegin (r : FilePartReader) : FilePartReader :=
  { r with headers := [], headerName := [], headerValue := [], keeping := false }

def onHeaderField (r : FilePartReader) (data : Bytes) : FilePartReader :=
  { r with headerName := r.headerName ++ data }

def onHeaderValue (r : FilePartReader) (data : Bytes) : FilePartReader :=
  { r with headerValue := r.headerValue ++ data }

def onHeaderEnd (r : FilePartReader) : FilePartReader :=
  { r with
    headers := (lower r.headerName, r.headerValue) :: r.headers
    headerName := [], headerValue := [] }

def onHeadersFinished (r : FilePartReader) : FilePartReader :=
  if named lib fieldName r.headers = false ∨ r.upload.complete = true then r
  else
    { r with
      keeping := true
      upload := { r.upload with
        filename := filenameOf lib r.upload.filename r.headers
        declaredMime := declaredOf r.upload.declaredMime r.headers } }

def onPartData (r : FilePartReader) (data : Bytes) : Except Refused FilePartReader :=
  if r.keeping = false then .ok r
  else if maxBytes < r.upload.size + data.length then .error (tooLarge maxBytes)
  else
    .ok { r with
      upload := { r.upload with
        data := r.upload.data ++ data, digest := r.upload.digest ++ data
        size := r.upload.size + data.length } }

def onPartEnd (r : FilePartReader) : FilePartReader :=
  if r.keeping then { r with upload := { r.upload with complete := true }, keeping := false } else r

/-- `callbacks`. -/
def on (r : FilePartReader) : Callback → Except Refused FilePartReader
  | .partBegin => .ok r.onPartBegin
  | .headerField data => .ok (r.onHeaderField data)
  | .headerValue data => .ok (r.onHeaderValue data)
  | .headerEnd => .ok r.onHeaderEnd
  | .headersFinished => .ok (r.onHeadersFinished lib fieldName)
  | .partData data => r.onPartData maxBytes data
  | .partEnd => .ok r.onPartEnd

end FilePartReader

/-- `UPLOAD_FIELD`. -/
def uploadField : String := "file"

/-- What `_read_upload` makes of the part it has kept. -/
def checkUpload (upload : StreamedUpload) : Except Refused StreamedUpload :=
  if upload.complete = false ∨ upload.filename = none then
    .error (.invalidRequest "The request has no 'file' file part." "missing_file")
  else if upload.size = 0 then
    .error (.invalidRequest "The uploaded file is empty." "empty_file")
  else .ok upload

/-- `_read_upload`, over what the parser calls for the body. -/
def readUpload (contentType : Option Bytes) (callbacks : List Callback) :
    Except Refused StreamedUpload := do
  let (mediaType, params) := lib.parseOptionsHeader contentType
  if mediaType ≠ ascii "multipart/form-data" then
    throw (.invalidRequest "Upload the file as multipart/form-data." "invalid_content_type")
  if ((params.lookup (ascii "boundary")).getD []).isEmpty then
    throw (.invalidRequest "The multipart/form-data body is missing its boundary parameter."
      "invalid_multipart")
  let r ← callbacks.foldlM (FilePartReader.on lib uploadField maxBytes) {}
  checkUpload r.upload

end

/-! ## Within the cap -/

/-- What has been kept is counted, hashed and within the cap. -/
structure Capped (maxBytes : Nat) (upload : StreamedUpload) : Prop where
  size : upload.size = upload.data.length
  digest : upload.digest = upload.data
  cap : upload.size ≤ maxBytes

section

variable {lib : Headers} {fieldName : String} {maxBytes : Nat} {r r' : FilePartReader}

theorem Capped.on {callback : Callback} (h : Capped maxBytes r.upload)
    (hr : r.on lib fieldName maxBytes callback = .ok r') : Capped maxBytes r'.upload := by
  cases callback with
  | headersFinished =>
    cases hr
    unfold FilePartReader.onHeadersFinished
    split
    · exact h
    · exact ⟨h.size, h.digest, h.cap⟩
  | partData data =>
    change r.onPartData maxBytes data = _ at hr
    unfold FilePartReader.onPartData at hr
    split at hr
    next =>
      cases hr
      exact h
    next =>
      split at hr
      next => cases hr
      next hfits =>
        cases hr
        refine ⟨?_, ?_, Nat.not_lt.mp hfits⟩
        · show r.upload.size + data.length = (r.upload.data ++ data).length
          rw [List.length_append, h.size]
        · show r.upload.digest ++ data = r.upload.data ++ data
          rw [h.digest]
  | partEnd =>
    cases hr
    unfold FilePartReader.onPartEnd
    split
    · exact ⟨h.size, h.digest, h.cap⟩
    · exact h
  | _ =>
    cases hr
    exact ⟨h.size, h.digest, h.cap⟩

/-- **Never more than the cap**, whatever the parser calls. -/
theorem Capped.run {callbacks : List Callback} (h : Capped maxBytes r.upload)
    (hr : callbacks.foldlM (FilePartReader.on lib fieldName maxBytes) r = .ok r') :
    Capped maxBytes r'.upload := by
  induction callbacks generalizing r with
  | nil =>
    cases hr
    exact h
  | cons callback callbacks ih =>
    rw [List.foldlM_cons] at hr
    cases hone : r.on lib fieldName maxBytes callback with
    | error e =>
      rw [hone] at hr
      cases hr
    | ok r₁ =>
      rw [hone] at hr
      exact ih (h.on hone) hr

end

/-! ## Parts -/

/-- One part of a body. -/
structure Part where
  headers : List (Bytes × Bytes)
  body : Bytes
  deriving DecidableEq, Repr

/-- Its headers, by name. -/
def Part.index (part : Part) : List (Bytes × Bytes) :=
  (part.headers.map fun header => (lower header.1, header.2)).reverse

/-- A part in pieces, as the network has cut it. -/
structure Pieces where
  headers : List (List Bytes × List Bytes)
  body : List Bytes
  deriving DecidableEq, Repr

def Pieces.part (pieces : Pieces) : Part :=
  { headers := pieces.headers.map fun header => (header.1.flatten, header.2.flatten)
    body := pieces.body.flatten }

def headerCallbacks (header : List Bytes × List Bytes) : List Callback :=
  header.1.map .headerField ++ (header.2.map .headerValue ++ [.headerEnd])

/-- What the parser calls for it. -/
def Pieces.callbacks (pieces : Pieces) : List Callback :=
  [.partBegin] ++ (pieces.headers.flatMap headerCallbacks ++
    ([.headersFinished] ++ (pieces.body.map .partData ++ [.partEnd])))

section

variable (lib : Headers) (fieldName : String) (maxBytes : Nat)

/-- A part that is kept. -/
def keepPart (part : Part) : Except Refused StreamedUpload :=
  if maxBytes < part.body.length then .error (tooLarge maxBytes)
  else
    .ok { filename := filenameOf lib none part.index, declaredMime := declaredOf none part.index
          data := part.body, digest := part.body, size := part.body.length, complete := true }

/-- **What is kept of a body**: its first part of the name that is looked for. -/
def keep (parts : List Part) : Except Refused StreamedUpload :=
  match parts.find? fun part => named lib fieldName part.index with
  | none => .ok {}
  | some part => keepPart lib maxBytes part

end

section

variable {lib : Headers} {fieldName : String} {maxBytes : Nat}

/-- The pieces of a header, put together. -/
theorem foldlM_header (header : List Bytes × List Bytes) (r : FilePartReader)
    (hname : r.headerName = []) (hvalue : r.headerValue = []) :
    (headerCallbacks header).foldlM (FilePartReader.on lib fieldName maxBytes) r =
      .ok { r with headers := (lower header.1.flatten, header.2.flatten) :: r.headers } := by
  have hfields : ∀ (pieces : List Bytes) (r : FilePartReader),
      (pieces.map Callback.headerField).foldlM (FilePartReader.on lib fieldName maxBytes) r =
        .ok { r with headerName := r.headerName ++ pieces.flatten } := by
    intro pieces
    induction pieces with
    | nil => intro r; simp [pure, Except.pure]
    | cons piece pieces ih =>
      intro r
      rw [List.map_cons, List.foldlM_cons]
      refine (ih (r.onHeaderField piece)).trans ?_
      simp [FilePartReader.onHeaderField, List.append_assoc]
  have hvalues : ∀ (pieces : List Bytes) (r : FilePartReader),
      (pieces.map Callback.headerValue).foldlM (FilePartReader.on lib fieldName maxBytes) r =
        .ok { r with headerValue := r.headerValue ++ pieces.flatten } := by
    intro pieces
    induction pieces with
    | nil => intro r; simp [pure, Except.pure]
    | cons piece pieces ih =>
      intro r
      rw [List.map_cons, List.foldlM_cons]
      refine (ih (r.onHeaderValue piece)).trans ?_
      simp [FilePartReader.onHeaderValue, List.append_assoc]
  rw [headerCallbacks, List.foldlM_append, hfields]
  show ((header.2.map Callback.headerValue ++ [Callback.headerEnd]).foldlM _ _) = _
  rw [List.foldlM_append, hvalues]
  show Except.ok _ = _
  simp [FilePartReader.onHeaderEnd, hname, hvalue]

/-- The headers of a part, by name. -/
theorem foldlM_headers (headers : List (List Bytes × List Bytes)) (r : FilePartReader)
    (hname : r.headerName = []) (hvalue : r.headerValue = []) :
    (headers.flatMap headerCallbacks).foldlM (FilePartReader.on lib fieldName maxBytes) r =
      .ok { r with
        headers := (headers.map fun header =>
          (lower header.1.flatten, header.2.flatten)).reverse ++ r.headers } := by
  induction headers generalizing r with
  | nil => rfl
  | cons header headers ih =>
    rw [List.flatMap_cons, List.foldlM_append, foldlM_header header r hname hvalue]
    let r' := { r with headers := (lower header.1.flatten, header.2.flatten) :: r.headers }
    refine (ih r' hname hvalue).trans ?_
    simp [r']

/-- A body that is not kept. -/
theorem foldlM_skipped (pieces : List Bytes) (r : FilePartReader) (h : r.keeping = false) :
    (pieces.map Callback.partData).foldlM (FilePartReader.on lib fieldName maxBytes) r = .ok r := by
  induction pieces with
  | nil => rfl
  | cons piece pieces ih =>
    have hone : r.on lib fieldName maxBytes (.partData piece) = .ok r := if_pos h
    rw [List.map_cons, List.foldlM_cons, hone]
    exact ih

/-- A body that is: it is too large as a whole exactly when it is at some piece. -/
theorem foldlM_kept (pieces : List Bytes) (r : FilePartReader) (h : r.keeping = true)
    (hcap : r.upload.size ≤ maxBytes) :
    (pieces.map Callback.partData).foldlM (FilePartReader.on lib fieldName maxBytes) r =
      if maxBytes < r.upload.size + pieces.flatten.length then .error (tooLarge maxBytes)
      else
        .ok { r with
          upload := { r.upload with
            data := r.upload.data ++ pieces.flatten, digest := r.upload.digest ++ pieces.flatten
            size := r.upload.size + pieces.flatten.length } } := by
  induction pieces generalizing r with
  | nil =>
    rw [if_neg (by simpa using hcap)]
    simp [pure, Except.pure]
  | cons piece pieces ih =>
    have hkeeping : ¬ r.keeping = false := by simp [h]
    rw [List.map_cons, List.foldlM_cons, List.flatten_cons, List.length_append]
    show (r.onPartData maxBytes piece >>= _) = _
    unfold FilePartReader.onPartData
    rw [if_neg hkeeping]
    by_cases hlarge : maxBytes < r.upload.size + piece.length
    · rw [if_pos hlarge, if_pos (by omega)]
      rfl
    · rw [if_neg hlarge]
      let upload := { r.upload with
        data := r.upload.data ++ piece, digest := r.upload.digest ++ piece
        size := r.upload.size + piece.length }
      refine (ih { r with upload } h (Nat.not_lt.mp hlarge)).trans ?_
      simp only [upload, Nat.add_assoc, List.append_assoc]

/-- What one part comes to: it is kept if it is the first of its name, and left alone if not. -/
theorem foldlM_part (pieces : Pieces) (r : FilePartReader) (hfresh : r.upload.complete = false →
      r.upload = {}) :
    if named lib fieldName pieces.part.index = true ∧ r.upload.complete = false then
      (pieces.callbacks.foldlM (FilePartReader.on lib fieldName maxBytes) r).map (·.upload) =
        keepPart lib maxBytes pieces.part
    else
      ∃ r', pieces.callbacks.foldlM (FilePartReader.on lib fieldName maxBytes) r = .ok r' ∧
        r'.upload = r.upload := by
  have hindex : (pieces.headers.map fun header =>
      (lower header.1.flatten, header.2.flatten)).reverse = pieces.part.index := by
    rw [Part.index, Pieces.part, List.map_map]
    rfl
  let r₁ := { r with headers := pieces.part.index, headerName := [], headerValue := []
                     keeping := false }
  have hheaders : (pieces.headers.flatMap headerCallbacks).foldlM
      (FilePartReader.on lib fieldName maxBytes) r.onPartBegin = .ok r₁ := by
    refine (foldlM_headers pieces.headers r.onPartBegin rfl rfl).trans ?_
    rw [hindex]
    show Except.ok { r.onPartBegin with headers := pieces.part.index ++ [] } = _
    rw [List.append_nil]
    rfl
  have hrun : pieces.callbacks.foldlM (FilePartReader.on lib fieldName maxBytes) r =
      (pieces.body.map Callback.partData ++ [Callback.partEnd]).foldlM
        (FilePartReader.on lib fieldName maxBytes) (r₁.onHeadersFinished lib fieldName) := by
    rw [Pieces.callbacks, List.foldlM_append]
    show (List.foldlM _ r.onPartBegin _) = _
    rw [List.foldlM_append, hheaders]
    rfl
  rw [hrun]
  split
  next hours =>
    obtain ⟨hnamed, hopen⟩ := hours
    have hkept : r₁.onHeadersFinished lib fieldName =
        { r₁ with
          keeping := true
          upload := { r₁.upload with
            filename := filenameOf lib none pieces.part.index
            declaredMime := declaredOf none pieces.part.index } } := by
      have hblank : r₁.upload = {} := hfresh hopen
      have hours : ¬ (named lib fieldName r₁.headers = false ∨ r₁.upload.complete = true) := by
        show ¬ (named lib fieldName pieces.part.index = false ∨ r.upload.complete = true)
        simp [hnamed, hopen]
      rw [FilePartReader.onHeadersFinished, if_neg hours, hblank]
    have hnothing : r₁.upload = {} := hfresh hopen
    rw [hkept, List.foldlM_append, hnothing, foldlM_kept _ _ rfl (Nat.zero_le _), keepPart]
    show Except.map _ (_ >>= _) = _
    simp only [Nat.zero_add]
    have hbody : pieces.part.body = pieces.body.flatten := rfl
    rw [hbody]
    by_cases hlarge : maxBytes < pieces.body.flatten.length
    · rw [if_pos hlarge, if_pos hlarge]
      rfl
    · rw [if_neg hlarge, if_neg hlarge]
      rfl
  next hother =>
    have hskip : r₁.onHeadersFinished lib fieldName = r₁ := by
      refine if_pos ?_
      by_contra hno
      rw [not_or, Bool.not_eq_false, Bool.not_eq_true] at hno
      exact hother hno
    rw [hskip, List.foldlM_append, foldlM_skipped _ _ rfl]
    exact ⟨r₁, rfl, rfl⟩

/-- Behind the part that was kept nothing changes any more. -/
theorem foldlM_behind (parts : List Pieces) (r : FilePartReader)
    (h : r.upload.complete = true) :
    ((parts.flatMap Pieces.callbacks).foldlM (FilePartReader.on lib fieldName maxBytes) r).map
      (·.upload) = .ok r.upload := by
  induction parts generalizing r with
  | nil => rfl
  | cons pieces parts ih =>
    have hone := @foldlM_part lib fieldName maxBytes pieces r
      (by rw [h]; exact fun hf => (by cases hf))
    rw [if_neg (by rw [h]; exact fun hf => (by cases hf.2))] at hone
    obtain ⟨r', hr', hsame⟩ := hone
    rw [List.flatMap_cons, List.foldlM_append, hr']
    refine (ih r' (hsame ▸ h)).trans ?_
    rw [hsame]

/-- **What is read of a body** are its parts, whatever pieces they come in. -/
theorem foldlM_parts (parts : List Pieces) (r : FilePartReader) (h : r.upload = {}) :
    ((parts.flatMap Pieces.callbacks).foldlM (FilePartReader.on lib fieldName maxBytes) r).map
      (·.upload) = keep lib fieldName maxBytes (parts.map Pieces.part) := by
  induction parts generalizing r with
  | nil =>
    show Except.ok r.upload = _
    rw [h]
    rfl
  | cons pieces parts ih =>
    have hone := @foldlM_part lib fieldName maxBytes pieces r fun _ => h
    rw [List.flatMap_cons, List.foldlM_append, keep, List.map_cons]
    by_cases hours : named lib fieldName pieces.part.index = true
    · rw [if_pos ⟨hours, by rw [h]⟩] at hone
      have hfind : (pieces.part :: parts.map Pieces.part).find?
          (fun part => named lib fieldName part.index) = some pieces.part :=
        List.find?_cons_of_pos hours
      rw [hfind]
      cases hrun : pieces.callbacks.foldlM (FilePartReader.on lib fieldName maxBytes) r with
      | error e =>
        rw [hrun] at hone
        exact hone
      | ok r' =>
        rw [hrun] at hone
        have hcomplete : r'.upload.complete = true := by
          have hkept : Except.ok r'.upload = keepPart lib maxBytes pieces.part := hone
          unfold keepPart at hkept
          split at hkept
          next => cases hkept
          next => rw [Except.ok.inj hkept]
        exact (foldlM_behind parts r' hcomplete).trans hone
    · rw [if_neg fun hc => hours hc.1] at hone
      obtain ⟨r', hr', hsame⟩ := hone
      have hfind : (pieces.part :: parts.map Pieces.part).find?
          (fun part => named lib fieldName part.index) =
            (parts.map Pieces.part).find? fun part => named lib fieldName part.index :=
        List.find?_cons_of_neg hours
      rw [hfind, hr']
      exact ih r' (hsame.trans h)

variable (lib maxBytes)

/-- `_read_upload`, over the parts of a body. -/
def readParts (contentType : Option Bytes) (parts : List Part) : Except Refused StreamedUpload := do
  let (mediaType, params) := lib.parseOptionsHeader contentType
  if mediaType ≠ ascii "multipart/form-data" then
    throw (.invalidRequest "Upload the file as multipart/form-data." "invalid_content_type")
  if ((params.lookup (ascii "boundary")).getD []).isEmpty then
    throw (.invalidRequest "The multipart/form-data body is missing its boundary parameter."
      "invalid_multipart")
  checkUpload (← keep lib uploadField maxBytes parts)

/-- **However a body is cut**, the upload that is read is the first part named `file`: whole if it
is within the cap, and refused as too large exactly if it is not. -/
theorem readUpload_eq (contentType : Option Bytes) (parts : List Pieces) :
    readUpload lib maxBytes contentType (parts.flatMap Pieces.callbacks) =
      readParts lib maxBytes contentType (parts.map Pieces.part) := by
  have hparts := @foldlM_parts lib uploadField maxBytes parts {} rfl
  unfold readUpload readParts
  rw [← hparts]
  cases hrun : (parts.flatMap Pieces.callbacks).foldlM
      (FilePartReader.on lib uploadField maxBytes) {} with
  | error e => rfl
  | ok r => rfl

end

end Files

end LlmGateway
