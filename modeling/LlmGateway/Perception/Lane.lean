import LlmGateway.Memory.Fitting
import LlmGateway.Perception.Extractors

/-!
# How a stored file reaches a model

The pure half of the perception lane: which files a model may read itself, what
that costs it, and how a reading is labelled for the prompt.
-/

namespace LlmGateway

namespace Perception

/-! ## What a native attachment costs -/

/-- A file's size in the units a provider charges it in. -/
structure Measurement where
  pages : Option Int := none
  width : Option Int := none
  height : Option Int := none
  deriving DecidableEq, Repr

/-- `TOKENS_PER_TILE`. -/
def tokensPerTile : Int := 258

/-- `IMAGE_SINGLE_TILE_EDGE`. -/
def imageSingleTileEdge : Int := 384

/-- `TILE_EDGE_MIN` and `TILE_EDGE_MAX`. -/
def tileEdgeMin : Int := 256

def tileEdgeMax : Int := 768

/-- `UNMEASURED_PDF_BYTES_PER_PAGE`. -/
def unmeasuredPdfBytesPerPage : Int := 50000

/-- `UNMEASURED_IMAGE_TILES`. -/
def unmeasuredImageTiles : Int := 4

/-- `-(-a // b)`, for a positive `b`. -/
def ceilDiv (a b : Int) : Int := -(-a / b)

/-- `_image_tiles`. -/
def imageTiles (width height : Int) : Int :=
  if width ≤ 0 ∨ height ≤ 0 then unmeasuredImageTiles
  else if width ≤ imageSingleTileEdge ∧ height ≤ imageSingleTileEdge then 1
  else
    -- the shorter dimension over 1.5
    let edge := min tileEdgeMax (max tileEdgeMin (2 * min width height / 3))
    ceilDiv width edge * ceilDiv height edge

/-- `native_token_cost`. -/
def nativeTokenCost (mime : String) (sizeBytes : Nat) (measurement : Measurement) : Int :=
  if mime = "application/pdf" then
    let pages := measurement.pages.getD (max 1 (ceilDiv sizeBytes unmeasuredPdfBytesPerPage))
    max 1 pages * tokensPerTile
  else
    match measurement.width, measurement.height with
    | some width, some height => imageTiles width height * tokensPerTile
    | _, _ => unmeasuredImageTiles * tokensPerTile

/-! ## Readings and labels -/

/-- `_native_wanted`: the two questions asked before any bytes are fetched. -/
def nativeWanted (ref : FileRef) (spec : RenderSpec) : Bool :=
  if spec.supportsMime ref.mime then
    match spec.maxFileBytes with
    | none => true
    | some maxFileBytes => decide (ref.bytes ≤ maxFileBytes)
  else false

/-- What the lane found for a file, before the file's label is put on it. -/
inductive Reading where
  | native (data : List UInt8) (measurement : Measurement)
  | extracted (extraction : Extraction) (tier : ExtractionTier)
  deriving DecidableEq, Repr

/-- `_native`. -/
def native (ref : FileRef) (data : List UInt8) (measurement : Measurement) :
    ResolvedAttachment where
  fileHash := ref.fileHash
  filename := ref.filename
  mime := ref.mime
  sizeBytes := ref.bytes
  mode := .native
  data := some data
  tier := some .native
  tokenCost := nativeTokenCost ref.mime ref.bytes measurement

/-- `_injected`. -/
def injected (ref : FileRef) (extraction : Extraction) (tier : ExtractionTier) :
    ResolvedAttachment where
  fileHash := ref.fileHash
  filename := ref.filename
  mime := ref.mime
  sizeBytes := ref.bytes
  mode := .injected
  text := some extraction.text
  confidence := some extraction.confidence
  tier := some tier

/-- A reading under the label of the reference that asked for it. -/
def Reading.attach (ref : FileRef) : Reading → ResolvedAttachment
  | .native data measurement => Perception.native ref data measurement
  | .extracted extraction tier => injected ref extraction tier

/-- The references of a history, one for each hash: the first wins. -/
def distinctRefs (seen : List String) : List FileRef → List FileRef
  | [] => []
  | ref :: refs =>
    if ref.fileHash ∈ seen then distinctRefs seen refs
    else ref :: distinctRefs (ref.fileHash :: seen) refs

/-- `resolve`, where `reading` is what the chain comes to for a hash and a native wish. A
chain that reads nothing raises `FileUnreadable`. -/
def resolve (reading : String → Bool → Option Reading) (refs : List FileRef)
    (spec : RenderSpec) : Except RenderFailure (List ResolvedAttachment) :=
  (distinctRefs [] refs).mapM fun ref =>
    match reading ref.fileHash (nativeWanted ref spec) with
    | some found => pure (found.attach ref)
    | none => throw (.fileUnreadable ref.fileHash ref.filename)

end Perception

end LlmGateway
