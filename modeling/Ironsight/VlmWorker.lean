import Ironsight.OfflineVerify
import Ironsight.Paths
import Ironsight.ReviewQueue

/-! The worker that asks the vision model for a second opinion on the rows of the review
queue. It crops the frame, asks, reads a verdict out of the answer and writes it back with
the count of attempts. What may panic answers in `Option`, with `none` for the panic, which
`processRow` recovers from. -/
namespace Ironsight.VlmWorker
open Tables Uuid Access PpeWorker ReviewQueue JsonReader OfflineVerify Paths

/-- The conversions that the crop needs besides the arithmetic. -/
class Pixels (F : Type) extends Float64 F where
  ofInt : Int → F
  truncate : F → Int
  round : F → F

variable {F : Type} [Pixels F]

/-! ## The crop -/

/-- A decoded image: its bounds, and a part of it encoded again. -/
structure Picture where
  minX : Int
  minY : Int
  maxX : Int
  maxY : Int
  encode : Int → Int → Int → Int → Option (Except String ByteArray)

/-- The result of an `int` operation. -/
def int (n : Int) : Int := n.bmod (2 ^ 64)

/-- `CropToROI`. -/
def cropToROI (decode : ByteArray → Option (Except String Picture)) (jpegBytes : ByteArray) (bbox : F × F × F × F)
    (paddingFactor : F) : Option (Except String ByteArray) :=
  match decode jpegBytes with
  | none => none
  | some (.error err) => some (.error err)
  | some (.ok img) =>
    let imgW := int (img.maxX - img.minX)
    let imgH := int (img.maxY - img.minY)
    if imgW ≤ 0 ∨ imgH ≤ 0 then some (.error "degenerate bounding box: zero-area crop after clamping")
    else
      let zero : F := Float64.ofBits 0
      let one : F := Float64.ofBits 0x3FF0000000000000
      let paddingFactor := if Float64.less paddingFactor zero then zero else paddingFactor
      let paddingFactor := if Float64.less one paddingFactor then one else paddingFactor
      let pixel (coordinate : F) (dim : Int) := Pixels.truncate (coordinate * Pixels.ofInt dim)
      let (left, top, right, bottom) := bbox
      let pixX1 := min (pixel left imgW) (pixel right imgW)
      let pixX2 := max (pixel left imgW) (pixel right imgW)
      let pixY1 := min (pixel top imgH) (pixel bottom imgH)
      let pixY2 := max (pixel top imgH) (pixel bottom imgH)
      let larger := max (int (pixX2 - pixX1)) (int (pixY2 - pixY1))
      let pad := Pixels.truncate (Pixels.round (Pixels.ofInt larger * paddingFactor))
      let x1 := int (max (int (pixX1 - pad)) 0 + img.minX)
      let y1 := int (max (int (pixY1 - pad)) 0 + img.minY)
      let x2 := int (min (int (pixX2 + pad)) imgW + img.minX)
      let y2 := int (min (int (pixY2 + pad)) imgH + img.minY)
      if x2 ≤ x1 ∨ y2 ≤ y1 then some (.error "degenerate bounding box: zero-area crop after clamping")
      else img.encode x1 y1 x2 y2

/-! ## The model -/

/-- `ai.QwenResult`, as far as it is read. -/
structure QwenResult (F : Type) where
  description : String
  falsePositivePct : F
  model : String
  degraded : Bool

/-- What comes of the request to `/analyze`; a body that does not decode has the error of
the decoder. -/
inductive Response (F : Type) where
  | failed (err : ByteArray)
  | status (code : Nat) (body : ByteArray)
  | undecodable (err : ByteArray)
  | decoded (result : QwenResult F)

/-- `analyzeQwen` after the request. -/
def analyzeQwen : Response F → Except ByteArray (QwenResult F)
  | .failed err => .error ("Qwen request: ".toUTF8 ++ err)
  | .status code body => .error (("Qwen HTTP " ++ toString code ++ ": ").toUTF8 ++ body.extract 0 (min body.size 200))
  | .undecodable err => .error ("Qwen decode: ".toUTF8 ++ err)
  | .decoded result => .ok result

structure VLMValidationResult where
  verdict : Verdict
  reasoning : ByteArray
  model : ByteArray := .empty
  degraded : Bool := false

/-- `mapLikelihoodToVerdict`, between 0.35 and 0.65. -/
def mapLikelihoodToVerdict (likelihood : F) : Verdict :=
  if Float64.atMost (Float64.ofBits 0x3FE4CCCCCCCCCCCD) likelihood then .dismissed
  else if Float64.atMost likelihood (Float64.ofBits 0x3FD6666666666666) then .confirmed
  else .uncertain

/-- The text from the first opening to the last closing brace. -/
def braced (description : List Char) : Option (List Char) :=
  let fromStart := description.dropWhile (· ≠ '\x7b')
  if fromStart = [] then none
  else
    let candidate := (fromStart.reverse.dropWhile (· ≠ '\x7d')).reverse
    if candidate = [] then none else some candidate

/-- `json.Unmarshal` into `embeddedVerdictJSON`. -/
def unmarshalVerdict (text : List Char) : Option (String × String) := do
  let members ← readObject text
  let trees := plain members
  let verdict ← (given "verdict" trees).foldlM decodeString ""
  let reasoning ← (given "reasoning" trees).foldlM decodeString ""
  return (verdict, reasoning)

/-- `parseEmbeddedVerdict`. -/
def parseEmbeddedVerdict (description : String) : Option (Verdict × String) := do
  let candidate ← braced description.toList
  let (verdict, reasoning) ← unmarshalVerdict candidate
  if verdict = "confirmed" then some (.confirmed, reasoning)
  else if verdict = "dismissed" then some (.dismissed, reasoning)
  else if verdict = "uncertain" then some (.uncertain, reasoning)
  else none

/-- `truncateReasoning`, which cuts between bytes. -/
def truncateReasoning (s : String) : ByteArray :=
  if s.utf8ByteSize ≤ 500 then s.toUTF8 else s.toUTF8.extract 0 500

/-- `ValidatePPECandidate` after the request. -/
def validatePPECandidate (response : Response F) : VLMValidationResult :=
  match analyzeQwen response with
  | .error err => { verdict := .error, reasoning := "transport error: ".toUTF8 ++ err, degraded := true }
  | .ok result =>
    if result.degraded then
      { verdict := .error, reasoning := "sidecar in degraded/mock mode; verdict not trusted".toUTF8
        model := result.model.toUTF8, degraded := true }
    else match parseEmbeddedVerdict result.description with
      | some (verdict, reasoning) =>
        { verdict, reasoning := truncateReasoning reasoning, model := result.model.toUTF8 }
      | none =>
        { verdict := mapLikelihoodToVerdict result.falsePositivePct
          reasoning := truncateReasoning result.description, model := result.model.toUTF8 }

/-! ## The worker -/

structure Config (F : Type) where
  ppeFramesDir : String
  vlmCropPaddingFactor : F
  vlmWorkerBatchSize : Int
  vlmWorkerMaxRetries : Int
  vlmWorkerMaxAgeHours : Int

/-- The configured number if it is positive, and otherwise the default. -/
def orDefault (configured default : Int) : Int := if configured ≤ 0 then default else configured

def Config.framesDir (cfg : Config F) : String :=
  if cfg.ppeFramesDir = "" then "/tank/data/ironsight/ppe-frames" else cfg.ppeFramesDir

/-- Three where nothing is configured. -/
def Config.maxRetries (cfg : Config F) : Int := orDefault cfg.vlmWorkerMaxRetries 3

/-- A request to the model. -/
structure Request (F : Type) where
  jpegBytes : ByteArray
  detectionClass : String
  confidence : F
  bboxNorm : F × F × F × F
  prompt : String

/-- What an execution meets: the file system, the image library, the model, the printing
of percentages, and whether its context ends before the update. -/
structure Env (F : Type) where
  readFile : String → Option ByteArray
  decode : ByteArray → Option (Except String Picture)
  analyze : Request F → Option (Response F)
  percent : F → String
  cancelled : Bool := false

/-- `buildPPEPrompt`. -/
def buildPPEPrompt (env : Env F) (detectionClass label : String) (confidence : F) : String :=
  "PPE COMPLIANCE VALIDATION REQUEST.\nYOLO detected a missing PPE item: " ++ label ++ " (class: " ++ detectionClass ++
    ", confidence: " ++ env.percent (confidence * Float64.ofBits 0x4059000000000000) ++ "%).\n\n" ++
    "The image shows the person in question cropped from the camera frame.\nIs this person actually missing their " ++
    label ++ "?\nConsider: partial occlusion, viewing angle, similar-looking objects, person partially out of frame.\n" ++
    "Respond ONLY with JSON: " ++
    "\x7b\"verdict\":\"confirmed\"|\"dismissed\"|\"uncertain\",\"reasoning\":\"one sentence\"\x7d"

/-- The frame of a row: a path that leads out of the directory is refused before the
file is read. -/
inductive FrameRead where
  | invalidPath
  | notFound
  | read (frameBytes : ByteArray)

def readFrame (cfg : Config F) (env : Env F) (row : VLMQueueRow F) : FrameRead :=
  let rel := clean row.framePath
  if ['.', '.'] <+: rel.toList then .invalidPath
  else match env.readFile (join [cfg.framesDir, rel]) with
    | none => .notFound
    | some frameBytes => .read frameBytes

/-- The normalised box of the first detection. -/
def firstBox (row : VLMQueueRow F) : F × F × F × F :=
  match row.boundingBoxes with
  | [] => (Float64.ofBits 0, Float64.ofBits 0, Float64.ofBits 0, Float64.ofBits 0)
  | first :: _ => (first.bboxNorm.x1.value, first.bboxNorm.y1.value, first.bboxNorm.x2.value, first.bboxNorm.y2.value)

/-- The crop of a row, or the full frame if it fails; the request made from it. -/
def requestOf (cfg : Config F) (env : Env F) (row : VLMQueueRow F) (frameBytes : ByteArray) : Option (Request F) :=
  let paddingFactor := if Float64.atMost cfg.vlmCropPaddingFactor (Float64.ofBits 0) then Float64.ofBits 0x3FD0000000000000
    else cfg.vlmCropPaddingFactor
  (cropToROI env.decode frameBytes (firstBox row) paddingFactor).map fun crop =>
    { jpegBytes := match crop with
        | .ok cropped => cropped
        | .error _ => frameBytes
      detectionClass := row.detectionClass
      confidence := row.confidence.value
      bboxNorm := firstBox row
      prompt := buildPPEPrompt env row.detectionClass row.missingLabel row.confidence.value }

/-- The update at the end of an execution; its errors are only logged. -/
def record (env : Env F) (queue : Queue F) (row : VLMQueueRow F) (result : VLMValidationResult) : Queue F :=
  if env.cancelled then queue
  else (updateVLMVerdict queue row.id result.verdict result.reasoning result.model (row.attempts + 1)).getD queue

/-- `processRow`: the queue after it, and the requests to the model. -/
def processRow (cfg : Config F) (env : Env F) (queue : Queue F) (row : VLMQueueRow F) : Queue F × List (Request F) :=
  match readFrame cfg env row with
  | .invalidPath => (record env queue row { verdict := .error, reasoning := "invalid frame path".toUTF8 }, [])
  | .notFound => (record env queue row { verdict := .error, reasoning := "frame file not found".toUTF8 }, [])
  | .read frameBytes =>
    match requestOf cfg env row frameBytes with
    | none => (queue, [])
    | some request =>
      match env.analyze request with
      | none => (queue, [request])
      | some response => (record env queue row (validatePPECandidate response), [request])

/-! ## Cycles -/

/-- The queue, the listed rows whose execution is still to come, and for each request to
the model the row it was made for. -/
structure World (F : Type) [Float64 F] where
  queue : Queue F
  batch : List (VLMQueueRow F)
  sent : List UUID

/-- What changes the world: the PPE worker, reviews, deletions, and the worker that begins
a cycle (its two statements may fail) or runs one of the listed executions, in any order. -/
inductive Move (F : Type) [Float64 F] where
  | insert (row : QueueRow F)
  | review (id : UUID) (orgID : String) (status : Status)
  | delete (ids : List UUID)
  | beginCycle (now : Instant) (expired listed : Bool)
  | process (index : Nat) (env : Env F)

/-- A cycle begins when all executions of the last one are done. An identifier is not
drawn twice. -/
def step (cfg : Config F) (w : World F) : Move F → World F
  | .insert row =>
    if row.id ∈ w.sent ∨ row.id ∈ w.batch.map VLMQueueRow.id then w
    else { w with queue := (insertPPEQueueEntry w.queue row).getD w.queue }
  | .review id orgID status => { w with queue := (updatePPEQueueStatus w.queue id orgID status).getD w.queue }
  | .delete ids => { w with queue := w.queue.remove fun row => row.id ∈ ids }
  | .beginCycle now expired listed =>
    if w.batch = [] then
      let queue := if expired then expireStalePendingVLM w.queue (orDefault cfg.vlmWorkerMaxAgeHours 24) now else w.queue
      let rows := if listed then listPendingVLM queue (orDefault cfg.vlmWorkerBatchSize 5) cfg.maxRetries else none
      { w with queue, batch := rows.getD [] }
    else w
  | .process index env =>
    match w.batch[index]? with
    | none => w
    | some row =>
      let (queue, requests) := processRow cfg env w.queue row
      { queue, batch := w.batch.eraseIdx index, sent := w.sent ++ requests.map fun _ => row.id }

end Ironsight.VlmWorker
