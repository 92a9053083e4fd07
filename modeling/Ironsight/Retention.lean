import Mathlib.Data.Rat.Floor
import Ironsight.Access
import Ironsight.LikePatterns
import Ironsight.Paths

/-! The retention manager: storage caps, retention windows and the capacity safety
valve. Each pass deletes rows of `segments` first and then removes what the rows
name from the disk. Disk and paths are those of a Unix host. -/
namespace Ironsight.Retention
open Tables Uuid Access Paths

/-! ## Disk -/

/-- A file or a directory, with the size that `Stat` gives. -/
structure Entry where
  place : Place
  size : Nat
  deriving DecidableEq

abbrev Disk := List Entry

def Disk.stat (disk : Disk) (place : Place) : Option Nat :=
  (disk.find? fun entry => entry.place = place).map Entry.size

/-- There is something below the place: a directory that is not empty. -/
def Disk.occupied (disk : Disk) (place : Place) : Bool := disk.any fun entry => entry.place.Below place

/-- `os.Remove`, which leaves a directory that is not empty. -/
def Disk.remove (disk : Disk) (place : Place) : Disk :=
  if disk.occupied place then disk else disk.filter fun entry => entry.place ≠ place

def h264CacheDir : String := ".h264-cache"

/-- Where the transcode of a segment is kept: under the segment's name, in a directory
beside it. -/
def cachedTranscodePath (source : Place) : Place where
  rooted := source.rooted
  components := source.components.dropLast ++ h264CacheDir.toList :: source.components.getLast?.toList

/-- The bytes counted as freed, and the disk afterwards. The source is counted when it is
there, removed or not. -/
def removeSegmentAndCache (path : String) (disk : Disk) : Nat × Disk :=
  let source := place path
  let freed := (disk.stat source).getD 0
  let disk := disk.remove source
  let cache := cachedTranscodePath source
  match disk.stat cache with
  | none => (freed, disk)
  | some size => (freed + size, disk.remove cache)

/-- `removeSegmentAndCache` for each of the paths. -/
def removeSegments : List String → Disk → Nat × Disk
  | [], disk => (0, disk)
  | path :: paths, disk =>
    let (freed, disk) := removeSegmentAndCache path disk
    let (more, disk) := removeSegments paths disk
    (freed + more, disk)

/-! ## Tables -/

/-- The columns of `segments` that retention reads. -/
structure Segment where
  id : Int
  cameraID : UUID
  startTime : Instant
  endTime : Instant
  filePath : String
  fileSize : Nat
  deriving DecidableEq

/-- `StorageLocation`, as far as the passes read it. -/
structure StorageLocation where
  id : UUID
  path : String
  purpose : String := "recordings"
  retentionDays : Int := 30
  maxGB : Int := 0
  priority : Int := 0
  enabled : Bool := true
  createdAt : Instant := 0
  deriving DecidableEq

abbrev Segments := Table Segment.id

structure World where
  segments : Segments
  disk : Disk

/-- By priority and age. -/
def listStorageLocations (locations : Table StorageLocation.id) : List StorageLocation :=
  locations.rows.insertionSort fun first second =>
    first.priority < second.priority ∨ first.priority = second.priority ∧ first.createdAt ≤ second.createdAt

/-- `strings.ReplaceAll` of backslashes by slashes. -/
def forwardSlashes (path : String) : String := path.map fun c => if c = '\\' then '/' else c

/-- `file_path LIKE $1 || '%'`. -/
def under (pathPrefix : String) (segment : Segment) : Bool :=
  LikePatterns.like (pathPrefix.toList ++ ['%']) segment.filePath.toList

/-- The segments under a prefix, oldest first. -/
def sortedUnder (pathPrefix : String) (segments : Segments) : List Segment :=
  (segments.rows.filter (under pathPrefix)).insertionSort fun first second => first.startTime ≤ second.startTime

def recorded (segments : List Segment) : Nat := (segments.map Segment.fileSize).sum

def getStorageUsageByPath (pathPrefix : String) (segments : Segments) : Nat :=
  recorded (segments.rows.filter (under pathPrefix))

/-- The deleted rows and the remaining ones. -/
def deleteOldestSegmentsByPath (pathPrefix : String) (limit : Nat) (segments : Segments) : List Segment × Segments :=
  let oldest := ((sortedUnder pathPrefix segments).take limit).map Segment.id
  (segments.rows.filter fun segment => segment.id ∈ oldest, segments.remove fun segment => segment.id ∈ oldest)

def deleteOldSegments (cameraID : UUID) (before : Instant) (segments : Segments) : List Segment × Segments :=
  let expired (segment : Segment) : Bool := segment.cameraID = cameraID ∧ segment.endTime < before
  (segments.rows.filter expired, segments.remove expired)

/-! ## Passes -/

/-- What one pass meets: which statements succeed, what the file systems report, and
the clock. A failed statement changes nothing. -/
structure Env where
  listLocations : Bool := true
  usage : StorageLocation → Bool := fun _ => true
  delete : StorageLocation → Nat → Bool := fun _ _ => true
  listCameras : Bool := true
  deleteOld : Camera → Bool := fun _ => true
  getSite : String → Option Int := fun _ => none
  now : Camera → Instant := fun _ => 0

/-- No statement of the pass fails. -/
structure Env.Healthy (env : Env) : Prop where
  listLocations : env.listLocations = true
  usage : ∀ loc, env.usage loc = true
  delete : ∀ loc round, env.delete loc round = true

/-- The world and the totals of a pass so far. -/
structure Pass where
  world : World
  totalDeleted : Nat
  totalBytes : Nat

/-- One round of a pruning loop: the bytes counted as freed, by the disk or by the rows,
and what remains; none when no segment was left. -/
def pruneBatch (pathPrefix : String) (limit : Nat) (pass : Pass) : Option (Nat × Pass) :=
  let (batch, segments) := deleteOldestSegmentsByPath pathPrefix limit pass.world.segments
  if batch = [] then none
  else
    let (freed, disk) := removeSegments (batch.map Segment.filePath) pass.world.disk
    let batchFreed := max freed (recorded batch)
    some (batchFreed, ⟨⟨segments, disk⟩, pass.totalDeleted + batch.length, pass.totalBytes + batchFreed⟩)

/-- Batches are deleted while the bytes freed so far leave more wanting. None stands for
a loop that has not ended within the fuel. -/
def pruneLoop (delete : Nat → Bool) (pathPrefix : String) (limit : Nat) (wanting : Nat → Bool) :
    (fuel round freedHere : Nat) → Pass → Option Pass
  | 0, _, _, _ => none
  | fuel + 1, round, freedHere, pass =>
    if wanting freedHere = false ∨ delete round = false then some pass
    else
      match pruneBatch pathPrefix limit pass with
      | none => some pass
      | some (batchFreed, after) => pruneLoop delete pathPrefix limit wanting fuel (round + 1) (freedHere + batchFreed) after

def StorageLocation.maxBytes (loc : StorageLocation) : Int := loc.maxGB * 1024 * 1024 * 1024

/-- The loop body of `enforceStorageCaps`; `usage` starts from the rows and falls by the
bytes counted as freed. -/
def capLocation (env : Env) (fuel : Nat) (pass : Pass) (loc : StorageLocation) : Option Pass :=
  if loc.enabled = false ∨ loc.maxGB ≤ 0 then some pass
  else
    let pathPrefix := forwardSlashes loc.path
    if env.usage loc = false then some pass
    else
      let usage := getStorageUsageByPath pathPrefix pass.world.segments
      pruneLoop (env.delete loc) pathPrefix 50 (fun freed => loc.maxBytes < usage - (freed : Int)) fuel 0 0 pass

/-- `enforceStorageCaps`; it has no answer when its fuel runs out. -/
def enforceStorageCaps (env : Env) (fuel : Nat) (locations : Table StorageLocation.id) (world : World) : Option Pass :=
  if env.listLocations = false then some ⟨world, 0, 0⟩
  else (listStorageLocations locations).foldlM (capLocation env fuel) ⟨world, 0, 0⟩

/-- What `statfs` reports. -/
structure Statfs where
  blocks : Nat
  bavail : Nat
  bsize : Nat
  deriving DecidableEq

/-- Total and used bytes, in 64 bits. -/
def diskUsageForPath (statfs : String → Disk → Option Statfs) (path : String) (disk : Disk) : Option (Nat × Nat) :=
  match statfs path disk with
  | none => none
  | some st =>
    let total := st.blocks * st.bsize % 2 ^ 64
    let avail := st.bavail * st.bsize % 2 ^ 64
    if total < avail then none else some (total, total - avail)

def capacitySafetyThreshold : Rat := 85 / 100

def capacitySafetyTargetAfterPrune : Rat := 80 / 100

/-- The used bytes that a full disk is pruned down to. -/
def targetUsed (total : Nat) : Nat := (total * capacitySafetyTargetAfterPrune : Rat).floor.toNat

/-- Subtraction of `uint64`. -/
def subUint64 (a b : Nat) : Nat := (a + 2 ^ 64 - b) % 2 ^ 64

/-- Conversion of `uint64` to `int64`. -/
def toInt64 (n : Nat) : Int := (n : Int).bmod (2 ^ 64)

/-- Whether the passes look at the location. -/
def StorageLocation.holdsRecordings (loc : StorageLocation) : Bool :=
  loc.enabled && (loc.purpose = "recordings" || loc.purpose = "all")

/-- The loop body of `enforceCapacitySafetyValve`, with the totals of the file systems
seen so far. -/
def valveLocation (env : Env) (statfs : String → Disk → Option Statfs) (fuel : Nat) (state : List Nat × Pass)
    (loc : StorageLocation) : Option (List Nat × Pass) :=
  let (seenFS, pass) := state
  if loc.holdsRecordings = false then some state
  else
    match diskUsageForPath statfs loc.path pass.world.disk with
    | none => some state
    | some (total, used) =>
      if total = 0 ∨ total ∈ seenFS then some state
      else if (used : Rat) / total ≤ capacitySafetyThreshold then some (total :: seenFS, pass)
      else
        let mustFree := subUint64 used (targetUsed total)
        (pruneLoop (env.delete loc) (forwardSlashes loc.path) 100 (fun freed => (freed : Int) < toInt64 mustFree)
          fuel 0 0 pass).map fun pass => (total :: seenFS, pass)

/-- `enforceCapacitySafetyValve`; it has no answer when its fuel runs out. -/
def enforceCapacitySafetyValve (env : Env) (statfs : String → Disk → Option Statfs) (fuel : Nat)
    (locations : Table StorageLocation.id) (world : World) : Option Pass :=
  if env.listLocations = false then some ⟨world, 0, 0⟩
  else
    ((listStorageLocations locations).foldlM (valveLocation env statfs fuel) ([], ⟨world, 0, 0⟩)).map Prod.snd

/-- The default window of the first location that has one. -/
def fallbackRetention (locations : List StorageLocation) : Int :=
  ((locations.find? fun loc => loc.holdsRecordings && 0 < loc.retentionDays).map StorageLocation.retentionDays).getD 0

/-- The window of a camera's site, from the cache of the pass or from its row; a site
that cannot be read has none. -/
def siteRetention (env : Env) (cache : List (String × Int)) (siteID : String) : Int × List (String × Int) :=
  if siteID = "" then (0, cache)
  else
    match cache.find? fun cached => cached.1 = siteID with
    | some cached => (cached.2, cache)
    | none =>
      let days := (env.getSite siteID).getD 0
      (days, (siteID, days) :: cache)

/-- The product of 64-bit durations. -/
def cutoff (now : Instant) (retentionDays : Int) : Instant :=
  now + (-retentionDays * (24 * 3600 * 1000000000)).bmod (2 ^ 64)

/-- The loop body of `enforceRetentionDays`. -/
def retainCamera (env : Env) (fallback : Int) (state : List (String × Int) × Pass) (camera : Camera) :
    List (String × Int) × Pass :=
  let (cache, pass) := state
  let (days, cache) := siteRetention env cache (camera.siteId.getD "")
  let retentionDays := if days ≤ 0 ∧ 0 < fallback then fallback else days
  if retentionDays ≤ 0 ∨ env.deleteOld camera = false then (cache, pass)
  else
    let (expired, segments) := deleteOldSegments camera.id (cutoff (env.now camera) retentionDays) pass.world.segments
    let (freed, disk) := removeSegments (expired.map Segment.filePath) pass.world.disk
    (cache, ⟨⟨segments, disk⟩, pass.totalDeleted + expired.length, pass.totalBytes + freed⟩)

def enforceRetentionDays (env : Env) (cameras : List Camera) (locations : Table StorageLocation.id) (world : World) :
    Pass :=
  if env.listCameras = false then ⟨world, 0, 0⟩
  else
    let locations := if env.listLocations then listStorageLocations locations else []
    (cameras.foldl (retainCamera env (fallbackRetention locations)) ([], ⟨world, 0, 0⟩)).2

/-- The three passes over footage, in the order of `cleanup`. -/
def cleanup (capsEnv daysEnv valveEnv : Env) (statfs : String → Disk → Option Statfs) (fuel : Nat) (cameras : List Camera)
    (locations : Table StorageLocation.id) (world : World) : Option World := do
  let caps ← enforceStorageCaps capsEnv fuel locations world
  let days := enforceRetentionDays daysEnv cameras locations caps.world
  let valve ← enforceCapacitySafetyValve valveEnv statfs fuel locations days.world
  return valve.world

end Ironsight.Retention
