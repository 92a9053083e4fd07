import Mathlib.Logic.Function.Basic
import Ironsight.Retention
import Ironsight.Runs

/-! Playback of recorded footage that browsers cannot decode: the first request for a
segment transcodes it into a cache file, requests that come meanwhile wait for it, and
later ones find the file. Requests, the retention sweeper, transcoders that outlive the
server and crashes of the server interleave freely. A transcoder that is left over from a
server that crashed has its file open by then, and it may go on writing for ever. -/
namespace Ironsight.Transcoding
open Paths Runs
open Retention (cachedTranscodePath)

/-! ## The decision -/

/-- `filepath.Ext` of the last element of a path. -/
def ext (name : List Char) : List Char :=
  if '.' ∈ name then '.' :: (name.reverse.takeWhile (· ≠ '.')).reverse else []

def isMp4 (source : Place) : Bool :=
  match source.components.getLast? with
  | none => false
  | some name => (ext name).map Char.toLower = ".mp4".toList

/-- `BrowserPlayableCodec`; the probe gives the name of a codec trimmed and in lower case. -/
def browserPlayableCodec (codec : String) : Bool := decide (codec ∈ ["h264", "avc", "avc1"])

/-- Whether a request is for a recorded segment that browsers do not play. What cannot be
probed is served as it is. -/
def needsTranscode (kind : String) (source : Place) (codec : Option String) : Bool :=
  kind = "segment" && isMp4 source &&
    match codec with
    | none => false
    | some codec => !browserPlayableCodec codec

/-- `destPath + ".tmp"`. -/
def tempPath (dest : Place) : Place where
  rooted := dest.rooted
  components := dest.components.dropLast ++ (dest.components.getLast?.map (· ++ ".tmp".toList)).toList

/-! ## The disk -/

/-- What is in a file: whether the transcoder that wrote to it last did all of its work,
and how many have it open. -/
structure Contents where
  size : Nat
  whole : Bool
  writers : Nat
  deriving DecidableEq

/-- It is all there, and nobody has it open to write to it. -/
def Contents.complete (contents : Contents) : Bool := contents.whole && decide (contents.writers = 0)

theorem Contents.complete_writers {contents : Contents} (complete : contents.complete) : contents.writers = 0 := by
  simp only [Contents.complete, Bool.and_eq_true, decide_eq_true_eq] at complete
  exact complete.2

/-- Names stand for files. A file that lost its name may still be written. -/
structure Disk where
  entry : Place → Option Nat := fun _ => none
  contents : Nat → Contents := fun _ => ⟨0, false, 0⟩
  files : Nat := 0

namespace Disk

/-- There is a file of this name, and something in it. -/
def hit (disk : Disk) (name : Place) : Bool :=
  match disk.entry name with
  | none => false
  | some file => decide (0 < (disk.contents file).size)

def remove (disk : Disk) (name : Place) : Disk := { disk with entry := Function.update disk.entry name none }

/-- A new file, with one writer, under a name that is free. -/
def create (disk : Disk) (name : Place) : Disk where
  entry := Function.update disk.entry name (some disk.files)
  contents := Function.update disk.contents disk.files ⟨0, false, 1⟩
  files := disk.files + 1

def write (disk : Disk) (file : Nat) (contents : Contents) : Disk :=
  { disk with contents := Function.update disk.contents file contents }

theorem writers_create (disk : Disk) (name : Place) : ((disk.create name).contents disk.files).writers = 1 := by
  simp [create]

/-- What a transcoder does to the name of its output (`-y`): a file that is there is
emptied and has one writer more. -/
def opened (disk : Disk) (name : Place) : Nat × Disk :=
  match disk.entry name with
  | some file => (file, disk.write file ⟨0, false, (disk.contents file).writers + 1⟩)
  | none => (disk.files, disk.create name)

/-- The transcoder that has a file open ends. -/
def close (disk : Disk) (file size : Nat) (whole : Bool) : Disk :=
  disk.write file ⟨size, whole, (disk.contents file).writers - 1⟩

/-- After the removal of what is left there, the file is a new one. -/
theorem opened_remove (disk : Disk) (name : Place) :
    (disk.remove name).opened name = (disk.files, (disk.remove name).create name) := by
  simp [opened, remove]

/-- The new name stands for the file at once, whatever it stood for. -/
def rename (disk : Disk) (old new : Place) : Disk :=
  { disk with entry := Function.update (Function.update disk.entry new (disk.entry old)) old none }

end Disk

/-! ## Requests -/

/-- Where a request is. The channel of the transcode it runs or waits for is a number. -/
inductive Phase where
  | looking
  | locking
  | waiting (channel : Nat)
  | woken
  | preparing (channel : Nat)
  | encoding (channel file : Nat)
  | finishing (channel : Nat)
  | leaving (channel : Nat) (done : Bool)
  | plain
  | served
  | failed
  deriving DecidableEq

structure Request where
  source : Place
  phase : Phase
  deriving DecidableEq

/-- The copy that the request is for. -/
def Request.cache (request : Request) : Place := cachedTranscodePath request.source

/-- The channel that a transcode under way will close. -/
def Phase.channel : Phase → Option Nat
  | .preparing channel | .encoding channel _ | .finishing channel | .leaving channel _ => some channel
  | _ => none

/-- The request has its answer. -/
def Phase.answered : Phase → Bool
  | .plain | .served | .failed => true
  | _ => false

/-- The registry with its channels, the requests and the disk. -/
structure State where
  disk : Disk := {}
  inflight : Place → Option Nat := fun _ => none
  closed : Nat → Bool := fun _ => false
  channels : Nat := 0
  request : Nat → Option Request := fun _ => none

/-- What an action outside meets: whether it succeeds, and how much a transcoder wrote. -/
structure Outcome where
  ok : Bool := true
  size : Nat := 1
  deriving DecidableEq

def State.go (s : State) (t : Nat) (source : Place) (phase : Phase) : State :=
  { s with request := Function.update s.request t (some ⟨source, phase⟩) }

/-- The next action of a request: a look at the disk, a section under the lock, or an
action on files. There is none while it waits and when it is answered. -/
def act (s : State) (t : Nat) (outcome : Outcome) : Option State :=
  match s.request t with
  | none => none
  | some ⟨source, phase⟩ =>
    let cache := cachedTranscodePath source
    match phase with
    | .looking => some (s.go t source (if s.disk.hit cache then .served else .locking))
    | .locking =>
      match s.inflight cache with
      | some channel => some (s.go t source (.waiting channel))
      | none =>
        some (State.go { s with inflight := Function.update s.inflight cache (some s.channels), channels := s.channels + 1 }
          t source (.preparing s.channels))
    | .waiting channel => if s.closed channel then some (s.go t source .woken) else none
    | .woken => some (s.go t source (if s.disk.hit cache then .served else .failed))
    | .preparing channel =>
      -- No transcoder, no directory, or what a crashed server left goes and a transcoder starts.
      let opened := (s.disk.remove (tempPath cache)).opened (tempPath cache)
      if outcome.ok then some (State.go { s with disk := opened.2 } t source (.encoding channel opened.1))
      else some (s.go t source (.leaving channel false))
    | .encoding channel file =>
      if outcome.ok then
        some (State.go { s with disk := s.disk.close file outcome.size true } t source (.finishing channel))
      else
        some (State.go { s with disk := (s.disk.close file outcome.size false).remove (tempPath cache) }
          t source (.leaving channel false))
    | .finishing channel =>
      if outcome.ok then
        some (State.go { s with disk := s.disk.rename (tempPath cache) cache } t source (.leaving channel true))
      else some (State.go { s with disk := s.disk.remove (tempPath cache) } t source (.leaving channel false))
    | .leaving channel done =>
      some (State.go { s with
        inflight := Function.update s.inflight cache none
        closed := Function.update s.closed channel true } t source (if done then .served else .failed))
    | .plain | .served | .failed => none

/-- What happens to the server and its disk. -/
inductive Move where
  /-- A request of this kind arrives. -/
  | arrive (t : Nat) (kind : String) (source : Place) (codec : Option String)
  | act (t : Nat) (outcome : Outcome)
  /-- A transcoder, of this server or left over from one that crashed, writes to a file
  that it has open. -/
  | write (file size : Nat)
  /-- `removeSegmentAndCache`. -/
  | sweep (source : Place)
  /-- The server goes, and another one starts. -/
  | crash
  deriving DecidableEq

/-- An action that the request cannot take changes nothing. -/
def step (s : State) : Move → State
  | .arrive t kind source codec =>
    if s.request t = none then
      s.go t source (if needsTranscode kind source codec then .looking else .plain)
    else s
  | .act t outcome => (act s t outcome).getD s
  | .write file size =>
    let writers := (s.disk.contents file).writers
    if writers = 0 then s else { s with disk := s.disk.write file ⟨size, false, writers⟩ }
  | .sweep source =>
    if isMp4 source then { s with disk := (s.disk.remove source).remove (cachedTranscodePath source) } else s
  | .crash => { s with inflight := fun _ => none, request := fun _ => none }

/-! ## Names -/

section Names
variable {source dest dest' : Place}

theorem ext_temp (name : List Char) : ext (name ++ ".tmp".toList) = ".tmp".toList := by simp [ext]

theorem last_of_mp4 (mp4 : isMp4 source) : ∃ directory name, source.components = directory ++ [name] := by
  rw [isMp4] at mp4
  split at mp4
  · cases mp4
  next name last =>
    obtain ⟨directory, split⟩ := List.getLast?_eq_some_iff.mp last
    exact ⟨directory, name, split⟩

theorem isMp4_eq {directory : List (List Char)} {name : List Char} (split : source.components = directory ++ [name]) :
    isMp4 source = decide ((ext name).map Char.toLower = ".mp4".toList) := by
  rw [isMp4, split, List.getLast?_concat]

theorem isMp4_cache (mp4 : isMp4 source) : isMp4 (cachedTranscodePath source) := by
  obtain ⟨directory, name, split⟩ := last_of_mp4 mp4
  have cached : (cachedTranscodePath source).components = (directory ++ [Retention.h264CacheDir.toList]) ++ [name] := by
    rw [cachedTranscodePath, split]
    simp
  rw [isMp4_eq cached, ← isMp4_eq split]
  exact mp4

theorem temp_components (split : dest.components = directory ++ [name]) :
    (tempPath dest).components = directory ++ [name ++ ".tmp".toList] := by
  rw [tempPath, split]
  simp

/-- A file that is being written never has the name of a segment or of a cached one. -/
theorem temp_ne (mp4 : isMp4 dest) (mp4' : isMp4 dest') : tempPath dest ≠ dest' := by
  rintro rfl
  obtain ⟨directory, name, split⟩ := last_of_mp4 mp4
  rw [isMp4_eq (temp_components split), ext_temp] at mp4'
  revert mp4'
  decide

theorem temp_injective (mp4 : isMp4 dest) (mp4' : isMp4 dest') (same : tempPath dest = tempPath dest') : dest = dest' := by
  obtain ⟨directory, name, split⟩ := last_of_mp4 mp4
  obtain ⟨directory', name', split'⟩ := last_of_mp4 mp4'
  have components := congrArg Place.components same
  rw [temp_components split, temp_components split'] at components
  obtain ⟨rfl, names⟩ := List.append_inj' components rfl
  obtain rfl := List.append_cancel_right (List.cons.inj names).1
  have rooted : (tempPath dest).rooted = (tempPath dest').rooted := congrArg Place.rooted same
  obtain ⟨_, _⟩ := dest
  obtain ⟨_, _⟩ := dest'
  rw [Place.mk.injEq]
  exact ⟨rooted, split.trans split'.symm⟩

end Names

/-! ## The invariant -/

/-- Every transcode under way holds the open channel of its cache file, and every channel
in the registry is held; the file of a transcode is its own, and a finished one is complete. -/
structure Sound (s : State) : Prop where
  fresh : ∀ name file, s.disk.entry name = some file → file < s.disk.files
  distinct : ∀ name name' file, s.disk.entry name = some file → s.disk.entry name' = some file → name = name'
  whole : ∀ dest, isMp4 dest → ∀ file, s.disk.entry dest = some file → (s.disk.contents file).complete
  mp4 : ∀ t source phase, s.request t = some ⟨source, phase⟩ → phase = .plain ∨ isMp4 source
  unborn : ∀ channel, s.channels ≤ channel → s.closed channel = false
  owner : ∀ t source phase channel, s.request t = some ⟨source, phase⟩ → phase.channel = some channel →
    s.inflight (cachedTranscodePath source) = some channel ∧ s.closed channel = false
  busy : ∀ cache channel, s.inflight cache = some channel → channel < s.channels ∧
    ∃ t source phase, s.request t = some ⟨source, phase⟩ ∧ phase.channel = some channel ∧ cachedTranscodePath source = cache
  alone : ∀ t t' source source' phase phase' channel, s.request t = some ⟨source, phase⟩ →
    s.request t' = some ⟨source', phase'⟩ → phase.channel = some channel → phase'.channel = some channel → t = t'
  encoding : ∀ t source channel file, s.request t = some ⟨source, .encoding channel file⟩ →
    s.disk.entry (tempPath (cachedTranscodePath source)) = some file ∧ (s.disk.contents file).writers = 1
  finishing : ∀ t source channel, s.request t = some ⟨source, .finishing channel⟩ →
    ∃ file, s.disk.entry (tempPath (cachedTranscodePath source)) = some file ∧ (s.disk.contents file).complete
  waiting : ∀ t source channel, s.request t = some ⟨source, .waiting channel⟩ →
    s.closed channel ∨ s.inflight (cachedTranscodePath source) = some channel

/-- A transcode touches its own two names only, and the files they stand for. -/
structure Touches (disk disk' : Disk) (cache : Place) : Prop where
  entry : ∀ name, name ≠ cache → name ≠ tempPath cache → disk'.entry name = disk.entry name
  kept : ∀ name file, name ≠ tempPath cache → disk.entry name = some file → disk'.contents file = disk.contents file
  fresh : ∀ name file, disk'.entry name = some file → file < disk'.files
  distinct : ∀ name name' file, disk'.entry name = some file → disk'.entry name' = some file → name = name'
  cached : ∀ file, disk'.entry cache = some file → (disk'.contents file).complete

section Steps
variable {s : State} {t : Nat} {source : Place} {old new : Phase} {disk : Disk}

theorem request_go (t' : Nat) : (s.go t source new).request t' = if t' = t then some ⟨source, new⟩ else s.request t' :=
  Function.update_apply ..

/-- What the requests are after one went on. -/
theorem request_cases {t' : Nat} {request : Request} (here : (s.go t source new).request t' = some request) :
    t' = t ∧ request = ⟨source, new⟩ ∨ t' ≠ t ∧ s.request t' = some request := by
  rw [request_go] at here
  split at here
  next same => exact .inl ⟨same, (Option.some.inj here).symm⟩
  next other => exact .inr ⟨other, here⟩

/-- A request that runs no transcode goes on to where it runs none. -/
theorem Sound.turn (sound : Sound s) (before : ∀ request, s.request t = some request → request.phase.channel = none)
    (none : new.channel = none) (mp4 : new = .plain ∨ isMp4 source)
    (waits : ∀ channel, new = .waiting channel → s.closed channel ∨ s.inflight (cachedTranscodePath source) = some channel) :
    Sound (s.go t source new) where
  fresh := sound.fresh
  distinct := sound.distinct
  whole := sound.whole
  mp4 := by
    intro t' source' phase here
    obtain ⟨-, ⟨⟩⟩ | ⟨-, here⟩ := request_cases here
    · exact mp4
    · exact sound.mp4 _ _ _ here
  unborn := sound.unborn
  owner := by
    intro t' source' phase channel here held
    obtain ⟨-, ⟨⟩⟩ | ⟨-, here⟩ := request_cases here
    · rw [none] at held
      cases held
    · exact sound.owner _ _ _ _ here held
  busy := by
    intro cache channel held
    obtain ⟨below, t', source', phase, here, runs, same⟩ := sound.busy cache channel held
    refine ⟨below, t', source', phase, ?_, runs, same⟩
    rw [request_go, if_neg, here]
    rintro rfl
    have idle := before _ here
    rw [runs] at idle
    cases idle
  alone := by
    intro t₁ t₂ source₁ source₂ phase₁ phase₂ channel here₁ here₂ held₁ held₂
    obtain ⟨-, ⟨⟩⟩ | ⟨-, here₁⟩ := request_cases here₁
    · rw [none] at held₁
      cases held₁
    · obtain ⟨-, ⟨⟩⟩ | ⟨-, here₂⟩ := request_cases here₂
      · rw [none] at held₂
        cases held₂
      · exact sound.alone _ _ _ _ _ _ _ here₁ here₂ held₁ held₂
  encoding := by
    intro t' source' channel file here
    obtain ⟨-, ⟨⟩⟩ | ⟨-, here⟩ := request_cases here
    · cases none
    · exact sound.encoding _ _ _ _ here
  finishing := by
    intro t' source' channel here
    obtain ⟨-, ⟨⟩⟩ | ⟨-, here⟩ := request_cases here
    · cases none
    · exact sound.finishing _ _ _ here
  waiting := by
    intro t' source' channel here
    obtain ⟨-, ⟨⟩⟩ | ⟨-, here⟩ := request_cases here
    · exact waits channel rfl
    · exact sound.waiting _ _ _ here

/-- A transcode goes on under its channel. -/
theorem Sound.work (sound : Sound s) (here : s.request t = some ⟨source, old⟩) {channel : Nat}
    (held : old.channel = some channel) (holds : new.channel = some channel)
    (touches : Touches s.disk disk (cachedTranscodePath source))
    (encoding : ∀ file, new = .encoding channel file →
      disk.entry (tempPath (cachedTranscodePath source)) = some file ∧ (disk.contents file).writers = 1)
    (finishing : new = .finishing channel →
      ∃ file, disk.entry (tempPath (cachedTranscodePath source)) = some file ∧ (disk.contents file).complete) :
    Sound (State.go { s with disk } t source new) := by
  have mp4 : isMp4 source := by
    obtain rfl | mp4 := sound.mp4 t source old here
    · cases held
    · exact mp4
  -- Another transcode has another cache file, and so another temporary one.
  have apart : ∀ t' source' phase channel', t' ≠ t → s.request t' = some ⟨source', phase⟩ → phase.channel = some channel' →
      tempPath (cachedTranscodePath source') ≠ tempPath (cachedTranscodePath source) ∧
        disk.entry (tempPath (cachedTranscodePath source')) = s.disk.entry (tempPath (cachedTranscodePath source')) := by
    intro t' source' phase channel' other here' held'
    have mp4' : isMp4 source' := by
      obtain rfl | mp4' := sound.mp4 t' source' phase here'
      · cases held'
      · exact mp4'
    have temps : tempPath (cachedTranscodePath source') ≠ tempPath (cachedTranscodePath source) := by
      intro same
      have caches := temp_injective (isMp4_cache mp4') (isMp4_cache mp4) same
      have ours := (sound.owner t source old channel here held).1
      have theirs := (sound.owner t' source' phase channel' here' held').1
      rw [caches, ours] at theirs
      cases theirs
      exact other (sound.alone _ _ _ _ _ _ _ here' here held' held)
    exact ⟨temps, touches.entry _ (temp_ne (isMp4_cache mp4') (isMp4_cache mp4)) temps⟩
  refine ⟨touches.fresh, touches.distinct, ?_, ?_, sound.unborn, ?_, ?_, ?_, ?_, ?_, ?_⟩
  · intro dest mp4' file entry
    by_cases same : dest = cachedTranscodePath source
    · exact touches.cached file (same ▸ entry)
    · have apart := (temp_ne (isMp4_cache mp4) mp4').symm
      have before := (touches.entry dest same apart).symm.trans entry
      exact (congrArg Contents.complete (touches.kept dest file apart before)).trans (sound.whole dest mp4' file before)
  · intro t' source' phase here'
    obtain ⟨-, ⟨⟩⟩ | ⟨-, here'⟩ := request_cases here'
    · exact .inr mp4
    · exact sound.mp4 _ _ _ here'
  · intro t' source' phase channel' here' held'
    obtain ⟨-, ⟨⟩⟩ | ⟨-, here'⟩ := request_cases here'
    · rw [holds] at held'
      exact sound.owner t source old channel' here (held.trans held')
    · exact sound.owner _ _ _ _ here' held'
  · intro cache channel' inflight
    obtain ⟨below, t', source', phase, here', runs, same⟩ := sound.busy cache channel' inflight
    by_cases ours : t' = t
    · subst ours
      rw [here] at here'
      cases here'
      refine ⟨below, t', source, new, ?_, holds.trans (held.symm.trans runs), same⟩
      rw [request_go, if_pos rfl]
    · refine ⟨below, t', source', phase, ?_, runs, same⟩
      rw [request_go, if_neg ours]
      exact here'
  · intro t₁ t₂ source₁ source₂ phase₁ phase₂ channel' here₁ here₂ held₁ held₂
    obtain ⟨rfl, ⟨⟩⟩ | ⟨-, before₁⟩ := request_cases here₁
    · obtain ⟨rfl, ⟨⟩⟩ | ⟨-, before₂⟩ := request_cases here₂
      · rfl
      · exact sound.alone _ _ _ _ _ _ channel' here before₂ (held.trans (holds.symm.trans held₁)) held₂
    · obtain ⟨rfl, ⟨⟩⟩ | ⟨-, before₂⟩ := request_cases here₂
      · exact sound.alone _ _ _ _ _ _ channel' before₁ here held₁ (held.trans (holds.symm.trans held₂))
      · exact sound.alone _ _ _ _ _ _ channel' before₁ before₂ held₁ held₂
  · intro t' source' channel' file here'
    obtain ⟨-, same⟩ | ⟨other, here'⟩ := request_cases here'
    · cases same
      cases holds
      exact encoding file rfl
    · obtain ⟨entry, one⟩ := sound.encoding _ _ _ _ here'
      obtain ⟨temps, same⟩ := apart _ _ _ _ other here' rfl
      exact ⟨same.trans entry, (congrArg Contents.writers (touches.kept _ file temps entry)).trans one⟩
  · intro t' source' channel' here'
    obtain ⟨-, same⟩ | ⟨other, here'⟩ := request_cases here'
    · cases same
      cases holds
      exact finishing rfl
    · obtain ⟨file, entry, whole⟩ := sound.finishing _ _ _ here'
      obtain ⟨temps, same⟩ := apart _ _ _ _ other here' rfl
      exact ⟨file, same.trans entry, (congrArg Contents.complete (touches.kept _ file temps entry)).trans whole⟩
  · intro t' source' channel' here'
    obtain ⟨-, same⟩ | ⟨-, here'⟩ := request_cases here'
    · cases same
      cases holds
    · exact sound.waiting _ _ _ here'

/-- A request takes the free place in the registry. -/
theorem Sound.start (sound : Sound s) (here : s.request t = some ⟨source, .locking⟩)
    (free : s.inflight (cachedTranscodePath source) = none) :
    Sound (State.go { s with
      inflight := Function.update s.inflight (cachedTranscodePath source) (some s.channels), channels := s.channels + 1 }
      t source (.preparing s.channels)) := by
  have mp4 : isMp4 source := (sound.mp4 t source _ here).resolve_left (by rintro ⟨⟩)
  -- The new channel is nobody's.
  have older : ∀ t' source' phase channel, s.request t' = some ⟨source', phase⟩ → phase.channel = some channel → channel < s.channels := by
    intro t' source' phase channel here' held
    exact (sound.busy _ channel (sound.owner _ _ _ _ here' held).1).1
  refine ⟨sound.fresh, sound.distinct, sound.whole, ?_, ?_, ?_, ?_, ?_, ?_, ?_, ?_⟩
  · intro t' source' phase here'
    obtain ⟨-, ⟨⟩⟩ | ⟨-, here'⟩ := request_cases here'
    · exact .inr mp4
    · exact sound.mp4 _ _ _ here'
  · intro channel above
    exact sound.unborn channel (Nat.le_of_succ_le above)
  · intro t' source' phase channel here' held
    obtain ⟨-, same⟩ | ⟨-, here'⟩ := request_cases here'
    · cases same
      cases held
      exact ⟨Function.update_self .., sound.unborn _ le_rfl⟩
    · obtain ⟨inflight, opened⟩ := sound.owner _ _ _ _ here' held
      refine ⟨(Function.update_of_ne ?_ ..).trans inflight, opened⟩
      intro same
      rw [same, free] at inflight
      cases inflight
  · intro cache channel held
    dsimp only [State.go] at held
    rw [Function.update_apply] at held
    split at held
    next same =>
      cases held
      exact ⟨Nat.lt_succ_self _, t, source, _, (request_go t).trans (if_pos rfl), rfl, same.symm⟩
    next =>
      obtain ⟨below, t', source', phase, here', runs, same⟩ := sound.busy cache channel held
      refine ⟨Nat.lt_succ_of_lt below, t', source', phase, (request_go t').trans ?_, runs, same⟩
      rw [if_neg]
      · exact here'
      · rintro rfl
        rw [here] at here'
        cases here'
        cases runs
  · intro t₁ t₂ source₁ source₂ phase₁ phase₂ channel here₁ here₂ held₁ held₂
    obtain ⟨rfl, same₁⟩ | ⟨-, before₁⟩ := request_cases here₁
    · obtain ⟨rfl, same₂⟩ | ⟨-, before₂⟩ := request_cases here₂
      · rfl
      · cases same₁
        cases held₁
        exact absurd (older _ _ _ _ before₂ held₂) (lt_irrefl _)
    · obtain ⟨rfl, same₂⟩ | ⟨-, before₂⟩ := request_cases here₂
      · cases same₂
        cases held₂
        exact absurd (older _ _ _ _ before₁ held₁) (lt_irrefl _)
      · exact sound.alone _ _ _ _ _ _ channel before₁ before₂ held₁ held₂
  · intro t' source' channel file here'
    obtain ⟨-, ⟨⟩⟩ | ⟨-, here'⟩ := request_cases here'
    exact sound.encoding _ _ _ _ here'
  · intro t' source' channel here'
    obtain ⟨-, ⟨⟩⟩ | ⟨-, here'⟩ := request_cases here'
    exact sound.finishing _ _ _ here'
  · intro t' source' channel here'
    obtain ⟨-, ⟨⟩⟩ | ⟨-, here'⟩ := request_cases here'
    obtain closed | inflight := sound.waiting _ _ _ here'
    · exact .inl closed
    · refine .inr ((Function.update_of_ne ?_ ..).trans inflight)
      intro same
      rw [same, free] at inflight
      cases inflight

/-- The transcode leaves the registry and wakes who waits for it. -/
theorem Sound.finish (sound : Sound s) {channel : Nat} {done : Bool} (here : s.request t = some ⟨source, .leaving channel done⟩)
    (quiet : new.channel = none) (answered : new.answered) :
    Sound (State.go { s with
      inflight := Function.update s.inflight (cachedTranscodePath source) none
      closed := Function.update s.closed channel true } t source new) := by
  have mp4 : isMp4 source := (sound.mp4 t source _ here).resolve_left (by rintro ⟨⟩)
  have ⟨ours, opened⟩ := sound.owner t source _ channel here rfl
  have ⟨below, _⟩ := sound.busy _ channel ours
  refine ⟨sound.fresh, sound.distinct, sound.whole, ?_, ?_, ?_, ?_, ?_, ?_, ?_, ?_⟩
  · intro t' source' phase here'
    obtain ⟨-, ⟨⟩⟩ | ⟨-, here'⟩ := request_cases here'
    · exact .inr mp4
    · exact sound.mp4 _ _ _ here'
  · intro channel' above
    refine (Function.update_of_ne ?_ ..).trans (sound.unborn channel' above)
    rintro rfl
    exact absurd below (Nat.not_lt.mpr above)
  · intro t' source' phase channel' here' held
    obtain ⟨-, same⟩ | ⟨other, here'⟩ := request_cases here'
    · cases same
      rw [quiet] at held
      cases held
    · obtain ⟨inflight, opened'⟩ := sound.owner _ _ _ _ here' held
      have differs : channel' ≠ channel := by
        rintro rfl
        exact other (sound.alone _ _ _ _ _ _ _ here' here held rfl)
      refine ⟨(Function.update_of_ne ?_ ..).trans inflight, (Function.update_of_ne differs ..).trans opened'⟩
      intro same
      rw [same, ours] at inflight
      exact differs (Option.some.inj inflight).symm
  · intro cache channel' held
    dsimp only [State.go] at held
    rw [Function.update_apply] at held
    split at held
    · cases held
    next differs =>
      obtain ⟨below', t', source', phase, here', runs, same⟩ := sound.busy cache channel' held
      refine ⟨below', t', source', phase, (request_go t').trans ?_, runs, same⟩
      rw [if_neg]
      · exact here'
      · rintro rfl
        rw [here] at here'
        cases here'
        exact differs same.symm
  · intro t₁ t₂ source₁ source₂ phase₁ phase₂ channel' here₁ here₂ held₁ held₂
    obtain ⟨-, same⟩ | ⟨-, before₁⟩ := request_cases here₁
    · cases same
      rw [quiet] at held₁
      cases held₁
    · obtain ⟨-, same⟩ | ⟨-, before₂⟩ := request_cases here₂
      · cases same
        rw [quiet] at held₂
        cases held₂
      · exact sound.alone _ _ _ _ _ _ channel' before₁ before₂ held₁ held₂
  · intro t' source' channel' file here'
    obtain ⟨-, same⟩ | ⟨-, here'⟩ := request_cases here'
    · cases same
      cases quiet
    · exact sound.encoding _ _ _ _ here'
  · intro t' source' channel' here'
    obtain ⟨-, same⟩ | ⟨-, here'⟩ := request_cases here'
    · cases same
      cases quiet
    · exact sound.finishing _ _ _ here'
  · intro t' source' channel' here'
    obtain ⟨-, same⟩ | ⟨-, here'⟩ := request_cases here'
    · cases same
      cases answered
    · by_cases same : channel' = channel
      · exact .inl (same ▸ Function.update_self ..)
      · obtain closed | inflight := sound.waiting _ _ _ here'
        · exact .inl ((Function.update_of_ne same ..).trans closed)
        · refine .inr ((Function.update_of_ne ?_ ..).trans inflight)
          intro caches
          rw [caches, ours] at inflight
          exact same (Option.some.inj inflight).symm

/-! ### What a transcode does to the disk -/

theorem entry_remove {name other : Place} {file : Nat} (entry : (disk.remove name).entry other = some file) :
    other ≠ name ∧ disk.entry other = some file := by
  dsimp only [Disk.remove] at entry
  rw [Function.update_apply] at entry
  split at entry
  · cases entry
  next differs => exact ⟨differs, entry⟩

theorem Sound.touches_none (sound : Sound s) (mp4 : isMp4 source) : Touches s.disk s.disk (cachedTranscodePath source) where
  entry _ _ _ := rfl
  kept _ _ _ _ := rfl
  fresh := sound.fresh
  distinct := sound.distinct
  cached := sound.whole _ (isMp4_cache mp4)

theorem Touches.remove {disk' : Disk} {cache : Place} (touches : Touches disk disk' cache) :
    Touches disk (disk'.remove (tempPath cache)) cache where
  entry name other other' := (Function.update_of_ne other' ..).trans (touches.entry name other other')
  kept := touches.kept
  fresh name file entry := touches.fresh name file (entry_remove entry).2
  distinct name name' file entry entry' := touches.distinct name name' file (entry_remove entry).2 (entry_remove entry').2
  cached file entry := touches.cached file (entry_remove entry).2

/-- What a name stands for after a new file has been made is that file or an old one. -/
theorem entry_create {name other : Place} {file : Nat} (entry : (disk.create name).entry other = some file) :
    other = name ∧ file = disk.files ∨ other ≠ name ∧ disk.entry other = some file := by
  dsimp only [Disk.create] at entry
  rw [Function.update_apply] at entry
  split at entry
  next same => exact .inl ⟨same, (Option.some.inj entry).symm⟩
  next differs => exact .inr ⟨differs, entry⟩

theorem Sound.touches_create (sound : Sound s) (mp4 : isMp4 source) :
    Touches s.disk ((s.disk.remove (tempPath (cachedTranscodePath source))).create (tempPath (cachedTranscodePath source)))
      (cachedTranscodePath source) where
  entry name _ other := (Function.update_of_ne other ..).trans (Function.update_of_ne other ..)
  kept name file _ entry := Function.update_of_ne (Nat.ne_of_lt (sound.fresh name file entry)) ..
  fresh name file entry := by
    obtain ⟨-, rfl⟩ | ⟨-, before⟩ := entry_create entry
    · exact Nat.lt_succ_self _
    · exact Nat.lt_succ_of_lt (sound.fresh name file (entry_remove before).2)
  distinct name name' file entry entry' := by
    obtain ⟨rfl, new⟩ | ⟨-, before⟩ := entry_create entry
    · obtain ⟨rfl, -⟩ | ⟨-, before'⟩ := entry_create entry'
      · rfl
      · exact absurd new (Nat.ne_of_lt (sound.fresh name' file (entry_remove before').2))
    · obtain ⟨rfl, new⟩ | ⟨-, before'⟩ := entry_create entry'
      · exact absurd new (Nat.ne_of_lt (sound.fresh name file (entry_remove before).2))
      · exact sound.distinct name name' file (entry_remove before).2 (entry_remove before').2
  cached file entry := by
    obtain ⟨same, -⟩ | ⟨-, before⟩ := entry_create entry
    · exact absurd same (temp_ne (isMp4_cache mp4) (isMp4_cache mp4)).symm
    · have old := (entry_remove before).2
      have below : file ≠ (s.disk.remove (tempPath (cachedTranscodePath source))).files := Nat.ne_of_lt (sound.fresh _ file old)
      dsimp only [Disk.create]
      rw [Function.update_of_ne below]
      exact sound.whole _ (isMp4_cache mp4) file old

/-- What is written to the temporary file is in no other one. -/
theorem Sound.touches_write (sound : Sound s) (mp4 : isMp4 source) {file : Nat} (contents : Contents)
    (entry : s.disk.entry (tempPath (cachedTranscodePath source)) = some file) :
    Touches s.disk (s.disk.write file contents) (cachedTranscodePath source) := by
  have kept (name : Place) (other : Nat) (apart : name ≠ tempPath (cachedTranscodePath source))
      (there : s.disk.entry name = some other) : (s.disk.write file contents).contents other = s.disk.contents other := by
    refine Function.update_of_ne ?_ ..
    rintro rfl
    exact apart (sound.distinct _ _ other there entry)
  refine ⟨fun _ _ _ => rfl, kept, sound.fresh, sound.distinct, fun other there => ?_⟩
  rw [kept _ other (temp_ne (isMp4_cache mp4) (isMp4_cache mp4)).symm there]
  exact sound.whole _ (isMp4_cache mp4) other there

/-- What a name stands for after a file has been given a new one. -/
theorem entry_rename {old name other : Place} {file : Nat} (entry : (disk.rename old name).entry other = some file) :
    other ≠ old ∧ (other = name ∧ disk.entry old = some file ∨ other ≠ name ∧ disk.entry other = some file) := by
  dsimp only [Disk.rename] at entry
  rw [Function.update_apply] at entry
  split at entry
  · cases entry
  next apart =>
    rw [Function.update_apply] at entry
    split at entry
    next same => exact ⟨apart, .inl ⟨same, entry⟩⟩
    next differs => exact ⟨apart, .inr ⟨differs, entry⟩⟩

theorem Sound.touches_rename (sound : Sound s) {file : Nat}
    (entry : s.disk.entry (tempPath (cachedTranscodePath source)) = some file) (whole : (s.disk.contents file).complete) :
    Touches s.disk (s.disk.rename (tempPath (cachedTranscodePath source)) (cachedTranscodePath source))
      (cachedTranscodePath source) where
  entry name other other' := (Function.update_of_ne other' ..).trans (Function.update_of_ne other ..)
  kept _ _ _ _ := rfl
  fresh name other there := by
    obtain ⟨-, ⟨-, before⟩ | ⟨-, before⟩⟩ := entry_rename there
    · exact sound.fresh _ other before
    · exact sound.fresh _ other before
  distinct name name' other there there' := by
    obtain ⟨apart, ⟨rfl, before⟩ | ⟨-, before⟩⟩ := entry_rename there
    · obtain ⟨apart', ⟨rfl, -⟩ | ⟨-, before'⟩⟩ := entry_rename there'
      · rfl
      · exact absurd (sound.distinct _ _ other before' before) apart'
    · obtain ⟨-, ⟨rfl, before'⟩ | ⟨-, before'⟩⟩ := entry_rename there'
      · exact absurd (sound.distinct _ _ other before before') apart
      · exact sound.distinct name name' other before before'
  cached other there := by
    obtain ⟨-, ⟨-, before⟩ | ⟨differs, -⟩⟩ := entry_rename there
    · rw [entry] at before
      cases before
      exact whole
    · exact absurd rfl differs

theorem Sound.touches (sound : Sound s) {phase : Phase} (here : s.request t = some ⟨source, phase⟩) {outcome : Outcome} {s' : State}
    (acts : act s t outcome = some s') : Touches s.disk s'.disk (cachedTranscodePath source) := by
  rw [Transcoding.act, here] at acts
  have recorded : phase ≠ .plain → isMp4 source := (sound.mp4 t source phase here).resolve_left
  dsimp only at acts
  split at acts
  case h_1 | h_4 | h_8 =>
    have mp4 := recorded (by rintro ⟨⟩)
    cases acts
    exact sound.touches_none mp4
  case h_2 | h_3 =>
    have mp4 := recorded (by rintro ⟨⟩)
    split at acts <;> cases acts
    all_goals exact sound.touches_none mp4
  case h_5 channel =>
    have mp4 := recorded (by rintro ⟨⟩)
    rw [Disk.opened_remove] at acts
    split at acts <;> cases acts
    · exact sound.touches_create mp4
    · exact sound.touches_none mp4
  case h_6 channel file =>
    have mp4 := recorded (by rintro ⟨⟩)
    split at acts <;> cases acts
    · exact sound.touches_write mp4 _ (sound.encoding t source channel file here).1
    · exact (sound.touches_write mp4 _ (sound.encoding t source channel file here).1).remove
  case h_7 channel =>
    have mp4 := recorded (by rintro ⟨⟩)
    obtain ⟨file, entry, whole⟩ := sound.finishing t source channel here
    split at acts <;> cases acts
    · exact sound.touches_rename entry whole
    · exact (sound.touches_none mp4).remove
  all_goals cases acts

/-- An action of a request keeps the invariant. -/
theorem Sound.act (sound : Sound s) {outcome : Outcome} {s' : State} (acts : act s t outcome = some s') : Sound s' := by
  cases here : s.request t with
  | none =>
    rw [Transcoding.act, here] at acts
    cases acts
  | some request =>
    obtain ⟨source, phase⟩ := request
    have touches := sound.touches here acts
    have idle : phase.channel = none → ∀ request, s.request t = some request → request.phase.channel = none := by
      intro none request other
      rw [here] at other
      cases other
      exact none
    have recorded : phase ≠ .plain → isMp4 source := (sound.mp4 t source phase here).resolve_left
    rw [Transcoding.act, here] at acts
    dsimp only at acts
    split at acts
    case h_1 =>
      cases acts
      refine sound.turn (idle rfl) ?_ (.inr (recorded (by rintro ⟨⟩))) ?_
      · split <;> rfl
      · intro channel wait
        split at wait <;> cases wait
    case h_2 =>
      split at acts
      next channel busy =>
        cases acts
        refine sound.turn (idle rfl) rfl (.inr (recorded (by rintro ⟨⟩))) ?_
        rintro _ ⟨⟩
        exact .inr busy
      next free =>
        cases acts
        exact sound.start here free
    case h_3 channel =>
      split at acts
      · cases acts
        refine sound.turn (idle rfl) rfl (.inr (recorded (by rintro ⟨⟩))) ?_
        rintro _ ⟨⟩
      · cases acts
    case h_4 =>
      cases acts
      refine sound.turn (idle rfl) ?_ (.inr (recorded (by rintro ⟨⟩))) ?_
      · split <;> rfl
      · intro channel wait
        split at wait <;> cases wait
    case h_5 channel =>
      rw [Disk.opened_remove] at acts
      split at acts <;> cases acts
      · refine sound.work here rfl rfl touches ?_ (by rintro ⟨⟩)
        rintro _ ⟨⟩
        exact ⟨Function.update_self .., Disk.writers_create (s.disk.remove _) _⟩
      · exact sound.work here rfl rfl touches (by rintro _ ⟨⟩) (by rintro ⟨⟩)
    case h_6 channel file =>
      split at acts <;> cases acts
      · refine sound.work here rfl rfl touches (by rintro _ ⟨⟩) fun _ => ?_
        obtain ⟨entry, one⟩ := sound.encoding t source channel file here
        refine ⟨file, entry, ?_⟩
        dsimp only [Disk.close, Disk.write]
        rw [Function.update_self, one]
        rfl
      · exact sound.work here rfl rfl touches (by rintro _ ⟨⟩) (by rintro ⟨⟩)
    case h_7 channel =>
      split at acts <;> cases acts
      · exact sound.work here rfl rfl touches (by rintro _ ⟨⟩) (by rintro ⟨⟩)
      · exact sound.work here rfl rfl touches (by rintro _ ⟨⟩) (by rintro ⟨⟩)
    case h_8 channel done =>
      cases acts
      exact sound.finish here (by split <;> rfl) (by split <;> rfl)
    all_goals cases acts

theorem Sound.step (sound : Sound s) (move : Move) : Sound (step s move) := by
  cases move with
  | arrive t kind source codec =>
    rw [Transcoding.step]
    split
    next absent =>
      refine sound.turn (fun request here => ?_) (by split <;> rfl) ?_ ?_
      · rw [absent] at here
        cases here
      · split
        next needs =>
          simp only [needsTranscode, Bool.and_eq_true] at needs
          exact .inr needs.1.2
        · exact .inl rfl
      · intro channel wait
        split at wait <;> cases wait
    · exact sound
  | act t outcome =>
    rw [Transcoding.step]
    cases acts : Transcoding.act s t outcome with
    | none => exact sound
    | some s' => exact sound.act acts
  | write file size =>
    rw [Transcoding.step]
    split
    · exact sound
    next writing =>
      -- A file that is complete has no writer.
      have kept : ∀ other, (s.disk.contents other).complete →
          ((s.disk.write file ⟨size, false, (s.disk.contents file).writers⟩).contents other).complete := by
        intro other complete
        dsimp only [Disk.write]
        rw [Function.update_of_ne]
        · exact complete
        · rintro rfl
          exact writing (Contents.complete_writers complete)
      refine ⟨sound.fresh, sound.distinct, fun dest mp4 other entry => kept other (sound.whole dest mp4 other entry),
        sound.mp4, sound.unborn, sound.owner, sound.busy, sound.alone, fun t source channel other here => ?_,
        fun t source channel here => ?_, sound.waiting⟩
      · obtain ⟨entry, one⟩ := sound.encoding t source channel other here
        refine ⟨entry, ?_⟩
        dsimp only [Disk.write]
        rw [Function.update_apply]
        split
        next same => exact (congrArg (fun file => (s.disk.contents file).writers) same).symm.trans one
        · exact one
      · obtain ⟨other, entry, complete⟩ := sound.finishing t source channel here
        exact ⟨other, entry, kept other complete⟩
  | sweep source =>
    rw [Transcoding.step]
    split
    next mp4 =>
      have swept : ∀ {name file}, ((s.disk.remove source).remove (cachedTranscodePath source)).entry name = some file →
          s.disk.entry name = some file := fun entry => (entry_remove (entry_remove entry).2).2
      -- The name of a file that is being written is neither.
      have stays : ∀ t source' phase, s.request t = some ⟨source', phase⟩ → phase ≠ .plain →
          ((s.disk.remove source).remove (cachedTranscodePath source)).entry (tempPath (cachedTranscodePath source')) =
            s.disk.entry (tempPath (cachedTranscodePath source')) := by
        intro t source' phase here other
        have mp4' : isMp4 source' := (sound.mp4 t source' phase here).resolve_left other
        refine (Function.update_of_ne ?_ ..).trans (Function.update_of_ne ?_ ..)
        · exact temp_ne (isMp4_cache mp4') (isMp4_cache mp4)
        · exact temp_ne (isMp4_cache mp4') mp4
      refine ⟨fun name file entry => sound.fresh name file (swept entry),
        fun name name' file entry entry' => sound.distinct name name' file (swept entry) (swept entry'),
        fun dest mp4 file entry => sound.whole dest mp4 file (swept entry), sound.mp4, sound.unborn,
        sound.owner, sound.busy, sound.alone, fun t source' channel file here => ?_, fun t source' channel here => ?_, sound.waiting⟩
      · obtain ⟨entry, one⟩ := sound.encoding t source' channel file here
        exact ⟨(stays t source' _ here (by rintro ⟨⟩)).trans entry, one⟩
      · obtain ⟨file, entry, whole⟩ := sound.finishing t source' channel here
        exact ⟨file, (stays t source' _ here (by rintro ⟨⟩)).trans entry, whole⟩
    · exact sound
  | crash =>
    exact ⟨sound.fresh, sound.distinct, sound.whole, by rintro _ _ _ ⟨⟩, sound.unborn, by rintro _ _ _ _ ⟨⟩, by rintro _ _ ⟨⟩,
      by rintro _ _ _ _ _ _ _ ⟨⟩, by rintro _ _ _ _ ⟨⟩, by rintro _ _ _ ⟨⟩, by rintro _ _ _ ⟨⟩⟩

end Steps

/-! ## Runs -/

/-- No two transcodes make one cache file. -/
def Exclusive (s : State) : Prop :=
  ∀ t t' one other, s.request t = some one → s.request t' = some other →
    one.phase.channel ≠ none → other.phase.channel ≠ none → one.cache = other.cache → t = t'

/-- What a copy is called is never a file that is not written to its end or is still open. -/
def Untorn (s : State) : Prop :=
  ∀ source file, isMp4 source → s.disk.entry (cachedTranscodePath source) = some file → (s.disk.contents file).complete

/-- Who waits may go on, or waits for a transcode of the same file that is under way. -/
def Attended (s : State) : Prop :=
  ∀ t waiter channel, s.request t = some waiter → waiter.phase = .waiting channel → s.closed channel ∨
    ∃ t' runner, s.request t' = some runner ∧ runner.phase.channel = some channel ∧ runner.cache = waiter.cache

theorem sound_start : Sound {} := by
  refine ⟨?_, ?_, ?_, ?_, fun _ _ => rfl, ?_, ?_, ?_, ?_, ?_, ?_⟩ <;> rintro _ _ <;> intros <;> contradiction

theorem sound_throughout (moves : List Move) : Throughout step Sound {} moves :=
  throughout_of_invariant (fun _ move sound _ => Sound.step sound move) moves _ sound_start (along_trivial moves _)

section Sound
variable {s : State}

theorem Sound.exclusive (sound : Sound s) : Exclusive s := by
  rintro t t' ⟨source, phase⟩ ⟨source', phase'⟩ here here' works works' same
  obtain ⟨channel, held⟩ := Option.ne_none_iff_exists'.mp works
  obtain ⟨channel', held'⟩ := Option.ne_none_iff_exists'.mp works'
  have ours := (sound.owner t source phase channel here held).1
  have theirs := (sound.owner t' source' phase' channel' here' held').1
  rw [show cachedTranscodePath source = cachedTranscodePath source' from same, theirs] at ours
  cases ours
  exact sound.alone t t' source source' phase phase' channel here here' held held'

theorem Sound.untorn (sound : Sound s) : Untorn s := fun source file mp4 entry =>
  sound.whole (cachedTranscodePath source) (isMp4_cache mp4) file entry

theorem Sound.attended (sound : Sound s) : Attended s := by
  rintro t ⟨source, phase⟩ channel here rfl
  obtain closed | inflight := sound.waiting t source channel here
  · exact .inl closed
  · obtain ⟨-, t', source', phase, there, runs, same⟩ := sound.busy _ channel inflight
    exact .inr ⟨t', ⟨source', phase⟩, there, runs, same⟩

end Sound

/-- Whatever the order of the requests, of the sweeper, of transcoders that outlive a
server and of crashes: one transcode at a time makes a copy, nobody is shown half of one,
and nobody waits for a transcode that will not end. -/
theorem one_transcode_at_a_time (moves : List Move) :
    Throughout step (fun s => Exclusive s ∧ Untorn s ∧ Attended s) {} moves :=
  throughout_mono (fun _ sound => ⟨sound.exclusive, sound.untorn, sound.attended⟩) moves _ (sound_throughout moves)

/-! ### Every request ends -/

/-- Actions that a request has before it at most. -/
def Phase.left : Phase → Nat
  | .looking => 6
  | .locking => 5
  | .preparing _ => 4
  | .encoding _ _ => 3
  | .finishing _ | .waiting _ => 2
  | .leaving _ _ | .woken => 1
  | .plain | .served | .failed => 0

def State.left (s : State) (t : Nat) : Nat :=
  match s.request t with
  | none => 6
  | some request => request.phase.left

/-- How often a request acts in a step. -/
def acted (t : Nat) (s : State) : Move → Nat
  | .act t' outcome => if t' = t ∧ act s t outcome ≠ none then 1 else 0
  | _ => 0

/-- How often a request acts in a run. -/
def turns (t : Nat) : State → List Move → Nat
  | _, [] => 0
  | s, move :: rest => acted t s move + turns t (step s move) rest

section Turns
variable {s s' : State} {t : Nat} {outcome : Outcome}

/-- An action is a step of one request, to a phase with less before it. -/
theorem act_goes (acts : act s t outcome = some s') : ∃ source old new, s.request t = some ⟨source, old⟩ ∧
    s'.request = Function.update s.request t (some ⟨source, new⟩) ∧ new.left < old.left := by
  unfold act at acts
  split at acts
  · cases acts
  next source phase here =>
    dsimp only at acts
    split at acts
    case h_1 =>
      cases acts
      refine ⟨source, _, _, here, rfl, ?_⟩
      split <;> decide
    case h_2 =>
      split at acts
      · cases acts
        exact ⟨source, _, _, here, rfl, by simp [Phase.left]⟩
      · cases acts
        exact ⟨source, _, _, here, rfl, by simp [Phase.left]⟩
    case h_3 channel =>
      split at acts
      · cases acts
        exact ⟨source, _, _, here, rfl, Nat.one_lt_two⟩
      · cases acts
    case h_4 =>
      cases acts
      refine ⟨source, _, _, here, rfl, ?_⟩
      split <;> decide
    case h_8 channel done =>
      cases acts
      refine ⟨source, _, _, here, rfl, ?_⟩
      split <;> exact Nat.zero_lt_one
    case h_9 | h_10 | h_11 => cases acts
    -- A transcode goes on, or gives up.
    all_goals
      split at acts
      · cases acts
        exact ⟨source, _, _, here, rfl, by simp [Phase.left]⟩
      · cases acts
        exact ⟨source, _, _, here, rfl, by simp [Phase.left]⟩

/-- A request that waits for nobody acts, until it is answered. -/
theorem acts {source : Place} {phase : Phase} (here : s.request t = some ⟨source, phase⟩)
    (open_ : ∀ channel, phase = .waiting channel → s.closed channel) (busy : phase.answered = false) :
    act s t {} ≠ none := by
  rw [act, here]
  dsimp only
  cases phase with
  | looking | woken => exact Option.some_ne_none _
  | preparing channel => exact Option.some_ne_none _
  | encoding channel file => exact Option.some_ne_none _
  | finishing channel => exact Option.some_ne_none _
  | leaving channel done => exact Option.some_ne_none _
  | locking =>
    dsimp only
    split <;> exact Option.some_ne_none _
  | waiting channel =>
    dsimp only
    rw [if_pos (open_ channel rfl)]
    exact Option.some_ne_none _
  | plain | served | failed => cases busy

/-- With nobody able to act, everybody has an answer. -/
theorem answered_of_stuck (sound : Sound s) (stuck : ∀ t, act s t {} = none) {request : Request}
    (here : s.request t = some request) : request.phase.answered := by
  obtain ⟨source, phase⟩ := request
  by_contra busy
  rw [Bool.not_eq_true] at busy
  refine acts here (fun channel wait => ?_) busy (stuck t)
  obtain closed | ⟨t', ⟨source', phase'⟩, there, runs, -⟩ := sound.attended t _ channel here wait
  · exact closed
  · -- Who is waited for has something to do.
    refine absurd (stuck t') (acts there (fun channel' wait' => ?_) ?_)
    · rw [wait'] at runs
      cases runs
    · revert runs
      cases phase' <;> simp [Phase.channel, Phase.answered]

/-- Without a crash a step takes from what a request has before it what it acts. -/
theorem left_step (move : Move) (up : move ≠ .crash) :
    (step s move).left t + acted t s move ≤ s.left t := by
  cases move with
  | arrive t' kind source codec =>
    rw [step]
    split
    next absent =>
      by_cases same : t = t'
      · subst same
        simp only [State.left, State.go, Function.update_self, absent, acted, Nat.add_zero]
        split <;> decide
      · simp [State.left, State.go, acted, Function.update_of_ne same]
    · exact le_refl (s.left t)
  | act t' outcome =>
    rw [step]
    cases does : act s t' outcome with
    | none =>
      simp only [Option.getD_none, acted]
      rw [if_neg]
      · exact le_refl (s.left t)
      · rintro ⟨rfl, moves⟩
        exact moves does
    | some s' =>
      obtain ⟨source, old, new, here, goes, less⟩ := act_goes does
      by_cases same : t = t'
      · subst same
        simp only [Option.getD_some, State.left, goes, here, Function.update_self, acted]
        split
        · exact less
        · exact Nat.le_of_lt less
      · have idle : acted t s (.act t' outcome) = 0 := if_neg fun both => same both.1.symm
        rw [idle, Option.getD_some, Nat.add_zero, State.left, State.left, goes, Function.update_of_ne same]
  | write file size =>
    rw [step]
    split <;> exact le_refl (s.left t)
  | sweep source =>
    rw [step]
    split <;> exact le_refl (s.left t)
  | crash => exact absurd rfl up

theorem left_run (t : Nat) : ∀ (moves : List Move) (s : State), .crash ∉ moves →
    (exec step s moves).left t + turns t s moves ≤ s.left t
  | [], s, _ => le_refl (s.left t)
  | move :: rest, s, up => by
    rw [List.mem_cons, not_or] at up
    have now := left_step (t := t) (s := s) move (Ne.symm up.1)
    have later := left_run t rest (step s move) up.2
    rw [exec_cons, turns]
    omega

end Turns

/-- Between two crashes a request acts six times at most, and as long as one is not
answered some request can act, whatever comes of the action. -/
theorem every_request_ends (before after : List Move) (up : .crash ∉ after) :
    (∀ t, turns t (exec step {} before) after ≤ 6) ∧
    ((∀ t, act (exec step {} (before ++ after)) t {} = none) →
      ∀ t request, (exec step {} (before ++ after)).request t = some request → request.phase.answered) := by
  refine ⟨fun t => ?_, fun stuck t request here => ?_⟩
  · have bound := left_run t after (exec step {} before) up
    have most : (exec step {} before).left t ≤ 6 := by
      rw [State.left]
      split
      · exact le_rfl
      next request _ => cases request.phase <;> simp [Phase.left]
    omega
  · exact answered_of_stuck (throughout_last _ _ (sound_throughout _)) stuck here

def recording : Place := ⟨true, ["cam".toList, "seg.mp4".toList]⟩

/-- Two requests for one segment, the first of which transcodes it. -/
def pair : List Move :=
  [.arrive 1 "segment" recording "hevc", .arrive 2 "segment" recording "hevc", .act 1 {}, .act 2 {}, .act 1 {}, .act 2 {},
   .act 1 {}, .write 0 40, .act 1 ⟨true, 90⟩, .act 1 {}, .act 1 {}, .act 2 {}, .act 2 {}]

/-- From the start, with nothing before the two requests. -/
theorem every_request_ends_pair :
    (∀ t, turns t (exec step {} []) pair ≤ 6) ∧
    ((∀ t, act (exec step {} ([] ++ pair)) t {} = none) →
      ∀ t request, (exec step {} ([] ++ pair)).request t = some request → request.phase.answered) :=
  every_request_ends [] pair (by decide)

/-! ### A transcode that succeeds serves everybody -/

/-- What requests for a copy meet when their actions succeed, and what the sweeper leaves
alone then. What other requests meet is not restricted. -/
def Spares (cache : Place) (s : State) : Move → Prop
  | .act t outcome => ∀ request ∈ s.request t, request.cache = cache → outcome.ok ∧ 0 < outcome.size
  | .sweep source => source ≠ cache ∧ cachedTranscodePath source ≠ cache
  | _ => True

instance (cache : Place) (s : State) : (move : Move) → Decidable (Spares cache s move)
  | .act t outcome => inferInstanceAs (Decidable (∀ request ∈ s.request t, request.cache = cache → outcome.ok ∧ 0 < outcome.size))
  | .sweep source => inferInstanceAs (Decidable (source ≠ cache ∧ cachedTranscodePath source ≠ cache))
  | .arrive .. => isTrue trivial
  | .write .. => isTrue trivial
  | .crash => isTrue trivial

/-- How far a copy is, by where a request for it is. -/
def Phase.CopyReady (s : State) (cache : Place) : Phase → Prop
  | .failed | .leaving _ false => False
  | .leaving _ true | .woken | .served => s.disk.hit cache
  | .waiting channel => s.closed channel → s.disk.hit cache
  | .finishing _ => s.disk.hit (tempPath cache)
  | _ => True

def Healthy (cache : Place) (s : State) : Prop :=
  ∀ t source phase, s.request t = some ⟨source, phase⟩ → cachedTranscodePath source = cache → phase.CopyReady s cache

section Healthy
variable {s s' : State} {t : Nat} {source cache : Place} {phase : Phase} {disk disk' : Disk} {name : Place}

theorem hit_iff : disk.hit name ↔ ∃ file, disk.entry name = some file ∧ 0 < (disk.contents file).size := by
  rw [Disk.hit]
  split
  next absent => simp [absent]
  next file entry => simp [entry]

/-- A name keeps its file and the file what is in it. -/
theorem hit_of_same (entry : disk'.entry name = disk.entry name)
    (kept : ∀ file, disk.entry name = some file → disk'.contents file = disk.contents file) (hit : disk.hit name) : disk'.hit name := by
  obtain ⟨file, there, full⟩ := hit_iff.mp hit
  exact hit_iff.mpr ⟨file, entry.trans there, by rwa [kept file there]⟩

theorem Phase.CopyReady.mono (fine : phase.CopyReady s cache) (hit : s.disk.hit cache → s'.disk.hit cache)
    (temp : ∀ channel, phase = .finishing channel → s.disk.hit (tempPath cache) → s'.disk.hit (tempPath cache))
    (closed : ∀ channel, phase = .waiting channel → s'.closed channel → s.closed channel ∨ s'.disk.hit cache) : phase.CopyReady s' cache := by
  cases phase with
  | waiting channel =>
    intro shut
    obtain before | now := closed channel rfl shut
    · exact hit (fine before)
    · exact now
  | finishing channel => exact temp channel rfl fine
  | leaving channel done =>
    cases done with
    | false => exact fine
    | true => exact hit fine
  | woken | served => exact hit fine
  | failed => exact fine
  | looking | locking => trivial
  | preparing channel => trivial
  | encoding channel file => trivial
  | plain => trivial

/-- A channel is that of one copy. -/
theorem Sound.one_cache (sound : Sound s) {cache' : Place} {channel : Nat} (here : s.inflight cache = some channel)
    (there : s.inflight cache' = some channel) : cache = cache' := by
  obtain ⟨-, t, source, phase, one, runs, same⟩ := sound.busy cache channel here
  obtain ⟨-, t', source', phase', other, runs', same'⟩ := sound.busy cache' channel there
  obtain rfl := sound.alone t t' source source' phase phase' channel one other runs runs'
  rw [one] at other
  cases other
  exact same.symm.trans same'

variable {outcome : Outcome}

/-- A channel is closed by the transcode that leaves. -/
theorem act_closes (here : s.request t = some ⟨source, phase⟩) (acts : act s t outcome = some s') {channel : Nat}
    (shut : s'.closed channel) : s.closed channel ∨ ∃ done, phase = .leaving channel done := by
  rw [act, here] at acts
  dsimp only at acts
  split at acts
  case h_8 leaves done =>
    cases acts
    dsimp only [State.go] at shut
    rw [Function.update_apply] at shut
    split at shut
    next same => exact .inr ⟨done, by rw [same]⟩
    · exact .inl shut
  case h_1 | h_4 =>
    cases acts
    exact .inl shut
  case h_9 | h_10 | h_11 => cases acts
  all_goals
    split at acts <;> cases acts
    all_goals exact .inl shut

theorem not_plain (here : s.request t = some ⟨source, phase⟩) (acts : act s t outcome = some s') : phase ≠ .plain := by
  rintro rfl
  rw [act, here] at acts
  cases acts

/-- What becomes of a copy when a request goes on, be it for this copy or another. -/
theorem Healthy.turn (healthy : Healthy cache s) (here : s.request t = some ⟨source, phase⟩) (acts : act s t outcome = some s')
    (fine : ∀ new, s'.request t = some ⟨source, new⟩ → cachedTranscodePath source = cache → new.CopyReady s' cache)
    (others : ∀ t' source' phase', t' ≠ t → s.request t' = some ⟨source', phase'⟩ → cachedTranscodePath source' = cache →
      phase'.CopyReady s cache → phase'.CopyReady s' cache) : Healthy cache s' := by
  obtain ⟨source', old, new, before, goes, -⟩ := act_goes acts
  rw [here] at before
  cases before
  intro t' source' phase' there same
  by_cases ours : t' = t
  · subst ours
    have now := there
    rw [goes, Function.update_self] at now
    cases now
    exact fine _ there same
  · rw [goes, Function.update_of_ne ours] at there
    exact others t' source' phase' ours there same (healthy t' source' phase' there same)

/-- Another copy's transcode. -/
theorem Healthy.other (healthy : Healthy cache s) (sound : Sound s) (here : s.request t = some ⟨source, phase⟩)
    (apart : cachedTranscodePath source ≠ cache) (acts : act s t outcome = some s') : Healthy cache s' := by
  have touches := sound.touches here acts
  have mp4 : isMp4 source := (sound.mp4 t source phase here).resolve_left (not_plain here acts)
  refine healthy.turn here acts (fun _ _ same => absurd same apart) fun t' source' phase' _ there same fine => ?_
  subst same
  by_cases plain : phase' = .plain
  · subst plain
    trivial
  have mp4' : isMp4 source' := (sound.mp4 t' source' phase' there).resolve_left plain
  have temps : tempPath (cachedTranscodePath source') ≠ tempPath (cachedTranscodePath source) := fun same =>
    apart (temp_injective (isMp4_cache mp4') (isMp4_cache mp4) same).symm
  have differs : cachedTranscodePath source' ≠ tempPath (cachedTranscodePath source) :=
    (temp_ne (isMp4_cache mp4) (isMp4_cache mp4')).symm
  refine fine.mono ?_ (fun _ _ => ?_) fun channel wait shut => ?_
  · exact hit_of_same (touches.entry _ apart.symm differs) fun file => touches.kept _ file differs
  · exact hit_of_same (touches.entry _ (temp_ne (isMp4_cache mp4') (isMp4_cache mp4)) temps) fun file => touches.kept _ file temps
  · obtain before | ⟨done, rfl⟩ := act_closes here acts shut
    · exact .inl before
    · subst wait
      obtain closed | inflight := sound.waiting t' source' channel there
      · exact .inl closed
      · exact absurd (sound.one_cache (sound.owner t source _ channel here rfl).1 inflight) apart

theorem go_phase {new new' : Phase} (there : (s.go t source new).request t = some ⟨source, new'⟩) : new' = new := by
  rw [request_go, if_pos rfl] at there
  cases there
  rfl

theorem hit_rename {old : Place} (differs : name ≠ old) (hit : disk.hit old) : (disk.rename old name).hit name := by
  obtain ⟨file, entry, full⟩ := hit_iff.mp hit
  refine hit_iff.mpr ⟨file, ?_, full⟩
  dsimp only [Disk.rename]
  rw [Function.update_of_ne differs, Function.update_self, entry]

theorem hit_create (below : ∀ name file, disk.entry name = some file → file < disk.files) (differs : cache ≠ name)
    (hit : disk.hit cache) : ((disk.remove name).create name).hit cache := by
  refine hit_of_same ((Function.update_of_ne differs ..).trans (Function.update_of_ne differs ..)) (fun file entry => ?_) hit
  exact Function.update_of_ne (Nat.ne_of_lt (below cache file entry)) ..

/-- A request that succeeds at what it does, and does it for the copy itself. -/
theorem Healthy.own (healthy : Healthy cache s) (sound : Sound s) (here : s.request t = some ⟨source, phase⟩)
    (same : cachedTranscodePath source = cache) (acts : act s t outcome = some s') (ok : outcome.ok) (full : 0 < outcome.size) :
    Healthy cache s' := by
  have fine := healthy t source phase here same
  have touches := sound.touches here acts
  have mp4 : isMp4 source := (sound.mp4 t source phase here).resolve_left (not_plain here acts)
  have differs : cache ≠ tempPath cache := by
    rw [← same]
    exact (temp_ne (isMp4_cache mp4) (isMp4_cache mp4)).symm
  subst same
  -- Nobody else makes this copy, and so nobody else minds what its temporary file is.
  have others : phase.channel ≠ none → (s.disk.hit (cachedTranscodePath source) → s'.disk.hit (cachedTranscodePath source)) →
      (∀ channel, s'.closed channel → s.closed channel ∨ s'.disk.hit (cachedTranscodePath source)) →
      ∀ t' source' phase', t' ≠ t → s.request t' = some ⟨source', phase'⟩ → cachedTranscodePath source' = cachedTranscodePath source →
      phase'.CopyReady s (cachedTranscodePath source) → phase'.CopyReady s' (cachedTranscodePath source) := by
    intro works hit shut t' source' phase' apart there same fine
    refine fine.mono hit (fun channel ends => ?_) fun channel _ => shut channel
    subst ends
    exact absurd (sound.exclusive t' t _ _ there here (by rintro ⟨⟩) works same) apart
  have unchanged : s'.disk = s.disk → s'.closed = s.closed → ∀ t' source' phase', t' ≠ t → s.request t' = some ⟨source', phase'⟩ →
      cachedTranscodePath source' = cachedTranscodePath source →
      phase'.CopyReady s (cachedTranscodePath source) → phase'.CopyReady s' (cachedTranscodePath source) := by
    intro disk closed t' source' phase' _ _ _ fine
    exact fine.mono (disk ▸ id) (fun _ _ => disk ▸ id) fun channel _ shut => .inl (closed ▸ shut)
  have does := acts
  rw [act, here] at does
  dsimp only at does
  split at does
  case h_1 =>
    cases does
    refine healthy.turn here acts (fun new there _ => ?_) (unchanged rfl rfl)
    obtain rfl := go_phase there
    split
    next hit => exact hit
    · trivial
  case h_2 =>
    split at does
    next channel busy =>
      cases does
      refine healthy.turn here acts (fun new there _ => ?_) (unchanged rfl rfl)
      obtain rfl := go_phase there
      intro closed
      obtain ⟨-, t', source', phase', there, runs, same⟩ := sound.busy _ channel busy
      have opened := (sound.owner t' source' phase' channel there runs).2
      exact absurd closed (by rw [State.go, opened]; decide)
    · cases does
      refine healthy.turn here acts (fun new there _ => ?_) (unchanged rfl rfl)
      obtain rfl := go_phase there
      trivial
  case h_3 channel =>
    split at does
    next closed =>
      cases does
      refine healthy.turn here acts (fun new there _ => ?_) (unchanged rfl rfl)
      obtain rfl := go_phase there
      exact fine closed
    · cases does
  case h_4 =>
    cases does
    refine healthy.turn here acts (fun new there _ => ?_) (unchanged rfl rfl)
    obtain rfl := go_phase there
    have hit : s.disk.hit (cachedTranscodePath source) := fine
    rw [if_pos hit]
    exact hit
  case h_5 channel =>
    rw [Disk.opened_remove, if_pos ok] at does
    cases does
    refine healthy.turn here acts (fun new there _ => ?_) (others (by rintro ⟨⟩) (hit_create sound.fresh differs) fun _ => .inl)
    obtain rfl := go_phase there
    trivial
  case h_6 channel file =>
    rw [if_pos ok] at does
    cases does
    have hit : s.disk.hit (cachedTranscodePath source) → (s.disk.close file outcome.size true).hit (cachedTranscodePath source) :=
      hit_of_same rfl fun file => touches.kept (cachedTranscodePath source) file differs
    refine healthy.turn here acts (fun new there _ => ?_) (others (by rintro ⟨⟩) hit fun _ => .inl)
    obtain rfl := go_phase there
    refine hit_iff.mpr ⟨file, (sound.encoding t source channel file here).1, ?_⟩
    dsimp only [State.go, Disk.close, Disk.write]
    rw [Function.update_self]
    exact full
  case h_7 channel =>
    rw [if_pos ok] at does
    cases does
    have hit := hit_rename differs fine
    refine healthy.turn here acts (fun new there _ => ?_) (others (by rintro ⟨⟩) (fun _ => hit) fun _ => .inl)
    obtain rfl := go_phase there
    exact hit
  case h_8 channel done =>
    cases does
    cases done with
    | false => exact fine.elim
    | true =>
      refine healthy.turn here acts (fun new there _ => ?_) (others (by rintro ⟨⟩) id fun _ _ => .inr fine)
      obtain rfl := go_phase there
      exact fine
  all_goals cases does

/-- Whatever happens to others, a copy that is spared is there for who asks for it. -/
theorem Healthy.step (healthy : Healthy cache s) (sound : Sound s) (move : Move) (spares : Spares cache s move) :
    Healthy cache (step s move) := by
  cases move with
  | arrive t kind source codec =>
    rw [Transcoding.step]
    split
    · intro t' source' phase' there same
      obtain ⟨-, ⟨⟩⟩ | ⟨-, there⟩ := request_cases there
      · split <;> trivial
      · exact healthy t' source' phase' there same
    · exact healthy
  | act t outcome =>
    rw [Transcoding.step]
    cases acts : act s t outcome with
    | none => exact healthy
    | some s' =>
      obtain ⟨source, phase, -, here, -⟩ := act_goes acts
      by_cases same : cachedTranscodePath source = cache
      · obtain ⟨ok, full⟩ := spares ⟨source, phase⟩ here same
        exact healthy.own sound here same acts ok full
      · exact healthy.other sound here same acts
  | write file size =>
    rw [Transcoding.step]
    split
    · exact healthy
    next writing =>
      have kept : ∀ {name}, (∀ other, s.disk.entry name = some other → (s.disk.contents other).complete) →
          s.disk.hit name → (s.disk.write file ⟨size, false, (s.disk.contents file).writers⟩).hit name := by
        intro name complete
        refine hit_of_same rfl fun other entry => Function.update_of_ne ?_ ..
        rintro rfl
        exact writing (Contents.complete_writers (complete other entry))
      intro t source phase here same
      have fine := healthy t source phase here same
      subst same
      by_cases plain : phase = .plain
      · subst plain
        trivial
      have mp4 : isMp4 source := (sound.mp4 t source phase here).resolve_left plain
      have shown := kept fun other => sound.whole (cachedTranscodePath source) (isMp4_cache mp4) other
      refine fine.mono shown (fun channel ends => kept fun other entry => ?_) fun _ _ => .inl
      subst ends
      obtain ⟨written, entry', whole⟩ := sound.finishing t source channel here
      rw [entry'] at entry
      cases entry
      exact whole
  | sweep swept =>
    rw [Transcoding.step]
    split
    next mp4 =>
      have kept : ∀ {name}, name ≠ swept → name ≠ cachedTranscodePath swept → s.disk.hit name →
          ((s.disk.remove swept).remove (cachedTranscodePath swept)).hit name := by
        intro name apart apart'
        exact hit_of_same ((Function.update_of_ne apart' ..).trans (Function.update_of_ne apart ..)) fun _ _ => rfl
      intro t source phase here same
      have fine := healthy t source phase here same
      subst same
      by_cases plain : phase = .plain
      · subst plain
        trivial
      have mp4' : isMp4 source := (sound.mp4 t source phase here).resolve_left plain
      refine fine.mono (kept spares.1.symm spares.2.symm) (fun _ _ => kept ?_ ?_) fun _ _ => .inl
      · exact temp_ne (isMp4_cache mp4') mp4
      · exact temp_ne (isMp4_cache mp4') (isMp4_cache mp4)
    · exact healthy
  | crash =>
    rintro _ _ _ ⟨⟩

end Healthy

/-- As long as the actions for a copy succeed and the sweeper spares it, every request for
it that ends is shown the whole of it, whatever becomes of the others. -/
theorem spared_copy_serves (cache : Place) (moves : List Move) (spared : Along step (Spares cache) {} moves) :
    Throughout step (fun s => ∀ t request, s.request t = some request → request.cache = cache →
      request.phase ≠ .failed ∧ (request.phase = .served → s.disk.hit cache)) {} moves := by
  have run : Throughout step (fun s => Sound s ∧ Healthy cache s) {} moves := by
    refine throughout_of_invariant (fun s move inv spares => ?_) moves _ ⟨sound_start, by rintro _ _ _ ⟨⟩⟩ spared
    exact ⟨Sound.step inv.1 move, inv.2.step inv.1 move spares⟩
  refine throughout_mono (fun s inv => ?_) moves _ run
  rintro t ⟨source, phase⟩ here same
  have fine := inv.2 t source phase here same
  refine ⟨?_, ?_⟩
  · rintro rfl
    exact fine
  · rintro rfl
    exact fine

/-- Both are served, the second by the transcode of the first. -/
theorem spared_copy_serves_pair : Along step (Spares (cachedTranscodePath recording)) {} pair ∧
    Throughout step (fun s => ∀ t request, s.request t = some request → request.cache = cachedTranscodePath recording →
      request.phase ≠ .failed ∧ (request.phase = .served → s.disk.hit (cachedTranscodePath recording))) {} pair :=
  have spared : Along step (Spares (cachedTranscodePath recording)) {} pair := by decide
  ⟨spared, spared_copy_serves _ _ spared⟩

example : ([1, 2].map fun t => (exec step {} pair).request t) = [some ⟨recording, .served⟩, some ⟨recording, .served⟩] := by decide

end Ironsight.Transcoding
