import Ironsight.SegmentWatch

/-! Which complete files get registered. Within one FFmpeg run the watcher registers
a complete file in its first scan after the file was rotated away; the watcher of
the next run takes every file from before its start for registered already. -/
namespace Ironsight.SegmentWatchProofs
open Tables Uuid Access Runs SegmentNames SegmentWatch

/-- How many rows a file has. -/
def rowsOf (recorder : Recorder) (world : World) (name : String) : Nat :=
  world.segments.countP fun row => row.filePath = recorder.path name

/-- The file being written has no row, no file has two, and a watcher between two
scans has registered all files that were complete when the last scan began. -/
structure RegisteredOnce (recorder : Recorder) (world : World) : Prop where
  unfinished : ∀ ffmpeg ∈ world.ffmpeg, ∀ name ∈ ffmpeg.writing, rowsOf recorder world name = 0
  once : ∀ name, rowsOf recorder world name ≤ 1
  served : ∀ watcher ∈ world.watcher, watcher.pass = none → ∀ name ∈ watcher.due, rowsOf recorder world name = 1

/-- FFmpeg names its files by the clock, so a new name is beyond all others;
inserts succeed; other programs keep to names of their own. -/
def Promised (world : World) (move : Move) : Prop :=
  match move.action with
  | .openFile name => isSegmentName name = true ∧ (∀ file ∈ world.files, file.name ≠ name) ∧
      ∀ file ∈ world.files, isSegmentName file.name = true → file.name ≤ name
  | .other name isDir _ => (isDir = true ∨ isSegmentName name = false) ∧ ∀ file ∈ world.files, file.name ≠ name
  | .watch inserted => inserted = true
  | _ => True

/-- A run starts when no complete file is left unregistered, and FFmpeg does not
close a file that the watcher has given up. -/
def NothingLeft (recorder : Recorder) (world : World) (move : Move) : Prop :=
  match move.action with
  | .start => world.ffmpeg = none → world.watcher = none →
      ∀ file ∈ world.files, file.complete = true → 0 < rowsOf recorder world file.name
  | .finalise name _ _ _ => ∀ ffmpeg ∈ world.ffmpeg, name ∈ ffmpeg.opened → ∀ watcher ∈ world.watcher,
      name ∈ watcher.seen → 0 < rowsOf recorder world name
  | _ => True

instance (world : World) : (move : Move) → Decidable (Promised world move)
  | ⟨_, .openFile name⟩ => inferInstanceAs (Decidable (isSegmentName name = true ∧ (∀ file ∈ world.files, file.name ≠ name) ∧
      ∀ file ∈ world.files, isSegmentName file.name = true → file.name ≤ name))
  | ⟨_, .other name isDir _⟩ => inferInstanceAs (Decidable ((isDir = true ∨ isSegmentName name = false) ∧
      ∀ file ∈ world.files, file.name ≠ name))
  | ⟨_, .watch inserted⟩ => inferInstanceAs (Decidable (inserted = true))
  | ⟨_, .start⟩ | ⟨_, .write _ _⟩ | ⟨_, .finalise _ _ _ _⟩ | ⟨_, .exit⟩ | ⟨_, .cancel⟩ => isTrue trivial

instance (recorder : Recorder) (world : World) : (move : Move) → Decidable (NothingLeft recorder world move)
  | ⟨_, .start⟩ => inferInstanceAs (Decidable (world.ffmpeg = none → world.watcher = none →
      ∀ file ∈ world.files, file.complete = true → 0 < rowsOf recorder world file.name))
  | ⟨_, .finalise name _ _ _⟩ => inferInstanceAs (Decidable (∀ ffmpeg ∈ world.ffmpeg, name ∈ ffmpeg.opened →
      ∀ watcher ∈ world.watcher, name ∈ watcher.seen → 0 < rowsOf recorder world name))
  | ⟨_, .openFile _⟩ | ⟨_, .write _ _⟩ | ⟨_, .exit⟩ | ⟨_, .cancel⟩ | ⟨_, .watch _⟩ | ⟨_, .other _ _ _⟩ => isTrue trivial

/-! ## The invariant -/

/-- The watcher is done with a file. -/
def Dismissed (watcher : Watcher) (file : File) : Prop := file.name ∈ watcher.seen ∨ file.modTime < watcher.startedAt

/-- What is known of FFmpeg's files. -/
structure Recording (world : World) (ffmpeg : FFmpeg) : Prop where
  opened : ∀ name ∈ ffmpeg.opened, ∃ file ∈ world.files, file.name = name ∧ file.complete = false ∧ file.isDir = false ∧
    ∀ watcher ∈ world.watcher, watcher.startedAt ≤ file.modTime
  writing : ∀ name ∈ ffmpeg.writing, name ∈ ffmpeg.opened ∧ isSegmentName name = true ∧
    ∀ file ∈ world.files, file.isDir = false → isSegmentName file.name = true → file.name ≤ name
  spared : ∀ name ∈ ffmpeg.writing, ∀ watcher ∈ world.watcher, ∀ pass ∈ watcher.pass,
    name = pass.newest ∨ (∀ entry ∈ pass.pending, entry.1 ≠ name) ∧ ∀ info ∈ pass.waiting, info.name ≠ name

/-- What is known of a watcher. -/
structure Watching (recorder : Recorder) (world : World) (watcher : Watcher) : Prop where
  started : watcher.startedAt ≤ world.now
  dismissed : ∀ file ∈ world.files, 0 < rowsOf recorder world file.name → Dismissed watcher file
  registered : ∀ file ∈ world.files, file.complete = true → Dismissed watcher file → 0 < rowsOf recorder world file.name
  due : ∀ name ∈ watcher.due, ∃ file ∈ world.files, file.name = name ∧ file.complete = true
  served : ∀ name ∈ watcher.due, 0 < rowsOf recorder world name ∨ ∃ pass ∈ watcher.pass, name ≠ pass.newest ∧
    ((∃ entry ∈ pass.pending, entry.1 = name) ∨ ∃ info ∈ pass.waiting, info.name = name)
  listed : ∀ pass ∈ watcher.pass, ∀ entry ∈ pass.pending, ∃ file ∈ world.files, file.name = entry.1 ∧ file.isDir = entry.2
  waiting : ∀ pass ∈ watcher.pass, ∀ info ∈ pass.waiting, rowsOf recorder world info.name = 0 ∧
    info.name ≠ pass.newest ∧ (∃ file ∈ world.files, file.name = info.name) ∧ (info.name ∈ watcher.due → info ∈ world.files)

structure Sound (recorder : Recorder) (world : World) : Prop where
  times : ∀ file ∈ world.files, file.modTime ≤ world.now
  readable : ∀ file ∈ world.files, file.finalised = true → ∃ codec, file.codec = some codec
  once : ∀ name, rowsOf recorder world name ≤ 1
  stored : ∀ name, 0 < rowsOf recorder world name → ∃ file ∈ world.files, file.name = name
  unfinished : ∀ ffmpeg ∈ world.ffmpeg, ∀ name ∈ ffmpeg.writing, rowsOf recorder world name = 0
  recording : ∀ ffmpeg ∈ world.ffmpeg, Recording world ffmpeg
  watching : ∀ watcher ∈ world.watcher, Watching recorder world watcher

section Basics
variable {recorder : Recorder} {world : World}

private theorem path_injective : Function.Injective recorder.path := by
  intro first second same
  have letters := congrArg String.toList same
  simp only [Recorder.path, String.toList_append, List.append_cancel_left_eq] at letters
  exact String.toList_injective letters

/-- The state of a sound recorder is as claimed. -/
theorem Sound.registeredOnce (sound : Sound recorder world) : RegisteredOnce recorder world where
  unfinished := sound.unfinished
  once := sound.once
  served watcher running idle name due := by
    have one := sound.once name
    rcases (sound.watching watcher running).served name due with stored | ⟨pass, scanning, _⟩
    · omega
    · rw [idle] at scanning
      cases scanning

/-- Time passes. -/
private theorem Sound.later (sound : Sound recorder world) {now : Instant} (after : world.now ≤ now) :
    Sound recorder { world with now } where
  times file held := le_trans (sound.times file held) after
  readable := sound.readable
  once := sound.once
  stored := sound.stored
  unfinished := sound.unfinished
  recording ffmpeg running :=
    let ⟨opened, writing, spared⟩ := sound.recording ffmpeg running
    ⟨opened, writing, spared⟩
  watching watcher running :=
    let ⟨started, dismissed, registered, due, served, listed, waiting⟩ := sound.watching watcher running
    ⟨le_trans started after, dismissed, registered, due, served, listed, waiting⟩

end Basics

/-! ## FFmpeg -/

section Files
variable {recorder : Recorder} {world : World} {file : File} {ffmpeg : Option FFmpeg}

/-- Writing a file touches no other one. -/
private theorem mem_put_or {old : File} (held : old ∈ world.files) :
    old ∈ world.files.put file ∧ old.name ≠ file.name ∨ old.name = file.name := by
  by_cases same : old.name = file.name
  · exact .inr same
  · exact .inl ⟨Table.mem_put.mpr (.inr ⟨held, same⟩), same⟩

private theorem exists_put {old : File} (held : old ∈ world.files) :
    ∃ new ∈ world.files.put file, new.name = old.name := by
  rcases mem_put_or held with ⟨still, _⟩ | same
  · exact ⟨old, still, rfl⟩
  · exact ⟨file, Table.mem_put.mpr (.inl rfl), same.symm⟩

private theorem Watching.put {watcher : Watcher} (watching : Watching recorder world watcher)
    (replaces : ∀ old ∈ world.files, old.name = file.name → old.complete = false ∧ old.isDir = file.isDir)
    (done : 0 < rowsOf recorder world file.name → Dismissed watcher file)
    (left : file.complete = true → Dismissed watcher file → 0 < rowsOf recorder world file.name) :
    Watching recorder { world with files := world.files.put file, ffmpeg } watcher := by
  have kept {old : File} (held : old ∈ world.files) (complete : old.complete = true) : old ∈ world.files.put file := by
    rcases mem_put_or held with ⟨still, _⟩ | same
    · exact still
    · rw [(replaces old held same).1] at complete
      cases complete
  constructor
  · exact watching.started
  · intro other held stored
    rcases Table.mem_put.mp held with rfl | ⟨old, _⟩
    · exact done stored
    · exact watching.dismissed other old stored
  · intro other held complete
    rcases Table.mem_put.mp held with rfl | ⟨old, _⟩
    · exact left complete
    · exact watching.registered other old complete
  · intro name due
    obtain ⟨old, held, named, complete⟩ := watching.due name due
    exact ⟨old, kept held complete, named, complete⟩
  · exact watching.served
  · intro pass scanning entry pending
    obtain ⟨old, held, named, kind⟩ := watching.listed pass scanning entry pending
    rcases mem_put_or held with ⟨still, _⟩ | same
    · exact ⟨old, still, named, kind⟩
    · exact ⟨file, Table.mem_put.mpr (.inl rfl), same.symm.trans named, (replaces old held same).2.symm.trans kind⟩
  · intro pass scanning info waits
    obtain ⟨free, older, ⟨old, held, named⟩, current⟩ := watching.waiting pass scanning info waits
    obtain ⟨new, still, same⟩ := exists_put held
    refine ⟨free, older, ⟨new, still, same.trans named⟩, fun due => ?_⟩
    obtain ⟨listed, here, sameName, complete⟩ := watching.due info.name due
    rw [Table.key_inj here (current due) sameName] at complete
    exact kept (current due) complete

/-- A file that FFmpeg or another program writes now. -/
private theorem Sound.put (sound : Sound recorder world)
    (replaces : ∀ old ∈ world.files, old.name = file.name → old.complete = false ∧ old.isDir = file.isDir)
    (recent : file.modTime = world.now) (readable : file.finalised = true → ∃ codec, file.codec = some codec)
    (done : ∀ watcher ∈ world.watcher, 0 < rowsOf recorder world file.name → Dismissed watcher file)
    (left : ∀ watcher ∈ world.watcher, file.complete = true → Dismissed watcher file →
      0 < rowsOf recorder world file.name)
    (unfinished : ∀ running ∈ ffmpeg, ∀ name ∈ running.writing, rowsOf recorder world name = 0)
    (recording : ∀ running ∈ ffmpeg, Recording { world with files := world.files.put file, ffmpeg } running) :
    Sound recorder { world with files := world.files.put file, ffmpeg } where
  times other held := by
    rcases Table.mem_put.mp held with rfl | ⟨old, _⟩
    · exact le_of_eq recent
    · exact sound.times other old
  readable other held := by
    rcases Table.mem_put.mp held with rfl | ⟨old, _⟩
    · exact readable
    · exact sound.readable other old
  once := sound.once
  stored name stored := by
    obtain ⟨old, held, named⟩ := sound.stored name stored
    obtain ⟨new, still, same⟩ := exists_put held
    exact ⟨new, still, same.trans named⟩
  unfinished := unfinished
  recording := recording
  watching watcher running :=
    (sound.watching watcher running).put replaces (done watcher running) (left watcher running)

/-- A file that is still open stays so, unless it is the one that was written. -/
private theorem Sound.opened_put (sound : Sound recorder world) {running : FFmpeg} (runs : running ∈ world.ffmpeg)
    (recent : file.modTime = world.now) {name : String} (open_ : name ∈ running.opened)
    (written : file.name = name → file.complete = false ∧ file.isDir = false) :
    ∃ new ∈ world.files.put file, new.name = name ∧ new.complete = false ∧ new.isDir = false ∧
      ∀ watcher ∈ world.watcher, watcher.startedAt ≤ new.modTime := by
  obtain ⟨old, held, named, facts⟩ := (sound.recording running runs).opened name open_
  rcases mem_put_or held with ⟨still, _⟩ | same
  · exact ⟨old, still, named, facts⟩
  · obtain ⟨unfinished, kind⟩ := written (same.symm.trans named)
    refine ⟨file, Table.mem_put.mpr (.inl rfl), same.symm.trans named, unfinished, kind, fun watcher watches => ?_⟩
    rw [recent]
    exact (sound.watching watcher watches).started

private theorem not_complete {name : String} {size : Nat} {now : Instant} {codec : Option String} {isDir : Bool} :
    ({ name, isDir, size, modTime := now, codec } : File).complete = false := by
  simp [File.complete]

private theorem Sound.write (sound : Sound recorder world) (size : Nat) (codec : Option String) :
    Sound recorder (writeFile world size codec) := by
  unfold writeFile
  split
  · exact sound
  · rename_i name writes
    obtain ⟨running, runs, writes⟩ := Option.bind_eq_some_iff.mp writes
    have recording := sound.recording running runs
    obtain ⟨open_, isSegment, newest⟩ := recording.writing name writes
    have free := sound.unfinished running runs name writes
    refine sound.put ?_ rfl (by rintro ⟨⟩) ?_ ?_ sound.unfinished ?_
    · intro old held same
      obtain ⟨known, here, named, unfinished, kind, _⟩ := recording.opened name open_
      rw [Table.key_inj held here (same.trans named.symm)]
      exact ⟨unfinished, kind⟩
    · intro _ _ stored
      exact absurd free (Nat.pos_iff_ne_zero.mp stored)
    · intro _ _ complete
      rw [not_complete] at complete
      cases complete
    · intro other runsOther
      cases runs.symm.trans runsOther
      refine ⟨fun another opened => sound.opened_put runs rfl opened fun _ => ⟨not_complete, rfl⟩, ?_, recording.spared⟩
      intro another writesOther
      cases writes.symm.trans writesOther
      refine ⟨open_, isSegment, fun file held kind isName => ?_⟩
      rcases Table.mem_put.mp held with rfl | ⟨old, _⟩
      · exact le_rfl
      · exact newest file old kind isName

private theorem Sound.finalise (sound : Sound recorder world) (name : String) (size : Nat) (codec : String)
    (durationMs : Option Nat) (allowed : ∀ running ∈ world.ffmpeg, name ∈ running.opened → ∀ watcher ∈ world.watcher,
      name ∈ watcher.seen → 0 < rowsOf recorder world name) :
    Sound recorder (finaliseFile world name size codec durationMs) := by
  unfold finaliseFile
  cases runs : world.ffmpeg with
  | none => exact sound
  | some running =>
    dsimp only
    split
    · rename_i open_
      have recording := sound.recording running runs
      obtain ⟨known, here, named, unfinished, kind, since⟩ := recording.opened name open_
      refine sound.put ?_ rfl (fun _ => ⟨codec, rfl⟩) ?_ ?_ ?_ ?_
      · intro old held same
        rw [Table.key_inj held here (same.trans named.symm)]
        exact ⟨unfinished, kind⟩
      · intro watcher watches stored
        rcases (sound.watching watcher watches).dismissed known here (named.symm ▸ stored) with seen | earlier
        · exact .inl (named ▸ seen)
        · exact absurd (since watcher watches) (not_le.mpr earlier)
      · rintro watcher watches _ (seen | earlier)
        · exact allowed running runs open_ watcher watches seen
        · exact absurd (sound.watching watcher watches).started (not_le.mpr earlier)
      · rintro _ ⟨⟩ other writes
        exact sound.unfinished running runs other (Option.filter_eq_some_iff.mp writes).1
      · rintro _ ⟨⟩
        refine ⟨fun other opened => ?_, fun other writes => ?_, fun other writes => ?_⟩
        · obtain ⟨opened, differs⟩ := List.mem_filter.mp opened
          refine sound.opened_put runs rfl opened fun same => absurd same.symm ?_
          simpa using differs
        · obtain ⟨writes, differs⟩ := Option.filter_eq_some_iff.mp writes
          obtain ⟨opened, isSegment, newest⟩ := recording.writing other writes
          refine ⟨List.mem_filter.mpr ⟨opened, differs⟩, isSegment, fun file held fileKind isName => ?_⟩
          rcases Table.mem_put.mp held with rfl | ⟨old, _⟩
          · exact named ▸ newest known here kind (named.symm ▸ isName)
          · exact newest file old fileKind isName
        · exact recording.spared other (Option.filter_eq_some_iff.mp writes).1
    · exact sound

private theorem Sound.fresh (sound : Sound recorder world) {name : String} (fresh : ∀ file ∈ world.files, file.name ≠ name) :
    rowsOf recorder world name = 0 := by
  by_contra stored
  obtain ⟨file, held, named⟩ := sound.stored name (Nat.pos_iff_ne_zero.mpr stored)
  exact fresh file held named

private theorem Sound.openFile (sound : Sound recorder world) {name : String} {running : FFmpeg}
    (runs : running ∈ world.ffmpeg) (isSegment : isSegmentName name = true)
    (fresh : ∀ file ∈ world.files, file.name ≠ name)
    (beyond : ∀ file ∈ world.files, isSegmentName file.name = true → file.name ≤ name) :
    Sound recorder { world with
      ffmpeg := some { writing := some name, opened := name :: running.opened }
      files := world.files.put { name, modTime := world.now } } := by
  have free := sound.fresh fresh
  refine sound.put (fun old held same => absurd same (fresh old held)) rfl (by rintro ⟨⟩)
    (fun _ _ stored => absurd free (Nat.pos_iff_ne_zero.mp stored)) (fun _ _ complete => ?_) ?_ ?_
  · rw [not_complete] at complete
    cases complete
  · rintro _ ⟨⟩ _ ⟨⟩
    exact free
  · rintro _ ⟨⟩
    refine ⟨fun other opened => ?_, ?_, ?_⟩
    · rcases List.mem_cons.mp opened with rfl | opened
      · exact ⟨_, Table.mem_put.mpr (.inl rfl), rfl, not_complete, rfl,
          fun watcher watches => (sound.watching watcher watches).started⟩
      · exact sound.opened_put runs rfl opened fun _ => ⟨not_complete, rfl⟩
    · rintro _ ⟨⟩
      refine ⟨List.mem_cons_self, isSegment, fun file held _ isName => ?_⟩
      rcases Table.mem_put.mp held with rfl | ⟨old, _⟩
      · exact le_rfl
      · exact beyond file old isName
    · rintro _ ⟨⟩ watcher watches pass scanning
      have watching := sound.watching watcher watches
      refine .inr ⟨fun entry pending same => ?_, fun info waits same => ?_⟩
      · obtain ⟨file, held, named, _⟩ := watching.listed pass scanning entry pending
        exact fresh file held (named.trans same)
      · obtain ⟨_, _, ⟨file, held, named⟩, _⟩ := watching.waiting pass scanning info waits
        exact fresh file held (named.trans same)

private theorem Sound.other (sound : Sound recorder world) {name : String} {isDir : Bool} (size : Nat)
    (foreign : isDir = true ∨ isSegmentName name = false) (fresh : ∀ file ∈ world.files, file.name ≠ name) :
    Sound recorder { world with files := world.files.put { name, isDir, size, modTime := world.now } } := by
  have free := sound.fresh fresh
  refine sound.put (fun old held same => absurd same (fresh old held)) rfl (by rintro ⟨⟩)
    (fun _ _ stored => absurd free (Nat.pos_iff_ne_zero.mp stored)) (fun _ _ complete => ?_) sound.unfinished ?_
  · rw [not_complete] at complete
    cases complete
  · intro running runs
    have recording := sound.recording running runs
    refine ⟨fun other opened => ?_, fun other writes => ?_, recording.spared⟩
    · refine sound.opened_put runs rfl opened fun same => ?_
      obtain ⟨file, held, named, _⟩ := recording.opened other opened
      exact absurd (named.trans same.symm) (fresh file held)
    · obtain ⟨opened, isSegment, newest⟩ := recording.writing other writes
      refine ⟨opened, isSegment, fun file held kind isName => ?_⟩
      rcases Table.mem_put.mp held with rfl | ⟨old, _⟩
      · rcases foreign with dir | unnamed
        · cases dir.symm.trans kind
        · cases unnamed.symm.trans isName
      · exact newest file old kind isName

end Files

/-! ## The watcher -/

section Watch
variable {recorder : Recorder} {world : World} {watcher : Watcher} {pass next : Pass} {name : String}

/-- The scan moves on and is done with one entry. -/
private structure Advance (pass next : Pass) (name : String) : Prop where
  newest : next.newest = pass.newest
  pending : ∀ entry ∈ next.pending, entry ∈ pass.pending
  left : ∀ entry ∈ pass.pending, entry.1 = name ∨ entry ∈ next.pending
  waiting : next.waiting = none
  waited : ∀ info ∈ pass.waiting, info.name = name

/-- What the watcher did with the entry: which rows and which seen names there are
now. -/
private structure Dealt (recorder : Recorder) (world : World) (watcher : Watcher) (newest name : String)
    (segments : List Segment) (seen : List String) : Prop where
  more : ∀ other, rowsOf recorder world other ≤ rowsOf recorder { world with segments } other
  only : ∀ other, rowsOf recorder { world with segments } other = rowsOf recorder world other ∨ other = name ∧ name ∈ seen
  keeps : ∀ other ∈ watcher.seen, other ∈ seen
  new : ∀ other ∈ seen, other ∈ watcher.seen ∨ other = name ∧ ∀ file ∈ world.files, file.name = name →
    file.complete = true → 0 < rowsOf recorder { world with segments } name
  why : name ∈ watcher.due → 0 < rowsOf recorder { world with segments } name ∨ name = newest

private theorem Watching.advance (watching : Watching recorder world watcher) (scanning : watcher.pass = some pass)
    (advance : Advance pass next name) {segments : List Segment} {seen : List String}
    (dealt : Dealt recorder world watcher pass.newest name segments seen) :
    Watching recorder { world with segments, watcher := some { watcher with seen, pass := some next } }
      { watcher with seen, pass := some next } := by
  have dealtWith (due : name ∈ watcher.due) (older : name ≠ pass.newest) :
      0 < rowsOf recorder { world with segments } name := (dealt.why due).resolve_right older
  constructor
  · exact watching.started
  · intro file held stored
    rcases dealt.only file.name with same | ⟨here, seen⟩
    · rcases watching.dismissed file held (same ▸ stored) with seen | earlier
      · exact .inl (dealt.keeps _ seen)
      · exact .inr earlier
    · exact .inl (here ▸ seen)
  · rintro file held complete (seen | earlier)
    · rcases dealt.new file.name seen with old | ⟨here, stored⟩
      · exact lt_of_lt_of_le (watching.registered file held complete (.inl old)) (dealt.more _)
      · exact here ▸ stored file held here complete
    · exact lt_of_lt_of_le (watching.registered file held complete (.inr earlier)) (dealt.more _)
  · exact watching.due
  · intro other due
    rcases watching.served other due with stored | ⟨current, scans, older, still⟩
    · exact .inl (lt_of_lt_of_le stored (dealt.more _))
    · cases scanning.symm.trans scans
      rcases still with ⟨entry, pending, rfl⟩ | ⟨info, waits, rfl⟩
      · rcases advance.left entry pending with rfl | pending
        · exact .inl (dealtWith due older)
        · exact .inr ⟨next, rfl, advance.newest ▸ older, .inl ⟨entry, pending, rfl⟩⟩
      · have here := advance.waited info waits
        rw [here] at due older ⊢
        exact .inl (dealtWith due older)
  · rintro _ ⟨⟩ entry pending
    exact watching.listed pass scanning entry (advance.pending entry pending)
  · rintro _ ⟨⟩ info waits
    rw [advance.waiting] at waits
    cases waits

/-- What FFmpeg writes is as it was, whatever the watcher has seen meanwhile; it must not
be among what the watcher still visits. -/
private theorem Recording.of_watcher {running : FFmpeg} (recording : Recording world running)
    (watches : world.watcher = some watcher) {moved : Watcher} {segments : List Segment}
    (since : moved.startedAt = watcher.startedAt)
    (spared : ∀ name ∈ running.writing, ∀ pass ∈ moved.pass,
      name = pass.newest ∨ (∀ entry ∈ pass.pending, entry.1 ≠ name) ∧ ∀ info ∈ pass.waiting, info.name ≠ name) :
    Recording { world with segments, watcher := some moved } running where
  opened other open_ := by
    obtain ⟨file, held, named, unfinished, kind, early⟩ := recording.opened other open_
    refine ⟨file, held, named, unfinished, kind, ?_⟩
    rintro _ ⟨⟩
    rw [since]
    exact early watcher watches
  writing := recording.writing
  spared other writes := by
    rintro _ ⟨⟩
    exact spared other writes

/-- Moving on with an entry that is not being written. -/
private theorem Sound.advance (sound : Sound recorder world) (watches : world.watcher = some watcher)
    (scanning : watcher.pass = some pass) (advance : Advance pass next name) {segments : List Segment}
    {seen : List String} (dealt : Dealt recorder world watcher pass.newest name segments seen)
    (once : rowsOf recorder { world with segments } name ≤ 1)
    (known : ∃ file ∈ world.files, file.name = name)
    (idle : ∀ running ∈ world.ffmpeg, name ∈ running.writing → rowsOf recorder { world with segments } name = 0) :
    Sound recorder { world with segments, watcher := some { watcher with seen, pass := some next } } where
  times := sound.times
  readable := sound.readable
  once other := by
    rcases dealt.only other with same | ⟨rfl, _⟩
    · exact le_of_eq_of_le same (sound.once other)
    · exact once
  stored other stored := by
    rcases dealt.only other with same | ⟨rfl, _⟩
    · exact sound.stored other (lt_of_lt_of_eq stored same)
    · exact known
  unfinished running runs other writes := by
    rcases dealt.only other with same | ⟨rfl, _⟩
    · exact same.trans (sound.unfinished running runs other writes)
    · exact idle running runs writes
  recording running runs := by
    have recording := sound.recording running runs
    refine recording.of_watcher watches rfl ?_
    rintro other writes _ ⟨⟩
    rw [advance.newest, advance.waiting]
    refine (recording.spared other writes watcher watches pass scanning).imp_right fun ⟨free, _⟩ =>
      ⟨fun entry pending => ?_, by rintro _ ⟨⟩⟩
    exact free entry (advance.pending entry pending)
  watching := by
    rintro _ ⟨⟩
    exact (sound.watching watcher watches).advance scanning advance dealt

/-- The entry is passed over. -/
private theorem Dealt.kept {newest : String} (why : name ∈ watcher.due → 0 < rowsOf recorder world name ∨ name = newest) :
    Dealt recorder world watcher newest name world.segments watcher.seen where
  more _ := le_rfl
  only _ := .inl rfl
  keeps _ seen := seen
  new _ seen := .inl seen
  why := why

/-- The entry is marked as seen without a row. -/
private theorem Dealt.seen {newest : String} (watching : Watching recorder world watcher)
    (settled : ∀ file ∈ world.files, file.name = name → file.complete = true → 0 < rowsOf recorder world name) :
    Dealt recorder world watcher newest name world.segments (name :: watcher.seen) where
  more _ := le_rfl
  only _ := .inl rfl
  keeps _ seen := List.mem_cons_of_mem _ seen
  new other seen := by
    rcases List.mem_cons.mp seen with here | seen
    · exact .inr ⟨here, settled⟩
    · exact .inl seen
  why due := by
    obtain ⟨file, held, named, complete⟩ := watching.due name due
    exact .inl (settled file held named complete)

private theorem rowsOf_append (row : Segment) (path : row.filePath = recorder.path name) (other : String) :
    rowsOf recorder { world with segments := world.segments ++ [row] } other =
      rowsOf recorder world other + if other = name then 1 else 0 := by
  have same : row.filePath = recorder.path other ↔ other = name := by
    rw [path, path_injective.eq_iff, eq_comm]
  simp [rowsOf, List.countP_append, List.countP_singleton, same]

/-- The entry gets a row. -/
private theorem Dealt.stored {newest : String} (row : Segment) (path : row.filePath = recorder.path name) :
    Dealt recorder world watcher newest name (world.segments ++ [row]) (name :: watcher.seen) where
  more other := by
    rw [rowsOf_append row path]
    exact Nat.le_add_right _ _
  only other := by
    rw [rowsOf_append row path]
    by_cases here : other = name
    · exact .inr ⟨here, List.mem_cons_self⟩
    · exact .inl (by rw [if_neg here, Nat.add_zero])
  keeps _ seen := List.mem_cons_of_mem _ seen
  new other seen := by
    rcases List.mem_cons.mp seen with here | seen
    · refine .inr ⟨here, fun _ _ _ _ => ?_⟩
      rw [rowsOf_append row path, if_pos rfl]
      exact Nat.succ_pos _
    · exact .inl seen
  why _ := by
    rw [rowsOf_append row path, if_pos rfl]
    exact .inl (Nat.succ_pos _)

/-- A stable file without a row is registered, unless it is not readable and so not
complete. -/
private theorem Sound.register (sound : Sound recorder world) (watches : world.watcher = some watcher)
    (scanning : watcher.pass = some pass) {info : File} (advance : Advance pass next info.name)
    (free : rowsOf recorder world info.name = 0) (known : ∃ file ∈ world.files, file.name = info.name)
    (idle : ∀ running ∈ world.ffmpeg, info.name ∉ running.writing) :
    Sound recorder (register recorder world { watcher with pass := some next } info true) := by
  have watching := sound.watching watcher watches
  unfold SegmentWatch.register
  cases probed : probe recorder world watcher.startedAt info with
  | none =>
    have incomplete : ∀ file ∈ world.files, file.name = info.name → file.complete = true → False := by
      intro file held named complete
      have finalised : file.finalised = true := by
        simp only [File.complete, Bool.and_eq_true] at complete
        exact complete.1.2
      obtain ⟨codec, readable⟩ := sound.readable file held finalised
      have found : world.files.find? info.name = some file := Table.find?_eq_some.mpr ⟨held, named⟩
      simp only [probe, found, readable, Option.map_some] at probed
      split at probed <;> cases probed
    have unchanged : rowsOf recorder { world with segments := world.segments } info.name = 0 := free
    have settled : ∀ file ∈ world.files, file.name = info.name → file.complete = true →
        0 < rowsOf recorder world info.name := fun file held named complete => (incomplete file held named complete).elim
    dsimp only
    split
    · exact sound.advance watches scanning advance (.seen watching settled) (sound.once _) known fun _ _ _ => unchanged
    · refine sound.advance watches scanning advance (.kept fun due => ?_) (sound.once _) known fun _ _ _ => unchanged
      obtain ⟨file, held, named, complete⟩ := watching.due info.name due
      exact (incomplete file held named complete).elim
  | some found =>
    simp only [if_true]
    refine sound.advance watches scanning advance (.stored (segment recorder info found) rfl) ?_ known
      fun running runs writes => absurd writes (idle running runs)
    rw [rowsOf_append _ rfl, if_pos rfl, free]

/-- A file that awaits registration is not the one being written. -/
private theorem Sound.not_writing (sound : Sound recorder world) (watches : world.watcher = some watcher)
    (scanning : watcher.pass = some pass) (older : name ≠ pass.newest)
    (met : (∃ entry ∈ pass.pending, entry.1 = name) ∨ ∃ info ∈ pass.waiting, info.name = name) :
    ∀ running ∈ world.ffmpeg, name ∉ running.writing := by
  intro running runs writes
  rcases (sound.recording running runs).spared name writes watcher watches pass scanning with newest | ⟨unlisted, unwatched⟩
  · exact older newest
  · rcases met with ⟨entry, pending, same⟩ | ⟨info, waits, same⟩
    · exact unlisted entry pending same
    · exact unwatched info waits same

/-- The watcher pauses over an entry. -/
private theorem Sound.pause (sound : Sound recorder world) (watches : world.watcher = some watcher)
    (scanning : watcher.pass = some pass) {info : File} (held : info ∈ world.files)
    (advance : Advance pass next info.name) (older : info.name ≠ pass.newest)
    (free : rowsOf recorder world info.name = 0) (idle : ∀ running ∈ world.ffmpeg, info.name ∉ running.writing) :
    Sound recorder { world with
      watcher := some { watcher with pass := some { next with waiting := some info } } } where
  times := sound.times
  readable := sound.readable
  once := sound.once
  stored := sound.stored
  unfinished := sound.unfinished
  recording running runs := by
    have recording := sound.recording running runs
    refine recording.of_watcher watches rfl ?_
    rintro other writes _ ⟨⟩
    rw [show ({ next with waiting := some info } : Pass).newest = pass.newest from advance.newest]
    refine (recording.spared other writes watcher watches pass scanning).imp_right fun ⟨unlisted, _⟩ =>
      ⟨fun entry pending => unlisted entry (advance.pending entry pending), ?_⟩
    rintro _ ⟨⟩ rfl
    exact idle running runs writes
  watching := by
    rintro _ ⟨⟩
    obtain ⟨started, dismissed, registered, due, served, listed, _⟩ := sound.watching watcher watches
    refine ⟨started, dismissed, registered, due, fun other isDue => ?_, ?_, ?_⟩
    · rcases served other isDue with stored | ⟨current, scans, newer, still⟩
      · exact .inl stored
      · cases scanning.symm.trans scans
        refine .inr ⟨_, rfl, advance.newest ▸ newer, ?_⟩
        rcases still with ⟨entry, pending, rfl⟩ | ⟨waited, waits, rfl⟩
        · rcases advance.left entry pending with same | pending
          · exact .inr ⟨info, rfl, same.symm⟩
          · exact .inl ⟨entry, pending, rfl⟩
        · exact .inr ⟨info, rfl, (advance.waited waited waits).symm⟩
    · rintro _ ⟨⟩ entry pending
      exact listed pass scanning entry (advance.pending entry pending)
    · rintro _ ⟨⟩ _ ⟨⟩
      exact ⟨free, advance.newest ▸ older, ⟨info, held, rfl⟩, fun _ => held⟩

/-- What the visit of an entry comes to. -/
private inductive Visited (recorder : Recorder) (world : World) (watcher : Watcher) (newest name : String) (isDir : Bool)
    (pass : Pass) (inserted : Bool) (after : World) : Prop where
  | passed (why : (isDir ∨ name ∈ watcher.seen ∨ name = newest ∨ ¬ isSegmentName name) ∨
        ∀ info, world.files.find? name = some info → info.size < 1000)
      (done : after = { world with watcher := some { watcher with pass := some pass } })
  | dismissed (info : File) (found : world.files.find? name = some info) (earlier : info.modTime < watcher.startedAt)
      (done : after = { world with watcher := some { watcher with seen := name :: watcher.seen, pass := some pass } })
  | taken (info : File) (found : world.files.find? name = some info) (unseen : name ∉ watcher.seen) (older : name ≠ newest)
      (since : ¬ info.modTime < watcher.startedAt)
      (done : after = { world with watcher := some { watcher with pass := some { pass with waiting := some info } } } ∨
        after = register recorder world { watcher with pass := some pass } info inserted)

private theorem visited (recorder : Recorder) (world : World) (watcher : Watcher) (newest name : String) (isDir : Bool)
    (pass : Pass) (inserted : Bool) : Visited recorder world watcher newest name isDir pass inserted
      (visit recorder world watcher newest name isDir pass inserted) := by
  unfold SegmentWatch.visit
  dsimp only
  split
  · rename_i reason
    exact .passed (.inl reason) rfl
  · rename_i reason
    simp only [not_or] at reason
    obtain ⟨_, unseen, older, _⟩ := reason
    split
    · rename_i missing
      refine .passed (.inr fun info found => ?_) rfl
      cases missing.symm.trans found
    · rename_i info found
      split
      · rename_i tiny
        refine .passed (.inr fun other found' => ?_) rfl
        cases found.symm.trans found'
        exact tiny
      · split
        · rename_i earlier
          exact .dismissed info found earlier rfl
        · rename_i since
          refine .taken info found unseen older since ?_
          split
          · exact .inl rfl
          · exact .inr rfl

/-- The visit of an entry. -/
private theorem Sound.visit (sound : Sound recorder world) (watches : world.watcher = some watcher)
    (scanning : watcher.pass = some pass) {isDir : Bool} {rest : List (String × Bool)}
    (pending : pass.pending = (name, isDir) :: rest) (free : pass.waiting = none) :
    Sound recorder (visit recorder world watcher pass.newest name isDir { pass with pending := rest } true) := by
  have watching := sound.watching watcher watches
  have here : (name, isDir) ∈ pass.pending := pending ▸ List.mem_cons_self
  obtain ⟨file, held, rfl, kind⟩ := watching.listed pass scanning _ here
  have known : ∃ other ∈ world.files, other.name = file.name := ⟨file, held, rfl⟩
  have advance : Advance pass { pass with pending := rest } file.name :=
    { newest := rfl
      pending := fun entry later => pending ▸ List.mem_cons_of_mem _ later
      left := fun entry member => by
        rw [pending] at member
        exact (List.mem_cons.mp member).imp_left fun same => congrArg Prod.fst same
      waiting := free
      waited := fun info waits => by
        rw [free] at waits
        cases waits }
  have complete_of_due (due : file.name ∈ watcher.due) : file.complete = true := by
    obtain ⟨other, member, same, complete⟩ := watching.due file.name due
    rwa [Table.key_inj member held same] at complete
  have skip (why : file.name ∈ watcher.due → 0 < rowsOf recorder world file.name ∨ file.name = pass.newest) :
      Sound recorder { world with watcher := some { watcher with pass := some { pass with pending := rest } } } :=
    sound.advance watches scanning advance (.kept why) (sound.once _) known
      fun running runs writes => sound.unfinished running runs _ writes
  have found : world.files.find? file.name = some file := Table.find?_eq_some.mpr ⟨held, rfl⟩
  cases visited recorder world watcher pass.newest file.name isDir { pass with pending := rest } true with
  | passed why done =>
    rw [done]
    refine skip fun due => ?_
    have complete := complete_of_due due
    simp only [File.complete, Bool.and_eq_true, decide_eq_true_eq, Bool.not_eq_true'] at complete
    rcases why with (dir | seen | newest | unnamed) | tiny
    · cases complete.1.1.1.symm.trans (kind.trans dir)
    · exact .inl (watching.registered file held (complete_of_due due) (.inl seen))
    · exact .inr newest
    · exact absurd complete.1.1.2 unnamed
    · have small := tiny file found
      omega
  | dismissed info found' earlier done =>
    cases found.symm.trans found'
    rw [done]
    refine sound.advance watches scanning advance (.seen watching fun other member same complete => ?_) (sound.once _)
      known fun running runs writes => sound.unfinished running runs _ writes
    rw [Table.key_inj member held same] at complete
    exact watching.registered file held complete (.inr earlier)
  | taken info found' unseen older since done =>
    cases found.symm.trans found'
    have idle := sound.not_writing watches scanning older (.inl ⟨_, here, rfl⟩)
    have unregistered : rowsOf recorder world file.name = 0 := by
      by_contra stored
      rcases watching.dismissed file held (Nat.pos_iff_ne_zero.mpr stored) with seen | earlier
      · exact unseen seen
      · exact since earlier
    rcases done with paused | registered
    · rw [paused]
      exact sound.pause watches scanning held advance older unregistered idle
    · rw [registered]
      exact sound.register watches scanning advance unregistered known idle

/-- The pause is over. -/
private theorem Sound.resume (sound : Sound recorder world) (watches : world.watcher = some watcher)
    (scanning : watcher.pass = some pass) {info : File} (waits : pass.waiting = some info) (again : File)
    (found : world.files.find? info.name = some again) :
    Sound recorder (if again.size ≠ info.size then
        { world with watcher := some { watcher with pass := some { pass with waiting := none } } }
      else SegmentWatch.register recorder world { watcher with pass := some { pass with waiting := none } } info true) := by
  obtain ⟨held, named⟩ := Table.find?_eq_some.mp found
  obtain ⟨free, older, known, current⟩ := (sound.watching watcher watches).waiting pass scanning info waits
  have advance : Advance pass { pass with waiting := none } info.name :=
    { newest := rfl
      pending := fun _ pending => pending
      left := fun _ pending => .inr pending
      waiting := rfl
      waited := fun other same => by
        rw [waits] at same
        cases same
        rfl }
  split
  · rename_i changed
    refine sound.advance watches scanning advance (.kept fun due => ?_) (sound.once _) known fun _ _ _ => free
    rw [Table.key_inj held (current due) named] at changed
    exact absurd rfl changed
  · exact sound.register watches scanning advance free known
      (sound.not_writing watches scanning older (.inr ⟨info, waits, rfl⟩))

private theorem mem_readDir {file : File} : file ∈ readDir world.files ↔ file ∈ world.files :=
  List.mem_insertionSort _

private theorem foldl_newest {name : String} (entries : List File) (newest : String)
    (bounded : ∀ file ∈ entries, file.isDir = false → isSegmentName file.name = true → file.name ≤ name)
    (started : newest ≤ name)
    (present : newest = name ∨ ∃ file ∈ entries, file.name = name ∧ file.isDir = false ∧ isSegmentName file.name = true) :
    entries.foldl (fun newest file =>
      if !file.isDir && isSegmentName file.name && decide (newest < file.name) then file.name else newest) newest = name := by
  induction entries generalizing newest with
  | nil =>
    rcases present with same | ⟨_, member, _⟩
    · exact same
    · cases member
  | cons file rest ih =>
    have later : ∀ other ∈ rest, other.isDir = false → isSegmentName other.name = true → other.name ≤ name :=
      fun other member => bounded other (List.mem_cons_of_mem _ member)
    rw [List.foldl_cons]
    split
    · rename_i taken
      simp only [Bool.and_eq_true, Bool.not_eq_true', decide_eq_true_eq] at taken
      refine ih _ later (bounded file List.mem_cons_self taken.1.1 taken.1.2) ?_
      rcases present with same | ⟨other, member, same, facts⟩
      · have above := bounded file List.mem_cons_self taken.1.1 taken.1.2
        exact absurd (same ▸ taken.2) (not_lt.mpr above)
      · rcases List.mem_cons.mp member with rfl | member
        · exact .inl same
        · exact .inr ⟨other, member, same, facts⟩
    · rename_i refused
      refine ih _ later started ?_
      rcases present with same | ⟨other, member, same, kind, isName⟩
      · exact .inl same
      · rcases List.mem_cons.mp member with rfl | member
        · simp only [kind, isName, Bool.not_false, Bool.true_and, Bool.and_true, decide_eq_true_eq, not_lt] at refused
          exact .inl (le_antisymm started (same ▸ refused))
        · exact .inr ⟨other, member, same, kind, isName⟩

/-- The file being written is the newest of any listing. -/
private theorem Sound.newest (sound : Sound recorder world) {running : FFmpeg} (runs : running ∈ world.ffmpeg)
    (writes : name ∈ running.writing) : newestSegment (readDir world.files) = name := by
  obtain ⟨opened, isName, bounded⟩ := (sound.recording running runs).writing name writes
  obtain ⟨file, held, named, _, kind, _⟩ := (sound.recording running runs).opened name opened
  refine foldl_newest _ _ (fun other member => bounded other (mem_readDir.mp member)) ?_
    (.inr ⟨file, mem_readDir.mpr held, named, kind, named ▸ isName⟩)
  refine not_lt.mp fun lower => ?_
  rw [String.lt_iff_toList_lt] at lower
  simp at lower

/-- A tick. -/
private theorem Sound.scan (sound : Sound recorder world) (watches : world.watcher = some watcher) :
    Sound recorder { world with watcher := some (scan world.files watcher) } where
  times := sound.times
  readable := sound.readable
  once := sound.once
  stored := sound.stored
  unfinished := sound.unfinished
  recording running runs := by
    refine (sound.recording running runs).of_watcher watches rfl ?_
    rintro other writes _ ⟨⟩
    exact .inl (sound.newest runs writes).symm
  watching := by
    rintro _ ⟨⟩
    have watching := sound.watching watcher watches
    have fewer {other : String} (seen : other ∈ (SegmentWatch.scan world.files watcher).seen) : other ∈ watcher.seen := by
      simp only [SegmentWatch.scan] at seen
      split at seen
      · exact List.mem_of_mem_filter seen
      · exact seen
    have enough {file : File} (held : file ∈ world.files) (seen : file.name ∈ watcher.seen) :
        file.name ∈ (SegmentWatch.scan world.files watcher).seen := by
      have found : world.files.find? file.name = some file := Table.find?_eq_some.mpr ⟨held, rfl⟩
      simp only [SegmentWatch.scan]
      split
      · exact List.mem_filter.mpr ⟨seen, by rw [found]; rfl⟩
      · exact seen
    refine ⟨watching.started, ?_, ?_, ?_, ?_, ?_, ?_⟩
    · intro file held stored
      exact (watching.dismissed file held stored).imp_left (enough held)
    · rintro file held complete (seen | earlier)
      · exact watching.registered file held complete (.inl (fewer seen))
      · exact watching.registered file held complete (.inr earlier)
    · intro other due
      obtain ⟨file, chosen, rfl⟩ := List.mem_map.mp due
      obtain ⟨member, facts⟩ := List.mem_filter.mp chosen
      rw [Bool.and_eq_true] at facts
      exact ⟨file, mem_readDir.mp member, rfl, facts.1⟩
    · intro other due
      obtain ⟨file, chosen, rfl⟩ := List.mem_map.mp due
      obtain ⟨member, facts⟩ := List.mem_filter.mp chosen
      rw [Bool.and_eq_true, decide_eq_true_eq] at facts
      exact .inr ⟨_, rfl, facts.2, .inl ⟨_, List.mem_map_of_mem member, rfl⟩⟩
    · rintro _ ⟨⟩ entry pending
      obtain ⟨file, member, rfl⟩ := List.mem_map.mp pending
      exact ⟨file, mem_readDir.mp member, rfl, rfl⟩
    · rintro _ ⟨⟩ info waits
      cases waits

/-- The scan has come to its end. -/
private theorem Sound.ended (sound : Sound recorder world) (watches : world.watcher = some watcher)
    (scanning : watcher.pass = some pass) (free : pass.waiting = none) (all : pass.pending = []) :
    Sound recorder { world with watcher := some { watcher with pass := none } } where
  times := sound.times
  readable := sound.readable
  once := sound.once
  stored := sound.stored
  unfinished := sound.unfinished
  recording running runs := by
    exact (sound.recording running runs).of_watcher watches rfl (by rintro _ _ _ ⟨⟩)
  watching := by
    rintro _ ⟨⟩
    obtain ⟨started, dismissed, registered, due, served, _, _⟩ := sound.watching watcher watches
    refine ⟨started, dismissed, registered, due, fun other isDue => ?_, by rintro _ ⟨⟩, by rintro _ ⟨⟩⟩
    rcases served other isDue with stored | ⟨current, scans, _, ⟨entry, pending, _⟩ | ⟨info, waits, _⟩⟩
    · exact .inl stored
    · cases scanning.symm.trans scans
      rw [all] at pending
      cases pending
    · cases scanning.symm.trans scans
      rw [free] at waits
      cases waits

private theorem Sound.watch (sound : Sound recorder world) : Sound recorder (watch recorder world true) := by
  unfold SegmentWatch.watch
  cases watches : world.watcher with
  | none => exact sound
  | some watcher =>
    cases scanning : watcher.pass with
    | none => simpa only [scanning] using sound.scan watches
    | some pass =>
      simp only [scanning]
      cases waits : pass.waiting with
      | some info =>
        obtain ⟨_, _, ⟨file, held, named⟩, _⟩ := (sound.watching watcher watches).waiting pass scanning info waits
        have found : world.files.find? info.name = some file := Table.find?_eq_some.mpr ⟨held, named⟩
        simp only [found]
        exact sound.resume watches scanning waits file found
      | none =>
        cases pending : pass.pending with
        | nil => exact sound.ended watches scanning waits pending
        | cons entry rest => simpa only [waits] using sound.visit watches scanning pending waits

end Watch

/-! ## The record loop -/

section Loop
variable {recorder : Recorder} {world : World}

private theorem Sound.exit (sound : Sound recorder world) : Sound recorder { world with ffmpeg := none } where
  times := sound.times
  readable := sound.readable
  once := sound.once
  stored := sound.stored
  unfinished := by rintro _ ⟨⟩
  recording := by rintro _ ⟨⟩
  watching watcher watches :=
    let ⟨started, dismissed, registered, due, served, listed, waiting⟩ := sound.watching watcher watches
    ⟨started, dismissed, registered, due, served, listed, waiting⟩

private theorem Sound.cancel (sound : Sound recorder world) (ended : world.ffmpeg = none) :
    Sound recorder { world with watcher := none } where
  times := sound.times
  readable := sound.readable
  once := sound.once
  stored := sound.stored
  unfinished := sound.unfinished
  recording running runs := by
    rw [ended] at runs
    cases runs
  watching := by rintro _ ⟨⟩

/-- A new watcher takes all earlier files for registered, and by assumption they
are. -/
private theorem Sound.start (sound : Sound recorder world) (past : ∀ file ∈ world.files, file.modTime < world.now)
    (all : ∀ file ∈ world.files, file.complete = true → 0 < rowsOf recorder world file.name) :
    Sound recorder { world with ffmpeg := some {}, watcher := some { startedAt := world.now } } where
  times := sound.times
  readable := sound.readable
  once := sound.once
  stored := sound.stored
  unfinished := by
    rintro _ ⟨⟩ _ ⟨⟩
  recording := by
    rintro _ ⟨⟩
    exact ⟨by rintro _ ⟨⟩, by rintro _ ⟨⟩, by rintro _ ⟨⟩⟩
  watching := by
    rintro _ ⟨⟩
    exact ⟨le_rfl, fun file held _ => .inr (past file held), fun file held complete _ => all file held complete, by rintro _ ⟨⟩,
      (by rintro _ ⟨⟩), by rintro _ ⟨⟩, by rintro _ ⟨⟩⟩

private theorem lt_later (now : Int) (elapsed : Nat) : now < now + 1 + elapsed := by
  omega

private theorem step_sound (recorder : Recorder) (world : World) (move : Move) (sound : Sound recorder world)
    (allowed : Promised world move ∧ NothingLeft recorder world move) : Sound recorder (step recorder world move) := by
  obtain ⟨elapsed, action⟩ := move
  obtain ⟨promised, left⟩ := allowed
  have later : world.now < world.now + 1 + elapsed := lt_later world.now elapsed
  have aged := sound.later (le_of_lt later)
  unfold step act
  cases action with
  | start =>
    dsimp only
    split
    · rename_i resting
      obtain ⟨ended, cancelled⟩ := resting
      exact aged.start (fun file held => lt_of_le_of_lt (sound.times file held) later)
        (left (Option.isNone_iff_eq_none.mp ended) (Option.isNone_iff_eq_none.mp cancelled))
    · exact aged
  | openFile name =>
    obtain ⟨isSegment, fresh, beyond⟩ := promised
    dsimp only
    split
    · exact aged
    · rename_i running runs
      exact aged.openFile runs isSegment fresh beyond
  | write size codec => exact aged.write size codec
  | finalise name size codec durationMs => exact aged.finalise name size codec durationMs left
  | exit => exact aged.exit
  | cancel =>
    dsimp only
    split
    · rename_i ended
      exact aged.cancel (Option.isNone_iff_eq_none.mp ended)
    · exact aged
  | watch inserted =>
    cases promised
    exact aged.watch
  | other name isDir size => exact aged.other size promised.1 promised.2

end Loop

/-! ## The end of a scan -/

/-- How many statements a scan has before it at most. -/
def scanRank (watcher : Watcher) : Nat :=
  watcher.pass.elim 0 fun pass => 1 + 2 * pass.pending.length + if pass.waiting.isSome then 1 else 0

/-- A turn of the watcher. -/
def isTurn (move : Move) : Bool := move.action matches .watch _

section Scan
variable {recorder : Recorder} {world : World} {watcher : Watcher}

private theorem register_pass {info : File} (inserted : Bool) :
    ∃ next, (register recorder world watcher info inserted).watcher = some next ∧ next.pass = watcher.pass := by
  unfold SegmentWatch.register
  dsimp only
  split
  · split
    · exact ⟨_, rfl, rfl⟩
    · exact ⟨_, rfl, rfl⟩
  · exact ⟨_, rfl, rfl⟩

private theorem visit_pass (newest name : String) (isDir inserted : Bool) (pass : Pass) :
    ∃ next waiting, (visit recorder world watcher newest name isDir pass inserted).watcher = some next ∧
      next.pass = some { pass with waiting } := by
  cases visited recorder world watcher newest name isDir pass inserted with
  | passed _ done =>
    rw [done]
    exact ⟨_, pass.waiting, rfl, rfl⟩
  | dismissed _ _ _ done =>
    rw [done]
    exact ⟨_, pass.waiting, rfl, rfl⟩
  | taken info _ _ _ _ done =>
    rcases done with paused | registered
    · rw [paused]
      exact ⟨_, some info, rfl, rfl⟩
    · rw [registered]
      obtain ⟨next, after, same⟩ := register_pass inserted
      exact ⟨next, pass.waiting, after, same⟩

variable (recorder) in
/-- A turn of the watcher during a scan brings the scan nearer to its end. -/
private theorem watch_rank (inserted : Bool) {pass : Pass} (watches : world.watcher = some watcher)
    (scanning : watcher.pass = some pass) :
    ∃ next, (watch recorder world inserted).watcher = some next ∧ scanRank next < scanRank watcher := by
  simp only [SegmentWatch.watch, watches, scanning]
  cases waits : pass.waiting with
  | some info =>
    have lower {next : Watcher} (after : next.pass = some { pass with waiting := none }) :
        scanRank next < scanRank watcher := by
      simp [scanRank, after, scanning, waits]
    dsimp only
    split
    · exact ⟨_, rfl, lower rfl⟩
    · split
      · exact ⟨_, rfl, lower rfl⟩
      · obtain ⟨next, after, same⟩ := register_pass inserted
        exact ⟨next, after, lower same⟩
  | none =>
    cases pending : pass.pending with
    | nil => exact ⟨_, rfl, by simp [scanRank, scanning]⟩
    | cons entry rest =>
      obtain ⟨next, waiting, after, same⟩ := visit_pass pass.newest entry.1 entry.2 inserted { pass with pending := rest }
      refine ⟨next, by simpa only [waits] using after, ?_⟩
      have paused : (if waiting.isSome then 1 else 0) ≤ 1 := by split <;> omega
      simp only [scanRank, same, scanning, Option.elim_some, pending, List.length_cons]
      omega

private theorem step_watcher (move : Move) (watches : world.watcher = some watcher) (other : isTurn move = false)
    (kept : move.action ≠ .cancel) : (step recorder world move).watcher = some watcher := by
  obtain ⟨elapsed, action⟩ := move
  unfold step act
  cases action with
  | start => simp [watches]
  | openFile name =>
    dsimp only
    split <;> exact watches
  | write size codec =>
    dsimp only [writeFile]
    split <;> exact watches
  | finalise name size codec durationMs =>
    dsimp only [finaliseFile]
    split
    · exact watches
    · split <;> exact watches
  | exit => exact watches
  | cancel => exact absurd rfl kept
  | watch inserted => cases other
  | other name isDir size => exact watches

/-- A scan that is not cancelled ends when it has had enough turns. -/
theorem scan_ends : ∀ (later : List Move) (world : World) (watcher : Watcher), world.watcher = some watcher →
    (∀ move ∈ later, move.action ≠ .cancel) → scanRank watcher ≤ later.countP isTurn →
      ∃ part, part <+: later ∧ ∃ next, (exec (step recorder) world part).watcher = some next ∧ next.pass = none
  | later, world, watcher, watches, kept, enough => by
    cases scanning : watcher.pass with
    | none => exact ⟨[], List.nil_prefix, watcher, watches, scanning⟩
    | some pass =>
      cases later with
      | nil => simp [scanRank, scanning] at enough
      | cons move rest =>
        have onward (next : Watcher) (after : (step recorder world move).watcher = some next)
            (fewer : scanRank next ≤ rest.countP isTurn) : ∃ part, part <+: move :: rest ∧
              ∃ next, (exec (step recorder) world part).watcher = some next ∧ next.pass = none := by
          obtain ⟨part, within, ended⟩ := scan_ends rest _ next after
            (fun other member => kept other (List.mem_cons_of_mem _ member)) fewer
          exact ⟨move :: part, (List.prefix_cons_inj move).mpr within, ended⟩
        cases turns : isTurn move with
        | false =>
          refine onward watcher (step_watcher move watches turns (kept move List.mem_cons_self)) ?_
          rwa [List.countP_cons_of_neg (by simp [turns])] at enough
        | true =>
          obtain ⟨elapsed, action⟩ := move
          cases action with
          | watch inserted =>
            have aged : { world with now := world.now + 1 + elapsed : World }.watcher = some watcher := watches
            obtain ⟨next, after, lower⟩ := watch_rank recorder inserted aged scanning
            refine onward next after ?_
            rw [List.countP_cons_of_pos turns] at enough
            omega
          | _ => cases turns

end Scan

/-! ## Files left behind -/

/-- A file without a row from before the start of the watcher. -/
structure Lost (recorder : Recorder) (name : String) (world : World) : Prop where
  known : ∃ file ∈ world.files, file.name = name ∧ file.modTime ≤ world.now ∧
    ∀ watcher ∈ world.watcher, file.modTime < watcher.startedAt
  closed : ∀ running ∈ world.ffmpeg, name ∉ running.opened ∧ name ∉ running.writing
  unwatched : ∀ watcher ∈ world.watcher, ∀ pass ∈ watcher.pass, ∀ info ∈ pass.waiting, info.name ≠ name
  unregistered : rowsOf recorder world name = 0

section Lost
variable {recorder : Recorder} {world : World} {name : String}

/-- Another file is written. -/
private theorem Lost.put (lost : Lost recorder name world) {file : File} {ffmpeg : Option FFmpeg} (differs : file.name ≠ name)
    (closed : ∀ running ∈ ffmpeg, name ∉ running.opened ∧ name ∉ running.writing) :
    Lost recorder name { world with files := world.files.put file, ffmpeg } where
  known := by
    obtain ⟨old, held, rfl, facts⟩ := lost.known
    exact ⟨old, Table.mem_put.mpr (.inr ⟨held, differs.symm⟩), rfl, facts⟩
  closed := closed
  unwatched := lost.unwatched
  unregistered := lost.unregistered

/-- The watcher deals with another file, or moves on. -/
private theorem Lost.rewatch (lost : Lost recorder name world) {watcher next : Watcher} {segments : List Segment}
    (watches : world.watcher = some watcher) (since : next.startedAt = watcher.startedAt)
    (unwatched : ∀ pass ∈ next.pass, ∀ info ∈ pass.waiting, info.name ≠ name)
    (unregistered : rowsOf recorder { world with segments } name = 0) :
    Lost recorder name { world with watcher := some next, segments } where
  known := by
    obtain ⟨file, held, named, past, earlier⟩ := lost.known
    refine ⟨file, held, named, past, ?_⟩
    rintro _ ⟨⟩
    exact lt_of_lt_of_eq (earlier watcher watches) since.symm
  closed := lost.closed
  unwatched := by
    rintro _ ⟨⟩
    exact unwatched
  unregistered := unregistered

private theorem Lost.register (lost : Lost recorder name world) {watcher : Watcher} {pass : Pass} {info : File}
    (inserted : Bool) (watches : world.watcher = some watcher) (free : pass.waiting = none) (differs : info.name ≠ name) :
    Lost recorder name (register recorder world { watcher with pass := some pass } info inserted) := by
  have unwatched : ∀ current ∈ some pass, ∀ waited ∈ current.waiting, waited.name ≠ name := by
    rintro _ ⟨⟩ waited waits
    rw [free] at waits
    cases waits
  unfold SegmentWatch.register
  dsimp only
  split
  · refine lost.rewatch watches ?_ ?_ lost.unregistered <;> split <;> first | rfl | exact unwatched
  · refine lost.rewatch watches rfl unwatched ?_
    split
    · rw [rowsOf_append _ rfl, if_neg differs.symm]
      exact lost.unregistered
    · exact lost.unregistered

private theorem Lost.visit (lost : Lost recorder name world) {watcher : Watcher} {pass : Pass} {newest : String}
    {rest : List (String × Bool)} (other : String) (isDir inserted : Bool) (watches : world.watcher = some watcher)
    (free : pass.waiting = none) :
    Lost recorder name (visit recorder world watcher newest other isDir { pass with pending := rest } inserted) := by
  have onward (seen : List String) : Lost recorder name
      { world with watcher := some { watcher with seen, pass := some { pass with pending := rest } } } := by
    refine lost.rewatch watches rfl ?_ lost.unregistered
    rintro _ ⟨⟩ info waits
    rw [show ({ pass with pending := rest } : Pass).waiting = none from free] at waits
    cases waits
  cases visited recorder world watcher newest other isDir { pass with pending := rest } inserted with
  | passed _ done =>
    rw [done]
    exact onward watcher.seen
  | dismissed _ _ _ done =>
    rw [done]
    exact onward (other :: watcher.seen)
  | taken info found _ _ since done =>
    obtain ⟨held, named⟩ := Table.find?_eq_some.mp found
    have differs : info.name ≠ name := by
      intro same
      obtain ⟨file, here, named, _, earlier⟩ := lost.known
      rw [Table.key_inj held here (same.trans named.symm)] at since
      exact since (earlier watcher watches)
    rcases done with paused | registered
    · rw [paused]
      refine lost.rewatch watches rfl ?_ lost.unregistered
      rintro _ ⟨⟩ _ ⟨⟩
      exact differs
    · rw [registered]
      exact lost.register inserted watches free differs

private theorem Lost.watch (lost : Lost recorder name world) (inserted : Bool) :
    Lost recorder name (watch recorder world inserted) := by
  unfold SegmentWatch.watch
  cases watches : world.watcher with
  | none => exact lost
  | some watcher =>
    cases scanning : watcher.pass with
    | none =>
      simp only [scanning]
      refine lost.rewatch watches rfl ?_ lost.unregistered
      rintro _ ⟨⟩ info waits
      cases waits
    | some pass =>
      simp only [scanning]
      have unwatched := lost.unwatched watcher watches pass scanning
      cases waits : pass.waiting with
      | some info =>
        have onward : Lost recorder name
            { world with watcher := some { watcher with pass := some { pass with waiting := none } } } := by
          refine lost.rewatch watches rfl ?_ lost.unregistered
          rintro _ ⟨⟩ other ⟨⟩
        dsimp only
        split
        · exact onward
        · split
          · exact onward
          · exact lost.register inserted watches rfl (unwatched info waits)
      | none =>
        cases pending : pass.pending with
        | nil =>
          refine lost.rewatch watches rfl ?_ lost.unregistered
          rintro _ ⟨⟩ _ ⟨⟩
        | cons entry rest =>
          obtain ⟨other, isDir⟩ := entry
          simpa only [waits] using lost.visit other isDir inserted watches waits

private theorem step_lost (recorder : Recorder) (world : World) (move : Move) (lost : Lost recorder name world)
    (promised : Promised world move) : Lost recorder name (step recorder world move) := by
  obtain ⟨elapsed, action⟩ := move
  have aged : Lost recorder name { world with now := world.now + 1 + elapsed } := by
    obtain ⟨⟨file, held, named, past, earlier⟩, closed, unwatched, unregistered⟩ := lost
    exact ⟨⟨file, held, named, le_trans past (le_of_lt (lt_later world.now elapsed)), earlier⟩, closed, unwatched,
      unregistered⟩
  obtain ⟨file, held, named, past, _⟩ := lost.known
  unfold step act
  cases action with
  | start =>
    dsimp only
    split
    · refine ⟨⟨file, held, named, le_trans past (le_of_lt (lt_later world.now elapsed)), ?_⟩, ?_, ?_, lost.unregistered⟩
      · rintro _ ⟨⟩
        exact lt_of_le_of_lt past (lt_later world.now elapsed)
      · rintro _ ⟨⟩
        exact ⟨List.not_mem_nil, by rintro ⟨⟩⟩
      · rintro _ ⟨⟩ _ ⟨⟩
    · exact aged
  | openFile other =>
    have differs : other ≠ name := fun same => promised.2.1 file held (named.trans same.symm)
    dsimp only
    split
    · exact aged
    · rename_i running runs
      refine aged.put differs ?_
      rintro _ ⟨⟩
      refine ⟨fun opened => ?_, fun writes => differs (Option.some.inj writes)⟩
      rcases List.mem_cons.mp opened with same | opened
      · exact differs same.symm
      · exact (lost.closed running runs).1 opened
  | write size codec =>
    dsimp only [writeFile]
    split
    · exact aged
    · rename_i other writes
      obtain ⟨running, runs, writes⟩ := Option.bind_eq_some_iff.mp writes
      exact aged.put (fun same => (lost.closed running runs).2 (same ▸ writes)) lost.closed
  | finalise other size codec durationMs =>
    dsimp only [finaliseFile]
    split
    · exact aged
    · rename_i running runs
      obtain ⟨unopened, idle⟩ := lost.closed running runs
      split
      · rename_i opened
        refine aged.put (fun same => unopened (same ▸ opened)) ?_
        rintro _ ⟨⟩
        exact ⟨fun still => unopened (List.mem_of_mem_filter still), fun still => idle (Option.filter_eq_some_iff.mp still).1⟩
      · exact aged
  | exit => exact ⟨aged.known, by rintro _ ⟨⟩, aged.unwatched, aged.unregistered⟩
  | cancel =>
    dsimp only
    split
    · obtain ⟨⟨file, held, named, past, _⟩, closed, _, unregistered⟩ := aged
      exact ⟨⟨file, held, named, past, by rintro _ ⟨⟩⟩, closed, by rintro _ ⟨⟩, unregistered⟩
    · exact aged
  | watch inserted => exact aged.watch inserted
  | other other isDir size =>
    exact aged.put (fun same => promised.2 file held (named.trans same.symm)) lost.closed

/-- A file left behind at the start of a run is never registered. -/
theorem Lost.forever (lost : Lost recorder name world) (later : List Move)
    (promised : Along (step recorder) Promised world later) :
    rowsOf recorder (exec (step recorder) world later) name = 0 :=
  (throughout_last later world (throughout_of_invariant (step_lost recorder) later world lost promised)).unregistered

end Lost

/-! ## Whole histories -/

/-- From an idle recorder, while each run starts with all complete files registered
and FFmpeg closes no file that was given up: at every moment no file has two
rows, the file being written has none, and every file that was complete when the
last scan of the watcher began has one; and every scan ends. -/
theorem complete_segments_registered (recorder : Recorder) (moves : List Move)
    (promised : Along (step recorder) Promised idle moves)
    (nothingLeft : Along (step recorder) (NothingLeft recorder) idle moves) :
    Throughout (step recorder) (RegisteredOnce recorder) idle moves ∧
      ∀ later, (∀ move ∈ later, move.action ≠ .cancel) →
        ∀ watcher ∈ (exec (step recorder) idle moves).watcher, scanRank watcher ≤ later.countP isTurn →
          ∃ part, part <+: later ∧
            ∃ next ∈ (exec (step recorder) idle (moves ++ part)).watcher, next.pass = none := by
  have sound : Throughout (step recorder) (Sound recorder) idle moves :=
    throughout_of_invariant (step_sound recorder) moves idle
      ⟨by rintro _ ⟨⟩, by rintro _ ⟨⟩, fun _ => Nat.zero_le 1, by rintro _ ⟨⟩, by rintro _ ⟨⟩, by rintro _ ⟨⟩, by rintro _ ⟨⟩⟩ (along_and promised nothingLeft)
  refine ⟨throughout_mono (fun _ => Sound.registeredOnce) moves idle sound, fun later kept watcher watches enough => ?_⟩
  obtain ⟨part, within, ended⟩ := scan_ends later _ watcher watches kept enough
  exact ⟨part, within, by rwa [exec_append]⟩

private def gate : Recorder where
  cameraID := ⟨7⟩
  outputDir := "/recordings/gate"
  segmentDur := 60
  hasAudio := false

/-- A run in which one file is rotated away, scanned and registered, and which ends
in the middle of the next file. -/
private def rotation : List Move :=
  [{ action := .start }, { action := .openFile "seg_20260101_000000.mp4" }, { action := .write 5000 none },
    { action := .finalise "seg_20260101_000000.mp4" 6000 "h264" (some 60000) },
    { action := .openFile "seg_20260101_000100.mp4" }, { action := .watch true }, { action := .watch true },
    { action := .watch true }, { action := .watch true }, { action := .watch true }, { action := .exit },
    { action := .cancel }, { action := .start }]

theorem rotation_registers : Throughout (step gate) (RegisteredOnce gate) idle rotation ∧
    rowsOf gate (exec (step gate) idle rotation) "seg_20260101_000000.mp4" = 1 :=
  ⟨(complete_segments_registered gate rotation (by decide +kernel) (by decide +kernel)).1, by decide +kernel⟩

/-- A run whose only file is closed when FFmpeg fails, and its restart. -/
private def restart : List Move :=
  [{ action := .start }, { action := .openFile "seg_20260101_000000.mp4" }, { action := .write 5000 none },
    { action := .finalise "seg_20260101_000000.mp4" 6000 "h264" (some 60000) }, { action := .exit }, { action := .cancel },
    { action := .start }]

/-- The complete last file of a failed run is never registered, whatever follows. -/
theorem last_file_of_failed_run_unregistered : Along (step gate) Promised idle restart ∧
    (∃ file ∈ (exec (step gate) idle restart).files, file.name = "seg_20260101_000000.mp4" ∧ file.complete = true) ∧
    ∀ later, Along (step gate) Promised (exec (step gate) idle restart) later →
      rowsOf gate (exec (step gate) idle (restart ++ later)) "seg_20260101_000000.mp4" = 0 := by
  refine ⟨by decide +kernel, by decide +kernel, fun later promised => ?_⟩
  rw [exec_append]
  refine Lost.forever ⟨?_, ?_, ?_, ?_⟩ later promised
  all_goals decide +kernel

end Ironsight.SegmentWatchProofs
