import Ironsight.ClipWriter

/-! Whether the cleaner of the ring spares the segments of unfinished clips. A
clean pass removes what is older than its cutoff, so it is harmless as long as
no unfinished clip reaches back behind a cutoff. The flags that the pass looks
at beforehand do not ensure that: they are cleared by any writer that is done,
and they are looked at once. -/
namespace Ironsight.ClipWriter
open Tables Access Runs
open SegmentNames (parseRingTimestamp)
open SegmentWatch (second)

/-- The clip of a goroutine that was triggered and is not yet copied. -/
def Thread.unfinished? : Thread → Option Clip
  | .waiting clip | .expired clip | .collecting clip _ | .copying clip .. => some clip
  | _ => none

/-- The cutoff of a clean pass under way. -/
def Thread.cutoff? : Thread → Option Instant
  | .listing cutoff | .removing cutoff _ => some cutoff
  | _ => none

/-- Where the footage of an unfinished clip ends, as far as is known. -/
def Thread.recordingEnd (shared : Shared) : Thread → Instant
  | .collecting _ actualEnd | .copying _ actualEnd .. => actualEnd
  | _ => shared.recordingEnd

/-- A move that takes a segment out of the ring takes one that no unfinished clip
needs. -/
def SparesUnfinished (config : Config) (pool : Pool) (move : Move) : Prop :=
  ∀ file ∈ pool.shared.ring, (∀ left ∈ (step config pool move).shared.ring, left.name ≠ file.name) →
    ∀ time ∈ file.time?, ∀ thread ∈ pool.threads, ∀ clip ∈ thread.unfinished?,
      overlaps clip.clipStart (thread.recordingEnd pool.shared) time = false

instance (config : Config) (pool : Pool) (move : Move) : Decidable (SparesUnfinished config pool move) :=
  inferInstanceAs (Decidable (∀ file ∈ pool.shared.ring, (∀ left ∈ (step config pool move).shared.ring, left.name ≠ file.name) →
    ∀ time ∈ file.time?, ∀ thread ∈ pool.threads, ∀ clip ∈ thread.unfinished?,
      overlaps clip.clipStart (thread.recordingEnd pool.shared) time = false))

/-- A clean pass takes its cutoff from the clock only while no unfinished clip
reaches back behind it, and no clip that reaches back behind the cutoff of a pass
under way is started. -/
def Unhurried (config : Config) (pool : Pool) (env : Env) : Thread → Prop
  | .reading => ∀ thread ∈ pool.threads, ∀ clip ∈ thread.unfinished?,
      config.cutoff (pool.shared.now + env.elapsed) ≤ clip.clipStart - 5 * second
  | .triggered eventTime eventType => pool.shared.recording = false → ∀ thread ∈ pool.threads,
      ∀ cutoff ∈ thread.cutoff?, cutoff ≤ (config.newClip eventTime eventType).clipStart - 5 * second
  | _ => True

instance (config : Config) (pool : Pool) (env : Env) : (thread : Thread) → Decidable (Unhurried config pool env thread)
  | .reading => inferInstanceAs (Decidable (∀ thread ∈ pool.threads, ∀ clip ∈ thread.unfinished?,
      config.cutoff (pool.shared.now + env.elapsed) ≤ clip.clipStart - 5 * second))
  | .triggered eventTime eventType => inferInstanceAs (Decidable (pool.shared.recording = false → ∀ thread ∈ pool.threads,
      ∀ cutoff ∈ thread.cutoff?, cutoff ≤ (config.newClip eventTime eventType).clipStart - 5 * second))
  | .waiting .. | .expired .. | .collecting .. | .copying .. | .inserting .. | .releasing | .checking | .listing ..
  | .removing .. | .writing .. | .done => isTrue trivial

/-- No unfinished clip reaches back behind the cutoff of a pass under way. -/
def Guarded (pool : Pool) : Prop :=
  ∀ cleaner ∈ pool.threads, ∀ cutoff ∈ cleaner.cutoff?, ∀ writer ∈ pool.threads, ∀ clip ∈ writer.unfinished?,
    cutoff ≤ clip.clipStart - 5 * second

/-! ## What a statement does to cutoffs, clips and the ring -/

variable {config : Config} {env : Env} {current after : Thread} {shared left : Shared}

private theorem Outcome.cutoff? (outcome : Outcome config env shared current after left) {cutoff : Instant}
    (held : cutoff ∈ after.cutoff?) :
    cutoff ∈ current.cutoff? ∨ current = .reading ∧ cutoff = config.cutoff shared.now := by
  cases outcome with
  | read => exact .inr ⟨rfl, (Option.some.inj held).symm⟩
  | list | remove => exact .inl held
  | _ => cases held

private theorem Outcome.unfinished? (outcome : Outcome config env shared current after left) {clip : Clip}
    (held : clip ∈ after.unfinished?) :
    clip ∈ current.unfinished? ∨ ∃ eventTime eventType, current = .triggered eventTime eventType ∧
      shared.recording = false ∧ clip = config.newClip eventTime eventType := by
  cases outcome with
  | begin eventTime eventType idle => exact .inr ⟨eventTime, eventType, rfl, idle, (Option.some.inj held).symm⟩
  | expire | poll | finalize | collect | copy => exact .inl held
  | _ => cases held

private theorem mem_time? {file : RingFile} {time : Instant} (held : time ∈ file.time?) :
    parseRingTimestamp file.name = some time := by
  unfold RingFile.time? at held
  split at held
  · cases held
  · exact held

private theorem clean_missing {ring : Ring} {cutoff time : Instant} {ok : Bool} {entry file : RingFile}
    (held : file ∈ ring) (gone : ∀ other ∈ clean ring cutoff ok entry, other.name ≠ file.name)
    (dated : time ∈ file.time?) : time < cutoff := by
  unfold clean at gone
  split at gone
  · rename_i removable
    obtain ⟨entryTime, entryDated, old⟩ := (Option.any_eq_true ..).mp removable.2
    have same : file.name = entry.name := by
      by_contra differs
      exact gone file (Table.mem_remove.mpr ⟨held, by simpa using differs⟩) rfl
    have sameTime : some time = some entryTime := by
      rw [← mem_time? dated, ← mem_time? entryDated, same]
    rw [Option.some.inj sameTime]
    exact of_decide_eq_true old
  · exact absurd rfl (gone file held)

/-- Only a clean pass takes segments out of the ring, and only older ones than its
cutoff. -/
private theorem Outcome.missing (outcome : Outcome config env shared current after left) {file : RingFile}
    (held : file ∈ shared.ring) (gone : ∀ other ∈ left.ring, other.name ≠ file.name) {time : Instant}
    (dated : time ∈ file.time?) : ∃ cutoff ∈ current.cutoff?, time < cutoff := by
  cases outcome with
  | remove cutoff entry rest => exact ⟨cutoff, rfl, clean_missing held gone dated⟩
  | record written =>
    have same : file.name = written.name := by
      by_contra differs
      exact gone file (Table.mem_put.mpr (.inr ⟨held, differs⟩)) rfl
    exact absurd same.symm (gone written (Table.mem_put.mpr (.inl rfl)))
  | _ => exact absurd rfl (gone file held)

/-! ## Runs -/

variable {pool : Pool} {move : Move}

theorem guarded_step (guarded : Guarded pool) (allowed : OnStatement (Unhurried config) pool move) :
    Guarded (step config pool move) := by
  apply Program.step_preserves Guarded guarded move
  · intro request _
    have idle : ((program config).start request).cutoff? = none ∧ ((program config).start request).unfinished? = none := by
      cases request <;> exact ⟨rfl, rfl⟩
    refine forall_mem_append ?_ ?_
    · intro cleaner cleaning cutoff held
      refine forall_mem_append (guarded cleaner cleaning cutoff held) ?_
      intro clip unfinished
      rw [idle.2] at unfinished
      cases unfinished
    · intro cutoff held
      rw [idle.1] at held
      cases held
  · intro thread env current here running cleaner cleaning cutoff held writer writing clip unfinished
    subst here
    have permitted := allowed current running
    have member := List.mem_of_getElem? running
    have outcome := outcome_next config env current pool.shared
    -- The cutoff is an old one or has just been taken, the clip is an old one or has just been started.
    have cutoffFrom : (∃ other ∈ pool.threads, cutoff ∈ other.cutoff?) ∨
        current = .reading ∧ cutoff = config.cutoff (pool.shared.now + env.elapsed) := by
      rcases List.mem_or_eq_of_mem_set cleaning with old | rfl
      · exact .inl ⟨cleaner, old, held⟩
      · exact (outcome.cutoff? held).imp_left fun kept => ⟨current, member, kept⟩
    have clipFrom : (∃ other ∈ pool.threads, clip ∈ other.unfinished?) ∨
        ∃ eventTime eventType, current = .triggered eventTime eventType ∧ pool.shared.recording = false ∧
          clip = config.newClip eventTime eventType := by
      rcases List.mem_or_eq_of_mem_set writing with old | rfl
      · exact .inl ⟨writer, old, unfinished⟩
      · exact (outcome.unfinished? unfinished).imp_left fun kept => ⟨current, member, kept⟩
    rcases cutoffFrom with ⟨pass, passing, taken⟩ | ⟨rfl, rfl⟩
    · rcases clipFrom with ⟨holder, holding, carried⟩ | ⟨eventTime, eventType, rfl, idle, rfl⟩
      · exact guarded pass passing cutoff taken holder holding clip carried
      · exact permitted idle pass passing cutoff taken
    · rcases clipFrom with ⟨holder, holding, carried⟩ | ⟨_, _, triggered, _⟩
      · exact permitted holder holding clip carried
      · cases triggered

theorem spares_of_guarded (guarded : Guarded pool) : SparesUnfinished config pool move := by
  intro file held gone time dated holder holding clip unfinished
  cases move with
  | spawn request => exact absurd rfl (gone file held)
  | run thread env =>
    cases running : pool.threads[thread]? with
    | none =>
      rw [step, Program.step_run_none running] at gone
      exact absurd rfl (gone file held)
    | some current =>
      rw [step, Program.step_run running] at gone
      have outcome := outcome_next config env current pool.shared
      obtain ⟨cutoff, taken, old⟩ := outcome.missing held gone dated
      have spared := guarded current (List.mem_of_getElem? running) cutoff taken holder holding clip unfinished
      have before : ¬ clip.clipStart - 5 * second < time := not_lt.mpr (old.le.trans spared)
      simp [overlaps, before]

/-- As long as no clip reaches back behind the cutoff of a clean pass, neither when
the cutoff is taken nor when the clip starts, no clean pass removes a segment of
the window of an unfinished clip. -/
theorem clean_spares_unfinished_clips (config : Config) (moves : List Move)
    (allowed : Along (step config) (OnStatement (Unhurried config)) fresh moves) :
    Along (step config) (SparesUnfinished config) fresh moves := by
  have start : Guarded fresh := fun _ none => absurd none List.not_mem_nil
  have held := throughout_of_invariant (fun _ _ => guarded_step) moves fresh start allowed
  exact along_mono (fun _ _ => spares_of_guarded) (along_of_throughout held)

/-- Ten seconds before and thirty seconds after an event. -/
def gateCamera : Config :=
  { cameraID := ⟨11⟩, outputDir := "/recordings/gate", preBufferSec := 10, postBufferSec := 30,
    stamp := fun _ => "20260220_171312" }

/-- 20 February 2026, 17:13:12. -/
def gateEvent : Instant := 1771607592000000000

private def seconds (count : Nat) : Env := { elapsed := count * 1000000000 }

private def clipWithQuietCleaner : List Move :=
  [.spawn (.record { name := "ring_20260220_171307.mp4", size := 4000 }), .run 0 (seconds 1771607592),
    .spawn (.triggerEvent gateEvent "motion"), .run 1 {}, .run 1 (seconds 30), .run 1 {}, .run 1 {},
    -- The first pass finds the clip being copied, the second comes after it.
    .spawn .cleanRingBuffer, .run 2 {}, .run 1 {}, .run 1 {}, .run 1 {},
    .spawn .cleanRingBuffer, .run 3 {}, .run 3 {},
    -- An event in the middle of the second pass.
    .spawn (.triggerEvent (gateEvent + 30 * second) "motion"), .run 4 {}, .run 3 {}, .run 3 {}]

theorem clean_spares_unfinished_clips_at_the_gate :
    Along (step gateCamera) (OnStatement (Unhurried gateCamera)) fresh clipWithQuietCleaner ∧
      Along (step gateCamera) (SparesUnfinished gateCamera) fresh clipWithQuietCleaner ∧
      (exec (step gateCamera) fresh clipWithQuietCleaner).shared.ring = .empty :=
  have allowed : Along (step gateCamera) (OnStatement (Unhurried gateCamera)) fresh clipWithQuietCleaner := by
    decide +kernel
  ⟨allowed, clean_spares_unfinished_clips gateCamera clipWithQuietCleaner allowed, by decide +kernel⟩

/-- The first writer is done while the second one still copies. -/
private def overlappingClips : List Move :=
  [.spawn (.record { name := "ring_20260220_171307.mp4", size := 4000 }), .run 0 (seconds 1771607592),
    .spawn (.triggerEvent gateEvent "motion"), .run 1 {},
    .spawn (.record { name := "ring_20260220_171337.mp4", size := 4000 }), .run 2 (seconds 30),
    .run 1 {}, .run 1 {}, .run 1 {},
    .spawn (.triggerEvent (gateEvent + 31 * second) "motion"), .run 3 (seconds 1),
    .run 3 (seconds 30), .run 3 {}, .run 3 {},
    .run 1 {}, .run 1 {}, .run 1 {}, .run 1 {},
    .spawn .cleanRingBuffer, .run 4 {}, .run 4 {}, .run 4 {}, .run 4 {}, .run 4 {}]

/-- The writer that is done clears the flag of the other one, and the cleaner
removes a segment that is about to be copied. -/
theorem cleaner_removes_needed_segment :
    ¬ Along (step gateCamera) (SparesUnfinished gateCamera) fresh overlappingClips := by
  decide +kernel

end Ironsight.ClipWriter
