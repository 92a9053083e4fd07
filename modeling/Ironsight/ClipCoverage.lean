import Ironsight.ClipWriter

/-! Whether clips cover the events that they are made for. A call of
`TriggerEvent` hands its event to the goroutine that is recording, or starts
one; the goroutine carries the event until the row of its clip is registered.
Between the moment it finds its window over and the moment it gives up the
recording flag, a further event still extends the window, and the goroutine does
not wait for the new end any more. -/
namespace Ironsight.ClipWriter
open Access Runs
open SegmentWatch (second)

/-- The interval contains the buffers before and after an event. -/
def Config.covers (config : Config) (eventTime start stop : Instant) : Prop :=
  start ≤ eventTime - config.preBufferSec * second ∧ config.newEnd eventTime ≤ stop

instance (config : Config) (eventTime start stop : Instant) : Decidable (config.covers eventTime start stop) :=
  inferInstanceAs (Decidable (_ ∧ _))

/-- The goroutine is still recording, the end of its clip is not fixed. -/
def Thread.records : Thread → Bool
  | .waiting _ | .expired _ => true
  | _ => false

/-- The interval that the row of a goroutine under way will have. -/
def Thread.window? (shared : Shared) : Thread → Option (Instant × Instant)
  | .waiting clip | .expired clip => some (clip.clipStart, shared.recordingEnd)
  | .collecting clip actualEnd | .copying clip actualEnd .. | .inserting clip actualEnd _ =>
    some (clip.clipStart, actualEnd)
  | _ => none

/-- Some row covers the event. -/
def HasRow (config : Config) (shared : Shared) (eventTime : Instant) : Prop :=
  ∃ row ∈ shared.segments, config.covers eventTime row.startTime row.endTime

/-- Every event has a row, unless a clip is under way. -/
def EventsCovered (config : Config) (pool : Pool) : Prop :=
  (∀ thread ∈ pool.threads, thread.window? pool.shared = none) →
    ∀ eventTime ∈ pool.shared.events, HasRow config pool.shared eventTime

/-- Segments are collected when the end of the clip is not in the future. -/
def Recorded (pool : Pool) (env : Env) : Thread → Prop
  | .collecting _ actualEnd => actualEnd ≤ pool.shared.now + env.elapsed
  | _ => True

instance (pool : Pool) (env : Env) : (thread : Thread) → Decidable (Recorded pool env thread)
  | .collecting _ actualEnd => inferInstanceAs (Decidable (actualEnd ≤ pool.shared.now + env.elapsed))
  | .triggered .. | .waiting .. | .expired .. | .copying .. | .inserting .. | .releasing | .checking | .reading
  | .listing .. | .removing .. | .writing .. | .done => isTrue trivial

/-- What the callers promise: event times do not decrease, and the context is
never done. -/
def Promised (pool : Pool) (env : Env) : Thread → Prop
  | .triggered eventTime _ => ∀ earlier ∈ pool.shared.events, earlier ≤ eventTime
  | .waiting _ => env.cancelled = false
  | _ => True

instance (pool : Pool) (env : Env) : (thread : Thread) → Decidable (Promised pool env thread)
  | .triggered eventTime _ => inferInstanceAs (Decidable (∀ earlier ∈ pool.shared.events, earlier ≤ eventTime))
  | .waiting _ => inferInstanceAs (Decidable (env.cancelled = false))
  | .expired .. | .collecting .. | .copying .. | .inserting .. | .releasing | .checking | .reading | .listing ..
  | .removing .. | .writing .. | .done => isTrue trivial

/-- A goroutine has found its window over and still holds the recording flag. -/
def Thread.isExpired : Thread → Bool
  | .expired _ => true
  | _ => false

/-- No event extends a window that was found over into the future, a collection
finds segments, and the row is inserted. -/
def Undisturbed (config : Config) (pool : Pool) (env : Env) : Thread → Prop
  | .triggered eventTime _ => (∃ thread ∈ pool.threads, thread.isExpired) →
      config.newEnd eventTime ≤ pool.shared.now + env.elapsed
  | .collecting clip actualEnd => env.ok = true ∧ collectRingSegments pool.shared.ring clip.clipStart actualEnd ≠ []
  | .inserting .. => env.ok = true
  | _ => True

instance (config : Config) (pool : Pool) (env : Env) : (thread : Thread) → Decidable (Undisturbed config pool env thread)
  | .triggered eventTime _ => inferInstanceAs (Decidable ((∃ thread ∈ pool.threads, thread.isExpired) →
      config.newEnd eventTime ≤ pool.shared.now + env.elapsed))
  | .collecting clip actualEnd => inferInstanceAs (Decidable (env.ok = true ∧
      collectRingSegments pool.shared.ring clip.clipStart actualEnd ≠ []))
  | .inserting .. => inferInstanceAs (Decidable (env.ok = true))
  | .waiting .. | .expired .. | .copying .. | .releasing | .checking | .reading | .listing .. | .removing ..
  | .writing .. | .done => isTrue trivial

/-- A turn that brings a goroutine forward: its wait is over, and it has no more than
`bound` segments to copy. -/
def Due (bound : Nat) (pool : Pool) (env : Env) : Thread → Prop
  | .waiting _ => pool.shared.recordingEnd ≤ pool.shared.now + env.elapsed
  | .collecting .. => pool.shared.ring.rows.length ≤ bound
  | .copying _ _ _ rest _ => rest.length ≤ bound
  | _ => True

/-! ## The invariant -/

/-- What is known of a goroutine: its clip was made for an event, a window found
over and an end that was fixed are not in the future. -/
def Thread.Fits (config : Config) (shared : Shared) : Thread → Prop
  | .waiting clip => clip.eventTime ∈ shared.events ∧ clip.clipStart = clip.eventTime - config.preBufferSec * second
  | .expired clip => (clip.eventTime ∈ shared.events ∧ clip.clipStart = clip.eventTime - config.preBufferSec * second) ∧
      shared.recordingEnd ≤ shared.now
  | .collecting _ actualEnd => actualEnd ≤ shared.now
  | _ => True

/-- One goroutine records while the flag is set, none otherwise. -/
structure Sound (config : Config) (pool : Pool) : Prop where
  single : pool.threads.countP Thread.records = if pool.shared.recording then 1 else 0
  fits : ∀ thread ∈ pool.threads, thread.Fits config pool.shared

variable {config : Config} {env : Env} {current after other : Thread} {shared left : Shared} {pool : Pool} {move : Move}

private theorem Thread.Fits.frame (fits : other.Fits config shared) (events : shared.events ⊆ left.events)
    (clock : shared.now ≤ left.now) (ended : other.isExpired → left.recordingEnd ≤ left.now) :
    other.Fits config left := by
  cases other with
  | waiting clip => exact ⟨events fits.1, fits.2⟩
  | expired clip => exact ⟨⟨events fits.1.1, fits.1.2⟩, ended rfl⟩
  | collecting clip actualEnd => exact le_trans fits clock
  | _ => trivial

private theorem Outcome.events_subset (outcome : Outcome config env shared current after left) :
    shared.events ⊆ left.events := by
  cases outcome with
  | extend | begin => exact List.subset_cons_self ..
  | _ => exact List.Subset.refl _

private theorem Outcome.now (outcome : Outcome config env shared current after left) : left.now = shared.now := by
  cases outcome <;> rfl

private theorem Sound.flag (sound : Sound config pool) (held : other ∈ pool.threads) (records : other.records) :
    pool.shared.recording = true := by
  have counted : 0 < pool.threads.countP Thread.records := List.countP_pos_iff.mpr ⟨other, held, records⟩
  rw [sound.single] at counted
  by_contra idle
  simp [idle] at counted

private theorem records_of_isExpired (expired : other.isExpired) : other.records := by
  cases other with
  | expired clip => rfl
  | _ => cases expired

/-- An end that moves stays behind the clock while a goroutine relies on that. -/
private theorem Outcome.ended (outcome : Outcome config env (pool.shared.advance env.elapsed) current after left)
    (sound : Sound config pool) (calm : Undisturbed config pool env current) (held : other ∈ pool.threads)
    (expired : other.isExpired) : left.recordingEnd ≤ left.now := by
  have before : pool.shared.recordingEnd ≤ pool.shared.now + env.elapsed := by
    cases other with
    | expired clip => exact le_add_of_le_of_nonneg (sound.fits _ held).2 (Int.natCast_nonneg _)
    | _ => cases expired
  cases outcome with
  | extend eventTime eventType busy => exact max_le before (calm ⟨other, held, expired⟩)
  | begin eventTime eventType idle =>
    have busy := sound.flag held (records_of_isExpired expired)
    exact absurd (busy.symm.trans idle) (by decide)
  | _ => exact before

private theorem Outcome.fits (outcome : Outcome config env (pool.shared.advance env.elapsed) current after left)
    (sound : Sound config pool) (calm : Undisturbed config pool env current) (held : current ∈ pool.threads) :
    after.Fits config left := by
  have old := sound.fits current held
  cases outcome with
  | begin eventTime eventType idle => exact ⟨List.mem_cons_self, rfl⟩
  | expire clip ended => exact ⟨old, ended⟩
  | poll clip early => exact old
  | finalize clip => exact le_add_of_le_of_nonneg old.2 (Int.natCast_nonneg _)
  | _ => trivial

/-- A goroutine that starts to record sets the flag, one that stops clears it. -/
private theorem Outcome.balance (outcome : Outcome config env shared current after left)
    (promised : Promised pool env current) (flag : current.records → shared.recording = true) :
    (if left.recording then 1 else 0) + (if current.records then 1 else 0) =
      (if shared.recording then 1 else 0) + if after.records then 1 else 0 := by
  cases outcome with
  | begin eventTime eventType idle => simp [Thread.records, idle]
  | cancel clip early cancelled => exact absurd (cancelled.symm.trans promised) (by decide)
  | finalize clip => simp [Thread.records, flag rfl]
  | _ => rfl

private theorem Sound.advance (sound : Sound config pool) (elapsed : Nat) :
    Sound config { pool with shared := pool.shared.advance elapsed } where
  single := sound.single
  fits := by
    intro thread held
    have later : pool.shared.now ≤ pool.shared.now + elapsed := by simp
    refine (sound.fits thread held).frame (List.Subset.refl _) later ?_
    intro expired
    cases thread with
    | expired clip => exact (sound.fits _ held).2.trans later
    | _ => cases expired

theorem sound_step (sound : Sound config pool) (promised : OnStatement Promised pool move)
    (calm : OnStatement (Undisturbed config) pool move) : Sound config (step config pool move) := by
  apply Program.step_preserves (Sound config) sound move
  · intro request _
    have fresh : ((program config).start request).records = false ∧
        ((program config).start request).Fits config pool.shared := by
      cases request <;> exact ⟨rfl, trivial⟩
    refine ⟨?_, forall_mem_append sound.fits fresh.2⟩
    rw [List.countP_append, sound.single]
    simp [fresh.1]
  · intro thread env current here running
    subst here
    have held := List.mem_of_getElem? running
    have outcome := outcome_next config env current pool.shared
    have quiet := calm current running
    refine ⟨?_, forall_mem_set ?_ (outcome.fits sound quiet held)⟩
    · have counted := countP_set_add Thread.records running (next config env current pool.shared).1
      have moved := outcome.balance (promised current running) (sound.flag held)
      rw [sound.single] at counted
      exact Nat.add_right_cancel (counted.trans moved.symm)
    · intro other present
      refine (sound.advance env.elapsed).fits other present |>.frame outcome.events_subset outcome.now.ge ?_
      exact outcome.ended sound quiet present

/-! ## Events are carried to their rows -/

/-- The event has a row, or this goroutine will register one for it. -/
def Carried (config : Config) (eventTime : Instant) (thread : Nat) (pool : Pool) : Prop :=
  HasRow config pool.shared eventTime ∨
    ∃ current ∈ pool.threads[thread]?, ∃ window ∈ current.window? pool.shared, config.covers eventTime window.1 window.2

private theorem Outcome.segments_subset (outcome : Outcome config env shared current after left) :
    shared.segments ⊆ left.segments := by
  cases outcome with
  | insert => exact List.subset_append_left ..
  | _ => exact List.Subset.refl _

private theorem Outcome.recordingEnd_le (outcome : Outcome config env shared current after left)
    (busy : shared.recording = true) : shared.recordingEnd ≤ left.recordingEnd := by
  cases outcome with
  | extend => exact le_max_left ..
  | begin eventTime eventType idle => exact absurd (busy.symm.trans idle) (by decide)
  | _ => exact le_rfl

variable {eventTime : Instant} {window : Instant × Instant}

/-- The window of a goroutine at rest can only grow. -/
private theorem window?_frame (ends : other.records → shared.recordingEnd ≤ left.recordingEnd)
    (held : window ∈ other.window? shared) (covers : config.covers eventTime window.1 window.2) :
    ∃ wider ∈ other.window? left, config.covers eventTime wider.1 wider.2 := by
  cases other with
  | waiting clip | expired clip =>
    cases held
    exact ⟨_, rfl, covers.1, covers.2.trans (ends rfl)⟩
  | collecting | copying | inserting => exact ⟨window, held, covers⟩
  | _ => cases held

/-- The window of a goroutine that moves on is kept, or becomes a row. -/
private theorem Outcome.window? (outcome : Outcome config env (pool.shared.advance env.elapsed) current after left)
    (promised : Promised pool env current) (calm : Undisturbed config pool env current)
    (held : window ∈ current.window? pool.shared) (covers : config.covers eventTime window.1 window.2) :
    HasRow config left eventTime ∨ ∃ same ∈ after.window? left, config.covers eventTime same.1 same.2 := by
  cases outcome with
  | expire | poll | finalize | collect | copy | copyLast => exact .inr ⟨window, held, covers⟩
  | cancel clip early cancelled => exact absurd (cancelled.symm.trans promised) (by decide)
  | giveUp clip actualEnd nothing => exact absurd (nothing calm.1) calm.2
  | insert clip actualEnd totalSize ok =>
    cases held
    exact .inl ⟨config.segment clip actualEnd totalSize, List.mem_append_right _ List.mem_cons_self, covers⟩
  | insertFailed clip actualEnd totalSize failed => exact absurd (failed.symm.trans calm) (by decide)
  | _ => cases held

theorem carried_step {thread : Nat} (sound : Sound config pool) (promised : OnStatement Promised pool move)
    (calm : OnStatement (Undisturbed config) pool move) (carried : Carried config eventTime thread pool) :
    Carried config eventTime thread (step config pool move) := by
  apply Program.step_preserves (Carried config eventTime thread) carried move
  · intro request _
    refine carried.imp_right ?_
    rintro ⟨current, running, window, held, covers⟩
    exact ⟨current, List.getElem?_append_left (List.getElem?_eq_some_iff.mp running).1 ▸ running, window, held, covers⟩
  · intro moved env current here running
    subst here
    have outcome := outcome_next config env current pool.shared
    rcases carried with ⟨row, registered, covers⟩ | ⟨carrier, found, window, held, covers⟩
    · exact .inl ⟨row, outcome.segments_subset registered, covers⟩
    · have inside := (List.getElem?_eq_some_iff.mp running).1
      by_cases same : moved = thread
      · subst same
        cases Option.some.inj (running.symm.trans found)
        refine (outcome.window? (promised current running) (calm current running) held covers).imp_right ?_
        intro kept
        exact ⟨_, List.getElem?_set_self inside, kept⟩
      · have ends (records : carrier.records) := outcome.recordingEnd_le (sound.flag (List.mem_of_getElem? found) records)
        refine .inr ⟨carrier, (List.getElem?_set_ne same).trans found, ?_⟩
        exact window?_frame ends held covers

/-- While the flag is set, some goroutine records a clip for an earlier event. -/
private theorem Sound.recorder (sound : Sound config pool) (busy : pool.shared.recording = true) :
    ∃ other ∈ pool.threads, other.records ∧ ∃ earlier ∈ pool.shared.events, ∀ later : Shared,
      other.window? later = some (earlier - config.preBufferSec * second, later.recordingEnd) := by
  have counted : 0 < pool.threads.countP Thread.records := by simp [sound.single, busy]
  obtain ⟨other, held, records⟩ := List.countP_pos_iff.mp counted
  refine ⟨other, held, records, ?_⟩
  have fits := sound.fits other held
  cases other with
  | waiting clip => exact ⟨clip.eventTime, fits.1, fun later => by rw [Thread.window?, fits.2]⟩
  | expired clip => exact ⟨clip.eventTime, fits.1.1, fun later => by rw [Thread.window?, fits.1.2]⟩
  | _ => cases records

/-- A new event goes to the goroutine that is recording, or to a new one. -/
private theorem Outcome.new_event {thread : Nat}
    (outcome : Outcome config env (pool.shared.advance env.elapsed) current after left) (sound : Sound config pool)
    (promised : Promised pool env current) (running : pool.threads[thread]? = some current)
    (happened : eventTime ∈ left.events) : eventTime ∈ pool.shared.events ∨
      ∃ carrier, Carried config eventTime carrier { shared := left, threads := pool.threads.set thread after } := by
  cases outcome with
  | extend triggered eventType busy =>
    rcases List.mem_cons.mp happened with rfl | old
    · obtain ⟨other, held, records, earlier, before, window⟩ := sound.recorder busy
      obtain ⟨carrier, found⟩ := List.mem_iff_getElem?.mp held
      have elsewhere : thread ≠ carrier := by
        rintro rfl
        cases Option.some.inj (running.symm.trans found)
        cases records
      have ordered : earlier ≤ eventTime := promised earlier before
      refine .inr ⟨carrier, .inr ⟨other, (List.getElem?_set_ne elsewhere).trans found, _, window _, ?_, le_max_right ..⟩⟩
      exact sub_le_sub_right ordered _
    · exact .inl old
  | begin triggered eventType idle =>
    rcases List.mem_cons.mp happened with rfl | old
    · have inside := (List.getElem?_eq_some_iff.mp running).1
      exact .inr ⟨thread, .inr ⟨_, List.getElem?_set_self inside, _, rfl, le_rfl, le_rfl⟩⟩
    · exact .inl old
  | _ => exact .inl happened

/-- Every event has a row, or a goroutine that will register one. -/
def EventsCarried (config : Config) (pool : Pool) : Prop :=
  ∀ eventTime ∈ pool.shared.events, ∃ thread, Carried config eventTime thread pool

/-- A sound state in which every event is taken care of. -/
structure Reached (config : Config) (pool : Pool) : Prop where
  sound : Sound config pool
  carried : EventsCarried config pool

/-- What the callers promise together with what the environment must not do. -/
def PromisedUndisturbed (config : Config) (pool : Pool) (move : Move) : Prop :=
  OnStatement Promised pool move ∧ OnStatement (Undisturbed config) pool move

private theorem events_step (reached : Reached config pool) (promised : OnStatement Promised pool move)
    (eventTime : Instant) (happened : eventTime ∈ (step config pool move).shared.events) :
    eventTime ∈ pool.shared.events ∨ ∃ thread, Carried config eventTime thread (step config pool move) := by
  cases move with
  | spawn request => exact .inl happened
  | run thread env =>
    cases running : pool.threads[thread]? with
    | none =>
      rw [step, Program.step_run_none running] at happened
      exact .inl happened
    | some current =>
      rw [step, Program.step_run running] at happened ⊢
      exact (outcome_next config env current pool.shared).new_event reached.sound (promised current running) running happened

theorem reached_step (reached : Reached config pool) (orderly : PromisedUndisturbed config pool move) :
    Reached config (step config pool move) where
  sound := sound_step reached.sound orderly.1 orderly.2
  carried := by
    intro eventTime happened
    rcases events_step reached orderly.1 eventTime happened with old | carried
    · obtain ⟨thread, carried⟩ := reached.carried eventTime old
      exact ⟨thread, carried_step reached.sound orderly.1 orderly.2 carried⟩
    · exact carried

private theorem reached_fresh : Reached config fresh where
  sound := ⟨rfl, fun _ none => absurd none List.not_mem_nil⟩
  carried := fun _ none => absurd none List.not_mem_nil

/-! ## A goroutine comes to its end -/

/-- How many turns a goroutine still needs, if it copies at most `bound` segments. -/
def rank (bound : Nat) : Thread → Nat
  | .triggered .. => bound + 6
  | .waiting _ => bound + 5
  | .expired _ => bound + 4
  | .collecting .. => bound + 3
  | .copying _ _ _ rest _ => min rest.length bound + 3
  | .inserting .. => 2
  | .releasing => 1
  | _ => 0

private theorem length_collectRingSegments (ring : Ring) (start stop : Instant) :
    (collectRingSegments ring start stop).length ≤ ring.rows.length := by
  rw [collectRingSegments, List.length_map]
  refine (List.length_filter_le _ _).trans ?_
  rw [readDir, List.length_insertionSort]

private theorem rank_le (bound : Nat) (current : Thread) : rank bound current ≤ bound + 6 := by
  cases current <;> simp only [rank] <;> omega

private theorem Outcome.rank_lt {bound : Nat}
    (outcome : Outcome config env (pool.shared.advance env.elapsed) current after left)
    (due : Due bound pool env current) : rank bound after ≤ rank bound current - 1 := by
  cases outcome with
  | poll clip early => exact absurd due (not_le.mpr early)
  | collect clip actualEnd name rest found =>
    have fewer := length_collectRingSegments pool.shared.ring clip.clipStart actualEnd
    have counted : rest.length + 1 ≤ bound := (found ▸ fewer).trans due
    simp only [rank]
    omega
  | copy clip actualEnd name next rest totalSize =>
    have left : rest.length + 1 ≤ bound := due
    simp only [rank, List.length_cons]
    omega
  | begin | expire | finalize | giveUp | copyLast | insert | insertFailed => simp [rank]
  | _ => exact Nat.zero_le _

private theorem window?_of_rank {bound : Nat} (idle : rank bound current = 0) : current.window? shared = none := by
  cases current with
  | waiting | expired | collecting | copying | inserting => simp [rank] at idle
  | _ => rfl

private theorem hasRow_step (held : HasRow config pool.shared eventTime) :
    HasRow config (step config pool move).shared eventTime := by
  apply Program.step_preserves (fun pool => HasRow config pool.shared eventTime) held move
  · intro request _
    exact held
  · intro thread env current _ _
    obtain ⟨row, registered, covers⟩ := held
    exact ⟨row, (outcome_next config env current pool.shared).segments_subset registered, covers⟩

/-- A goroutine that gets its turns registers the row of every event it carries. -/
private theorem row_of_turns {thread bound : Nat} {later : List Move} (reached : Reached config pool)
    (carried : Carried config eventTime thread pool) (orderly : Along (step config) (PromisedUndisturbed config) pool later)
    (due : Along (step config) (fun pool move => move.runs thread → OnStatement (Due bound) pool move) pool later)
    (enough : bound + 6 ≤ later.countP (Move.runs thread)) :
    HasRow config (exec (step config) pool later).shared eventTime := by
  have kept : Throughout (step config) (fun pool => Reached config pool ∧ Carried config eventTime thread pool) pool later :=
    throughout_of_invariant (fun _ _ held orderly =>
      ⟨reached_step held.1 orderly, carried_step held.1.sound orderly.1 orderly.2 held.2⟩) later pool ⟨reached, carried⟩ orderly
  rcases carried with held | ⟨current, running, _⟩
  · exact @exec_invariant _ _ _ (fun pool => HasRow config pool.shared eventTime) (fun _ _ => hasRow_step) later pool held
  · have lowers (pool : Pool) (env : Env) (current : Thread) (due : Due bound pool env current) :
        rank bound ((program config).next env current pool.shared).1 ≤ rank bound current - 1 :=
      (outcome_next config env current pool.shared).rank_lt due
    obtain ⟨last, found, low⟩ := Program.rank_exec_of lowers later pool thread current running due
    have idle : rank bound last = 0 := by
      have high := rank_le bound current
      omega
    rcases (throughout_last later pool kept).2 with held | ⟨final, here, window, open_, _⟩
    · exact held
    · cases Option.some.inj (found.symm.trans here)
      rw [window?_of_rank idle] at open_
      cases open_

private theorem covered_of_reached (reached : Reached config pool) : EventsCovered config pool := by
  intro quiet eventTime happened
  obtain ⟨thread, held | ⟨current, running, window, open_, _⟩⟩ := reached.carried eventTime happened
  · exact held
  · rw [quiet current (List.mem_of_getElem? running)] at open_
    cases open_

private theorem recorded_of_sound (sound : Sound config pool) : OnStatement Recorded pool move := by
  cases move with
  | spawn request => trivial
  | run thread env =>
    intro current running
    have fits := sound.fits current (List.mem_of_getElem? running)
    cases current with
    | collecting clip actualEnd => exact le_add_of_le_of_nonneg fits (Int.natCast_nonneg _)
    | _ => trivial

/-- Ten seconds before and thirty seconds after an event. -/
def dockCamera : Config :=
  { cameraID := ⟨12⟩, outputDir := "/recordings/dock", preBufferSec := 10, postBufferSec := 30,
    stamp := fun _ => "20260220_171312" }

/-- 20 February 2026, 17:13:12. -/
def dockEvent : Instant := 1771607592000000000

private def passing (count : Nat) : Env := { elapsed := count * 1000000000 }

/-- The second event extends the clip of the first; its goroutine waits again. -/
private def extendedClip : List Move :=
  [.spawn (.record { name := "ring_20260220_171307.mp4", size := 4000 }), .run 0 (passing 1771607592),
    .spawn (.triggerEvent dockEvent "motion"), .run 1 {},
    .spawn (.triggerEvent (dockEvent + 20 * second) "motion"), .run 2 (passing 20), .run 1 (passing 10),
    .run 1 (passing 20), .run 1 {}, .run 1 {}, .run 1 {}, .run 1 {}, .run 1 {}]

/-- The second event comes after the wait of the first clip is over and before its
end is fixed. -/
private def lateExtension : List Move :=
  [.spawn (.record { name := "ring_20260220_171307.mp4", size := 4000 }), .run 0 (passing 1771607592),
    .spawn (.triggerEvent dockEvent "motion"), .run 1 {}, .run 1 (passing 30),
    .spawn (.triggerEvent (dockEvent + 30 * second) "motion"), .run 2 {}, .run 1 {}, .run 1 {}, .run 1 {}, .run 1 {}]

end Ironsight.ClipWriter
