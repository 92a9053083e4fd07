import Ironsight.Stretches
import Ironsight.TrackEvents

/-! When the stream reports every activation once. The held keys must be those of
the frame before; they are not when two keys rise in one frame, or when one falls
while another rises and then comes back. -/
namespace Ironsight.TrackEventsProofs
open Runs Stretches TrackEvents

def holds (key : Key) (frame : Frame) : Bool := key ∈ frame.active

def reports (key : Key) (frame : Frame) : Nat := frame.events.countP fun event => event.key = key

/-- Every stretch of frames in which a key is active has exactly one event of that
key, and no frame has an event of a key that is not active in it. -/
structure EdgeDetected (observed : Observed) : Prop where
  once : ∀ key, OncePerStretch (holds key) (reports key) observed.history
  active : ∀ frame ∈ observed.history, ∀ event ∈ frame.events, event.key ∈ frame.active

/-- The keys of the last frame. -/
def previousKeys (observed : Observed) : List Key := (observed.history.getLast?).elim [] Frame.active

/-- At most one key rises, and the stream does not hold it from before. -/
def RisesAlone (observed : Observed) (tracks : List Track) : Prop :=
  (∀ key ∈ activeKeys tracks, key ∉ previousKeys observed → key ∉ observed.stream.activeFlags) ∧
  ∀ key ∈ activeKeys tracks, ∀ other ∈ activeKeys tracks, key ∉ previousKeys observed → other ∉ previousKeys observed →
    key = other

instance (observed : Observed) (tracks : List Track) : Decidable (RisesAlone observed tracks) :=
  inferInstanceAs (Decidable (_ ∧ _))

/-- Every event so far was reported where its key rose. -/
private def OnRise (observed : Observed) : Prop :=
  ∀ key, FiresOnRise (holds key) (reports key) false observed.history

section Step
variable {observed : Observed} {tracks : List Track}

/-- What a frame can do: report one key that is not held, or none. -/
private inductive Fed (observed : Observed) (tracks : List Track) : Prop where
  | reported (event : Event) (active : event.key ∈ activeKeys tracks) (fresh : event.key ∉ observed.stream.activeFlags)
      (done : feed observed tracks =
        ⟨⟨event.key :: observed.stream.activeFlags⟩, observed.history ++ [⟨activeKeys tracks, [event]⟩]⟩)
  | silent (held : ∀ key ∈ activeKeys tracks, key ∈ observed.stream.activeFlags)
      (done : feed observed tracks = ⟨⟨observed.stream.activeFlags.filter fun key => key ∈ activeKeys tracks⟩,
        observed.history ++ [⟨activeKeys tracks, []⟩]⟩)

private theorem fed (observed : Observed) (tracks : List Track) : Fed observed tracks := by
  cases found : (raised tracks).find? fun raise => keyOf raise ∉ observed.stream.activeFlags with
  | some raise =>
    have fresh := List.find?_some found
    refine .reported (event raise.1 raise.2 msAnalyticsFrameW msAnalyticsFrameH)
      (List.mem_map_of_mem (List.mem_of_find?_eq_some found)) (of_decide_eq_true fresh) ?_
    simp only [feed, emitTrackEvents, found]
    rfl
  | none =>
    refine .silent (fun key member => ?_) (by simp only [feed, emitTrackEvents, found])
    obtain ⟨raise, held, rfl⟩ := List.mem_map.mp member
    simpa using List.find?_eq_none.mp found raise held

private theorem activeAtEnd_eq (key : Key) :
    activeAtEnd (holds key) false observed.history = decide (key ∈ previousKeys observed) := by
  cases last : observed.history.getLast? <;> simp [activeAtEnd, previousKeys, last, holds]

/-- The new frame reports on the rise if it reports the rising keys and no others. -/
private theorem onRise_append {stream : EventStream} {frame : Frame} :
    OnRise ⟨stream, observed.history ++ [frame]⟩ ↔ OnRise observed ∧
      ∀ key ∈ frame.active, reports key frame = if key ∈ previousKeys observed then 0 else 1 := by
  simp only [OnRise, firesOnRise_append, forall_and, activeAtEnd_eq, FiresOnRise, and_true, holds,
    decide_eq_true_eq]

private theorem reports_singleton (event : Event) (active : List Key) (key : Key) :
    reports key ⟨active, [event]⟩ = if key = event.key then 1 else 0 := by
  simp [reports, List.countP_singleton, eq_comm]

/-- While events were reported on the rise, the keys of the last frame are held. -/
private def Holds (observed : Observed) : Prop :=
  OnRise observed → ∀ key ∈ previousKeys observed, key ∈ observed.stream.activeFlags

private theorem previousKeys_append {stream : EventStream} {frame : Frame} :
    previousKeys ⟨stream, observed.history ++ [frame]⟩ = frame.active := by
  simp [previousKeys]

private theorem feed_holds (observed : Observed) (tracks : List Track) (holds : Holds observed) :
    Holds (feed observed tracks) := by
  cases fed observed tracks with
  | reported event active fresh done =>
    rw [done]
    intro onRise key member
    obtain ⟨before, now⟩ := onRise_append.mp onRise
    rw [previousKeys_append] at member
    have exactly := now key member
    rw [reports_singleton] at exactly
    by_cases same : key = event.key
    · exact same ▸ List.mem_cons_self
    · refine List.mem_cons_of_mem _ (holds before key ?_)
      by_contra rising
      rw [if_neg same, if_neg rising] at exactly
      cases exactly
  | silent held done =>
    rw [done]
    intro _ key member
    rw [previousKeys_append] at member
    exact List.mem_filter.mpr ⟨held key member, decide_eq_true member⟩

/-- The next frame reports on the rise exactly if at most one new key rises. -/
private theorem feed_onRise_iff (observed : Observed) (tracks : List Track) (holds : Holds observed)
    (onRise : OnRise observed) : OnRise (feed observed tracks) ↔ RisesAlone observed tracks := by
  have previous := holds onRise
  cases fed observed tracks with
  | reported event active fresh done =>
    have rising : event.key ∉ previousKeys observed := fun old => fresh (previous _ old)
    rw [done, onRise_append, and_iff_right onRise]
    simp only [reports_singleton]
    constructor
    · intro exactly
      have only {key : Key} (member : key ∈ activeKeys tracks) (new : key ∉ previousKeys observed) : key = event.key := by
        by_contra differs
        have reported := exactly key member
        rw [if_neg differs, if_neg new] at reported
        cases reported
      exact ⟨fun key member new => only member new ▸ fresh,
        fun key member other memberOther new newOther => (only member new).trans (only memberOther newOther).symm⟩
    · rintro ⟨_, alone⟩ key member
      by_cases same : key = event.key
      · rw [if_pos same, if_neg (same ▸ rising)]
      · have old : key ∈ previousKeys observed := by
          by_contra new
          exact same (alone key member event.key active new rising)
        rw [if_neg same, if_pos old]
  | silent held done =>
    rw [done, onRise_append, and_iff_right onRise]
    constructor
    · intro exactly
      have old {key : Key} (member : key ∈ activeKeys tracks) : key ∈ previousKeys observed := by
        by_contra new
        have reported := exactly key member
        rw [if_neg new] at reported
        cases reported
      exact ⟨fun key member new => absurd (old member) new, fun key member _ _ new => absurd (old member) new⟩
    · rintro ⟨free, _⟩ key member
      have old : key ∈ previousKeys observed := by
        by_contra new
        exact free key member new (held key member)
      rw [if_pos old]
      rfl

/-- Every earlier state was edge detected, and events name active keys. -/
private structure Past (observed : Observed) : Prop where
  once : ∀ earlier, earlier <+: observed.history → earlier ≠ observed.history → ∀ key,
    OncePerStretch (TrackEventsProofs.holds key) (reports key) earlier
  active : ∀ frame ∈ observed.history, ∀ event ∈ frame.events, event.key ∈ frame.active

private theorem Past.edgeDetected_iff (observed : Observed) (past : Past observed) :
    EdgeDetected observed ↔ OnRise observed := by
  constructor
  · intro detected key
    refine firesOnRise_of_prefixes fun earlier within => ?_
    by_cases whole : earlier = observed.history
    · exact whole ▸ detected.once key
    · exact past.once earlier within whole key
  · intro onRise
    exact ⟨fun key => (onRise key).oncePerStretch, past.active⟩

private theorem feed_past (observed : Observed) (tracks : List Track) (past : Past observed)
    (detected : EdgeDetected observed) : Past (feed observed tracks) := by
  have grown : ∃ frame, (feed observed tracks).history = observed.history ++ [frame] ∧
      ∀ event ∈ frame.events, event.key ∈ frame.active := by
    cases fed observed tracks with
    | reported event active _ done =>
      rw [done]
      refine ⟨_, rfl, fun other member => ?_⟩
      rwa [List.mem_singleton.mp member]
    | silent _ done =>
      rw [done]
      exact ⟨_, rfl, by rintro _ ⟨⟩⟩
  obtain ⟨frame, grown, named⟩ := grown
  constructor
  · intro earlier within differs key
    rw [grown] at within differs
    rcases List.prefix_concat_iff.mp within with whole | within
    · exact absurd whole differs
    · by_cases all : earlier = observed.history
      · exact all ▸ detected.once key
      · exact past.once earlier within all key
  · rw [grown]
    exact forall_mem_append past.active named

end Step

/-- On a new stream, all frames so far are edge detected at every moment exactly if
in every frame at most one key rises, and that key was not held from before; messages
feed the frames decoded from them, whichever the decoder. -/
theorem edges_detected_iff_rise_alone (frames : List (List Track)) :
    (Throughout feed EdgeDetected newEventStream frames ↔ Along feed RisesAlone newEventStream frames) ∧
      ∀ (unmarshal : Bytes → Option (List Track)) (messages : List Bytes),
        messages.filterMap (parseMessage unmarshal) = frames →
          exec (receive unmarshal) newEventStream messages = exec feed newEventStream frames := by
  refine ⟨?_, fun unmarshal messages decoded => decoded ▸ exec_receive unmarshal messages newEventStream⟩
  have past : Past newEventStream := ⟨fun earlier within differs => absurd (List.prefix_nil.mp within) differs, nofun⟩
  have fresh : Holds newEventStream := nofun
  rw [throughout_congr Past.edgeDetected_iff feed_past frames newEventStream past]
  exact throughout_iff_along feed_holds feed_onRise_iff frames newEventStream fresh fun _ => trivial

/-- Two tracks move in one frame and are gone in the next; only the first is
reported. -/
theorem second_rising_track_unreported : ¬ EdgeDetected (exec feed newEventStream
    [[{ trackID := 1, vcaAdvancedMotion := 1 }, { trackID := 2, vcaAdvancedMotion := 1 }], []]) := by
  intro detected
  have once := detected.once ⟨2, .motion⟩ [] _ [_] rfl ⟨List.cons_ne_nil _ _, by decide, nofun, by decide⟩
  exact absurd once (by decide)

end Ironsight.TrackEventsProofs
