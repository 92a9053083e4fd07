import Ironsight.DtsExtractor
import Ironsight.ReaderSafety

/-! What the DTS extractor keeps over whole runs, whatever the access units hold: its
counters stay in their bounds, the DTS never goes back, and between two parameter sets
only few access units get a DTS later than their PTS. -/
namespace Ironsight.DtsInvariants
open BitReader Sps DtsExtractor DTSExtractor ReaderSafety
open Runs hiding Fault

/-- The counters of the extractor. -/
structure Sound (d : DTSExtractor) : Prop where
  pause_nonneg : 0 ≤ d.pause
  pause_le : d.pause ≤ d.reorderedFrames
  reordered_le : d.reorderedFrames ≤ maxReorderedFrames
  increment : d.pocIncrement = 1 ∨ d.pocIncrement = 2 ∨ d.pocIncrement = 4

/-- How many pauses were taken since the last parameter set. -/
def spent (d : DTSExtractor) : Int := d.reorderedFrames - d.pause

section Outcomes
variable {α β : Type} {d d' : DTSExtractor} {outcome : Outcome α} {rest : DTSExtractor → α → Outcome β}

theorem andThen_ok {a : α} (result : outcome = (d, .ok a)) : outcome.andThen rest = rest d a := by rw [result]; rfl

/-- What holds where a part ends, with an error or before the rest, holds where the whole ends. -/
theorem andThen_keeps (good : DTSExtractor → Prop) (first : good outcome.1)
    (second : ∀ d a, outcome = (d, .ok a) → good d → good (rest d a).1) : good (outcome.andThen rest).1 := by
  obtain ⟨d, _ | a⟩ := outcome
  · exact first
  · exact second d a rfl first

/-- A result comes from a result of the first part. -/
theorem andThen_eq_ok {b : β} (result : (outcome.andThen rest) = (d', .ok b)) :
    ∃ d a, outcome = (d, .ok a) ∧ rest d a = (d', .ok b) := by
  obtain ⟨d, _ | a⟩ := outcome
  · cases result
  · exact ⟨d, a, rfl, result⟩

end Outcomes

/-! ## One call -/

section Calls
variable {d d' : DTSExtractor} {sps : SPS}

theorem sound_initial : Sound {} := ⟨le_rfl, le_rfl, show (0 : Int) ≤ 10 by decide, .inr (.inl rfl)⟩

theorem sound_reset (nalu : Bytes) (spsp : SPS) : Sound (d.reset nalu spsp) :=
  ⟨le_rfl, le_rfl, show (0 : Int) ≤ 10 by decide, .inr (.inl rfl)⟩

/-- The states that reading the NAL units passes through, up to the slice. -/
theorem scan_cases (au : List Bytes) (d : DTSExtractor) (nonZero : Bool) :
    (scan au d nonZero).1 = d ∨
      ∃ nalu spsp, nalu ∈ au ∧ SPS.unmarshal nalu = .ok spsp ∧ (scan au d nonZero).1 = d.reset nalu spsp := by
  induction au generalizing d nonZero with
  | nil => exact .inl rfl
  | cons nalu rest ih =>
    cases nalu with
    | nil => exact .inl rfl
    | cons header payload =>
      have onwards : ∀ d nonZero, (scan rest d nonZero).1 = d ∨
          ∃ nalu spsp, nalu ∈ (header :: payload) :: rest ∧ SPS.unmarshal nalu = .ok spsp ∧
            (scan rest d nonZero).1 = d.reset nalu spsp := by
        intro d nonZero
        obtain same | ⟨nalu, spsp, mem, read, eq⟩ := ih d nonZero
        · exact .inl same
        · exact .inr ⟨nalu, spsp, List.mem_cons_of_mem _ mem, read, eq⟩
      rw [scan]
      split
      · split
        · exact onwards ..
        · split
          next spsp read =>
            obtain same | ⟨nalu, spsp', mem, read', eq⟩ := onwards (d.reset (header :: payload) spsp)
              (nonZero || decide (header &&& 0x60 > 0))
            · exact .inr ⟨_, spsp, List.mem_cons_self, read, same⟩
            · exact .inr ⟨nalu, spsp', mem, read', eq⟩
          · exact .inl rfl
          · exact .inl rfl
      · exact .inl rfl
      · exact .inl rfl
      · exact onwards ..

theorem sound_scan (au : List Bytes) (nonZero : Bool) (sound : Sound d) : Sound (scan au d nonZero).1 := by
  obtain same | ⟨nalu, spsp, -, -, eq⟩ := scan_cases au d nonZero
  · rw [same]
    exact sound
  · rw [eq]
    exact sound_reset nalu spsp

theorem raise_cases (d : DTSExtractor) (increase : Int) :
    (∃ text, d.raise increase = (d, .error (.error text))) ∨
    d.reorderedFrames + increase ≤ maxReorderedFrames ∧
      d.raise increase = ({ d with reorderedFrames := d.reorderedFrames + increase, pause := d.pause + increase }, .ok ()) := by
  rw [raise]
  split
  next => exact .inl ⟨_, rfl⟩
  next few => exact .inr ⟨Int.not_lt.mp few, rfl⟩

theorem sound_raise {increase : Int} (sound : Sound d) (more : 0 ≤ increase) : Sound (d.raise increase).1 := by
  obtain ⟨pause_nonneg, pause_le, reordered_le, increment⟩ := sound
  obtain ⟨text, eq⟩ | ⟨few, eq⟩ := raise_cases d increase
  · rw [eq]
    exact ⟨pause_nonneg, pause_le, reordered_le, increment⟩
  · rw [eq]
    exact ⟨by dsimp only; omega, by dsimp only; omega, few, increment⟩

theorem sound_startAt (poc : UInt32) (sound : Sound d) : Sound (d.startAt poc) := by
  obtain ⟨pause_nonneg, pause_le, reordered_le, increment⟩ := sound
  rw [startAt]
  split
  · refine ⟨pause_nonneg, pause_le, reordered_le, ?_⟩
    dsimp only
    split <;> simp
  · exact ⟨pause_nonneg, pause_le, reordered_le, increment⟩

theorem sound_detect (poc : UInt32) (sound : Sound d) : Sound (d.detect poc).1 := by
  have ⟨pause_nonneg, pause_le, reordered_le, increment⟩ := sound
  rw [detect]
  split
  · refine andThen_keeps Sound ?_ fun d _ _ kept => ⟨kept.1, kept.2, kept.3, kept.4⟩
    split
    · dsimp only
      split
      · exact sound_raise ⟨pause_nonneg, pause_le, reordered_le, .inl rfl⟩ (by omega)
      · exact ⟨pause_nonneg, pause_le, reordered_le, .inl rfl⟩
    · split
      · exact ⟨pause_nonneg, pause_le, reordered_le, .inr (.inr rfl)⟩
      · exact sound
  · exact sound

theorem sound_diffOfIDR (idr : Bytes) (sound : Sound d) : Sound (d.diffOfIDR sps idr).1 := by
  rw [diffOfIDR]
  split
  · exact sound_startAt _ sound
  · exact ⟨sound.1, sound.2, sound.3, sound.4⟩

theorem sound_diffOfNonIDR (nonIDR : Bytes) (sound : Sound d) : Sound (d.diffOfNonIDR sps nonIDR).1 := by
  rw [diffOfNonIDR]
  split
  · exact sound
  · exact andThen_keeps Sound (sound_detect _ sound) fun d _ _ kept => ⟨kept.1, kept.2, kept.3, kept.4⟩

theorem sound_settle (diff : Int) (sound : Sound d) : Sound (d.settle diff).1 := by
  rw [settle]
  split
  next late => exact andThen_keeps Sound (sound_raise sound (by omega)) fun _ _ _ kept => kept
  next =>
    split
    next early => exact andThen_keeps Sound (sound_raise sound (by omega)) fun _ _ _ kept => kept
    next => exact sound

/-- The time to the presentation is spread over one more picture than there are before it. -/
theorem settle_bounds {diff settled : Int} (sound : Sound d) (result : d.settle diff = (d', .ok settled)) :
    0 ≤ settled ∧ settled ≤ 2 * d'.reorderedFrames + 1 := by
  obtain ⟨pause_nonneg, pause_le, -, -⟩ := sound
  rw [settle] at result
  split at result
  next late =>
    obtain ⟨_, _, raised, rest⟩ := andThen_eq_ok result
    obtain ⟨text, eq⟩ | ⟨few, eq⟩ := raise_cases d (diff + d.reorderedFrames - (2 * d.reorderedFrames + 1))
    · rw [eq] at raised
      cases raised
    · rw [eq] at raised
      cases raised
      cases rest
      dsimp only
      omega
  next timely =>
    split at result
    next early =>
      obtain ⟨_, _, raised, rest⟩ := andThen_eq_ok result
      obtain ⟨text, eq⟩ | ⟨few, eq⟩ := raise_cases d (-(diff + d.reorderedFrames))
      · rw [eq] at raised
        cases raised
      · rw [eq] at raised
        cases raised
        cases rest
        dsimp only
        omega
    next =>
      cases result
      omega

theorem sound_dtsOf (pts : Int64) (diff : Int) (sound : Sound d) : Sound (d.dtsOf pts diff).1 := by
  rw [dtsOf]
  split
  · exact ⟨by have := sound.1; dsimp only; omega, by have := sound.2; dsimp only; omega, sound.3, sound.4⟩
  · exact sound

theorem sound_timed {pts : Int64} {outcome : Outcome Int} (sound : Sound outcome.1) : Sound (timed pts outcome).1 :=
  andThen_keeps Sound (andThen_keeps Sound sound fun _ diff _ kept => sound_settle diff kept)
    fun _ diff _ kept => sound_dtsOf pts diff kept

theorem sound_slotted (found : Found) (pts : Int64) (sound : Sound d) : Sound (d.slotted sps found pts).1 := by
  rw [slotted]
  split
  next idr _ => exact sound_timed (sound_diffOfIDR (d := { d with randomReceived := true }) idr ⟨sound.1, sound.2, sound.3, sound.4⟩)
  next =>
    split
    · exact sound
    · split
      next nonIDR _ => exact sound_timed (sound_diffOfNonIDR nonIDR sound)
      next =>
        split
        · split <;> exact sound
        · exact sound

theorem sound_extract (au : List Bytes) (pts : Int64) (sound : Sound d) : Sound (d.extract au pts).1 := by
  have inner : Sound (d.extractInner au pts).1 := by
    refine andThen_keeps Sound (sound_scan au false sound) fun d found _ kept => ?_
    split
    · exact kept
    · split
      · exact kept
      · split
        · exact kept
        · exact sound_slotted found pts kept
  refine andThen_keeps Sound inner fun d result _ kept => ?_
  dsimp only
  split
  · exact kept
  · split
    · split
      · exact kept
      · exact ⟨kept.1, kept.2, kept.3, kept.4⟩
    · exact ⟨kept.1, kept.2, kept.3, kept.4⟩

/-! ## What counting leaves alone -/

/-- The parameter set, the previous DTS and the pauses taken. -/
def core (d : DTSExtractor) : Bytes × Option SPS × Option Int64 × Int := (d.sps, d.spsp, d.prevDTS, spent d)

theorem core_raise (d : DTSExtractor) (increase : Int) : core (d.raise increase).1 = core d := by
  obtain ⟨text, eq⟩ | ⟨-, eq⟩ := raise_cases d increase
  · rw [eq]
  · rw [eq, core, core, spent, spent,
      show d.reorderedFrames + increase - (d.pause + increase) = d.reorderedFrames - d.pause by omega]

theorem core_startAt (d : DTSExtractor) (poc : UInt32) : core (d.startAt poc) = core d := by
  rw [startAt]
  split <;> rfl

theorem core_detect (d : DTSExtractor) (poc : UInt32) : core (d.detect poc).1 = core d := by
  rw [detect]
  split
  · refine andThen_keeps (core · = core d) ?_ fun _ _ _ kept => kept
    split
    · dsimp only
      split
      · exact core_raise ..
      · rfl
    · split <;> rfl
  · rfl

theorem core_diffOfIDR (d : DTSExtractor) (sps : SPS) (idr : Bytes) : core (d.diffOfIDR sps idr).1 = core d := by
  rw [diffOfIDR]
  split
  · exact core_startAt ..
  · rfl

theorem core_diffOfNonIDR (d : DTSExtractor) (sps : SPS) (nonIDR : Bytes) : core (d.diffOfNonIDR sps nonIDR).1 = core d := by
  rw [diffOfNonIDR]
  split
  · rfl
  · exact andThen_keeps (core · = core d) (core_detect ..) fun _ _ _ kept => kept

theorem core_settle (d : DTSExtractor) (diff : Int) : core (d.settle diff).1 = core d := by
  rw [settle]
  split
  · exact andThen_keeps (core · = core d) (core_raise ..) fun _ _ _ kept => kept
  · split
    · exact andThen_keeps (core · = core d) (core_raise ..) fun _ _ _ kept => kept
    · rfl

/-- Only a pause brings a DTS that is neither checked nor the PTS itself. -/
structure Timed (d d' : DTSExtractor) (pts : Int64) (result : Except Fault (Int64 × Bool)) : Prop where
  sps : d'.sps = d.sps
  spsp : d'.spsp = d.spsp
  prevDTS : d'.prevDTS = d.prevDTS
  pauses : spent d' = spent d ∨ spent d' = spent d + 1
  unpaused : ∀ dts, result = .ok (dts, true) → spent d' = spent d → dts = pts

theorem timed_error {fault : Fault} {pts : Int64} (same : core d' = core d) : Timed d d' pts (.error fault) := by
  obtain ⟨sps, spsp, prevDTS, pauses⟩ := Prod.ext_iff.mp same |>.imp_right fun rest =>
    (Prod.ext_iff.mp rest).imp_right fun rest => Prod.ext_iff.mp rest
  exact ⟨sps, spsp, prevDTS, .inl pauses, by rintro _ ⟨⟩⟩

theorem timed_dtsOf {pts : Int64} {diff : Int} (same : core d' = core d) :
    Timed d (d'.dtsOf pts diff).1 pts (d'.dtsOf pts diff).2 := by
  simp only [core, Prod.mk.injEq] at same
  obtain ⟨sps, spsp, prevDTS, pauses⟩ := same
  rw [dtsOf]
  split
  next paused =>
    refine ⟨sps, spsp, prevDTS, .inr (by simp only [spent] at pauses ⊢; omega), fun dts _ still => ?_⟩
    simp only [spent] at pauses still
    omega
  next =>
    refine ⟨sps, spsp, prevDTS, .inl pauses, fun dts result _ => ?_⟩
    dsimp only at result
    split at result
    · cases result
      rfl
    · -- The quotient is checked, and a panic is no answer.
      rw [quotient64] at result
      split at result <;> cases result

theorem timed_counted {pts : Int64} {outcome : Outcome Int} (same : core outcome.1 = core d) :
    Timed d (timed pts outcome).1 pts (timed pts outcome).2 := by
  obtain ⟨first, fault | diff⟩ := outcome
  · exact timed_error same
  · have settled := core_settle first diff
    change let result := (first.settle diff).andThen _; Timed d result.1 pts result.2
    generalize first.settle diff = outcome at settled ⊢
    obtain ⟨second, fault | settled'⟩ := outcome
    · exact timed_error (settled.trans same)
    · exact timed_dtsOf (settled.trans same)

theorem timed_slotted (d : DTSExtractor) (sps : SPS) (found : Found) (pts : Int64) :
    Timed d (d.slotted sps found pts).1 pts (d.slotted sps found pts).2 := by
  rw [slotted]
  split
  next idr _ => exact timed_counted (core_diffOfIDR { d with randomReceived := true } sps idr)
  next =>
    split
    · exact timed_error rfl
    · split
      next nonIDR _ => exact timed_counted (core_diffOfNonIDR d sps nonIDR)
      next =>
        split
        · split
          · exact ⟨rfl, rfl, rfl, .inl rfl, by rintro _ ⟨⟩ _; rfl⟩
          · exact ⟨rfl, rfl, rfl, .inl rfl, by rintro _ ⟨⟩⟩
        · exact timed_error rfl

theorem timed_inner (d : DTSExtractor) (au : List Bytes) (pts : Int64) :
    Timed (scan au d false).1 (d.extractInner au pts).1 pts (d.extractInner au pts).2 := by
  rw [extractInner]
  generalize scan au d false = scanned
  obtain ⟨s, fault | found⟩ := scanned
  · exact timed_error rfl
  · dsimp only [Outcome.andThen]
    split
    · exact timed_error rfl
    · split
      · exact ⟨rfl, rfl, rfl, .inl rfl, by rintro _ ⟨⟩⟩
      · split
        · exact timed_error rfl
        · exact timed_slotted s _ found pts

theorem prevDTS_scan (d : DTSExtractor) (au : List Bytes) : (scan au d false).1.prevDTS = d.prevDTS := by
  obtain same | ⟨nalu, spsp, -, -, eq⟩ := scan_cases au d false
  · rw [same]
  · rw [eq]
    rfl

/-- What a call leaves, from where reading its NAL units ended. -/
structure Extracted (d s d' : DTSExtractor) (pts : Int64) (result : Except Fault Int64) : Prop where
  sps : d'.sps = s.sps
  spsp : d'.spsp = s.spsp
  pauses : spent d' = spent s ∨ spent d' = spent s + 1
  failed : ∀ fault, result = .error fault → d'.prevDTS = d.prevDTS
  filled : ∀ dts, result = .ok dts → d'.prevDTS = some dts
  ordered : ∀ dts, result = .ok dts → ∀ prev ∈ d.prevDTS, prev ≤ dts
  late : ∀ dts, result = .ok dts → pts < dts → spent d' = spent s + 1

theorem extract_spec (d : DTSExtractor) (au : List Bytes) (pts : Int64) :
    Extracted d (scan au d false).1 (d.extract au pts).1 pts (d.extract au pts).2 := by
  have timed := timed_inner d au pts
  rw [extract]
  generalize d.extractInner au pts = inner at timed
  have before := prevDTS_scan d au
  generalize (scan au d false).1 = s at timed before
  obtain ⟨d', fault | ⟨dts, skip⟩⟩ := inner
  · exact ⟨timed.sps, timed.spsp, timed.pauses, fun _ _ => timed.prevDTS.trans before, by rintro _ ⟨⟩, by rintro _ ⟨⟩,
      by rintro _ ⟨⟩⟩
  · dsimp only [Outcome.andThen]
    have late : ∀ fine : ¬ (skip = false ∧ dts > pts), pts < dts → spent d' = spent s + 1 := by
      intro fine after
      obtain rfl : skip = true := by simpa using fun unchecked => fine ⟨unchecked, after⟩
      refine timed.pauses.resolve_left fun still => ?_
      rw [timed.unpaused dts rfl still] at after
      exact Int64.lt_irrefl after
    split
    next => exact ⟨timed.sps, timed.spsp, timed.pauses, fun _ _ => timed.prevDTS.trans before, by rintro _ ⟨⟩,
      by rintro _ ⟨⟩, by rintro _ ⟨⟩⟩
    next fine =>
      have prev_eq : d.prevDTS = d'.prevDTS := (timed.prevDTS.trans before).symm
      split
      next prev filled =>
        split
        next => exact ⟨timed.sps, timed.spsp, timed.pauses, fun _ _ => prev_eq.symm, by rintro _ ⟨⟩, by rintro _ ⟨⟩,
          by rintro _ ⟨⟩⟩
        next onwards =>
          refine ⟨timed.sps, timed.spsp, timed.pauses, by rintro _ ⟨⟩, by rintro _ ⟨⟩; rfl, ?_, ?_⟩
          · rintro _ ⟨⟩ other mem
            rw [prev_eq, filled] at mem
            cases mem
            exact Int64.not_lt.mp onwards
          · rintro _ ⟨⟩
            exact late fine
      next empty =>
        refine ⟨timed.sps, timed.spsp, timed.pauses, by rintro _ ⟨⟩, by rintro _ ⟨⟩; rfl, ?_, ?_⟩
        · rintro _ ⟨⟩ other mem
          rw [prev_eq, empty] at mem
          cases mem
        · rintro _ ⟨⟩
          exact late fine

end Calls

/-! ## Runs -/

/-- An access unit and its PTS. -/
abbrev Call := List Bytes × Int64

/-- What a call leaves of the extractor, whatever it answers. -/
def step (d : DTSExtractor) (call : Call) : DTSExtractor := (d.extract call.1 call.2).1

/-- The DTS values that a run of calls returns. -/
def answers : DTSExtractor → List Call → List Int64
  | _, [] => []
  | d, call :: rest =>
    match (d.extract call.1 call.2).2 with
    | .ok dts => dts :: answers (step d call) rest
    | .error _ => answers (step d call) rest

/-- How many of them are later than the PTS. -/
def late : DTSExtractor → List Call → Int
  | _, [] => 0
  | d, call :: rest =>
    (match (d.extract call.1 call.2).2 with
      | .ok dts => if call.2 < dts then 1 else 0
      | .error _ => 0) + late (step d call) rest

/-- The call brings no other parameter set. -/
def SameSet (d : DTSExtractor) (call : Call) : Prop := (scan call.1 d false).1 = d

theorem le_answers {calls : List Call} {d : DTSExtractor} {prev : Int64} (filled : d.prevDTS = some prev) :
    ∀ dts ∈ answers d calls, prev ≤ dts := by
  induction calls generalizing d prev with
  | nil => simp [answers]
  | cons call rest ih =>
    have spec := extract_spec d call.1 call.2
    rw [answers]
    split
    next dts result =>
      have first := spec.ordered dts result prev filled
      intro other mem
      rcases List.mem_cons.mp mem with rfl | mem
      · exact first
      · exact Int64.le_trans first (ih (spec.filled dts result) other mem)
    next fault result => exact ih ((spec.failed fault result).trans filled)

theorem answers_sorted (calls : List Call) (d : DTSExtractor) : (answers d calls).Pairwise (· ≤ ·) := by
  induction calls generalizing d with
  | nil => exact List.Pairwise.nil
  | cons call rest ih =>
    have spec := extract_spec d call.1 call.2
    rw [answers]
    split
    next dts result => exact List.pairwise_cons.mpr ⟨le_answers (spec.filled dts result), ih _⟩
    next => exact ih _

theorem late_le {calls : List Call} {d : DTSExtractor} (sound : Sound d) (same : Along step SameSet d calls) :
    spent d + late d calls ≤ maxReorderedFrames := by
  induction calls generalizing d with
  | nil =>
    have := sound.pause_nonneg
    have := sound.reordered_le
    simp only [late, spent]
    omega
  | cons call rest ih =>
    have spec := extract_spec d call.1 call.2
    rw [same.1] at spec
    have rest_le := ih (d := step d call) (sound_extract _ _ sound) same.2
    have pauses := spec.pauses
    change spent (step d call) = _ ∨ spent (step d call) = _ at pauses
    rw [late]
    split
    next dts result =>
      split
      next after =>
        have paused : spent (step d call) = spent d + 1 := spec.late dts result after
        omega
      next => omega
    next => omega

/-- In every run the counters stay in their bounds, the DTS never goes back, and at most
ten access units between two parameter sets get a DTS later than their PTS. -/
theorem extract_runs (calls : List Call) :
    Throughout step Sound {} calls ∧ (answers {} calls).Pairwise (· ≤ ·) ∧
      ∀ earlier stretch later, calls = earlier ++ stretch ++ later →
        Along step SameSet (exec step {} earlier) stretch → late (exec step {} earlier) stretch ≤ maxReorderedFrames := by
  have preserved : ∀ d call, Sound d → Sound (step d call) := fun d call sound => sound_extract call.1 call.2 sound
  refine ⟨throughout_of_invariant (fun d call sound (_ : True) => preserved d call sound) calls {} sound_initial
    (along_trivial ..), answers_sorted calls {}, fun earlier stretch later _ same => ?_⟩
  have sound := exec_invariant preserved earlier {} sound_initial
  have bound := late_le sound same
  have := sound.pause_le
  simp only [spent] at bound
  omega

/-! ## No panic -/

/-- The fields of fixed width that a slice header has by this parameter set are not empty. -/
structure WideFields (sps : SPS) : Prop where
  frameNum : sps.log2MaxFrameNumMinus4 + 4 ≠ 0
  picOrderCnt : log2MaxPicOrderCntLsbMinus4 sps + 4 ≠ 0

/-- No NAL unit is empty, and no parameter set among them declares a field of no width. -/
def WellFormedUnits (call : Call) : Prop := ∀ nalu ∈ call.1, nalu ≠ [] ∧ ∀ sps, SPS.unmarshal nalu = .ok sps → WideFields sps

instance (sps : SPS) : Decidable (WideFields sps) :=
  decidable_of_iff (sps.log2MaxFrameNumMinus4 + 4 ≠ 0 ∧ log2MaxPicOrderCntLsbMinus4 sps + 4 ≠ 0)
    ⟨fun wide => ⟨wide.1, wide.2⟩, fun wide => ⟨wide.1, wide.2⟩⟩

instance (nalu : Bytes) : Decidable (∀ sps, SPS.unmarshal nalu = .ok sps → WideFields sps) :=
  match SPS.unmarshal nalu with
  | .ok sps => decidable_of_iff (WideFields sps) ⟨fun wide _ read => Except.ok.inj read ▸ wide, fun wide => wide sps rfl⟩
  | .error _ => .isTrue (by rintro _ ⟨⟩)

instance : DecidablePred WellFormedUnits := fun call =>
  inferInstanceAs (Decidable (∀ nalu ∈ call.1, nalu ≠ [] ∧ ∀ sps, SPS.unmarshal nalu = .ok sps → WideFields sps))

section Panics
variable {α β : Type} {d : DTSExtractor} {sps : SPS}

theorem toNat_pos {v : UInt32} (nonzero : v ≠ 0) : 0 < v.toNat := by
  refine Nat.pos_of_ne_zero fun zero => nonzero ?_
  exact UInt32.toNat_inj.mp zero

theorem safe_pictureOrderCount (wide : WideFields sps) (idr : Bool) : Safe 0 0 (readPictureOrderCount sps idr) :=
  safe_golomb.bind fun _ => safe_golomb.bind fun _ => safe_golomb.bind fun _ =>
    (safe_bits (toNat_pos wide.frameNum)).bind fun _ => (safe_given safe_golomb _).bind fun _ =>
    (safe_bits (toNat_pos wide.picOrderCnt)).last

theorem getPictureOrderCount_safe {buf : Bytes} (nonempty : buf ≠ []) (wide : WideFields sps) (idr : Bool) :
    getPictureOrderCount buf sps idr ≠ .error .panic := by
  cases buf with
  | nil => exact absurd rfl nonempty
  | cons header buf =>
    rw [getPictureOrderCount, EmulationPrevention.emulationPreventionRemove_eq]
    dsimp only
    obtain ⟨poc, next, read, _⟩ | ⟨text, failed⟩ := safe_pictureOrderCount wide idr
      (Nat.zero_le (BitStrings.bits (EmulationPrevention.removed (buf.take maxBytesToGetPOC))).length)
    · rw [read]
      rintro ⟨⟩
    · rw [failed]
      rintro ⟨⟩

/-- The result is no panic. -/
def Quiet (outcome : Outcome α) : Prop := outcome.2 ≠ .error .panic

theorem andThen_quiet {outcome : Outcome α} {rest : DTSExtractor → α → Outcome β} (first : Quiet outcome)
    (second : ∀ d a, outcome = (d, .ok a) → Quiet (rest d a)) : Quiet (outcome.andThen rest) := by
  obtain ⟨d, fault | a⟩ := outcome
  · rintro ⟨⟩
    exact first rfl
  · exact second d a rfl

theorem quiet_raise (d : DTSExtractor) (increase : Int) : Quiet (d.raise increase) := by
  obtain ⟨text, eq⟩ | ⟨-, eq⟩ := raise_cases d increase <;> rw [eq] <;> rintro ⟨⟩

theorem quiet_ok {a : α} : Quiet (d, .ok a) := by rintro ⟨⟩

theorem quiet_error {text : String} : Quiet ((d, .error (.error text)) : Outcome α) := by rintro ⟨⟩

theorem quiet_detect (d : DTSExtractor) (poc : UInt32) : Quiet (d.detect poc) := by
  rw [detect]
  split
  · refine andThen_quiet ?_ fun _ _ _ => quiet_ok
    split
    · dsimp only
      split
      · exact quiet_raise _ _
      · exact quiet_ok
    · split <;> exact quiet_ok
  · exact quiet_ok

theorem quiet_settle (d : DTSExtractor) (diff : Int) : Quiet (d.settle diff) := by
  rw [settle]
  split
  · exact andThen_quiet (quiet_raise _ _) fun _ _ _ => quiet_ok
  · split
    · exact andThen_quiet (quiet_raise _ _) fun _ _ _ => quiet_ok
    · exact quiet_ok

/-- The increment that counts are divided by is one, two or four. -/
theorem quiet_diffOfNonIDR {nonIDR : Bytes} (sound : Sound d) (safe : getPictureOrderCount nonIDR sps false ≠ .error .panic) :
    Quiet (d.diffOfNonIDR sps nonIDR) := by
  rw [diffOfNonIDR]
  split
  next fault failed =>
    rintro ⟨⟩
    exact safe failed
  next poc _ =>
    refine andThen_quiet (quiet_detect d poc) fun d' _ detected => ?_
    have kept := sound_detect poc sound
    rw [detected] at kept
    have increment : d'.pocIncrement = 1 ∨ d'.pocIncrement = 2 ∨ d'.pocIncrement = 4 := kept.increment
    have nonzero : (d'.advance sps).pocIncrement ≠ 0 := by
      change d'.pocIncrement ≠ 0
      omega
    dsimp only [Quiet]
    rw [quotient, if_neg nonzero]
    rintro ⟨⟩

theorem succ_ne_zero {diff : Int} (nonneg : 0 ≤ diff) (few : diff ≤ 2 * maxReorderedFrames + 1) : Int64.ofInt diff + 1 ≠ 0 := by
  have most : 2 * maxReorderedFrames + 1 = 21 := rfl
  intro zero
  have value := congrArg Int64.toInt zero
  rw [Int64.toInt_add, Int64.toInt_ofInt_of_le (by omega) (by omega)] at value
  change (diff + 1).bmod (2 ^ 64) = 0 at value
  rw [Int.bmod_eq_of_le (by omega) (by omega)] at value
  omega

/-- The difference that the time is divided by is settled, between no pictures and twenty-one. -/
theorem quiet_timed {pts : Int64} {outcome : Outcome Int} (first : Quiet outcome) (sound : Sound outcome.1) :
    Quiet (timed pts outcome) := by
  obtain ⟨d, fault | diff⟩ := outcome
  · rintro ⟨⟩
    exact first rfl
  · refine andThen_quiet (andThen_quiet first fun d diff _ => quiet_settle d diff) fun d' settled result => ?_
    change d.settle diff = (d', .ok settled) at result
    have bounds := settle_bounds sound result
    have kept := sound_settle diff sound
    rw [result] at kept
    have nonzero := succ_ne_zero bounds.1 (by have := kept.reordered_le; dsimp only at this; omega)
    rw [dtsOf]
    split
    · split <;> exact quiet_ok
    · split
      · exact quiet_ok
      · rw [quotient64, if_neg nonzero]
        exact quiet_ok

theorem quiet_slotted {found : Found} (pts : Int64) (sound : Sound d) (nonempty : ∀ slice ∈ found.slice, slice.2 ≠ [])
    (wide : WideFields sps) : Quiet (d.slotted sps found pts) := by
  rw [slotted]
  split
  next idr here =>
    have started : Sound { d with randomReceived := true } := ⟨sound.1, sound.2, sound.3, sound.4⟩
    refine quiet_timed ?_ (sound_diffOfIDR idr started)
    have safe := getPictureOrderCount_safe (nonempty _ here) wide true
    rw [diffOfIDR]
    split
    · exact quiet_ok
    next fault failed =>
      rintro ⟨⟩
      exact safe failed
  next =>
    split
    · exact quiet_error
    · split
      next nonIDR here =>
        have safe := getPictureOrderCount_safe (nonempty _ here) wide false
        exact quiet_timed (quiet_diffOfNonIDR sound safe) (sound_diffOfNonIDR nonIDR sound)
      next =>
        split
        · split <;> exact quiet_ok
        · exact quiet_error

/-- Reading the NAL units finds a slice among them, or ends with an error. -/
theorem quiet_scan {au : List Bytes} (nonempty : ∀ nalu ∈ au, nalu ≠ []) (d : DTSExtractor) (nonZero : Bool) :
    Quiet (scan au d nonZero) ∧ ∀ s found, scan au d nonZero = (s, .ok found) → ∀ slice ∈ found.slice, slice.2 ≠ [] := by
  induction au generalizing d nonZero with
  | nil =>
    refine ⟨quiet_ok, ?_⟩
    rintro _ _ ⟨⟩ _ ⟨⟩
  | cons nalu rest ih =>
    have onwards := ih fun nalu mem => nonempty nalu (List.mem_cons_of_mem _ mem)
    cases nalu with
    | nil => exact absurd rfl (nonempty [] List.mem_cons_self)
    | cons header payload =>
      rw [scan]
      split
      · split
        · exact onwards ..
        · split
          · exact onwards ..
          · exact ⟨quiet_error, by rintro _ _ ⟨⟩⟩
          next panicked => exact absurd panicked (unmarshal_safe _)
      · exact ⟨quiet_ok, by rintro _ _ ⟨⟩ _ ⟨⟩; simp⟩
      · exact ⟨quiet_ok, by rintro _ _ ⟨⟩ _ ⟨⟩; simp⟩
      · exact onwards ..

/-- The parameter set in use declares no field of no width. -/
def UsesWideFields (d : DTSExtractor) : Prop := ∀ sps ∈ d.spsp, WideFields sps

theorem usesWideFields_scan {au : List Bytes} (units : ∀ nalu ∈ au, nalu ≠ [] ∧ ∀ sps, SPS.unmarshal nalu = .ok sps → WideFields sps)
    (nonZero : Bool) (wide : UsesWideFields d) : UsesWideFields (scan au d nonZero).1 := by
  obtain same | ⟨nalu, spsp, mem, read, eq⟩ := scan_cases au d nonZero
  · rwa [same]
  · rw [eq]
    rintro sps ⟨⟩
    exact (units nalu mem).2 spsp read

theorem quiet_extract {call : Call} (units : WellFormedUnits call) (sound : Sound d) (wide : UsesWideFields d) :
    Quiet (d.extract call.1 call.2) := by
  have ⟨quiet, slices⟩ := quiet_scan (fun nalu mem => (units nalu mem).1) d false
  have scanned := usesWideFields_scan units false wide
  have kept := sound_scan call.1 false sound
  refine andThen_quiet (andThen_quiet quiet fun s found eq => ?_) fun s result _ => ?_
  · rw [eq] at scanned kept
    split
    · exact quiet_error
    next spsp read =>
      split
      · exact quiet_ok
      · split
        · exact quiet_error
        · exact quiet_slotted _ kept (slices s found eq) (scanned spsp read)
  · dsimp only
    split
    · exact quiet_error
    · split
      · split
        · exact quiet_error
        · exact quiet_ok
      · exact quiet_ok

theorem usesWideFields_step {call : Call} (units : WellFormedUnits call) (wide : UsesWideFields d) : UsesWideFields (step d call) := by
  have spec := extract_spec d call.1 call.2
  have scanned := usesWideFields_scan units false wide
  rw [UsesWideFields, ← spec.spsp] at scanned
  exact scanned

end Panics

theorem quiet_along {calls : List Call} (units : ∀ call ∈ calls, WellFormedUnits call) {d : DTSExtractor} (sound : Sound d)
    (wide : UsesWideFields d) : Along step (fun d call => Quiet (d.extract call.1 call.2)) d calls := by
  induction calls generalizing d with
  | nil => trivial
  | cons call rest ih =>
    have first := units call List.mem_cons_self
    exact ⟨quiet_extract first sound wide, ih (fun call mem => units call (List.mem_cons_of_mem _ mem))
      (sound_extract call.1 call.2 sound) (usesWideFields_step first wide)⟩

/-- Access units without empty NAL units never make `Extract` panic, by an index, a slice or
a division, whatever their bytes are, as long as no parameter set declares a field of no width. -/
theorem extract_never_panics (calls : List Call) (units : ∀ call ∈ calls, WellFormedUnits call) :
    Along step (fun d call => (d.extract call.1 call.2).2 ≠ .error .panic) {} calls :=
  quiet_along units sound_initial (by rintro _ ⟨⟩)

/-- A parameter set of a camera, an IDR and a picture after it. -/
theorem extract_never_panics_camera :
    Along step (fun d call => (d.extract call.1 call.2).2 ≠ .error .panic) {}
      [([[103, 66, 192, 30, 140, 141, 64, 80, 23, 252, 176, 15, 8, 132, 106], [104, 206, 60, 128], [101, 136, 128, 20, 3, 0]], 0),
        ([[97, 0, 240, 224, 0, 64, 0, 190, 71, 155]], 3600)] :=
  extract_never_panics _ (by decide +kernel)

end Ironsight.DtsInvariants
