import Mathlib.Algebra.Order.Field.Basic
import Mathlib.Algebra.Order.Field.Rat
import Mathlib.Tactic.NormNum
import Ironsight.Durations
import Ironsight.SpanMerge
import Ironsight.Timestamps
import Ironsight.Uuid

/-! The recording spans of the timeline: the spans of the segments in a window, merged per
camera where they overlap or leave less than a minute between them. Whether spans overlap is
decided on the texts of their times, how far they are apart on the times that are read back. -/
namespace Ironsight.Coverage
open Rfc3339 Timestamps Durations SpanMerge Uuid

/-- `SegmentCoverage`, with its times as texts. -/
structure SegmentCoverage where
  cameraID : String
  startTime : String
  endTime : String
  hasAudio : Bool
  deriving DecidableEq

/-! ## The query -/

/-- A row of `segments`, as far as the query reads it. -/
structure Segment where
  cameraID : UUID
  startTime : Int
  endTime : Int
  hasAudio : Option Bool

def Segment.selected (cameraIDs : List UUID) (start stop : Int) (row : Segment) : Bool :=
  row.startTime ≤ stop ∧ start ≤ row.endTime ∧ row.cameraID ∈ cameraIDs

/-- The rows in an order by camera and start. -/
structure Answers (rows : List Segment) (cameraIDs : List UUID) (start stop : Int) (found : List Segment) : Prop where
  perm : found.Perm (rows.filter (Segment.selected cameraIDs start stop))
  sorted : found.Pairwise fun a b =>
    a.cameraID.bits.toNat < b.cameraID.bits.toNat ∨ a.cameraID = b.cameraID ∧ a.startTime ≤ b.startTime

/-- What `GetSegmentCoverage` makes of a row. -/
def Segment.coverage (row : Segment) : SegmentCoverage where
  cameraID := row.cameraID.text
  startTime := rfc3339 (row.startTime / second)
  endTime := rfc3339 (row.endTime / second)
  hasAudio := row.hasAudio.getD false

/-! ## Merging -/

/-- The seconds between two times, and many where one cannot be read. -/
def timeDiffSeconds (a b : String) : ℚ :=
  match parse a.toList, parse b.toList with
  | some ta, some tb =>
    let diff := (saturated (tb - ta) : ℚ) / second
    if diff < 0 then -diff else diff
  | _, _ => 9999

/-- The loop of `mergeSpans`. -/
def mergeLoop (current : SegmentCoverage) (merged : List SegmentCoverage) : List SegmentCoverage → List SegmentCoverage
  | [] => merged ++ [current]
  | s :: spans =>
    if s.cameraID ≠ current.cameraID then mergeLoop s (merged ++ [current]) spans
    else if s.startTime ≤ current.endTime ∨ timeDiffSeconds current.endTime s.startTime < 60 then
      let endTime := if s.endTime > current.endTime then s.endTime else current.endTime
      mergeLoop { current with endTime, hasAudio := current.hasAudio || s.hasAudio } merged spans
    else mergeLoop s (merged ++ [current]) spans

/-- `mergeSpans`. -/
def mergeSpans : List SegmentCoverage → List SegmentCoverage
  | [] => []
  | first :: spans => mergeLoop first [] spans

/-! ## What is returned -/

/-- The instant that a text names. -/
def instant (text : String) : Int := (parse text.toList).getD 0

/-- The text of a whole second, in UTC. -/
def Stamp (text : String) : Prop := ∃ seconds, FourDigitYear seconds ∧ text = rfc3339 seconds

/-- Spans as `GetSegmentCoverage` returns them. -/
structure Returned (spans : List SegmentCoverage) : Prop where
  stamped : ∀ span ∈ spans, Stamp span.startTime ∧ Stamp span.endTime
  grouped : Grouped (spans.map SegmentCoverage.cameraID)
  starts : spans.Pairwise fun a b => a.cameraID = b.cameraID → instant a.startTime ≤ instant b.startTime
  valid : ∀ span ∈ spans, instant span.startTime ≤ instant span.endTime

/-- A span of the camera that goes at least as far on both sides. -/
structure Contains (outer inner : SegmentCoverage) : Prop where
  camera : inner.cameraID = outer.cameraID
  start : instant outer.startTime ≤ instant inner.startTime
  stop : instant inner.endTime ≤ instant outer.endTime

/-- Neither recordings nor gaps of a minute are lost. -/
structure Faithful (spans merged : List SegmentCoverage) : Prop where
  apart : ∀ camera, (merged.filter fun span => span.cameraID = camera).Pairwise fun a b =>
    instant a.endTime + minute ≤ instant b.startTime
  valid : ∀ span ∈ merged, instant span.startTime ≤ instant span.endTime
  contained : ∀ span ∈ spans, ∃! outer, outer ∈ merged ∧ Contains outer span
  covered : ∀ outer ∈ merged, ∀ time, instant outer.startTime ≤ time → time ≤ instant outer.endTime →
    (∃ span ∈ spans, span.cameraID = outer.cameraID ∧ instant span.startTime ≤ time ∧ time ≤ instant span.endTime) ∨
    ∃ before ∈ spans, ∃ after ∈ spans, before.cameraID = outer.cameraID ∧ after.cameraID = outer.cameraID ∧
      instant before.endTime < time ∧ time < instant after.startTime ∧
      instant after.startTime < instant before.endTime + minute
  audio : ∀ outer ∈ merged, outer.hasAudio = true ↔ ∃ span ∈ spans, Contains outer span ∧ span.hasAudio = true

/-! ## Texts and times -/

private theorem parse_stamp {seconds : Int} (year : FourDigitYear seconds) :
    parse (rfc3339 seconds).toList = some (seconds * second) := parse_rfc3339 year

private theorem instant_rfc3339 {seconds : Int} (year : FourDigitYear seconds) :
    instant (rfc3339 seconds) = seconds * second := by
  rw [instant, parse_stamp year, Option.getD_some]

theorem Stamp.lt_iff {first other : String} (stamp : Stamp first) (stamp' : Stamp other) :
    first < other ↔ instant first < instant other := by
  obtain ⟨seconds, year, rfl⟩ := stamp
  obtain ⟨seconds', year', rfl⟩ := stamp'
  rw [rfc3339_lt_iff year year', instant_rfc3339 year, instant_rfc3339 year']
  exact (Int.mul_lt_mul_right (by decide)).symm

theorem Stamp.le_iff {first other : String} (stamp : Stamp first) (stamp' : Stamp other) :
    first ≤ other ↔ instant first ≤ instant other := by
  rw [← not_lt, ← not_lt, stamp'.lt_iff stamp]

/-- How far a later time is behind an earlier one. -/
private theorem timeDiffSeconds_lt {a b : String} (stamp : Stamp a) (stamp' : Stamp b) (lt : instant a < instant b) :
    timeDiffSeconds a b < 60 ↔ instant b < instant a + minute := by
  obtain ⟨seconds, year, rfl⟩ := stamp
  obtain ⟨seconds', year', rfl⟩ := stamp'
  rw [instant_rfc3339 year, instant_rfc3339 year'] at lt ⊢
  have positive : 0 < saturated (seconds' * second - seconds * second) := by
    unfold saturated
    omega
  have small : saturated (seconds' * second - seconds * second) < minute ↔ seconds' * second < seconds * second + minute := by
    unfold saturated minute second
    omega
  simp only [timeDiffSeconds, parse_stamp year, parse_stamp year', ← small]
  generalize saturated (seconds' * second - seconds * second) = nanos at positive ⊢
  have scale : (0 : ℚ) < (second : Int) := by norm_num [second]
  have sign : ¬ ((nanos : ℚ) / (second : Int) < 0) := by
    rw [not_lt]
    exact div_nonneg (by exact_mod_cast positive.le) scale.le
  rw [if_neg sign, div_lt_iff₀ scale, minute]
  exact_mod_cast Iff.rfl

/-! ## The loop -/

def toSpan (coverage : SegmentCoverage) : Span String Int :=
  ⟨coverage.cameraID, instant coverage.startTime, instant coverage.endTime, coverage.hasAudio⟩

def Stamped (span : SegmentCoverage) : Prop := Stamp span.startTime ∧ Stamp span.endTime

/-- The two comparisons of the loop together tell whether a span begins less than a minute
behind the end. -/
private theorem joins_iff {current s : SegmentCoverage} (stamped : Stamped current) (stamped' : Stamped s) :
    Joins minute (toSpan current) (toSpan s) ↔ s.cameraID = current.cameraID ∧
      (s.startTime ≤ current.endTime ∨ timeDiffSeconds current.endTime s.startTime < 60) := by
  refine and_congr_right fun _ => ?_
  rw [stamped'.1.le_iff stamped.2]
  change instant s.startTime < instant current.endTime + minute ↔ _
  by_cases touching : instant s.startTime ≤ instant current.endTime
  · have positive : 0 < minute := by decide
    exact iff_of_true (by omega) (.inl touching)
  · rw [timeDiffSeconds_lt stamped.2 stamped'.1 (not_le.mp touching)]
    exact (or_iff_right touching).symm

/-- The span that the loop goes on with. -/
private def extended (current s : SegmentCoverage) : SegmentCoverage :=
  { current with
    endTime := if s.endTime > current.endTime then s.endTime else current.endTime
    hasAudio := current.hasAudio || s.hasAudio }

private theorem toSpan_extended {current s : SegmentCoverage} (stamped : Stamped current) (stamped' : Stamped s) :
    toSpan (extended current s) = (toSpan current).absorb (toSpan s) := by
  have stop : instant (extended current s).endTime = max (instant current.endTime) (instant s.endTime) := by
    simp only [extended, gt_iff_lt, stamped.2.lt_iff stamped'.2]
    split
    · omega
    · omega
  rw [toSpan, stop]
  rfl

private theorem stamped_extended {current s : SegmentCoverage} (stamped : Stamped current) (stamped' : Stamped s) :
    Stamped (extended current s) := by
  refine ⟨stamped.1, ?_⟩
  simp only [extended]
  split
  · exact stamped'.2
  · exact stamped.2

private theorem mergeLoop_cons {current s : SegmentCoverage} {merged spans : List SegmentCoverage} (stamped : Stamped current)
    (stamped' : Stamped s) : mergeLoop current merged (s :: spans) =
      if Joins minute (toSpan current) (toSpan s) then mergeLoop (extended current s) merged spans
      else mergeLoop s (merged ++ [current]) spans := by
  rw [mergeLoop]
  by_cases same : s.cameraID = current.cameraID
  · rw [if_neg (not_not.mpr same)]
    refine if_congr ?_ rfl rfl
    rw [joins_iff stamped stamped']
    exact (and_iff_right same).symm
  · rw [if_pos same, if_neg fun joins => same ((joins_iff stamped stamped').mp joins).1]

/-- The loop merges the instants that the texts name. -/
private theorem mergeLoop_toSpan {current : SegmentCoverage} {merged spans : List SegmentCoverage}
    (stamped : ∀ span ∈ current :: spans, Stamped span) : (mergeLoop current merged spans).map toSpan =
      merged.map toSpan ++ mergeFrom minute (toSpan current) (spans.map toSpan) := by
  induction spans generalizing current merged with
  | nil => simp [mergeLoop, mergeFrom]
  | cons s spans ih =>
    obtain ⟨own, next, later⟩ := List.forall_mem_cons.mp stamped |>.imp_right List.forall_mem_cons.mp
    rw [mergeLoop_cons own next, List.map_cons, mergeFrom]
    split
    case isTrue joins =>
      rw [ih (List.forall_mem_cons.mpr ⟨stamped_extended own next, later⟩), toSpan_extended own next]
    case isFalse apart =>
      rw [ih (List.forall_mem_cons.mpr ⟨next, later⟩)]
      simp

private theorem mergeLoop_stamped {current : SegmentCoverage} {merged spans : List SegmentCoverage}
    (earlier : ∀ span ∈ merged, Stamped span) (stamped : ∀ span ∈ current :: spans, Stamped span) :
    ∀ span ∈ mergeLoop current merged spans, Stamped span := by
  induction spans generalizing current merged with
  | nil => exact List.forall_mem_append.mpr ⟨earlier, stamped⟩
  | cons s spans ih =>
    obtain ⟨own, next, later⟩ := List.forall_mem_cons.mp stamped |>.imp_right List.forall_mem_cons.mp
    rw [mergeLoop_cons own next]
    split
    case isTrue joins => exact ih earlier (List.forall_mem_cons.mpr ⟨stamped_extended own next, later⟩)
    case isFalse apart =>
      have flushed : ∀ span ∈ merged ++ [current], Stamped span :=
        List.forall_mem_append.mpr ⟨earlier, List.forall_mem_singleton.mpr own⟩
      exact ih flushed (List.forall_mem_cons.mpr ⟨next, later⟩)

theorem mergeSpans_toSpan {spans : List SegmentCoverage} (stamped : ∀ span ∈ spans, Stamped span) :
    (mergeSpans spans).map toSpan = merge minute (spans.map toSpan) := by
  cases spans with
  | nil => rfl
  | cons first spans => exact mergeLoop_toSpan stamped

theorem mergeSpans_stamped {spans : List SegmentCoverage} (stamped : ∀ span ∈ spans, Stamped span) :
    ∀ span ∈ mergeSpans spans, Stamped span := by
  cases spans with
  | nil => nofun
  | cons first spans => exact mergeLoop_stamped nofun stamped

/-- The span of the texts that name the instants. -/
private def ofSpan (span : Span String Int) : SegmentCoverage :=
  ⟨span.key, rfc3339 (span.start / second), rfc3339 (span.stop / second), span.flag⟩

private theorem rfc3339_instant {text : String} (stamp : Stamp text) : rfc3339 (instant text / second) = text := by
  obtain ⟨seconds, year, rfl⟩ := stamp
  have positive : second ≠ 0 := by decide
  rw [instant_rfc3339 year, Int.mul_ediv_cancel _ positive]

private theorem ofSpan_toSpan {spans : List SegmentCoverage} (stamped : ∀ span ∈ spans, Stamped span) :
    (spans.map toSpan).map ofSpan = spans := by
  rw [List.map_map]
  refine List.map_congr_left (fun span held => ?_) |>.trans (List.map_id spans)
  obtain ⟨start, stop⟩ := stamped span held
  simp only [Function.comp_apply, ofSpan, toSpan, rfc3339_instant start, rfc3339_instant stop, id]

theorem mergeSpans_of_apart {spans : List SegmentCoverage} (stamped : ∀ span ∈ spans, Stamped span)
    (apart : (spans.map toSpan).Pairwise (Apart minute)) : mergeSpans spans = spans := by
  calc mergeSpans spans = ((mergeSpans spans).map toSpan).map ofSpan := (ofSpan_toSpan (mergeSpans_stamped stamped)).symm
    _ = (merge minute (spans.map toSpan)).map ofSpan := by rw [mergeSpans_toSpan stamped]
    _ = (spans.map toSpan).map ofSpan := by rw [merge_of_apart apart]
    _ = spans := ofSpan_toSpan stamped

/-! ## Results -/

theorem Returned.ordered {spans : List SegmentCoverage} (returned : Returned spans) : Ordered (spans.map toSpan) where
  grouped := by
    rw [List.map_map]
    exact returned.grouped
  starts := List.pairwise_map.mpr returned.starts
  valid := List.forall_mem_map.mpr returned.valid

private theorem within_iff {inner outer : SegmentCoverage} :
    Within (toSpan inner) (toSpan outer) ↔ Contains outer inner :=
  ⟨fun ⟨key, start, stop⟩ => ⟨key, start, stop⟩, fun ⟨key, start, stop⟩ => ⟨key, start, stop⟩⟩

/-- The merged spans of a window are the recordings and the gaps of less than a minute, each
recording lies in one of them, and merging them again changes nothing. -/
theorem mergeSpans_faithful {spans : List SegmentCoverage} (returned : Returned spans) :
    Faithful spans (mergeSpans spans) ∧ mergeSpans (mergeSpans spans) = mergeSpans spans := by
  have merged : Merged minute (spans.map toSpan) ((mergeSpans spans).map toSpan) := by
    rw [mergeSpans_toSpan returned.stamped]
    exact merge_merged returned.ordered
  have contains : ∀ span ∈ spans, ∃ outer ∈ mergeSpans spans, Contains outer span ∧
      (span.hasAudio = true → outer.hasAudio = true) := by
    intro span held
    obtain ⟨found, listed, inside, audio⟩ := merged.contains (toSpan span) (List.mem_map_of_mem held)
    obtain ⟨outer, out, rfl⟩ := List.mem_map.mp listed
    exact ⟨outer, out, within_iff.mp inside, audio⟩
  have unique {span first second : SegmentCoverage} (held : span ∈ spans) (out : first ∈ mergeSpans spans)
      (out' : second ∈ mergeSpans spans) (inside : Contains first span) (inside' : Contains second span) : first = second :=
    merged.unique (by decide) (returned.valid span held) out out' (within_iff.mpr inside) (within_iff.mpr inside')
  refine ⟨⟨fun camera => ?_, fun outer out => merged.valid (toSpan outer) (List.mem_map_of_mem out), fun span held => ?_,
    fun outer out time start stop => ?_, fun outer out => ⟨fun audio => ?_, ?_⟩⟩,
    mergeSpans_of_apart (mergeSpans_stamped returned.stamped) merged.apart⟩
  · refine List.pairwise_filter.mpr ((List.pairwise_map.mp merged.apart).imp fun apart first second => ?_)
    exact apart ((of_decide_eq_true first).trans (of_decide_eq_true second).symm)
  · obtain ⟨outer, out, inside, _⟩ := contains span held
    exact ⟨outer, ⟨out, inside⟩, fun other found => unique held found.1 out found.2 inside⟩
  · refine (merged.covered (toSpan outer) (List.mem_map_of_mem out) time start stop).imp ?_ ?_
    · rintro ⟨found, listed, here⟩
      obtain ⟨span, held, rfl⟩ := List.mem_map.mp listed
      exact ⟨span, held, here⟩
    · rintro ⟨left, listed, right, listed', here⟩
      obtain ⟨before, held, rfl⟩ := List.mem_map.mp listed
      obtain ⟨after, held', rfl⟩ := List.mem_map.mp listed'
      exact ⟨before, held, after, held', here⟩
  · obtain ⟨found, listed, inside, flagged⟩ := merged.flagged (toSpan outer) (List.mem_map_of_mem out) audio
    obtain ⟨span, held, rfl⟩ := List.mem_map.mp listed
    exact ⟨span, held, within_iff.mp inside, flagged⟩
  · rintro ⟨span, held, inside, flagged⟩
    obtain ⟨other, out', inside', audio⟩ := contains span held
    rw [unique held out out' inside inside']
    exact audio flagged

/-! ## The query returns such spans -/

private theorem grouped_of_sorted : ∀ {keys : List UUID},
    keys.Pairwise (fun a b => a.bits.toNat < b.bits.toNat ∨ a = b) → Grouped (keys.map UUID.text)
  | [], _ => trivial
  | first :: rest, sorted => by
    obtain ⟨before, later⟩ := List.pairwise_cons.mp sorted
    refine ⟨fun again => ?_, grouped_of_sorted later⟩
    obtain ⟨key, listed, same⟩ := List.mem_map.mp again
    obtain rfl := UUID.text_injective same
    cases listed with
    | head => rfl
    | @tail next rest listed =>
      rcases before next List.mem_cons_self with less | rfl
      · rcases (List.pairwise_cons.mp later).1 key listed with greater | rfl
        · omega
        · omega
      · rfl

/-- What the query returns for rows with ends after their starts. -/
theorem returned_of_answers {rows found : List Segment} {cameraIDs : List UUID} {start stop : Int}
    (answers : Answers rows cameraIDs start stop found) (valid : ∀ row ∈ rows, row.startTime ≤ row.endTime)
    (years : ∀ row ∈ rows, FourDigitYear (row.startTime / second) ∧ FourDigitYear (row.endTime / second)) :
    Returned (found.map Segment.coverage) := by
  have listed : ∀ row ∈ found, row ∈ rows := fun row held => (List.mem_filter.mp (answers.perm.mem_iff.mp held)).1
  have starts : ∀ row ∈ found, instant row.coverage.startTime = row.startTime / second * second := fun row held =>
    instant_rfc3339 (years row (listed row held)).1
  have stops : ∀ row ∈ found, instant row.coverage.endTime = row.endTime / second * second := fun row held =>
    instant_rfc3339 (years row (listed row held)).2
  have rounded {a b : Int} (le : a ≤ b) : a / second * second ≤ b / second * second := by
    unfold second
    omega
  refine ⟨List.forall_mem_map.mpr fun row held => ?_, ?_, List.pairwise_map.mpr ?_, List.forall_mem_map.mpr fun row held => ?_⟩
  · obtain ⟨year, year'⟩ := years row (listed row held)
    exact ⟨⟨_, year, rfl⟩, ⟨_, year', rfl⟩⟩
  · rw [List.map_map]
    have keys : (found.map Segment.cameraID).Pairwise fun a b => a.bits.toNat < b.bits.toNat ∨ a = b :=
      List.pairwise_map.mpr (answers.sorted.imp fun order => order.imp_right And.left)
    have texts := grouped_of_sorted keys
    rw [List.map_map] at texts
    exact texts
  · refine answers.sorted.imp_of_mem fun held held' order same => ?_
    rw [starts _ held, starts _ held']
    rcases order with less | ⟨_, le⟩
    · rw [UUID.text_injective same] at less
      exact absurd less (Nat.lt_irrefl _)
    · exact rounded le
  · rw [starts row held, stops row held]
    exact rounded (valid row (listed row held))

/-- Three segments of two cameras; the second starts 59 seconds after the end of the first. -/
private def rows : List Segment :=
  [⟨⟨1⟩, 1749988800 * second, 1749989400 * second, some false⟩, ⟨⟨1⟩, 1749989459 * second, 1749989459 * second, some true⟩,
    ⟨⟨2⟩, 1749988800 * second, 1749989100 * second, none⟩]

private def recorded : List SegmentCoverage := rows.map Segment.coverage

private theorem returned_recorded : Returned recorded := by
  have answers : Answers rows [⟨1⟩, ⟨2⟩] (1749988800 * second) (1749992400 * second) rows :=
    ⟨.of_eq (List.filter_eq_self.mpr (by decide +kernel)).symm, by decide +kernel⟩
  exact returned_of_answers answers (by decide +kernel) (by decide +kernel)

/-- The two recordings of the first camera are one span. -/
theorem recorded_faithful : Faithful recorded (mergeSpans recorded) ∧ mergeSpans (mergeSpans recorded) = mergeSpans recorded :=
  mergeSpans_faithful returned_recorded

end Ironsight.Coverage
