import Ironsight.ClipFinder
import Mathlib.Data.List.Nodup

/-! Where the finders agree. Two choose by the spans of the segments and one by the distance from
them; of a listing that is ordered the same way by start and by last write they choose the
segment that was the last to start. -/
namespace Ironsight.FinderAgreement
open Durations ClipFinder

/-! ## Ends -/

/-- The end that the walk gives to a segment, by its index. -/
def endOf (starts : Nat → Int) (now : Int) : List Nat → Nat → Int
  | [], _ => zeroTime
  | [_], _ => now + minute
  | idx :: next :: byStart, i => if i = idx then starts next else endOf starts now (next :: byStart) i

theorem fillFrom_exact (starts : Nat → Int) (now : Int) {byStart : List Nat} (once : byStart.Nodup) (segments : List SegInfo)
    (i : Nat) : (fillFrom starts now byStart segments)[i]? =
      segments[i]?.map fun s => if i ∈ byStart then { s with endTime := endOf starts now byStart i } else s := by
  induction byStart, segments using fillFrom.induct starts with
  | case1 segments => simp [fillFrom]
  | case2 last segments =>
    rw [fillFrom, List.getElem?_modify]
    by_cases here : last = i
    · simp [here, endOf]
    · have other : i ≠ last := fun same => here same.symm
      simp [here, other]
  | case3 idx next byStart segments ih =>
    obtain ⟨fresh, once'⟩ := List.nodup_cons.mp once
    rw [fillFrom, ih once', List.getElem?_modify, Option.map_eq_map, Option.map_map]
    congr 1
    funext s
    by_cases here : idx = i
    · cases here
      simp [fresh, endOf]
    · have other : i ≠ idx := fun same => here same.symm
      simp [here, other, endOf]

/-- A segment ends where another one starts that is not before it, or in a minute from now. -/
theorem endOf_cases (starts : Nat → Int) (now : Int) {byStart : List Nat} (once : byStart.Nodup)
    (ordered : byStart.Pairwise fun i j => starts i ≤ starts j) {i : Nat} (held : i ∈ byStart) :
    endOf starts now byStart i = now + minute ∨
      ∃ j ∈ byStart, j ≠ i ∧ starts i ≤ starts j ∧ endOf starts now byStart i = starts j := by
  induction byStart with
  | nil => cases held
  | cons idx byStart ih =>
    obtain ⟨fresh, once'⟩ := List.nodup_cons.mp once
    obtain ⟨before, ordered'⟩ := List.pairwise_cons.mp ordered
    cases byStart with
    | nil => exact .inl rfl
    | cons next byStart =>
      rw [endOf]
      by_cases here : i = idx
      · cases here
        rw [if_pos rfl]
        have inside : next ∈ next :: byStart := List.mem_cons_self
        exact .inr ⟨next, List.mem_cons_of_mem _ inside, fun same => fresh (same ▸ inside), before next inside, rfl⟩
      · rw [if_neg here]
        rcases ih once' ordered' ((List.mem_cons.mp held).resolve_left here) with last | ⟨j, inside, follows⟩
        · exact .inl last
        · exact .inr ⟨j, List.mem_cons_of_mem _ inside, follows⟩

/-- A segment but for its end. -/
def endless (s : SegInfo) : SegInfo := { s with endTime := zeroTime }

theorem start_of_endless {s other : SegInfo} (same : endless s = endless other) : s.startTime = other.startTime := by
  have starts := congrArg SegInfo.startTime same
  exact starts

theorem write_of_endless {s other : SegInfo} (same : endless s = endless other) : s.modTime = other.modTime := by
  have writes := congrArg SegInfo.modTime same
  exact writes

/-- What is listed of the segments read: all but the ends is as it was. -/
structure Filled (segments : List SegInfo) (now : Int) (listed : List SegInfo) : Prop where
  all : (listed.map endless).Perm (segments.map endless)
  ends : (segments.map SegInfo.startTime).Nodup → ∀ s ∈ listed, s.endTime = now + minute ∨
    ∃ other ∈ segments, s.startTime < other.startTime ∧ s.endTime = other.startTime

theorem startOf_eq {segments : List SegInfo} {i : Nat} {s : SegInfo} (at_i : segments[i]? = some s) :
    startOf segments i = s.startTime := by
  rw [startOf, at_i]
  rfl

theorem fillEndTimes_filled (sorts : SortSlice) (now : Int) (segments : List SegInfo) :
    Filled segments now (fillEndTimes sorts now segments) := by
  have weak := strictWeak_by (startOf segments)
  have perm := sorts.perm (fun i j => decide (startOf segments i < startOf segments j)) (List.range segments.length)
  have once : (sorts.slice (fun i j => decide (startOf segments i < startOf segments j)) (List.range segments.length)).Nodup :=
    perm.symm.nodup List.nodup_range
  have exactly := fillFrom_exact (startOf segments) now once segments
  constructor
  · refine List.Perm.of_eq (List.ext_getElem? fun i => ?_)
    rw [List.getElem?_map, List.getElem?_map, fillEndTimes, exactly, Option.map_map]
    congr 1
    funext s
    dsimp only [Function.comp_apply, endless]
    split <;> rfl
  · intro distinct s held
    obtain ⟨i, at_i⟩ := List.mem_iff_getElem?.mp held
    rw [fillEndTimes, exactly] at at_i
    obtain ⟨raw, at_raw, rfl⟩ := Option.map_eq_some_iff.mp at_i
    have inside : i ∈ sorts.slice (fun i j => decide (startOf segments i < startOf segments j)) (List.range segments.length) :=
      perm.mem_iff.mpr (List.mem_range.mpr (List.getElem?_eq_some_iff.mp at_raw).1)
    rw [if_pos inside]
    have ordered := (sorts.sorted weak (List.range segments.length)).imp fun {a b} (notAfter : decide _ = false) =>
      show startOf segments a ≤ startOf segments b from Int.not_lt.mp (of_decide_eq_false notAfter)
    rcases endOf_cases (startOf segments) now once ordered inside with last | ⟨j, inside', other, before, same⟩
    · exact .inl last
    · obtain ⟨next, at_j⟩ : ∃ next, segments[j]? = some next :=
        ⟨_, List.getElem?_eq_getElem (List.mem_range.mp (perm.mem_iff.mp inside'))⟩
      rw [startOf_eq at_raw, startOf_eq at_j] at before
      rw [startOf_eq at_j] at same
      refine .inr ⟨next, List.mem_of_getElem? at_j, lt_of_le_of_ne before fun equal => other ?_, same⟩
      have starts : (segments.map SegInfo.startTime)[j]? = (segments.map SegInfo.startTime)[i]? := by
        rw [List.getElem?_map, List.getElem?_map, at_j, at_raw]
        exact congrArg some equal.symm
      have inside : j < (segments.map SegInfo.startTime).length := by
        rw [List.length_map]
        exact (List.getElem?_eq_some_iff.mp at_j).1
      exact (List.getElem?_inj inside distinct).mp starts

/-- The order in which a listing is put does not matter. -/
theorem Filled.perm {segments listed other : List SegInfo} {now : Int} (filled : Filled segments now listed)
    (same : other.Perm listed) : Filled segments now other where
  all := (same.map endless).trans filled.all
  ends distinct s held := filled.ends distinct s (same.mem_iff.mp held)

section Filled
variable {segments listed : List SegInfo} {now : Int} (filled : Filled segments now listed)
include filled

theorem Filled.back {s : SegInfo} (held : s ∈ listed) : ∃ raw ∈ segments, endless raw = endless s :=
  List.mem_map.mp (filled.all.mem_iff.mp (List.mem_map_of_mem held))

theorem Filled.forth {raw : SegInfo} (held : raw ∈ segments) : ∃ s ∈ listed, endless s = endless raw :=
  List.mem_map.mp (filled.all.mem_iff.mpr (List.mem_map_of_mem held))

theorem Filled.distinct (distinct : (segments.map SegInfo.startTime).Nodup) : (listed.map SegInfo.startTime).Nodup := by
  have starts := (filled.all.map SegInfo.startTime).nodup_iff
  rw [List.map_map, List.map_map] at starts
  exact starts.mpr distinct

end Filled

/-! ## The last to start -/

/-- A segment with the greatest start that is not after the event. -/
structure Latest (segments : List SegInfo) (eventTime : Int) (s : SegInfo) : Prop where
  held : s ∈ segments
  started : s.startTime ≤ eventTime
  greatest : ∀ other ∈ segments, other.startTime ≤ eventTime → other.startTime ≤ s.startTime

theorem exists_latest {segments : List SegInfo} {eventTime : Int} (started : ∃ s ∈ segments, s.startTime ≤ eventTime) :
    ∃ s, Latest segments eventTime s := by
  induction segments with
  | nil => simp at started
  | cons first rest ih =>
    by_cases later : ∃ s ∈ rest, s.startTime ≤ eventTime
    · obtain ⟨s, latest⟩ := ih later
      by_cases better : first.startTime ≤ eventTime ∧ s.startTime < first.startTime
      · refine ⟨first, List.mem_cons_self, better.1, List.forall_mem_cons.mpr ⟨fun _ => Int.le_refl _, fun other inside begun => ?_⟩⟩
        have bound := latest.greatest other inside begun
        omega
      · exact ⟨s, List.mem_cons_of_mem _ latest.held, latest.started,
          List.forall_mem_cons.mpr ⟨fun begun => by omega, latest.greatest⟩⟩
    · obtain ⟨s, inside, begun⟩ := started
      rcases List.mem_cons.mp inside with rfl | inRest
      · refine ⟨s, List.mem_cons_self, begun, List.forall_mem_cons.mpr ⟨fun _ => Int.le_refl _, fun other inside' begun' => ?_⟩⟩
        exact absurd ⟨other, inside', begun'⟩ later
      · exact absurd ⟨s, inRest, begun⟩ later

theorem latest_listed {segments listed : List SegInfo} {now eventTime : Int} (filled : Filled segments now listed) {raw : SegInfo} (latest : Latest segments eventTime raw) :
    ∃ s, Latest listed eventTime s ∧ endless s = endless raw := by
  obtain ⟨s, held, same⟩ := filled.forth latest.held
  have start : s.startTime = raw.startTime := start_of_endless same
  refine ⟨s, ⟨held, by rw [start]; exact latest.started, fun other inside begun => ?_⟩, same⟩
  obtain ⟨raw', held', same'⟩ := filled.back inside
  have start' : raw'.startTime = other.startTime := start_of_endless same'
  rw [start, ← start']
  exact latest.greatest raw' held' (by rw [start']; exact begun)

/-- A listing in which no two segments start at one time, and those that start later are
written later. -/
structure Ordered (segments : List SegInfo) : Prop where
  distinct : (segments.map SegInfo.startTime).Nodup
  writes : ∀ a ∈ segments, ∀ b ∈ segments, a.startTime < b.startTime → a.modTime < b.modTime

/-- Two members of a list stand in it one before the other. -/
theorem pair_sublist_or {items : List SegInfo} {a b : SegInfo} (one : a ∈ items) (two : b ∈ items) (other : a ≠ b) :
    List.Sublist [a, b] items ∨ List.Sublist [b, a] items := by
  induction items with
  | nil => cases one
  | cons first rest ih =>
    by_cases front : a = first
    · cases front
      exact .inl (List.Sublist.cons_cons _ (List.singleton_sublist.mpr ((List.mem_cons.mp two).resolve_left other.symm)))
    · have one' := (List.mem_cons.mp one).resolve_left front
      by_cases front' : b = first
      · cases front'
        exact .inr (List.Sublist.cons_cons _ (List.singleton_sublist.mpr one'))
      · exact (ih one' ((List.mem_cons.mp two).resolve_left front')).imp (List.Sublist.cons _) (List.Sublist.cons _)

theorem distOf_nonneg (eventTime : Int) (s : SegInfo) : 0 ≤ distOf eventTime s := by
  dsimp only [distOf, saturated]
  split_ifs <;> omega

theorem distOf_nonpos {eventTime : Int} {other : SegInfo} (near : distOf eventTime other ≤ 0) :
    other.startTime ≤ eventTime := by
  by_contra early
  rw [distOf, if_pos (by omega)] at near
  dsimp only [saturated] at near
  omega

section Chosen
variable {segments listed : List SegInfo} {now eventTime : Int} {s : SegInfo} (filled : Filled segments now listed)
  (ordered : Ordered segments)
include filled ordered

theorem start_inj {a b : SegInfo} (one : a ∈ listed) (two : b ∈ listed) (same : a.startTime = b.startTime) : a = b :=
  List.inj_on_of_nodup_map (filled.distinct ordered.distinct) one two same

/-- The last segment to start contains the event. -/
theorem latest_contains (latest : Latest listed eventTime s) (soon : eventTime ≤ now + minute) (clock : now + minute ≠ zeroTime)
    (known : ∀ raw ∈ segments, raw.startTime ≠ zeroTime) : Contains s eventTime := by
  rcases filled.ends ordered.distinct s latest.held with last | ⟨next, inside, later, ends⟩
  · refine ⟨last ▸ clock, latest.started, ?_⟩
    rw [last]
    dsimp only [second]
    omega
  · refine ⟨ends ▸ known next inside, latest.started, ?_⟩
    obtain ⟨s', held', same'⟩ := filled.forth inside
    have start : s'.startTime = next.startTime := start_of_endless same'
    have after : eventTime < next.startTime := by
      by_contra begun
      have := latest.greatest s' held' (by omega)
      omega
    rw [ends]
    dsimp only [second]
    omega

theorem bestSegment_latest (latest : Latest listed eventTime s) (contains : Contains s eventTime) :
    bestSegment listed eventTime = some s := by
  have picked : pickContainingSegment listed eventTime = some s := by
    cases found : pickContainingSegment listed eventTime with
    | none => exact absurd contains (pick_none_iff.mp found s latest.held)
    | some best =>
      obtain ⟨inside, holds, greatest⟩ := pick_some found
      have above := greatest s latest.held contains
      have below := latest.greatest best inside holds.2.1
      rw [start_inj filled ordered inside latest.held (by omega)]
  cases listed with
  | nil => cases latest.held
  | cons first rest => simp only [bestSegment, picked]

theorem distOf_latest (latest : Latest listed eventTime s) (soon : eventTime ≤ now + minute) :
    distOf eventTime s = 0 := by
  have begun := latest.started
  rw [distOf, if_neg (by omega), if_neg]
  rintro ⟨-, passed⟩
  rcases filled.ends ordered.distinct s latest.held with last | ⟨next, inside, later, ends⟩
  · omega
  · obtain ⟨s', held', same'⟩ := filled.forth inside
    have start : s'.startTime = next.startTime := start_of_endless same'
    have := latest.greatest s' held' (by omega)
    omega

/-- It is the first of the candidates: whatever is as near was written before it, and so stands
behind it in the listing, and the sort is stable. -/
theorem candidates_latest (latest : Latest listed eventTime s) (soon : eventTime ≤ now + minute)
    (newest : listed.Pairwise fun a b => b.modTime ≤ a.modTime) :
    (sliceStable (fun a b => decide (distOf eventTime a < distOf eventTime b)) listed).head? = some s := by
  have weak := strictWeak_by (distOf eventTime)
  have sorted := sliceStable_sorted weak listed
  have perm := List.mergeSort_perm listed fun a b => !decide (distOf eventTime b < distOf eventTime a)
  have zero := distOf_latest filled ordered latest soon
  have once : (sliceStable (fun a b => decide (distOf eventTime a < distOf eventTime b)) listed).Nodup :=
    perm.symm.nodup (List.Nodup.of_map SegInfo.startTime (filled.distinct ordered.distinct))
  cases order : sliceStable (fun a b => decide (distOf eventTime a < distOf eventTime b)) listed with
  | nil => exact absurd (perm.mem_iff.mpr latest.held) (by rw [← sliceStable, order]; exact List.not_mem_nil)
  | cons first rest =>
    have inside : first ∈ listed := perm.mem_iff.mp (by rw [← sliceStable, order]; exact List.mem_cons_self)
    by_contra other
    have differs : s ≠ first := fun same => other (congrArg some same.symm)
    rw [order] at sorted once
    have behind : s ∈ rest := by
      have held := perm.mem_iff.mpr latest.held
      rw [← sliceStable, order] at held
      exact (List.mem_cons.mp held).resolve_left differs
    have near := of_decide_eq_false ((List.pairwise_cons.mp sorted).1 s behind)
    have below := latest.greatest first inside (distOf_nonpos (by omega))
    have earlier : first.startTime < s.startTime :=
      lt_of_le_of_ne below fun same => differs (start_inj filled ordered latest.held inside same.symm)
    have written : first.modTime < s.modTime := by
      obtain ⟨raw, held, same⟩ := filled.back inside
      obtain ⟨raw', held', same'⟩ := filled.back latest.held
      have later := ordered.writes raw held raw' held'
      rwa [start_of_endless same, start_of_endless same', write_of_endless same, write_of_endless same',
        imp_iff_right earlier] at later
    have before : List.Sublist [s, first] listed := by
      rcases pair_sublist_or latest.held inside differs with before | after
      · exact before
      · have := List.rel_of_pairwise_cons (newest.sublist after) List.mem_cons_self
        omega
    have nonneg := distOf_nonneg eventTime first
    have kept := sliceStable_keeps weak before (decide_eq_false (by omega))
    rw [order] at kept
    have again : first ∈ rest := by
      cases kept with
      | cons _ kept => exact kept.subset (by simp)
      | cons_cons => exact absurd rfl differs
    exact (List.nodup_cons.mp once).1 again

end Chosen

/-! ## The finders -/

theorem newest_weak : StrictWeak fun a b : SegInfo => decide (b.modTime < a.modTime) := by
  have reversed := strictWeak_by fun s : SegInfo => -s.modTime
  simpa only [Int.neg_lt_neg_iff] using reversed

theorem listSegments_filled (sorts : SortSlice) {files : Files} {storagePath cameraID dir : String} {segments : List SegInfo}
    (read : readSegments files storagePath cameraID = some (dir, segments)) (now : Int) :
    Filled segments now (listSegments sorts files storagePath cameraID now).1 ∧
      (listSegments sorts files storagePath cameraID now).1.Pairwise fun a b => b.modTime ≤ a.modTime := by
  have listed : (listSegments sorts files storagePath cameraID now).1 =
      sorts.slice (fun a b => decide (b.modTime < a.modTime)) (fillEndTimes sorts now segments) := by
    rw [listSegments, read]
  rw [listed]
  refine ⟨(fillEndTimes_filled sorts now segments).perm (sorts.perm _ _), (sorts.sorted newest_weak _).imp fun {a b} notAfter => ?_⟩
  exact Int.not_lt.mp (of_decide_eq_false notAfter)

/-- Where no segment starts at the zero time, and no minute from now ends there, all three
finders choose the last segment to start. -/
theorem finders_agree (sorts : SortSlice) (files : Files) (storagePath cameraID dir : String) (segments : List SegInfo)
    (read : readSegments files storagePath cameraID = some (dir, segments)) (ordered : Ordered segments)
    (known : ∀ s ∈ segments, s.startTime ≠ zeroTime) (eventTime : Int) (started : ∃ s ∈ segments, s.startTime ≤ eventTime)
    (limit : Int) (now nowFull nowCandidates : Int)
    (soon : eventTime ≤ now + minute ∧ eventTime ≤ nowFull + minute ∧ eventTime ≤ nowCandidates + minute)
    (clock : now + minute ≠ zeroTime ∧ nowFull + minute ≠ zeroTime) :
    ∃ s, Latest segments eventTime s ∧
      (findEventClip sorts files storagePath cameraID eventTime now).map ClipURL.url =
        some (relURL files storagePath cameraID s.absPath) ∧
      findEventClipFull sorts files storagePath cameraID eventTime nowFull =
        some (s.absPath, relURL files storagePath cameraID s.absPath, s.startTime) ∧
      (findEventClipCandidates sorts files storagePath cameraID eventTime limit nowCandidates).head? =
        some ⟨s.absPath, s.startTime, max 0 (saturated (eventTime - s.startTime))⟩ := by
  obtain ⟨raw, latest⟩ := exists_latest started
  have chosen : ∀ now, eventTime ≤ now + minute → now + minute ≠ zeroTime →
      ∃ s, endless s = endless raw ∧ bestSegment (listSegments sorts files storagePath cameraID now).1 eventTime = some s := by
    intro now soon clock
    obtain ⟨filled, -⟩ := listSegments_filled sorts read now
    obtain ⟨s, latest', same⟩ := latest_listed filled latest
    exact ⟨s, same, bestSegment_latest filled ordered latest' (latest_contains filled ordered latest' soon clock known)⟩
  have path : ∀ {s : SegInfo}, endless s = endless raw → s.absPath = raw.absPath := fun same => by
    have paths := congrArg SegInfo.absPath same
    exact paths
  refine ⟨raw, latest, ?_, ?_, ?_⟩
  · obtain ⟨s, same, best⟩ := chosen now soon.1 clock.1
    rw [findEventClip, best, ← path same]
    rfl
  · obtain ⟨s, same, best⟩ := chosen nowFull soon.2.1 clock.2
    rw [findEventClipFull, best, ← path same, ← start_of_endless same]
    rfl
  · obtain ⟨filled, newest⟩ := listSegments_filled sorts read nowCandidates
    obtain ⟨s, latest', same⟩ := latest_listed filled latest
    have first := candidates_latest filled ordered latest' soon.2.2 newest
    rw [findEventClipCandidates, ← path same, ← start_of_endless same]
    obtain ⟨rest, front⟩ := List.head?_eq_some_iff.mp first
    rw [front]
    have taken : ∀ limit : Nat, 0 < limit → (((s :: rest).take limit).map fun s =>
        (⟨s.absPath, s.startTime, max 0 (saturated (eventTime - s.startTime))⟩ : SegmentCandidate)).head? =
          some ⟨s.absPath, s.startTime, max 0 (saturated (eventTime - s.startTime))⟩ := fun limit given => by
      obtain ⟨limit, rfl⟩ := Nat.exists_eq_add_of_lt given
      rw [Nat.zero_add]
      rfl
    refine taken _ ?_
    split
    · exact Nat.succ_pos _
    · omega

/-- Two minutes of 19 February 2026. -/
private def february : Files where
  readDir directory :=
    if directory = "/data/recordings/c1" then
      some [⟨"seg_20260219_140530.mp4", false, some ⟨1771509990000000000, 4096⟩⟩,
        ⟨"seg_20260219_140630.mp4", false, some ⟨1771510050000000000, 4096⟩⟩]
    else none
  stat _ := true

private def segment (name : String) (startTime modTime : Int) : SegInfo :=
  ⟨name, "/data/recordings/c1/" ++ name, modTime, 4096, startTime, zeroTime⟩

private def minutes : List SegInfo :=
  [segment "seg_20260219_140530.mp4" 1771509930000000000 1771509990000000000,
    segment "seg_20260219_140630.mp4" 1771509990000000000 1771510050000000000]

/-- The event falls on the boundary of two recorded minutes. -/
theorem minutes_agree : ∃ s, Latest minutes 1771509990000000000 s ∧
    (findEventClip stableSort february "/data" "c1" 1771509990000000000 1771510060000000000).map ClipURL.url =
      some (relURL february "/data" "c1" s.absPath) ∧
    findEventClipFull stableSort february "/data" "c1" 1771509990000000000 1771510060000000000 =
      some (s.absPath, relURL february "/data" "c1" s.absPath, s.startTime) ∧
    (findEventClipCandidates stableSort february "/data" "c1" 1771509990000000000 4 1771510060000000000).head? =
      some ⟨s.absPath, s.startTime, max 0 (saturated (1771509990000000000 - s.startTime))⟩ :=
  finders_agree stableSort february "/data" "c1" "/data/recordings/c1" minutes (by decide +kernel) ⟨by decide, by decide⟩ (by decide)
    1771509990000000000 ⟨_, List.mem_cons_self, by decide⟩ 4 1771510060000000000 1771510060000000000 1771510060000000000
    (by decide) (by decide)

/-- A segment of the year 0, and a file without a timestamp, written a minute after the zero time. -/
private def antiquity : Files where
  readDir directory :=
    if directory = "/data/recordings/c1" then
      some [⟨"seg_00000601_000000.mp4", false, some ⟨zeroTime - 214 * 86400 * second + minute, 4096⟩⟩,
        ⟨"clip.mp4", false, some ⟨zeroTime + minute, 4096⟩⟩]
    else none
  stat _ := true

private def antique : SegInfo :=
  segment "seg_00000601_000000.mp4" (zeroTime - 214 * 86400 * second) (zeroTime - 214 * 86400 * second + minute)

private def clip : SegInfo := segment "clip.mp4" zeroTime (zeroTime + minute)

private def ancients : List SegInfo := [antique, clip]

/-- Two minutes before the zero time the older segment runs, but its end is taken for unset. -/
theorem ancients_disagree : readSegments antiquity "/data" "c1" = some ("/data/recordings/c1", ancients) ∧ Ordered ancients ∧
    Latest ancients (zeroTime - 2 * minute) antique ∧
    findEventClip stableSort antiquity "/data" "c1" (zeroTime - 2 * minute) 0 = some ⟨"recordings/c1/clip.mp4", none⟩ ∧
    (findEventClipCandidates stableSort antiquity "/data" "c1" (zeroTime - 2 * minute) 4 0).head?.map SegmentCandidate.absPath =
      some "/data/recordings/c1/seg_00000601_000000.mp4" := by
  have read : readSegments antiquity "/data" "c1" = some ("/data/recordings/c1", ancients) := by decide +kernel
  have starts : stableSort.slice (fun i j => decide (startOf ancients i < startOf ancients j)) (List.range ancients.length) = [0, 1] :=
    stableSort.slice_eq (strictWeak_by (startOf ancients)) (List.Perm.refl _) (by decide)
  have filled : fillEndTimes stableSort 0 ancients = [antique, { clip with endTime := minute }] := by
    rw [fillEndTimes, starts]
    decide
  have listed : listSegments stableSort antiquity "/data" "c1" 0 = ([{ clip with endTime := minute }, antique], "/data/recordings/c1") := by
    simp only [listSegments, read, filled]
    rw [stableSort.slice_eq newest_weak (List.Perm.swap _ _ _) (by decide)]
  have sorted : sliceStable (fun a b => decide (distOf (zeroTime - 2 * minute) a < distOf (zeroTime - 2 * minute) b))
      [{ clip with endTime := minute }, antique] = [antique, { clip with endTime := minute }] :=
    stableSort.slice_eq (strictWeak_by (distOf (zeroTime - 2 * minute))) (List.Perm.swap _ _ _) (by decide)
  refine ⟨read, ⟨by decide, by decide⟩, ⟨by decide, by decide, by decide⟩, ?_, ?_⟩
  · rw [findEventClip, listed]
    decide +kernel
  · rw [findEventClipCandidates, listed, sorted]
    decide +kernel

end Ironsight.FinderAgreement
