import Mathlib.Data.List.Count
import Mathlib.Logic.Relation
import Ironsight.Reanalysis
import Ironsight.Runs

/-! How many current versions a detection has. A run selects by `supersedes IS
NULL`, which holds of an original for ever; so an original that an earlier run
superseded is selected again, and gets a second current version whenever the
rules of the later run change or drop it. -/
namespace Ironsight.ReanalysisProofs
open Tables Uuid Access Paging Runs Reanalysis

/-! ## The loop -/

/-- The run is not dry, its rules ask for a superseding row, and
`InsertDetection` accepts it. -/
def replaces (run : Run) (row : Detection) : Bool :=
  !run.dryRun && (run.replacement row).any DetectionInsert.accepted

/-- The rows that a run visits. -/
def matching (run : Run) (detections : List Detection) : List Detection :=
  detections.filter (run.filter none).accepts

section Loop
variable {env : Env} {run : Run} {progress : Progress} {row : Detection}

theorem replacement_supersedes {ins : DetectionInsert} (replaced : run.replacement row = some ins) :
    ins.supersedes = some row.id := by
  unfold Run.replacement at replaced
  split at replaced
  · cases replaced
  · cases replaced
    rfl
  · cases replaced
    rfl

/-- What the body of the loop can do: nothing to the table, or one new row. -/
private inductive RowEffect (env : Env) (run : Run) (progress : Progress) (row : Detection) (after : Progress) : Prop where
  | kept (same : after.detections = progress.detections)
      (attempts : after.inserts = progress.inserts ∨ after.inserts = progress.inserts + 1)
      (why : replaces run row = true → (env.inserted[progress.inserts]?).join = none)
  | added (new : Detection) (grown : after.detections = progress.detections ++ [new])
      (attempts : after.inserts = progress.inserts + 1) (replaced : replaces run row = true)
      (superseding : new.supersedes = some row.id) (drawn : (env.inserted[progress.inserts]?).join = some new.id)

private theorem processRow_effect : RowEffect env run progress row (processRow env run progress row) := by
  cases replaced : run.replacement row with
  | none =>
    have idle : processRow env run progress row = progress := by simp [processRow, replaced]
    rw [idle]
    exact .kept rfl (.inl rfl) (by simp [replaces, replaced])
  | some ins =>
    cases dry : run.dryRun with
    | true =>
      exact .kept (by simp [processRow, replaced, dry]) (.inl (by simp [processRow, replaced, dry])) (by simp [replaces, dry])
    | false =>
      cases accepted : ins.accepted with
      | false =>
        refine .kept ?_ (.inr ?_) (by simp [replaces, replaced, accepted]) <;>
          simp [processRow, replaced, dry, insertDetection, accepted]
      | true =>
        cases drawn : (env.inserted[progress.inserts]?).join with
        | none =>
          refine .kept ?_ (.inr ?_) fun _ => drawn <;>
            simp [processRow, replaced, dry, insertDetection, accepted, drawn]
        | some id =>
          refine .added { ins with id } ?_ ?_ (by simp [replaces, replaced, accepted, dry])
            (replacement_supersedes replaced) drawn <;>
            simp [processRow, replaced, dry, insertDetection, accepted, drawn]

/-- New rows are not originals, so no run visits them. -/
private theorem matching_processRow : matching run (processRow env run progress row).detections =
    matching run progress.detections := by
  cases (processRow_effect : RowEffect env run progress row _) with
  | kept same => rw [same]
  | added new grown _ _ superseding =>
    rw [grown, matching, List.filter_append]
    simp [ReanalysisFilter.accepts, superseding, matching]

theorem matching_foldl (rows : List Detection) :
    matching run (rows.foldl (processRow env run) progress).detections = matching run progress.detections := by
  induction rows generalizing progress with
  | nil => rfl
  | cons row rest ih => rw [List.foldl_cons, ih, matching_processRow]

theorem size_pos (f : ReanalysisFilter) : 0 < f.size := by
  unfold ReanalysisFilter.size
  split <;> omega

variable (env run) in
/-- The rows that the loop hands to its body, page after page. -/
def visits : Nat → Nat → Option (Instant ×ₗ Nat) → Progress → List Detection
  | 0, _, _, _ => []
  | fuel + 1, lists, cursor, progress =>
    if env.listed lists then
      let batch := listDetectionsForReanalysis progress.detections (run.filter cursor)
      match batch.getLast? with
      | none => []
      | some last =>
        batch ++ visits fuel (lists + 1) (some (position last)) (batch.foldl (processRow env run) progress)
    else []

variable (env run) in
/-- The loop comes to its end. It has then visited a first part of the remaining rows
in order, and all of them if it ended on an empty page. -/
theorem loop_visits : ∀ (fuel lists : Nat) (cursor : Option (Instant ×ₗ Nat)) (progress : Progress),
    ((matching run progress.detections).map position).Nodup →
    (remaining position (matching run progress.detections) cursor).length < fuel →
    ∃ completed, loop env run fuel lists cursor progress =
        some ((visits env run fuel lists cursor progress).foldl (processRow env run) progress, completed) ∧
      visits env run fuel lists cursor progress <+: remaining position (matching run progress.detections) cursor ∧
      (completed = true → visits env run fuel lists cursor progress =
        remaining position (matching run progress.detections) cursor) ∧
      ((∀ n, env.listed n = true) → completed = true)
  | 0, _, _, _, _, enough => absurd enough (Nat.not_lt_zero _)
  | fuel + 1, lists, cursor, progress, distinct, enough => by
    cases listed : env.listed lists with
    | false =>
      refine ⟨false, by simp [loop, visits, listed], by simp [visits, listed], nofun, fun always => ?_⟩
      exact absurd (always lists) (by simp [listed])
    | true =>
      have paged : listDetectionsForReanalysis progress.detections (run.filter cursor) =
          page position (matching run progress.detections) cursor (run.filter cursor).size := rfl
      simp only [loop, visits, listed, if_true, paged]
      generalize cut : page position (matching run progress.detections) cursor (run.filter cursor).size = batch
      cases ends : batch.getLast? with
      | none =>
        rw [List.getLast?_eq_none_iff.mp ends] at cut
        exact ⟨true, rfl, List.nil_prefix, fun _ => (remaining_of_page_nil (size_pos _) cut).symm, fun _ => rfl⟩
      | some last =>
        subst cut
        have rest := page_append_remaining distinct ends
        generalize page position (matching run progress.detections) cursor (run.filter cursor).size = batch at *
        have nonempty : batch ≠ [] := by
          rintro rfl
          cases ends
        have shorter := List.length_pos_of_ne_nil nonempty
        -- the rows that the body inserts supersede something, so the selection stays as it was
        have kept : matching run (batch.foldl (processRow env run) progress).detections =
            matching run progress.detections := matching_foldl batch
        obtain ⟨completed, ran, started, whole, finishes⟩ := loop_visits fuel (lists + 1) (some (position last))
          (batch.foldl (processRow env run) progress) (kept.symm ▸ distinct) (by
            rw [← rest, List.length_append] at enough
            rw [kept]
            omega)
        rw [kept] at started whole
        refine ⟨completed, ?_, ?_, fun ended => ?_, finishes⟩
        · rw [List.foldl_append]
          exact ran
        · rw [← rest]
          exact (List.prefix_append_right_inj _).mpr started
        · rw [← rest]
          exact congrArg _ (whole ended)

variable (run) in
/-- If no list query fails, the loop has visited every remaining row once, in order. -/
theorem loop_eq (listed : ∀ n, env.listed n = true) (fuel lists : Nat) (cursor : Option (Instant ×ₗ Nat))
    (progress : Progress) (distinct : ((matching run progress.detections).map position).Nodup)
    (enough : (remaining position (matching run progress.detections) cursor).length < fuel) :
    loop env run fuel lists cursor progress =
      some ((remaining position (matching run progress.detections) cursor).foldl (processRow env run) progress, true) := by
  obtain ⟨completed, ran, _, whole, finishes⟩ := loop_visits env run fuel lists cursor progress distinct enough
  have ended := finishes listed
  rw [ran, whole ended, ended]

variable (run progress) in
/-- With identifiers for all inserts, a list of visited rows adds one row for each
of them that is to be replaced. -/
private theorem foldl_added {ids : List UUID} (drawn : env.inserted = ids.map some) (rows : List Detection)
    (enough : progress.inserts + rows.length ≤ ids.length) :
    ∃ new, (rows.foldl (processRow env run) progress).detections = progress.detections ++ new ∧
      new.map (·.supersedes) = (rows.filter (replaces run)).map (fun row => some row.id) ∧
      (new.map (·.id)).Sublist (ids.drop progress.inserts) := by
  induction rows generalizing progress with
  | nil => exact ⟨[], by simp⟩
  | cons row rest ih =>
    rw [List.length_cons] at enough
    have inside : progress.inserts < ids.length := by omega
    have supplied : (env.inserted[progress.inserts]?).join = some ids[progress.inserts] := by
      simp [drawn, inside]
    have pulled := List.drop_eq_getElem_cons inside
    rw [List.foldl_cons]
    cases (processRow_effect : RowEffect env run progress row _) with
    | kept same attempts why =>
      obtain ⟨new, grown, superseded, fresh⟩ := @ih (processRow env run progress row) (by omega)
      have left : replaces run row = false := by
        by_contra chosen
        rw [why (by simpa using chosen)] at supplied
        cases supplied
      refine ⟨new, by rw [grown, same], by rw [superseded, List.filter_cons_of_neg (by simp [left])], ?_⟩
      rcases attempts with still | next
      · exact still ▸ fresh
      · rw [pulled]
        exact (next ▸ fresh).cons _
    | added new grown attempts replaced superseding used =>
      obtain ⟨more, grownMore, superseded, fresh⟩ := @ih (processRow env run progress row) (by omega)
      have same : ids[progress.inserts] = new.id := Option.some.inj (supplied.symm.trans used)
      refine ⟨new :: more, by rw [grownMore, grown, List.append_assoc]; rfl, ?_, ?_⟩
      · rw [List.filter_cons_of_pos replaced, List.map_cons, List.map_cons, superseded, superseding]
      · rw [List.map_cons, pulled, same]
        exact (attempts ▸ fresh).cons_cons _

end Loop

/-! ## Families -/

/-- The later row replaces the earlier one. -/
def Supersedes (detections : List Detection) (later earlier : Detection) : Prop :=
  later ∈ detections ∧ earlier ∈ detections ∧ later.supersedes = some earlier.id

/-- The original itself and every row that reaches it. -/
def Family (detections : List Detection) (original row : Detection) : Prop :=
  Relation.ReflTransGen (Supersedes detections) row original

/-- Every original has exactly one current version. -/
def OneCurrent (world : World) : Prop :=
  ∀ original ∈ world.detections, original.supersedes = none →
    ∃! row, row ∈ world.detections ∧ Family world.detections original row ∧ Current world.detections row

/-- Identifiers are unique and only originals are superseded. -/
structure Lineage (detections : List Detection) : Prop where
  distinct : (detections.map (·.id)).Nodup
  origins : ∀ row ∈ detections, ∀ id ∈ row.supersedes, ∃ original ∈ detections, original.id = id ∧ original.supersedes = none

def superseding (detections : List Detection) (id : UUID) : List Detection :=
  detections.filter fun row => row.supersedes = some id

section Families
variable {detections : List Detection} {original row : Detection}

private theorem mem_superseding {id : UUID} :
    row ∈ superseding detections id ↔ row ∈ detections ∧ row.supersedes = some id := by
  simp [superseding]

private theorem Lineage.same_row (lineage : Lineage detections) {first second : Detection} (left : first ∈ detections)
    (right : second ∈ detections) (same : first.id = second.id) : first = second :=
  List.inj_on_of_nodup_map lineage.distinct left right same

/-- A superseding row is not superseded itself. -/
private theorem Lineage.current_of_superseding (lineage : Lineage detections) (held : row ∈ detections)
    (replaces : row.supersedes ≠ none) : Current detections row := by
  intro other member later
  obtain ⟨earlier, known, same, first⟩ := lineage.origins other member row.id later
  rw [lineage.same_row known held same] at first
  exact replaces first

private theorem Lineage.family_iff (lineage : Lineage detections) (held : original ∈ detections)
    (first : original.supersedes = none) (member : row ∈ detections) :
    Family detections original row ↔ row = original ∨ row.supersedes = some original.id := by
  constructor
  · intro reaches
    induction reaches using Relation.ReflTransGen.head_induction_on with
    | refl => exact .inl rfl
    | head link _ ih =>
      obtain ⟨known, knownEarlier, replaced⟩ := link
      rcases ih knownEarlier with rfl | chained
      · exact .inr replaced
      · have current := lineage.current_of_superseding knownEarlier (by simp [chained])
        exact absurd replaced (current _ known)
  · rintro (rfl | replaced)
    · exact .refl
    · exact .single ⟨member, held, replaced⟩

/-- The current members of a family are the rows that supersede the original, or
the original alone. -/
private theorem Lineage.current_iff (lineage : Lineage detections) (held : original ∈ detections)
    (first : original.supersedes = none) :
    (row ∈ detections ∧ Family detections original row ∧ Current detections row) ↔
      row ∈ superseding detections original.id ∨ row = original ∧ superseding detections original.id = [] := by
  have free : Current detections original ↔ superseding detections original.id = [] := by
    simp [superseding, Current, List.filter_eq_nil_iff]
  rw [mem_superseding, ← free]
  constructor
  · rintro ⟨member, family, current⟩
    rcases (lineage.family_iff held first member).mp family with rfl | replaced
    · exact .inr ⟨rfl, current⟩
    · exact .inl ⟨member, replaced⟩
  · rintro (⟨member, replaced⟩ | ⟨rfl, current⟩)
    · exact ⟨member, (lineage.family_iff held first member).mpr (.inr replaced),
        lineage.current_of_superseding member (by simp [replaced])⟩
    · exact ⟨held, .refl, current⟩

private theorem Lineage.nodup_superseding (lineage : Lineage detections) (id : UUID) :
    (superseding detections id).Nodup :=
  (List.Nodup.of_map _ lineage.distinct).filter _

/-- Exactly one current version means at most one superseding row. -/
theorem Lineage.oneCurrent_iff {world : World} (lineage : Lineage world.detections) : OneCurrent world ↔
    ∀ original ∈ world.detections, original.supersedes = none → (superseding world.detections original.id).length ≤ 1 := by
  refine forall₃_congr fun original held first => ?_
  simp only [lineage.current_iff held first]
  have nodup := lineage.nodup_superseding original.id
  cases rows : superseding world.detections original.id with
  | nil => simp
  | cons one rest =>
    cases rest with
    | nil => simp
    | cons two others =>
      rw [rows] at nodup
      simp only [List.length_cons, reduceCtorEq, and_false, or_false]
      refine iff_of_false ?_ (by omega)
      rintro ⟨only, _, unique⟩
      have same := (unique one List.mem_cons_self).trans (unique two (List.mem_cons_of_mem _ List.mem_cons_self)).symm
      subst same
      exact (List.nodup_cons.mp nodup).1 List.mem_cons_self

end Families

private theorem superseding_append (detections new : List Detection) (id : UUID) :
    (superseding (detections ++ new) id).length =
      (superseding detections id).length + (new.map (·.supersedes)).count (some id) := by
  have counted : (new.map (·.supersedes)).count (some id) = (superseding new id).length := by
    rw [superseding, List.count, List.countP_map, List.countP_eq_length_filter]
    congr 2
    funext row
    exact beq_eq_decide _ _
  rw [counted, superseding, List.filter_append, List.length_append]
  rfl

private theorem current_iff_none_superseding {detections : List Detection} {row : Detection} :
    Current detections row ↔ (superseding detections row.id).length = 0 := by
  simp [superseding, Current, List.filter_eq_nil_iff]

/-- New rows supersede chosen originals, each of these once. -/
private structure Grows (detections new chosen : List Detection) : Prop where
  originals : ∀ row ∈ chosen, row ∈ detections ∧ row.supersedes = none
  superseded : (new.map (·.supersedes)).Perm (chosen.map fun row => some row.id)
  once : (chosen.map fun row => some row.id).Nodup

section Growth
variable {detections new chosen : List Detection}

private theorem Grows.target (grows : Grows detections new chosen) {row : Detection} (member : row ∈ new) :
    ∃ target ∈ chosen, row.supersedes = some target.id := by
  obtain ⟨target, held, same⟩ := List.mem_map.mp (grows.superseded.mem_iff.mp (List.mem_map_of_mem member))
  exact ⟨target, held, same.symm⟩

private theorem Grows.lineage {ids : List UUID} (grows : Grows detections new chosen) (lineage : Lineage detections)
    (drawn : (new.map (·.id)).Sublist ids) (nodup : ids.Nodup) (fresh : ∀ id ∈ ids, ∀ row ∈ detections, row.id ≠ id) :
    Lineage (detections ++ new) where
  distinct := by
    rw [List.map_append]
    refine List.Nodup.append lineage.distinct (nodup.sublist drawn) fun id old added => ?_
    obtain ⟨row, held, rfl⟩ := List.mem_map.mp old
    exact fresh row.id (drawn.subset added) row held rfl
  origins row member id replaced := by
    rcases List.mem_append.mp member with old | added
    · obtain ⟨original, held, facts⟩ := lineage.origins row old id replaced
      exact ⟨original, List.mem_append_left _ held, facts⟩
    · obtain ⟨target, held, same⟩ := grows.target added
      rw [same] at replaced
      cases replaced
      exact ⟨target, List.mem_append_left _ (grows.originals target held).1, rfl, (grows.originals target held).2⟩

/-- An original gains a superseding row exactly if it was chosen. -/
private theorem Grows.superseding_length (grows : Grows detections new chosen) (lineage : Lineage detections)
    {original : Detection} (held : original ∈ detections) : (superseding (detections ++ new) original.id).length =
      (superseding detections original.id).length + if original ∈ chosen then 1 else 0 := by
  rw [superseding_append, grows.superseded.count_eq, grows.once.count]
  have chosen_iff : some original.id ∈ chosen.map (fun row => some row.id) ↔ original ∈ chosen := by
    constructor
    · intro listed
      obtain ⟨target, member, same⟩ := List.mem_map.mp listed
      rwa [← lineage.same_row (grows.originals target member).1 held (Option.some.inj same)]
    · intro member
      exact List.mem_map.mpr ⟨original, member, rfl⟩
  simp only [chosen_iff]

/-- From at most one superseding row to at most one, exactly if the chosen
originals had none. -/
private theorem Grows.single_iff (grows : Grows detections new chosen) (lineage : Lineage detections)
    (before : ∀ original ∈ detections, original.supersedes = none → (superseding detections original.id).length ≤ 1) :
    (∀ original ∈ detections ++ new, original.supersedes = none →
      (superseding (detections ++ new) original.id).length ≤ 1) ↔ ∀ row ∈ chosen, Current detections row := by
  constructor
  · intro single row target
    obtain ⟨held, first⟩ := grows.originals row target
    have bound := single row (List.mem_append_left _ held) first
    rw [grows.superseding_length lineage held, if_pos target] at bound
    exact current_iff_none_superseding.mpr (by omega)
  · intro allCurrent original member first
    rcases List.mem_append.mp member with held | added
    · rw [grows.superseding_length lineage held]
      split
      · rename_i target
        rw [current_iff_none_superseding.mp (allCurrent original target)]
      · exact before original held first
    · obtain ⟨target, _, same⟩ := grows.target added
      rw [first] at same
      cases same

private theorem Lineage.original {row : Detection} (lineage : Lineage detections) (first : row.supersedes = none)
    (fresh : ∀ other ∈ detections, other.id ≠ row.id) : Lineage (detections ++ [row]) where
  distinct := by
    rw [List.map_append]
    refine List.Nodup.append lineage.distinct (List.nodup_singleton _) fun id old added => ?_
    obtain ⟨other, held, rfl⟩ := List.mem_map.mp old
    exact fresh other held (List.mem_singleton.mp added)
  origins other member id replaced := by
    rcases List.mem_append.mp member with old | added
    · obtain ⟨original, held, facts⟩ := lineage.origins other old id replaced
      exact ⟨original, List.mem_append_left _ held, facts⟩
    · rw [List.mem_singleton.mp added, first] at replaced
      cases replaced

/-- A new original supersedes nothing, and nothing supersedes it. -/
private theorem Lineage.single_original {row : Detection} (lineage : Lineage detections) (first : row.supersedes = none)
    (fresh : ∀ other ∈ detections, other.id ≠ row.id)
    (before : ∀ original ∈ detections, original.supersedes = none → (superseding detections original.id).length ≤ 1) :
    ∀ original ∈ detections ++ [row], original.supersedes = none →
      (superseding (detections ++ [row]) original.id).length ≤ 1 := by
  intro original member isFirst
  have same : (superseding (detections ++ [row]) original.id).length = (superseding detections original.id).length := by
    rw [superseding_append, List.map_singleton, first]
    rfl
  rw [same]
  rcases List.mem_append.mp member with held | added
  · exact before original held isFirst
  · have free : superseding detections original.id = [] := by
      rw [List.eq_nil_iff_forall_not_mem]
      intro other replacing
      obtain ⟨held, replaced⟩ := mem_superseding.mp replacing
      obtain ⟨earlier, known, sameId, _⟩ := lineage.origins other held original.id replaced
      rw [List.mem_singleton.mp added] at sameId
      exact fresh earlier known sameId
    rw [free]
    exact Nat.zero_le 1

end Growth

/-! ## Histories -/

/-- No database error and identifiers that are in use nowhere. -/
def Reliable (world : World) : Move → Prop
  | .ingest _ id => ∀ new ∈ id, ∀ row ∈ world.detections, row.id ≠ new
  | .reanalyze _ _ env => (∀ n, env.listed n = true) ∧ ∃ ids : List UUID, env.inserted = ids.map some ∧ ids.Nodup ∧
      (∀ id ∈ ids, ∀ row ∈ world.detections, row.id ≠ id) ∧ world.detections.length ≤ ids.length

/-- The originals that a request supersedes. -/
def targets (entry : Entry) (world : World) (request : Request) (env : Env) : List Detection :=
  match plan entry world request env with
  | none => []
  | some run => (matching run world.detections).filter (replaces run)

/-- A re-analysis replaces only detections that are still current. -/
def ReplacesCurrent (world : World) : Move → Prop
  | .ingest _ _ => True
  | .reanalyze entry request env => ∀ row ∈ targets entry world request env, Current world.detections row

instance (world : World) : DecidablePred (ReplacesCurrent world)
  | .ingest _ _ => isTrue trivial
  | .reanalyze entry request env =>
    inferInstanceAs (Decidable (∀ row ∈ targets entry world request env, Current world.detections row))

section Step
variable {world : World} {entry : Entry} {request : Request} {env : Env}

theorem positions_distinct {detections : List Detection} (distinct : (detections.map (·.id)).Nodup) (run : Run) :
    ((matching run detections).map position).Nodup := by
  have kept : ((matching run detections).map (·.id)).Nodup := distinct.sublist (List.filter_sublist.map _)
  refine List.pairwise_map.mpr ((List.pairwise_map.mp kept).imp fun differ same => differ ?_)
  have bits : _ = _ := congrArg (fun pair => (ofLex pair).2) same
  exact congrArg UUID.mk (BitVec.eq_of_toNat_eq bits)

variable (entry request) in
/-- A request adds one row for each of its targets. -/
private theorem reanalyze_added (lineage : Lineage world.detections) (listed : ∀ n, env.listed n = true) {ids : List UUID}
    (drawn : env.inserted = ids.map some) (enough : world.detections.length ≤ ids.length) :
    ∃ new, (reanalyze entry world request env).detections = world.detections ++ new ∧
      (new.map (·.supersedes)).Perm ((targets entry world request env).map fun row => some row.id) ∧
      (new.map (·.id)).Sublist ids := by
  unfold reanalyze targets
  cases recorded : record entry world request env with
  | none => exact ⟨[], by simp [plan, recorded]⟩
  | some stored =>
    obtain ⟨_, _, runID, analysisRuns⟩ := stored
    cases planned : plan entry world request env with
    | none => exact ⟨[], by simp⟩
    | some run =>
      have bounded : (remaining position (matching run world.detections) none).length ≤ world.detections.length := by
        rw [remaining_none, List.length_insertionSort]
        exact List.length_filter_le _ _
      have ran := loop_eq run listed (world.detections.length + 1) 0 none { detections := world.detections }
        (positions_distinct lineage.distinct run) (Nat.lt_succ_of_le bounded)
      obtain ⟨new, grown, superseded, fresh⟩ := foldl_added run { detections := world.detections } drawn
        (remaining position (matching run world.detections) none) (by simpa using bounded.trans enough)
      refine ⟨new, by simp only [ran, grown], ?_, fresh⟩
      rw [superseded, remaining_none]
      exact ((List.perm_insertionSort _ _).filter _).map _

private theorem targets_mem {row : Detection} (target : row ∈ targets entry world request env) :
    row ∈ world.detections ∧ row.supersedes = none := by
  unfold targets at target
  split at target
  · cases target
  · have matched := List.mem_of_mem_filter target
    have accepted := List.of_mem_filter matched
    simp only [ReanalysisFilter.accepts, decide_eq_true_eq] at accepted
    exact ⟨List.mem_of_mem_filter matched, accepted.1⟩

private theorem targets_nodup (lineage : Lineage world.detections) :
    ((targets entry world request env).map fun row => some row.id).Nodup := by
  have sub : (targets entry world request env).Sublist world.detections := by
    unfold targets
    split
    · exact List.nil_sublist _
    · exact List.filter_sublist.trans List.filter_sublist
  have ids : ((targets entry world request env).map (·.id)).Nodup := lineage.distinct.sublist (sub.map _)
  have lifted := ids.map (Option.some_injective _)
  rw [List.map_map] at lifted
  exact lifted

/-- What a re-analysis of a sound table does to it. -/
private theorem reanalyze_step (lineage : Lineage world.detections)
    (reliable : Reliable world (.reanalyze entry request env)) :
    Lineage (reanalyze entry world request env).detections ∧
      (OneCurrent world → (OneCurrent (reanalyze entry world request env) ↔
        ∀ row ∈ targets entry world request env, Current world.detections row)) := by
  obtain ⟨listed, ids, drawn, nodup, fresh, enough⟩ := reliable
  obtain ⟨new, grown, superseded, sub⟩ := reanalyze_added entry request lineage listed drawn enough
  have grows : Grows world.detections new (targets entry world request env) :=
    ⟨fun _ target => targets_mem target, superseded, targets_nodup lineage⟩
  have after : Lineage (reanalyze entry world request env).detections :=
    grown ▸ grows.lineage lineage sub nodup fresh
  refine ⟨after, fun before => ?_⟩
  rw [after.oneCurrent_iff, grown]
  exact grows.single_iff lineage (lineage.oneCurrent_iff.mp before)

private theorem ingest_cases (ins : DetectionInsert) (id : Option UUID) :
    step world (.ingest ins id) = world ∨ ∃ row, row.supersedes = none ∧ id = some row.id ∧
      (step world (.ingest ins id)).detections = world.detections ++ [row] := by
  cases accepted : { ins with supersedes := none }.accepted with
  | false => exact .inl (by simp [step, insertDetection, accepted])
  | true =>
    cases id with
    | none => exact .inl (by simp [step, insertDetection])
    | some new => exact .inr ⟨{ ins with supersedes := none, id := new }, rfl, rfl, by simp [step, insertDetection, accepted]⟩

/-- A new original is its own current version. -/
private theorem ingest_step {ins : DetectionInsert} {id : Option UUID} (lineage : Lineage world.detections)
    (reliable : Reliable world (.ingest ins id)) :
    Lineage (step world (.ingest ins id)).detections ∧ (OneCurrent world → OneCurrent (step world (.ingest ins id))) := by
  rcases ingest_cases ins id with idle | ⟨row, first, rfl, grown⟩
  · rw [idle]
    exact ⟨lineage, fun before => before⟩
  · have after := lineage.original first (reliable row.id rfl)
    rw [← grown] at after
    refine ⟨after, fun before => ?_⟩
    rw [after.oneCurrent_iff, grown]
    exact lineage.single_original first (reliable row.id rfl) (lineage.oneCurrent_iff.mp before)

private def Sound (world : World) : Prop := Lineage world.detections

private theorem step_lineage (world : World) (move : Move) (lineage : Sound world)
    (reliable : Reliable world move) : Sound (step world move) := by
  cases move with
  | ingest => exact (ingest_step lineage reliable).1
  | reanalyze => exact (reanalyze_step lineage reliable).1

private theorem step_oneCurrent_iff (world : World) (move : Move) (lineage : Sound world)
    (reliable : Reliable world move) (before : OneCurrent world) :
    OneCurrent (step world move) ↔ ReplacesCurrent world move := by
  cases move with
  | ingest => exact iff_of_true ((ingest_step lineage reliable).2 before) trivial
  | reanalyze => exact (reanalyze_step lineage reliable).2 before

end Step

private theorem empty_sound {runs : Table AnalysisRun.id} : Sound ⟨[], runs⟩ :=
  ⟨List.nodup_nil, fun _ held => absurd held List.not_mem_nil⟩

private theorem empty_oneCurrent {runs : Table AnalysisRun.id} : OneCurrent ⟨[], runs⟩ :=
  fun _ held => absurd held List.not_mem_nil

/-! ## Two runs over one detection -/

private def person : DetectionInsert where
  organizationID := "org"
  cameraID := ⟨1⟩
  detectedAt := 10
  detectionClass := "person"
  detectionDomain := "security"
  confidence := 1 / 2
  modelVersionID := ⟨1⟩
  analysisRunID := ⟨1⟩
  source := "live"

/-- A re-analysis with a global threshold, and the identifiers it draws. -/
private def stricter (threshold : Rat) (runID : UUID) (ids : List UUID) : Move :=
  .reanalyze (.api true)
    { modelVersion := some ⟨⟨2⟩, "org", some { confidenceThreshold := threshold }⟩, fromTime := 0, toTime := 20 }
    { runID := some runID, listed := fun _ => true, inserted := ids.map some, stamped := true, startedAt := 30,
      endedAt := 40 }

private def firstRun : List Move := [.ingest person (some ⟨1⟩), stricter (3 / 5) ⟨11⟩ [⟨2⟩]]

private def bothRuns : List Move := firstRun ++ [stricter (7 / 10) ⟨12⟩ [⟨3⟩, ⟨4⟩]]

private theorem bothRuns_reliable : Along step Reliable ⟨[], .empty⟩ bothRuns := by
  refine ⟨fun _ _ _ held => absurd held List.not_mem_nil, ⟨fun _ => rfl, [⟨2⟩], rfl, ?_, ?_, ?_⟩,
    ⟨fun _ => rfl, [⟨3⟩, ⟨4⟩], rfl, ?_, ?_, ?_⟩, trivial⟩ <;>
    decide +kernel

end Ironsight.ReanalysisProofs
