import Ironsight.FrameSearch

/-! What the search page answers: the first fifty rows of each statement that show the asked
violations and are confident, in descending relevance. What is asked for is stated apart from the
statements (`segmentFits`, `alarmFits`), and the two are compared over every order of the rows. -/
namespace Ironsight.FrameSearch
open Tables Uuid Access RankedRows
open EventQuery (ilike)
open Manifests (storable)
open Reanalysis (zeroTime)

/-! ## Sorting -/

theorem exchange_perm (front : SearchFrameResult) (behind : List SearchFrameResult) :
    ((exchange front behind).1 :: (exchange front behind).2).Perm (front :: behind) := by
  induction behind generalizing front with
  | nil => exact .refl _
  | cons next behind ih =>
    rw [exchange]
    split_ifs
    · exact (List.Perm.swap front (exchange next behind).1 _).trans ((ih next).cons front)
    · exact ((List.Perm.swap next (exchange front behind).1 _).trans ((ih front).cons next)).trans (List.Perm.swap front next behind)

/-- What comes to the front is at least as relevant as everything. -/
theorem exchange_front (front : SearchFrameResult) (behind : List SearchFrameResult) :
    ∀ row ∈ front :: behind, row.relevanceScore ≤ (exchange front behind).1.relevanceScore := by
  induction behind generalizing front with
  | nil => simp [exchange]
  | cons next behind ih =>
    rw [exchange]
    split_ifs with less
    · have best := List.forall_mem_cons.mp (ih next)
      exact List.forall_mem_cons.mpr ⟨less.le.trans best.1, List.forall_mem_cons.mpr best⟩
    · have best := List.forall_mem_cons.mp (ih front)
      exact List.forall_mem_cons.mpr ⟨best.1, List.forall_mem_cons.mpr ⟨(not_lt.mp less).trans best.1, best.2⟩⟩

theorem exchangeSort_perm (turns : Nat) (all : List SearchFrameResult) : (exchangeSort turns all).Perm all := by
  induction turns generalizing all with
  | zero => exact .refl _
  | succ turns ih =>
    cases all with
    | nil => exact .refl _
    | cons front behind => exact ((ih _).cons _).trans (exchange_perm front behind)

theorem exchangeSort_sorted {turns : Nat} {all : List SearchFrameResult} (enough : all.length ≤ turns) :
    (exchangeSort turns all).Pairwise fun first second => second.relevanceScore ≤ first.relevanceScore := by
  induction turns generalizing all with
  | zero =>
    rw [List.eq_nil_of_length_eq_zero (Nat.le_zero.mp enough)]
    exact .nil
  | succ turns ih =>
    cases all with
    | nil => exact .nil
    | cons front behind =>
      have perm := exchange_perm front behind
      have lengths := perm.length_eq
      simp only [List.length_cons] at lengths enough
      refine List.pairwise_cons.mpr ⟨fun row held => ?_, ih (by omega)⟩
      have later := (exchangeSort_perm turns (exchange front behind).2).mem_iff.mp held
      exact exchange_front front behind row (perm.mem_iff.mp (List.mem_cons_of_mem _ later))

/-! ## What is asked for -/

section Asked
variable (cfg : MediaLinks.Config) (db : Database) (env : Env) (userID q : String) (req : SearchFiltersRequest) (allowed : List UUID)
  (restricted : Bool)

def segmentFlagged (row : DescribedSegment) : Bool :=
  matchesViolationFilter (tagsToViolationFlags env.text row.description.tags) req.violationTypes

def alarmFlagged (row : AlarmRow) : Bool :=
  matchesViolationFilter (ppeFromJSON env.text (row.aiPpeViolations.getD "[]")) req.violationTypes

/-- The caller may see the segment, and the query, if there is one, the dates, the sites and the
violations fit. -/
def segmentFits (row : DescribedSegment) : Bool :=
  (restricted = true → row.description.cameraID ∈ allowed) ∧ (q = "" ∨ matchClause env.text req.model q row.description = true) ∧
    ((parseDateRange req.dateRange).1 = zeroTime ∨ (parseDateRange req.dateRange).1 ≤ row.segment.startTime) ∧
      ((parseDateRange req.dateRange).2 = zeroTime ∨ row.segment.endTime ≤ (parseDateRange req.dateRange).2) ∧
        (req.siteIDs = [] ∨ row.camera.siteId.any fun site => req.siteIDs.contains site) ∧ segmentFlagged env req row

/-- The same of an alarm, whose time is compared to the millisecond as the column has it. -/
def alarmFits (row : AlarmRow) : Bool :=
  (restricted = true → (castUUID row.cameraID).any fun id => allowed.contains id) ∧
    (q = "" ∨ row.aiDescription.any (ilike env.text.toText ("%" ++ q ++ "%")) ∨ ilike env.text.toText ("%" ++ q ++ "%") row.description ∨
      ilike env.text.toText ("%" ++ q ++ "%") row.type) ∧
    ((parseDateRange req.dateRange).1 = zeroTime ∨ (parseDateRange req.dateRange).1 ≤ row.ts * 1000000) ∧
      ((parseDateRange req.dateRange).2 = zeroTime ∨ row.ts * 1000000 ≤ (parseDateRange req.dateRange).2) ∧
        (req.siteIDs = [] ∨ row.siteID ∈ req.siteIDs) ∧ alarmFlagged env req row

/-- A sorted list of what fits, with fifty of each source, or all if there are fewer. -/
def Complete (list : List SearchFrameResult) : Prop :=
  (list.Pairwise fun first second => second.relevanceScore ≤ first.relevanceScore) ∧
    (∀ result ∈ list, (∃ row ∈ describedSegments db, segmentFits env q req allowed restricted row = true ∧
        result = segmentResult cfg env userID q row) ∨
      ∃ row ∈ db.alarms.rows, alarmFits env q req allowed restricted row = true ∧ result = alarmResult env q row) ∧
    min 50 ((describedSegments db).countP (segmentFits env q req allowed restricted)) ≤
      list.countP (fun result => result.source = "vlm_segment") ∧
    min 50 (db.alarms.rows.countP (alarmFits env q req allowed restricted)) ≤
      list.countP fun result => result.source ≠ "vlm_segment"

instance (list : List SearchFrameResult) : Decidable (Complete cfg db env userID q req allowed restricted list) :=
  inferInstanceAs (Decidable (_ ∧ _))

/-- The segments that the statement selects; there is none for a request without a query. -/
def segmentCandidates : List DescribedSegment :=
  if q = "" then [] else (describedSegments db).filter (segmentWhere env q req allowed restricted (parseDateRange req.dateRange))

/-- The alarms that the statement selects; there is none for a request that asks for nothing. -/
def alarmCandidates : List AlarmRow :=
  if q = "" ∧ req.violationTypes = [] then []
  else db.alarms.rows.filter (alarmWhere env q req allowed restricted (parseDateRange req.dateRange))

/-- What gets from the first fifty segments into the ranking. -/
def segmentShown (row : DescribedSegment) : Bool :=
  confident req.confidenceMin (segmentResult cfg env userID q row) && segmentFlagged env req row

/-- What the handler keeps of the alarms that the statement returned. -/
def alarmShown (row : AlarmRow) : Bool := confident req.confidenceMin (alarmResult env q row) && alarmFlagged env req row

/-- There is nothing to ask the database for, or Postgres takes the texts and can read the camera
and the time of every alarm on which it tries to. -/
def StatementsTaken : Prop :=
  (q = "" ∧ req.violationTypes = []) ∨ (restricted = true ∧ allowed = []) ∨
    (storable q = true ∧ req.siteIDs.all storable = true) ∧
      ∀ row ∈ db.alarms.rows, env.evaluates row = true → alarmError req restricted (parseDateRange req.dateRange) row = none

instance : Decidable (StatementsTaken db env q req allowed restricted) := inferInstanceAs (Decidable (_ ∨ _))

end Asked

/-- Of a source of rows, those that a statement selects, the filters behind its limit show and the
request asks for are all there are, or fifty, and the limit does them no harm. -/
def SourceSearched {ρ τ : Type*} [LinearOrder τ] (key : ρ → τ) (all selected : List ρ) (shown fits : ρ → Bool) : Prop :=
  LimitKeepsWanted key 50 shown (fun row => shown row && fits row) selected ∧
    min 50 (all.countP fits) ≤ selected.countP fun row => shown row && fits row

/-- No statement fails and no stream of rows breaks off. -/
structure Quiet (env : Env) : Prop where
  segments : env.segments.failure = none ∧ env.segments.delivered = none
  alarms : env.alarms.failure = none ∧ env.alarms.delivered = none

/-- The same surroundings, in which the statements meet their rows in other orders. -/
def Env.meeting (env : Env) (segments : Scan DescribedSegment) (alarms : Scan AlarmRow) : Env :=
  { env with segments := { env.segments with scan := segments }, alarms := { env.alarms with scan := alarms } }

/-! ## The results tell their rows -/

section Results
variable {cfg : MediaLinks.Config} {db : Database} {env : Env} {userID q : String}

private theorem natRepr_inj {m n : Nat} (same : m.repr = n.repr) : m = n := by
  rw [Nat.repr_eq_ofList_toDigits, Nat.repr_eq_ofList_toDigits] at same
  have digits := congrArg (fun text => Nat.ofDigitChars 10 text.toList 0) same
  simpa only [String.toList_ofList, Nat.ofDigitChars_ten_toDigits] using digits

private theorem repr_ne_negative {m n : Nat} : m.repr ≠ "-" ++ n.repr := by
  intro same
  rw [Nat.repr_eq_ofList_toDigits] at same
  have texts := congrArg String.toList same
  rw [String.toList_ofList, String.toList_append] at texts
  have sign : '-' ∈ Nat.toDigits 10 m := texts ▸ List.mem_append_left _ (by decide)
  exact absurd (Nat.isDigit_of_mem_toDigits (by decide) (by decide) sign) (by decide)

/-- Different numbers have different decimal texts. -/
theorem toString_inj : ∀ {first second : Int}, toString first = toString second → first = second
  | .ofNat _, .ofNat _, same => congrArg Int.ofNat (natRepr_inj same)
  | .ofNat _, .negSucc _, same => absurd same repr_ne_negative
  | .negSucc _, .ofNat _, same => absurd same.symm repr_ne_negative
  | .negSucc _, .negSucc _, same =>
    congrArg Int.negSucc (Nat.succ_injective (natRepr_inj ((String.append_right_inj "-").mp same)))

theorem alarmResult_source (row : AlarmRow) : (alarmResult env q row).source ≠ "vlm_segment" := by
  unfold alarmResult
  dsimp only
  split_ifs <;> decide

theorem mem_describedSegments {row : DescribedSegment} : row ∈ describedSegments db ↔
    row.description ∈ db.descriptions ∧ db.segments.find? row.description.segmentID = some row.segment ∧
      db.cameras.find? row.description.cameraID = some row.camera := by
  simp only [describedSegments, List.mem_filterMap, Option.bind_eq_bind, Option.bind_eq_some_iff, Option.pure_def, Option.some.injEq]
  constructor
  · rintro ⟨description, held, segment, found, camera, found', rfl⟩
    exact ⟨held, found, found'⟩
  · rintro ⟨held, found, found'⟩
    exact ⟨_, held, _, found, _, found', rfl⟩

theorem segmentResult_inj {first second : DescribedSegment} (left : first ∈ describedSegments db) (right : second ∈ describedSegments db)
    (same : segmentResult cfg env userID q first = segmentResult cfg env userID q second) : first = second := by
  obtain ⟨held, found, seen⟩ := mem_describedSegments.mp left
  obtain ⟨held', found', seen'⟩ := mem_describedSegments.mp right
  have ids : first.description.segmentID = second.description.segmentID :=
    toString_inj ((String.append_right_inj _).mp (congrArg SearchFrameResult.frameID same))
  have descriptions := Table.key_inj held held' ids
  rw [descriptions] at found seen
  obtain ⟨description, segment, camera⟩ := first
  cases descriptions
  cases found.symm.trans found'
  cases seen.symm.trans seen'
  rfl

theorem alarmResult_inj {first second : AlarmRow} (left : first ∈ db.alarms) (right : second ∈ db.alarms)
    (same : alarmResult env q first = alarmResult env q second) : first = second :=
  Table.key_inj left right ((String.append_right_inj _).mp (congrArg SearchFrameResult.frameID same))

end Results

/-! ## The answer -/

section Answer
variable (cfg : MediaLinks.Config) (env : Env) (userID q : String) (req : SearchFiltersRequest)

/-- What is shown of the rows of the two statements, the most relevant first. -/
def ranking (segments : List DescribedSegment) (alarms : List AlarmRow) : List SearchFrameResult :=
  let all := (segments.filter (segmentShown cfg env userID q req)).map (segmentResult cfg env userID q) ++
    (alarms.filter (alarmShown env q req)).map (alarmResult env q)
  exchangeSort all.length all

variable {cfg env userID q req} {db : Database} {allowed : List UUID} {restricted : Bool}

theorem ranking_perm (segments : List DescribedSegment) (alarms : List AlarmRow) : (ranking cfg env userID q req segments alarms).Perm
    ((segments.filter (segmentShown cfg env userID q req)).map (segmentResult cfg env userID q) ++
      (alarms.filter (alarmShown env q req)).map (alarmResult env q)) := exchangeSort_perm _ _

theorem ranking_segments (segments : List DescribedSegment) (alarms : List AlarmRow) :
    (ranking cfg env userID q req segments alarms).countP (fun result => result.source = "vlm_segment") =
      segments.countP (segmentShown cfg env userID q req) := by
  rw [(ranking_perm segments alarms).countP_eq, List.countP_append, List.countP_map, List.countP_map]
  have every : ∀ row ∈ segments.filter (segmentShown cfg env userID q req),
      ((fun result : SearchFrameResult => decide (result.source = "vlm_segment")) ∘ segmentResult cfg env userID q) row = true :=
    fun _ _ => rfl
  have none_ : ∀ row ∈ alarms.filter (alarmShown env q req),
      ¬ ((fun result : SearchFrameResult => decide (result.source = "vlm_segment")) ∘ alarmResult env q) row = true :=
    fun row _ same => alarmResult_source row (of_decide_eq_true same)
  rw [List.countP_eq_length.mpr every, List.countP_eq_zero.mpr none_, List.countP_eq_length_filter, Nat.add_zero]

theorem ranking_alarms (segments : List DescribedSegment) (alarms : List AlarmRow) :
    (ranking cfg env userID q req segments alarms).countP (fun result => result.source ≠ "vlm_segment") =
      alarms.countP (alarmShown env q req) := by
  rw [(ranking_perm segments alarms).countP_eq, List.countP_append, List.countP_map, List.countP_map]
  have none_ : ∀ row ∈ segments.filter (segmentShown cfg env userID q req),
      ¬ ((fun result : SearchFrameResult => decide (result.source ≠ "vlm_segment")) ∘ segmentResult cfg env userID q) row = true :=
    fun _ _ => nofun
  have every : ∀ row ∈ alarms.filter (alarmShown env q req),
      ((fun result : SearchFrameResult => decide (result.source ≠ "vlm_segment")) ∘ alarmResult env q) row = true :=
    fun row _ => decide_eq_true (alarmResult_source row)
  rw [List.countP_eq_zero.mpr none_, List.countP_eq_length.mpr every, List.countP_eq_length_filter, Nat.zero_add]

/-- Of the first rows of a source only those are shown that fit, and enough of `total`. -/
def Serves {ρ : Type*} (shown fits : ρ → Bool) (total : Nat) (front : List ρ) : Prop :=
  (∀ row ∈ front, shown row = true → fits row = true) ∧ min 50 total ≤ front.countP shown

/-- A ranking is complete if the first rows of either source serve. -/
theorem complete_ranking_iff {segments : List DescribedSegment} {alarms : List AlarmRow}
    (described : ∀ row ∈ segments, row ∈ describedSegments db) (stored : ∀ row ∈ alarms, row ∈ db.alarms) :
    Complete cfg db env userID q req allowed restricted (ranking cfg env userID q req segments alarms) ↔
      Serves (segmentShown cfg env userID q req) (segmentFits env q req allowed restricted)
          ((describedSegments db).countP (segmentFits env q req allowed restricted)) segments ∧
        Serves (alarmShown env q req) (alarmFits env q req allowed restricted)
          (db.alarms.rows.countP (alarmFits env q req allowed restricted)) alarms := by
  have perm : (ranking cfg env userID q req segments alarms).Perm _ := ranking_perm segments alarms
  rw [Complete, ranking_segments, ranking_alarms]
  constructor
  · rintro ⟨_, fit, enough, enough'⟩
    refine ⟨⟨fun row held passes => ?_, enough⟩, fun row held passes => ?_, enough'⟩
    · rcases fit _ (perm.mem_iff.mpr (List.mem_append_left _ (List.mem_map_of_mem (List.mem_filter.mpr ⟨held, passes⟩)))) with
        ⟨other, here, fits, same⟩ | ⟨other, _, _, same⟩
      · exact segmentResult_inj (described row held) here same ▸ fits
      · exact absurd (congrArg SearchFrameResult.source same).symm (alarmResult_source other)
    · rcases fit _ (perm.mem_iff.mpr (List.mem_append_right _ (List.mem_map_of_mem (List.mem_filter.mpr ⟨held, passes⟩)))) with
        ⟨other, _, _, same⟩ | ⟨other, here, fits, same⟩
      · exact absurd (congrArg SearchFrameResult.source same) (alarmResult_source row)
      · exact alarmResult_inj (stored row held) here same ▸ fits
  · rintro ⟨⟨fit, enough⟩, fit', enough'⟩
    refine ⟨exchangeSort_sorted le_rfl, fun result held => ?_, enough, enough'⟩
    rcases List.mem_append.mp (perm.mem_iff.mp held) with held | held
    · obtain ⟨row, chosen, rfl⟩ := List.mem_map.mp held
      obtain ⟨held, passes⟩ := List.mem_filter.mp chosen
      exact .inl ⟨row, described row held, fit row held passes, rfl⟩
    · obtain ⟨row, chosen, rfl⟩ := List.mem_map.mp held
      obtain ⟨held, passes⟩ := List.mem_filter.mp chosen
      exact .inr ⟨row, stored row held, fit' row held passes, rfl⟩

end Answer

/-! ## The handler -/

section Handler
variable {cfg : MediaLinks.Config} {db : Database} {env : Env} {userID q : String} {req : SearchFiltersRequest}
  {allowed : List UUID} {restricted : Bool}

private theorem first_eq {ρ τ : Type*} [LinearOrder τ] {stream : Stream ρ} (whole : stream.delivered = none) (key : ρ → τ) (rows : List ρ) :
    stream.first key rows = ((stream.scan.arrange rows).insertionSort fun first second => key second ≤ key first).take 50 := by
  rw [Stream.first, whole]

private theorem mem_first {ρ τ : Type*} [LinearOrder τ] {stream : Stream ρ} (whole : stream.delivered = none) {key : ρ → τ}
    {rows : List ρ} {row : ρ} (held : row ∈ stream.first key rows) : row ∈ rows := by
  rw [first_eq whole] at held
  exact (ranked_newest stream.scan rows).perm.mem_iff.mp (List.mem_of_mem_take held)

private theorem first_nil {ρ τ : Type*} [LinearOrder τ] {stream : Stream ρ} (whole : stream.delivered = none) (key : ρ → τ) :
    stream.first key [] = [] :=
  List.eq_nil_iff_forall_not_mem.mpr fun _ held => List.not_mem_nil (mem_first whole held)

theorem searchVLMSegments_eq (quiet : Quiet env) (texts : storable q = true ∧ req.siteIDs.all storable = true) :
    searchVLMSegments cfg db env userID q req allowed restricted (parseDateRange req.dateRange) =
      .ok (((env.segments.first (segmentKey env.text q) (segmentCandidates db env q req allowed restricted)).filter
        (segmentFlagged env req)).map (segmentResult cfg env userID q)) := by
  rw [searchVLMSegments, segmentCandidates]
  by_cases blank : q = ""
  · rw [if_pos blank, if_pos blank, first_nil quiet.segments.2]
    rfl
  · rw [if_neg blank, if_neg blank, quiet.segments.1]
    simp only [texts, Bool.and_self, Bool.not_true, Bool.false_eq_true, if_false]
    rw [List.filter_map]
    rfl

theorem searchAlarms_eq (quiet : Quiet env) (texts : storable q = true ∧ req.siteIDs.all storable = true)
    (asks : ¬ (q = "" ∧ req.violationTypes = []))
    (read : ∀ row ∈ db.alarms.rows, env.evaluates row = true → alarmError req restricted (parseDateRange req.dateRange) row = none) :
    searchAlarms db env q req allowed restricted (parseDateRange req.dateRange) =
      .ok (((env.alarms.first AlarmRow.ts (alarmCandidates db env q req allowed restricted)).filter (alarmFlagged env req)).map
        (alarmResult env q)) := by
  have evaluated : (db.alarms.rows.filter env.evaluates).findSome? (alarmError req restricted (parseDateRange req.dateRange)) = none :=
    List.findSome?_eq_none_iff.mpr fun row held => read row (List.mem_filter.mp held).1 (List.mem_filter.mp held).2
  rw [searchAlarms, alarmCandidates, if_neg asks, quiet.alarms.1]
  simp only [texts, Bool.and_self, Bool.not_true, Bool.false_eq_true, if_false, evaluated]
  rw [List.filter_map]
  rfl

private theorem segmentCandidates_sublist (db : Database) (env : Env) (q : String) (req : SearchFiltersRequest) (allowed : List UUID)
    (restricted : Bool) : (segmentCandidates db env q req allowed restricted).Sublist (describedSegments db) := by
  rw [segmentCandidates]
  split_ifs
  · exact List.nil_sublist _
  · exact List.filter_sublist

private theorem alarmCandidates_sublist (db : Database) (env : Env) (q : String) (req : SearchFiltersRequest) (allowed : List UUID)
    (restricted : Bool) : (alarmCandidates db env q req allowed restricted).Sublist db.alarms.rows := by
  rw [alarmCandidates]
  split_ifs
  · exact List.nil_sublist _
  · exact List.filter_sublist

private theorem segmentCandidates_invisible : segmentCandidates db env q req [] true = [] := by
  rw [segmentCandidates]
  split_ifs
  · rfl
  · refine List.filter_eq_nil_iff.mpr fun row _ passes => ?_
    rw [segmentWhere, decide_eq_true_iff] at passes
    exact List.not_mem_nil (passes.2.2.2.2.2 rfl)

private theorem alarmCandidates_invisible : alarmCandidates db env q req [] true = [] := by
  rw [alarmCandidates]
  split_ifs
  · rfl
  · refine List.filter_eq_nil_iff.mpr fun row _ passes => ?_
    rw [alarmWhere, decide_eq_true_iff] at passes
    have seen := passes.2.2.2.2.2 rfl
    cases cast : castUUID row.cameraID with
    | none =>
      rw [cast] at seen
      cases seen
    | some id =>
      rw [cast] at seen
      cases seen

private theorem ranking_length_le {segments : List DescribedSegment} {alarms : List AlarmRow} (few : segments.length ≤ 50)
    (few' : alarms.length ≤ 50) : (ranking cfg env userID q req segments alarms).length ≤ 100 := by
  rw [(ranking_perm segments alarms).length_eq, List.length_append, List.length_map, List.length_map]
  have shown := List.length_filter_le (segmentShown cfg env userID q req) segments
  have shown' := List.length_filter_le (alarmShown env q req) alarms
  omega

private theorem length_first_le {ρ τ : Type*} [LinearOrder τ] {stream : Stream ρ} (whole : stream.delivered = none) {key : ρ → τ}
    {rows : List ρ} : (stream.first key rows).length ≤ 50 := by
  rw [first_eq whole]
  exact List.length_take_le _ _

/-- The answer is the ranking of the first fifty rows that each statement selects. -/
theorem handleSearchFrames_eq (cfg : MediaLinks.Config) {claims : Claims} (trimmed : RecoveryCodes.trimSpace req.query = q)
    (authorized : authorizedCameraIDs db.toDirectory (some claims) = .ok (allowed, restricted)) (quiet : Quiet env)
    (taken : StatementsTaken db env q req allowed restricted) :
    handleSearchFrames cfg db env (some claims) (some req) =
      .json 200 (ranking cfg env claims.userId q req
        (env.segments.first (segmentKey env.text q) (segmentCandidates db env q req allowed restricted))
        (env.alarms.first AlarmRow.ts (alarmCandidates db env q req allowed restricted))) := by
  simp only [handleSearchFrames, trimmed]
  by_cases blank : q = "" ∧ req.violationTypes = []
  · rw [if_pos blank, segmentCandidates, if_pos blank.1, alarmCandidates, if_pos blank, first_nil quiet.segments.2,
      first_nil quiet.alarms.2]
    rfl
  simp only [if_neg blank, authorized]
  by_cases nothing : restricted = true ∧ allowed = []
  · obtain ⟨rfl, rfl⟩ := nothing
    rw [if_pos ⟨rfl, rfl⟩, segmentCandidates_invisible, alarmCandidates_invisible, first_nil quiet.segments.2,
      first_nil quiet.alarms.2]
    rfl
  obtain ⟨texts, read⟩ := (taken.resolve_left blank).resolve_left nothing
  simp only [if_neg nothing, searchVLMSegments_eq quiet texts, searchAlarms_eq quiet texts blank read]
  rw [List.filter_append, List.filter_map, List.filter_map, List.filter_filter, List.filter_filter]
  -- Twice fifty rows are not cut.
  exact congrArg (Reply.json 200) (List.take_of_length_le
    (ranking_length_le (length_first_le quiet.segments.2) (length_first_le quiet.alarms.2)))

/-- A statement that is not taken is an error of the server. -/
theorem handleSearchFrames_refused (cfg : MediaLinks.Config) {claims : Claims} (trimmed : RecoveryCodes.trimSpace req.query = q)
    (authorized : authorizedCameraIDs db.toDirectory (some claims) = .ok (allowed, restricted)) (quiet : Quiet env)
    (refused : ¬ StatementsTaken db env q req allowed restricted) :
    ∃ err, handleSearchFrames cfg db env (some claims) (some req) = .error 500 err := by
  simp only [handleSearchFrames, trimmed]
  rw [StatementsTaken, not_or, not_or] at refused
  obtain ⟨blank, nothing, refused⟩ := refused
  simp only [if_neg blank, authorized, if_neg nothing]
  by_cases texts : storable q = true ∧ req.siteIDs.all storable = true
  · -- The texts are taken, so an alarm cannot be read.
    have unread : (db.alarms.rows.filter env.evaluates).findSome? (alarmError req restricted (parseDateRange req.dateRange)) ≠ none := by
      intro none_
      refine refused ⟨texts, fun row held evaluated => ?_⟩
      exact List.findSome?_eq_none_iff.mp none_ row (List.mem_filter.mpr ⟨held, evaluated⟩)
    obtain ⟨err, found⟩ := Option.ne_none_iff_exists'.mp unread
    refine ⟨err, ?_⟩
    simp only [searchVLMSegments_eq quiet texts, searchAlarms, quiet.alarms.1, texts, Bool.and_self, Bool.not_true, Bool.false_eq_true,
      if_false, found]
  · have refuses : (storable q && req.siteIDs.all storable) = false := by
      rw [Bool.and_eq_false_iff]
      by_cases own : storable q = true
      · exact .inr (Bool.eq_false_iff.mpr fun all => texts ⟨own, all⟩)
      · exact .inl (Bool.eq_false_iff.mpr own)
    have alarms : searchAlarms db env q req allowed restricted (parseDateRange req.dateRange) = .error encodingError := by
      rw [searchAlarms, quiet.alarms.1]
      simp only [refuses, Bool.not_false, if_true]
    by_cases empty : q = ""
    · exact ⟨encodingError, by simp only [searchVLMSegments, if_pos empty, alarms]⟩
    · refine ⟨encodingError, ?_⟩
      simp only [searchVLMSegments, if_neg empty, quiet.segments.1, refuses, Bool.not_false, if_true]

/-- In one order of the rows the answer is complete if the first fifty of each statement serve. -/
theorem answer_complete_iff (cfg : MediaLinks.Config) {claims : Claims} (trimmed : RecoveryCodes.trimSpace req.query = q)
    (authorized : authorizedCameraIDs db.toDirectory (some claims) = .ok (allowed, restricted)) (quiet : Quiet env)
    (taken : StatementsTaken db env q req allowed restricted) (segments : Scan DescribedSegment) (alarms : Scan AlarmRow) :
    (∃ list, handleSearchFrames cfg db (env.meeting segments alarms) (some claims) (some req) = .json 200 list ∧
        Complete cfg db env claims.userId q req allowed restricted list) ↔
      Serves (segmentShown cfg env claims.userId q req) (segmentFits env q req allowed restricted)
          ((describedSegments db).countP (segmentFits env q req allowed restricted))
          (((segments.arrange (segmentCandidates db env q req allowed restricted)).insertionSort fun first second =>
            segmentKey env.text q second ≤ segmentKey env.text q first).take 50) ∧
        Serves (alarmShown env q req) (alarmFits env q req allowed restricted)
          (db.alarms.rows.countP (alarmFits env q req allowed restricted))
          (((alarms.arrange (alarmCandidates db env q req allowed restricted)).insertionSort fun first second =>
            second.ts ≤ first.ts).take 50) := by
  have calm : Quiet (env.meeting segments alarms) := ⟨quiet.segments, quiet.alarms⟩
  have answer := handleSearchFrames_eq cfg trimmed authorized calm taken
  rw [first_eq calm.segments.2, first_eq calm.alarms.2] at answer
  rw [answer]
  simp only [Reply.json.injEq, true_and, exists_eq_left']
  refine complete_ranking_iff (fun row held => ?_) fun row held => ?_
  · have candidate := (ranked_newest segments _).perm.mem_iff.mp (List.mem_of_mem_take held)
    exact (segmentCandidates_sublist db env q req allowed restricted).subset candidate
  · have candidate := (ranked_newest alarms _).perm.mem_iff.mp (List.mem_of_mem_take held)
    exact (alarmCandidates_sublist db env q req allowed restricted).subset candidate

private theorem countP_shown_le {ρ : Type*} {selected all : List ρ} {shown fits : ρ → Bool} (sub : selected.Sublist all) :
    selected.countP (fun row => shown row && fits row) ≤ all.countP fits :=
  (List.countP_mono_left fun _ _ both => (Bool.and_eq_true_iff.mp both).2).trans sub.countP_le

end Handler

private def supervisor : Claims where
  userId := "00000000-0000-0000-0000-000000000001"
  username := "soc"
  role := .socSupervisor
  organizationId := ""

private def bareHead : AlarmRow where
  id := "alarm-0"
  cameraID := "00000000-0000-0000-0000-00000000000a"
  cameraName := "gate"
  siteID := "site-1"
  siteName := "Yard"
  ts := 1750000000500
  type := "ppe"
  description := "no hard hat"
  aiDescription := none
  aiPpeViolations := some "[\x7b\"class\":\"no-hat\"\x7d]"
  aiDetections := none
  snapshotURL := none
  clipURL := none
  aiFalsePositivePct := none

/-- A described recording of a man without a hard hat, his alarm, and others that are later. -/
private def site (others : List AlarmRow) (distinct : ((bareHead :: others).map AlarmRow.id).Nodup) : Database where
  users := .empty
  sites := .empty
  cameras := .single { id := ⟨10⟩, name := "gate", siteId := some "site-1" }
  descriptions := .single ⟨7, ⟨10⟩, "a man at the gate", ["no hard hat"], "[]"⟩
  segments := .single ⟨7, 1749999960000000000, 1750000000000000000, ""⟩
  alarms := ⟨bareHead :: others, distinct⟩

private def calm : Env where
  segments := { scan := .inOrder }
  alarms := { scan := .inOrder }
  text := { lower := id, toLower := id, describes := fun _ _ => true, rank := fun _ _ => 1 / 10 }
  hour := utcHour
  evaluates := fun _ => true
  walk := .inOrder
  stamp := fun _ => ⟨⟨5⟩, 0, 0⟩
  tenths := fun _ => 0

private def helmets (query : String) : SearchFiltersRequest where
  query
  violationTypes := ["no_hard_hat"]

private def later : List AlarmRow :=
  (List.range 50).map fun n => { bareHead with id := toString n, ts := 1750000001000 + n, aiPpeViolations := none }

/-- The answer to a request, and whether it is complete. -/
private def judged (others : List AlarmRow) (distinct : ((bareHead :: others).map AlarmRow.id).Nodup) (req : SearchFiltersRequest) :
    Option (List String × Bool) :=
  match handleSearchFrames ⟨"", "", ""⟩ (site others distinct) calm (some supervisor) (some req) with
  | .json 200 list => some (list.map SearchFrameResult.frameID,
      decide (Complete ⟨"", "", ""⟩ (site others distinct) calm supervisor.userId (RecoveryCodes.trimSpace req.query) req [] false list))
  | _ => none

end Ironsight.FrameSearch
