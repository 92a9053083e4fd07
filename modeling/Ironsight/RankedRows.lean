import Ironsight.Tables

/-! Rows in descending order of a key, as a query with `ORDER BY … DESC` delivers them: rows of
one key come in any order, and in another one the next time. What a limit, a filter behind it
and a division into pages make of them depends on how many rows are above a key. -/
namespace Ironsight.RankedRows

variable {ρ τ : Type*} [LinearOrder τ] {key : ρ → τ} {rows ordered : List ρ} {row : ρ} {i : Nat}

/-- An order in which the rows may come. -/
structure Ranked (key : ρ → τ) (rows ordered : List ρ) : Prop where
  perm : ordered.Perm rows
  sorted : ordered.Pairwise fun first second => key second ≤ key first

def above (key : ρ → τ) (rows : List ρ) (t : τ) : Nat := rows.countP fun row => t < key row

def notBelow (key : ρ → τ) (rows : List ρ) (t : τ) : Nat := rows.countP fun row => t ≤ key row

/-! ## Positions -/

/-- Where a predicate holds on a front part, that part is as long as the predicate's count. -/
theorem getElem?_front {l : List ρ} {holds : ρ → Bool} (front : l.Pairwise fun first second => holds second = true → holds first = true)
    (at_ : l[i]? = some row) : holds row = true ↔ i < l.countP holds := by
  induction l generalizing i with
  | nil => simp at at_
  | cons first rest ih =>
    obtain ⟨before, later⟩ := List.pairwise_cons.mp front
    cases own : holds first with
    | true =>
      rw [List.countP_cons_of_pos own]
      cases i with
      | zero =>
        cases at_
        simp [own]
      | succ i =>
        rw [ih later at_]
        omega
    | false =>
      have none_ : ∀ other ∈ rest, holds other = false := fun other held =>
        Bool.eq_false_iff.mpr fun holding => Bool.eq_false_iff.mp own (before other held holding)
      have empty : rest.countP holds = 0 := List.countP_eq_zero.mpr fun other held => Bool.eq_false_iff.mp (none_ other held)
      rw [List.countP_cons_of_neg (Bool.eq_false_iff.mp own), empty]
      refine iff_of_false (Bool.eq_false_iff.mp ?_) (Nat.not_lt_zero i)
      rcases List.mem_cons.mp (List.mem_of_getElem? at_) with rfl | held
      · exact own
      · exact none_ row held

theorem Ranked.above_iff (ranked : Ranked key rows ordered) (at_ : ordered[i]? = some row) (t : τ) :
    t < key row ↔ i < above key rows t := by
  have front : ordered.Pairwise fun first second => decide (t < key second) = true → decide (t < key first) = true :=
    ranked.sorted.imp fun order higher => decide_eq_true (lt_of_lt_of_le (of_decide_eq_true higher) order)
  rw [above, ← ranked.perm.countP_eq, ← getElem?_front front at_, decide_eq_true_iff]

theorem Ranked.notBelow_iff (ranked : Ranked key rows ordered) (at_ : ordered[i]? = some row) (t : τ) :
    t ≤ key row ↔ i < notBelow key rows t := by
  have front : ordered.Pairwise fun first second => decide (t ≤ key second) = true → decide (t ≤ key first) = true :=
    ranked.sorted.imp fun order higher => decide_eq_true (le_trans (of_decide_eq_true higher) order)
  rw [notBelow, ← ranked.perm.countP_eq, ← getElem?_front front at_, decide_eq_true_iff]

/-- A row stands behind those above it and among those not below it. -/
theorem Ranked.position (ranked : Ranked key rows ordered) (at_ : ordered[i]? = some row) :
    above key rows (key row) ≤ i ∧ i < notBelow key rows (key row) :=
  ⟨not_lt.mp fun before => lt_irrefl _ ((ranked.above_iff at_ (key row)).mpr before), (ranked.notBelow_iff at_ (key row)).mp le_rfl⟩

theorem Ranked.filter (ranked : Ranked key rows ordered) (p : ρ → Bool) :
    Ranked key (rows.filter p) (ordered.filter p) :=
  ⟨ranked.perm.filter p, ranked.sorted.filter p⟩

/-! ## Orders -/

/-- Rows of one key with those first that a predicate favours. -/
def favouring (key : ρ → τ) (p : ρ → Bool) (rows : List ρ) : List ρ :=
  rows.insertionSort fun first second => key second < key first ∨ key second = key first ∧ (p second = true → p first = true)

theorem pairwise_favouring (key : ρ → τ) (p : ρ → Bool) (rows : List ρ) :
    (favouring key p rows).Pairwise fun first second =>
    key second < key first ∨ key second = key first ∧ (p second = true → p first = true) := by
  have total : Std.Total fun first second : ρ =>
      key second < key first ∨ key second = key first ∧ (p second = true → p first = true) := by
    refine ⟨fun first second => ?_⟩
    rcases lt_trichotomy (key first) (key second) with less | same | more
    · exact .inr (.inl less)
    · cases own : p first with
      | true => exact .inl (.inr ⟨same.symm, fun _ => rfl⟩)
      | false => exact .inr (.inr ⟨same, nofun⟩)
    · exact .inl (.inl more)
  have trans : IsTrans ρ fun first second =>
      key second < key first ∨ key second = key first ∧ (p second = true → p first = true) := by
    refine ⟨fun first second third => ?_⟩
    rintro (less | ⟨same, favoured⟩) (less' | ⟨same', favoured'⟩)
    · exact .inl (less'.trans less)
    · exact .inl (same' ▸ less)
    · exact .inl (same ▸ less')
    · exact .inr ⟨same'.trans same, favoured ∘ favoured'⟩
  exact List.pairwise_insertionSort _ _

theorem ranked_favouring (key : ρ → τ) (p : ρ → Bool) (rows : List ρ) : Ranked key rows (favouring key p rows) where
  perm := List.perm_insertionSort _ _
  sorted := (pairwise_favouring key p rows).imp fun order => order.elim le_of_lt fun same => same.1.le

/-- The rows with those of one key in a given order. -/
def regrouped (key : ρ → τ) (rows : List ρ) (t : τ) (group : List ρ) : List ρ :=
  favouring key (fun _ => true) (rows.filter fun row => t < key row) ++
    (group ++ favouring key (fun _ => true) (rows.filter fun row => key row < t))

theorem length_regrouped_front (t : τ) :
    (favouring key (fun _ => true) (rows.filter fun row => t < key row)).length = above key rows t := by
  rw [(ranked_favouring key _ _).perm.length_eq, above, List.countP_eq_length_filter]

theorem ranked_regrouped {t : τ} {group : List ρ} (perm : group.Perm (rows.filter fun row => key row = t)) :
    Ranked key rows (regrouped key rows t group) where
  perm := by
    refine ((ranked_favouring key _ _).perm.append (perm.append (ranked_favouring key _ _).perm)).trans ?_
    have parts := List.filter_append_perm (fun row => decide (t < key row)) rows
    have rest := List.filter_append_perm (fun row => decide (key row = t)) (rows.filter fun row => !decide (t < key row))
    rw [List.filter_filter, List.filter_filter] at rest
    have same : (rows.filter fun row => decide (key row = t) && !decide (t < key row)) = rows.filter fun row => key row = t := by
      refine List.filter_congr fun row _ => ?_
      rw [Bool.and_eq_left_iff_imp, Bool.not_eq_true', decide_eq_false_iff_not, decide_eq_true_iff]
      exact fun same => same ▸ lt_irrefl _
    have below : (rows.filter fun row => !decide (key row = t) && !decide (t < key row)) = rows.filter fun row => key row < t := by
      refine List.filter_congr fun row _ => ?_
      rw [Bool.eq_iff_iff, Bool.and_eq_true, Bool.not_eq_true', Bool.not_eq_true', decide_eq_false_iff_not, decide_eq_false_iff_not,
        decide_eq_true_iff, not_lt]
      exact ⟨fun ⟨differs, le⟩ => lt_of_le_of_ne le differs, fun less => ⟨less.ne, less.le⟩⟩
    rw [same, below] at rest
    exact (rest.append_left _).trans parts
  sorted := by
    have higher : ∀ row ∈ favouring key (fun _ => true) (rows.filter fun row => t < key row), t < key row := fun row held =>
      of_decide_eq_true (List.mem_filter.mp ((ranked_favouring key _ _).perm.mem_iff.mp held)).2
    have lower : ∀ row ∈ favouring key (fun _ => true) (rows.filter fun row => key row < t), key row < t := fun row held =>
      of_decide_eq_true (List.mem_filter.mp ((ranked_favouring key _ _).perm.mem_iff.mp held)).2
    have equal : ∀ row ∈ group, key row = t := fun row held => of_decide_eq_true (List.mem_filter.mp (perm.mem_iff.mp held)).2
    refine List.pairwise_append.mpr ⟨(ranked_favouring key _ _).sorted, List.pairwise_append.mpr ⟨?_, (ranked_favouring key _ _).sorted, ?_⟩, ?_⟩
    · exact List.pairwise_of_forall_mem_list fun first held second held' => (equal second held').trans_le (equal first held).ge
    · exact fun first held second held' => (lower second held').le.trans (equal first held).ge
    · intro first held second held'
      rcases List.mem_append.mp held' with held' | held'
      · exact (equal second held').trans_le (higher first held).le
      · exact (lower second held').le.trans (higher first held).le

/-- A row that fewer than `n` are above comes among the first `n` in some order. -/
theorem exists_in_front {n : Nat} (here : row ∈ rows) (few : above key rows (key row) < n) :
    ∃ ordered, Ranked key rows ordered ∧ row ∈ ordered.take n := by
  classical
  have group : row ∈ rows.filter fun other => key other = key row := List.mem_filter.mpr ⟨here, decide_eq_true rfl⟩
  have ranked : Ranked key rows (regrouped key rows (key row) (row :: (rows.filter fun other => key other = key row).erase row)) :=
    ranked_regrouped (List.perm_cons_erase group).symm
  refine ⟨_, ranked, List.mem_iff_getElem?.mpr ⟨above key rows (key row), ?_⟩⟩
  rw [List.getElem?_take, if_pos few, regrouped, List.getElem?_append_right (length_regrouped_front _).le, length_regrouped_front,
    Nat.sub_self]
  rfl

/-! ## Scans -/

section Scans
open Tables

/-- `ORDER BY key DESC` over what a scan meets. -/
theorem ranked_newest (scan : Scan ρ) (rows : List ρ) :
    Ranked key rows ((scan.arrange rows).insertionSort fun first second => key second ≤ key first) where
  perm := (List.perm_insertionSort _ _).trans (scan.perm rows)
  sorted := by
    have total : Std.Total fun first second : ρ => key second ≤ key first := ⟨fun first second => le_total (key second) (key first)⟩
    have trans : IsTrans ρ fun first second => key second ≤ key first := ⟨fun _ _ _ later latest => le_trans latest later⟩
    exact List.pairwise_insertionSort _ _

/-- Every order of the rows is one that some scan meets them in. -/
theorem exists_scan (ranked : Ranked key rows ordered) :
    ∃ scan : Scan ρ, ((scan.arrange rows).insertionSort fun first second => key second ≤ key first) = ordered := by
  classical
  refine ⟨⟨fun selected => if selected = rows then ordered else selected, fun selected => ?_⟩, ?_⟩
  · split_ifs with same
    · exact same ▸ ranked.perm
    · exact .refl _
  · dsimp only
    rw [if_pos rfl]
    exact ranked.sorted.insertionSort_eq

end Scans

/-! ## A filter behind a limit -/

/-- Filtering the first rows gives the first of the filtered ones if enough of them are there. -/
theorem filter_take_eq_iff {p : ρ → Bool} {n : Nat} (l : List ρ) :
    (l.take n).filter p = (l.filter p).take n ↔ min n (l.countP p) ≤ (l.take n).countP p := by
  constructor
  · intro same
    have lengths := congrArg List.length same
    rw [List.length_take, ← List.countP_eq_length_filter, ← List.countP_eq_length_filter] at lengths
    exact lengths.ge
  · intro enough
    have front : (l.take n).filter p <+: l.filter p := (List.take_prefix n l).filter p
    refine (List.prefix_take_iff.mpr ⟨front, ?_⟩).eq_of_length_le ?_
    · exact (List.length_filter_le _ _).trans (List.length_take_le _ _)
    · rw [List.length_take, ← List.countP_eq_length_filter, ← List.countP_eq_length_filter]
      exact enough

private theorem countP_take_add_drop (p : ρ → Bool) (n : Nat) (l : List ρ) :
    (l.take n).countP p + (l.drop n).countP p = l.countP p := by
  rw [← List.countP_append, List.take_append_drop]

/-- A passing row stays behind the limit if the others of its key come first. -/
private theorem passing_behind {p : ρ → Bool} {n : Nat} (here : row ∈ rows) (passes : p row = true) (late : n < notBelow key rows (key row)) :
    0 < ((favouring key (fun row => !p row) rows).drop n).countP p := by
  have ranked := ranked_favouring key (fun row => !p row) rows
  refine Nat.pos_of_ne_zero fun none_ => ?_
  have others := List.countP_eq_zero.mp none_
  have inside : n < (favouring key (fun row => !p row) rows).length := by
    rw [ranked.perm.length_eq]
    exact late.trans_le List.countP_le_length
  have at_ := List.getElem?_eq_getElem inside
  have behind := List.mem_iff_getElem?.mpr ⟨0, (List.getElem?_drop.trans at_ : ((favouring key _ rows).drop n)[0]? = _)⟩
  have order := pairwise_favouring key (fun row => !p row) rows
  rw [← List.take_append_drop n (favouring key _ rows)] at order
  have front : row ∈ (favouring key (fun row => !p row) rows).take n := by
    have held := ranked.perm.mem_iff.mpr here
    rw [← List.take_append_drop n (favouring key _ rows)] at held
    exact (List.mem_append.mp held).resolve_right fun held => others row held passes
  rcases (List.pairwise_append.mp order).2.2 row front _ behind with lower | ⟨_, favoured⟩
  · exact not_le.mpr lower ((ranked.notBelow_iff at_ (key row)).mpr late)
  · have rejected := favoured (by simpa using others _ behind)
    simp [passes] at rejected

/-- A row that does not pass comes before the limit if it comes first among those of its key. -/
private theorem other_in_front {p : ρ → Bool} {n : Nat} (here : row ∈ rows) (rejected : p row = false)
    (early : above key (rows.filter p) (key row) < n) : ((favouring key (fun row => !p row) rows).take n).countP p < n := by
  have ranked := ranked_favouring key (fun row => !p row) rows
  refine lt_of_le_of_ne (List.countP_le_length.trans (List.length_take_le _ _)) fun full => ?_
  have whole : ((favouring key (fun row => !p row) rows).take n).countP p = ((favouring key (fun row => !p row) rows).take n).length :=
    le_antisymm List.countP_le_length ((List.length_take_le _ _).trans full.ge)
  have passing := List.countP_eq_length.mp whole
  have order := pairwise_favouring key (fun row => !p row) rows
  rw [← List.take_append_drop n (favouring key _ rows)] at order
  have behind : row ∈ (favouring key (fun row => !p row) rows).drop n := by
    have held := ranked.perm.mem_iff.mpr here
    rw [← List.take_append_drop n (favouring key _ rows)] at held
    refine (List.mem_append.mp held).resolve_left fun held => ?_
    rw [passing row held] at rejected
    cases rejected
  have higher : ∀ other ∈ (favouring key (fun row => !p row) rows).take n, key row < key other := by
    intro other front
    refine ((List.pairwise_append.mp order).2.2 other front row behind).resolve_right fun ⟨_, favoured⟩ => ?_
    have against := favoured (by simp [rejected])
    simp [passing other front] at against
  have counted : n ≤ above key ((favouring key (fun row => !p row) rows).filter p) (key row) := by
    rw [above, List.countP_filter, ← countP_take_add_drop _ n]
    refine le_trans (full.ge.trans whole.le) (le_trans (le_of_eq (List.countP_eq_length.mpr ?_).symm) (Nat.le_add_right _ _))
    intro other front
    rw [passing other front, Bool.and_true]
    exact decide_eq_true (higher other front)
  rw [above, (ranked.perm.filter p).countP_eq] at counted
  exact not_lt.mpr counted early

/-- In whatever order the rows come, enough of the first `n` pass a filter: the passing rows are
among the first, or the first are passing. -/
theorem enough_iff {p : ρ → Bool} {n : Nat} :
    (∀ ordered, Ranked key rows ordered → min n (rows.countP p) ≤ (ordered.take n).countP p) ↔
      (∀ row ∈ rows, p row = true → notBelow key rows (key row) ≤ n) ∨
        ∀ row ∈ rows, p row = false → n ≤ above key (rows.filter p) (key row) := by
  constructor
  · intro enough
    by_contra neither
    push Not at neither
    obtain ⟨⟨late, here, passes, behind⟩, other, here', rejected, early⟩ := neither
    have ranked := ranked_favouring key (fun row => !p row) rows
    have parts := countP_take_add_drop p n (favouring key (fun row => !p row) rows)
    rw [ranked.perm.countP_eq] at parts
    have outside := passing_behind here passes behind
    have inside := other_in_front here' rejected early
    have least := enough _ ranked
    omega
  · rintro (first | passing) ordered ranked
    · have none_ : (ordered.drop n).countP p = 0 := by
        refine List.countP_eq_zero.mpr fun row held passes => ?_
        obtain ⟨i, at_⟩ := List.mem_iff_getElem?.mp held
        rw [List.getElem?_drop] at at_
        have bound := first row (ranked.perm.mem_iff.mp (List.mem_of_getElem? at_)) passes
        have place := (ranked.position at_).2
        omega
      have parts := countP_take_add_drop p n ordered
      rw [ranked.perm.countP_eq] at parts
      omega
    · have all : (ordered.take n).countP p = (ordered.take n).length := by
        refine List.countP_eq_length.mpr fun row held => ?_
        by_contra rejected
        obtain ⟨i, at_⟩ := List.mem_iff_getElem?.mp held
        rw [List.getElem?_take, Option.ite_none_right_eq_some] at at_
        obtain ⟨inside, at_⟩ := at_
        have bound := passing row (ranked.perm.mem_iff.mp (List.mem_of_getElem? at_)) (Bool.eq_false_iff.mpr rejected)
        have fewer : above key (rows.filter p) (key row) ≤ above key rows (key row) := (List.filter_sublist).countP_le
        have place := (ranked.position at_).1
        omega
      have length : rows.countP p ≤ ordered.length := by
        rw [ranked.perm.length_eq]
        exact List.countP_le_length
      rw [all, List.length_take]
      omega

/-- In whatever order the rows come, the passing ones of the first `n` are wanted exactly if no
unwanted one that passes can come so far to the front. -/
theorem front_wanted_iff {p q : ρ → Bool} {n : Nat} :
    (∀ ordered, Ranked key rows ordered → ∀ row ∈ ordered.take n, p row = true → q row = true) ↔
      ∀ row ∈ rows, p row = true → q row = false → n ≤ above key rows (key row) := by
  constructor
  · intro clean row here passes unwanted
    by_contra few
    obtain ⟨ordered, ranked, held⟩ := exists_in_front here (not_le.mp few)
    rw [clean ordered ranked row held passes] at unwanted
    cases unwanted
  · intro late ordered ranked row held passes
    by_contra unwanted
    obtain ⟨i, at_⟩ := List.mem_iff_getElem?.mp held
    rw [List.getElem?_take, Option.ite_none_right_eq_some] at at_
    have bound := late row (ranked.perm.mem_iff.mp (List.mem_of_mem_take held)) passes (Bool.eq_false_iff.mpr unwanted)
    have place := (ranked.position at_.2).1
    omega

/-- A limit of `n` before the filter `passes` does no harm to what is wanted: no unwanted row that
passes is among the first `n`, and the wanted ones are all there or fill them. Ties may fall in any
way, so a row counts as in front of those of its own key, or as behind them, whichever is worse. -/
def LimitKeepsWanted (key : ρ → τ) (n : Nat) (passes wanted : ρ → Bool) (rows : List ρ) : Prop :=
  (∀ row ∈ rows, passes row = true → wanted row = false → n ≤ above key rows (key row)) ∧
    ((∀ row ∈ rows, wanted row = true → notBelow key rows (key row) ≤ n) ∨
      ∀ row ∈ rows, wanted row = false → n ≤ above key (rows.filter wanted) (key row))

/-- In whatever order the rows come, filtering the first `n` by `p` gives the first of the rows
that `q` wants. -/
theorem filtered_iff {p q : ρ → Bool} {n : Nat} (weaker : ∀ row ∈ rows, q row = true → p row = true) :
    (∀ ordered, Ranked key rows ordered → ∃ wanted, Ranked key (rows.filter q) wanted ∧ (ordered.take n).filter p = wanted.take n) ↔
      LimitKeepsWanted key n p q rows := by
  have same {ordered : List ρ} (ranked : Ranked key rows ordered)
      (clean : ∀ row ∈ ordered.take n, p row = true → q row = true) : (ordered.take n).filter p = (ordered.take n).filter q :=
    List.filter_congr fun row held => Bool.eq_iff_iff.mpr
      ⟨clean row held, weaker row (ranked.perm.mem_iff.mp (List.mem_of_mem_take held))⟩
  constructor
  · intro always
    have clean : ∀ ordered, Ranked key rows ordered → ∀ row ∈ ordered.take n, p row = true → q row = true := by
      intro ordered ranked row held passes
      obtain ⟨wanted, ranked', eq⟩ := always ordered ranked
      have through : row ∈ (ordered.take n).filter p := List.mem_filter.mpr ⟨held, passes⟩
      rw [eq] at through
      exact (List.mem_filter.mp (ranked'.perm.mem_iff.mp (List.mem_of_mem_take through))).2
    refine ⟨front_wanted_iff.mp clean, enough_iff.mp fun ordered ranked => ?_⟩
    obtain ⟨wanted, ranked', eq⟩ := always ordered ranked
    rw [same ranked (clean ordered ranked)] at eq
    have lengths := congrArg List.length eq
    rw [List.length_take, ranked'.perm.length_eq, ← List.countP_eq_length_filter, ← List.countP_eq_length_filter] at lengths
    exact lengths.ge
  · rintro ⟨late, enough⟩ ordered ranked
    refine ⟨ordered.filter q, ranked.filter q, ?_⟩
    rw [same ranked (front_wanted_iff.mpr late ordered ranked), filter_take_eq_iff, ranked.perm.countP_eq]
    exact enough_iff.mpr enough ordered ranked

/-- In whatever order the rows come, the passing ones of the first `n` are as `q` asks and as many
as there are to be: `n` of them, or all of `total` if that is less. -/
theorem shown_enough_iff {p q : ρ → Bool} {n total : Nat} (counted : rows.countP (fun row => p row && q row) ≤ total) :
    (∀ ordered, Ranked key rows ordered →
        (∀ row ∈ ordered.take n, p row = true → q row = true) ∧ min n total ≤ (ordered.take n).countP p) ↔
      LimitKeepsWanted key n p (fun row => p row && q row) rows ∧ min n total ≤ rows.countP fun row => p row && q row := by
  have same {ordered : List ρ} (clean : ∀ row ∈ ordered.take n, p row = true → q row = true) :
      (ordered.take n).countP p = (ordered.take n).countP fun row => p row && q row :=
    List.countP_congr fun row held => by simpa using clean row held
  have unwanted (row : ρ) (passes : p row = true) : (p row && q row) = q row := by rw [passes, Bool.true_and]
  constructor
  · intro always
    have clean := front_wanted_iff.mp fun ordered ranked => (always ordered ranked).1
    have least (ordered : List ρ) (ranked : Ranked key rows ordered) :
        min n total ≤ (ordered.take n).countP fun row => p row && q row :=
      (always ordered ranked).2.trans_eq (same (always ordered ranked).1)
    refine ⟨⟨fun row here passes rejected => clean row here passes (unwanted row passes ▸ rejected), enough_iff.mp fun ordered ranked => ?_⟩, ?_⟩
    · exact (le_min (min_le_left n _) ((min_le_right n _).trans counted)).trans (least ordered ranked)
    · have ranked := ranked_favouring key p rows
      exact (least _ ranked).trans (((List.take_sublist n _).countP_le).trans_eq (ranked.perm.countP_eq _))
  · rintro ⟨⟨late, enough⟩, least⟩ ordered ranked
    have clean := front_wanted_iff.mpr (fun row here passes rejected =>
      late row here passes ((unwanted row passes).trans rejected)) ordered ranked
    refine ⟨clean, ?_⟩
    rw [same clean]
    exact (le_min (min_le_left n total) least).trans (enough_iff.mpr enough ordered ranked)

/-! ## Pages -/

/-- The rows of a page. -/
def window (size page : Nat) (ordered : List ρ) : List ρ := (ordered.drop (page * size)).take size

/-- No page ends among rows of one key. -/
def Together (key : ρ → τ) (size : Nat) (rows : List ρ) : Prop :=
  ∀ row ∈ rows, ∀ page, ¬ (above key rows (key row) < page * size ∧ page * size < notBelow key rows (key row))

theorem windows_join (size pages : Nat) (ordered : List ρ) :
    ((List.range pages).flatMap fun page => window size page ordered) = ordered.take (pages * size) := by
  induction pages with
  | zero => simp
  | succ pages ih =>
    rw [List.range_succ, List.flatMap_append, ih, List.flatMap_singleton, window, ← List.take_add, Nat.succ_mul]

/-- A row is on the page that the first of its key is on. -/
private theorem Ranked.page_eq {size : Nat} (together : Together key size rows) (positive : 0 < size)
    (ranked : Ranked key rows ordered) (at_ : ordered[i]? = some row) : above key rows (key row) / size = i / size := by
  obtain ⟨before, within⟩ := ranked.position at_
  have here := ranked.perm.mem_iff.mp (List.mem_of_getElem? at_)
  by_contra differs
  have less : above key rows (key row) / size < i / size := lt_of_le_of_ne (Nat.div_le_div_right before) differs
  exact together row here (i / size) ⟨(Nat.div_lt_iff_lt_mul positive).mp less, (Nat.div_mul_le_self i size).trans_lt within⟩

private theorem window_eq_filter {size page : Nat} {pageOf : ρ → Nat} (positive : 0 < size) (l : List ρ)
    (paged : ∀ i row, l[i]? = some row → pageOf row = i / size) : window size page l = l.filter fun row => pageOf row = page := by
  have front : ((l.take (page * size)).filter fun row => pageOf row = page) = [] := by
    refine List.filter_eq_nil_iff.mpr fun row held => ?_
    obtain ⟨i, at_⟩ := List.mem_iff_getElem?.mp held
    rw [List.getElem?_take, Option.ite_none_right_eq_some] at at_
    rw [decide_eq_true_iff, paged i row at_.2]
    exact ((Nat.div_lt_iff_lt_mul positive).mpr at_.1).ne
  have back : (((l.drop (page * size)).drop size).filter fun row => pageOf row = page) = [] := by
    refine List.filter_eq_nil_iff.mpr fun row held => ?_
    obtain ⟨i, at_⟩ := List.mem_iff_getElem?.mp held
    rw [List.getElem?_drop, List.getElem?_drop] at at_
    rw [decide_eq_true_iff, paged _ row at_]
    refine (lt_of_lt_of_le (Nat.lt_succ_self page) ((Nat.le_div_iff_mul_le positive).mpr ?_)).ne'
    rw [Nat.succ_mul]
    omega
  have middle : (window size page l).filter (fun row => pageOf row = page) = window size page l := by
    refine List.filter_eq_self.mpr fun row held => ?_
    obtain ⟨i, at_⟩ := List.mem_iff_getElem?.mp held
    rw [window, List.getElem?_take, Option.ite_none_right_eq_some, List.getElem?_drop] at at_
    rw [decide_eq_true_iff, paged _ row at_.2, Nat.add_comm, Nat.add_mul_div_right i page positive, Nat.div_eq_of_lt at_.1, Nat.zero_add]
  calc window size page l
      = (window size page l).filter fun row => pageOf row = page := middle.symm
    _ = ((l.take (page * size)).filter fun row => pageOf row = page) ++
          (((window size page l).filter fun row => pageOf row = page) ++
            ((l.drop (page * size)).drop size).filter fun row => pageOf row = page) := by rw [front, back, List.nil_append, List.append_nil]
    _ = l.filter fun row => pageOf row = page := by
      rw [window, ← List.filter_append, List.take_append_drop, ← List.filter_append, List.take_append_drop]

/-- If no page ends among rows of one key, the pages have every row once, though each comes from
an order of its own. -/
theorem windows_perm {size pages : Nat} {choose : Nat → List ρ} (positive : 0 < size) (together : Together key size rows)
    (ranked : ∀ page, Ranked key rows (choose page)) (covered : rows.length ≤ pages * size) :
    ((List.range pages).flatMap fun page => window size page (choose page)).Perm rows := by
  have paged (page : Nat) : window size page (choose page) =
      (choose page).filter fun row => above key rows (key row) / size = page :=
    window_eq_filter positive _ fun i row at_ => (ranked page).page_eq together positive at_
  have fixed (page : Nat) : window size page (choose 0) = (choose 0).filter fun row => above key rows (key row) / size = page :=
    window_eq_filter positive _ fun i row at_ => (ranked 0).page_eq together positive at_
  have same (page : Nat) : (window size page (choose page)).Perm (window size page (choose 0)) := by
    rw [paged, fixed]
    exact ((ranked page).perm.trans (ranked 0).perm.symm).filter _
  refine (List.Perm.flatMap_left _ fun page _ => same page).trans ?_
  rw [windows_join, List.take_of_length_le ((ranked 0).perm.length_eq.trans_le covered)]
  exact (ranked 0).perm

theorem notBelow_eq (t : τ) : notBelow key rows t = above key rows t + (rows.filter fun row => key row = t).length := by
  rw [← List.countP_eq_length_filter]
  induction rows with
  | nil => rfl
  | cons row rows ih =>
    simp only [notBelow, above, List.countP_cons, decide_eq_true_eq] at ih ⊢
    rcases lt_trichotomy (key row) t with less | same | more
    · simp only [not_le.mpr less, less.ne, less.not_gt, if_false]
      omega
    · simp only [same, le_refl, lt_irrefl, if_true, if_false]
      omega
    · simp only [more.le, more, more.ne', if_true, if_false]
      omega

private theorem getElem?_regrouped {t : τ} {before after : List ρ} :
    (regrouped key rows t (before ++ row :: after))[above key rows t + before.length]? = some row := by
  rw [regrouped, List.getElem?_append_right (by rw [length_regrouped_front]; exact Nat.le_add_right _ _), length_regrouped_front,
    Nat.add_sub_cancel_left, List.append_assoc, List.getElem?_append_right le_rfl, Nat.sub_self]
  rfl

private theorem mem_window {size page : Nat} (at_ : ordered[i]? = some row) (low : page * size ≤ i) (high : i < page * size + size) :
    row ∈ window size page ordered := by
  refine List.mem_iff_getElem?.mpr ⟨i - page * size, ?_⟩
  rw [window, List.getElem?_take, if_pos (by omega), List.getElem?_drop, Nat.add_sub_cancel' low]
  exact at_

private theorem exists_split {l : List ρ} {m : Nat} (inside : m + 1 < l.length) :
    ∃ before first second after, l = before ++ first :: second :: after ∧ before.length = m := by
  refine ⟨l.take m, l[m], l[m + 1], l.drop (m + 2), ?_, List.length_take_of_le (by omega)⟩
  rw [← List.drop_eq_getElem_cons, ← List.drop_eq_getElem_cons, List.take_append_drop]

/-- If the pages never have a row twice, in whatever orders they come, no page ends among rows
of one key. -/
theorem together_of_nodup {size pages : Nat} (covered : rows.length ≤ pages * size)
    (nodup : ∀ choose : Nat → List ρ, (∀ page, Ranked key rows (choose page)) →
      ((List.range pages).flatMap fun page => window size page (choose page)).Nodup) : Together key size rows := by
  rintro row here page ⟨before, behind⟩
  have length : notBelow key rows (key row) = above key rows (key row) + (rows.filter fun other => key other = key row).length :=
    notBelow_eq (key row)
  have bound : notBelow key rows (key row) ≤ rows.length := List.countP_le_length
  have later : page < pages := Nat.lt_of_mul_lt_mul_right (behind.trans_le (bound.trans covered))
  obtain ⟨page, rfl⟩ : ∃ earlier, page = earlier + 1 := Nat.exists_eq_succ_of_ne_zero (by rintro rfl; omega)
  have positive : 0 < size := Nat.pos_of_ne_zero (by rintro rfl; simp at before)
  rw [Nat.succ_mul] at before behind
  -- The last row of the earlier page and the first of the later one change places.
  obtain ⟨front, first, second, rest, split, place⟩ := exists_split (l := rows.filter fun other => key other = key row)
    (m := page * size + size - 1 - above key rows (key row)) (by omega)
  have ranked : Ranked key rows (regrouped key rows (key row) (rows.filter fun other => key other = key row)) :=
    ranked_regrouped (.refl _)
  have swapped : (front ++ second :: first :: rest).Perm (rows.filter fun other => key other = key row) := by
    rw [split]
    exact (List.Perm.swap first second rest).append_left front
  have ranked' := ranked_regrouped swapped
  rw [split] at ranked
  let choose (k : Nat) : List ρ :=
    if k = page then regrouped key rows (key row) (front ++ first :: second :: rest)
    else regrouped key rows (key row) (front ++ second :: first :: rest)
  have disjoint := (List.nodup_flatMap.mp (nodup choose fun k => by unfold choose; split <;> assumption)).2
  have apart := List.pairwise_iff_getElem.mp disjoint page (page + 1) (by rw [List.length_range]; omega)
    (by rw [List.length_range]; omega) (Nat.lt_succ_self page)
  simp only [List.getElem_range, Function.onFun] at apart
  refine apart (a := first) ?_ ?_
  · refine mem_window (i := above key rows (key row) + front.length) ?_ (by omega) (by omega)
    rw [show choose page = _ from if_pos rfl]
    exact getElem?_regrouped
  · refine mem_window (i := above key rows (key row) + front.length + 1) ?_ (by rw [Nat.succ_mul]; omega) (by rw [Nat.succ_mul]; omega)
    rw [show choose (page + 1) = _ from if_neg (Nat.succ_ne_self page)]
    have at_ : (regrouped key rows (key row) ((front ++ [second]) ++ first :: rest))[above key rows (key row) +
        (front ++ [second]).length]? = some first := getElem?_regrouped
    rw [List.append_assoc, List.length_append] at at_
    exact at_

/-! ## Groups -/

section Groups
variable {γ : Type*} [DecidableEq γ] {groupOf : ρ → γ} {groups order : List γ} {choose : γ → List ρ} {limit : Nat}

/-- The first rows of each group, one group after the other. -/
def fanned (limit : Nat) (choose : γ → List ρ) (order : List γ) : List ρ := order.flatMap fun group => (choose group).take limit

theorem grouped_perm (nodup : groups.Nodup) (covered : ∀ row ∈ rows, groupOf row ∈ groups) :
    (groups.flatMap fun group => rows.filter fun row => groupOf row = group).Perm rows := by
  induction groups generalizing rows with
  | nil => simp [List.eq_nil_iff_forall_not_mem.mpr fun row held => List.not_mem_nil (covered row held)]
  | cons group groups ih =>
    obtain ⟨fresh, nodup⟩ := List.nodup_cons.mp nodup
    have others : ∀ row ∈ rows.filter (fun row => !decide (groupOf row = group)), groupOf row ∈ groups := by
      intro row held
      obtain ⟨here, differs⟩ := List.mem_filter.mp held
      exact (List.mem_cons.mp (covered row here)).resolve_left (by simpa using differs)
    have rest := ih nodup others
    have same : (groups.flatMap fun later => (rows.filter fun row => !decide (groupOf row = group)).filter fun row => groupOf row = later) =
        groups.flatMap fun later => rows.filter fun row => groupOf row = later := by
      refine List.flatMap_congr fun later held => ?_
      rw [List.filter_filter]
      refine List.filter_congr fun row _ => ?_
      rw [Bool.and_eq_left_iff_imp, Bool.not_eq_true', decide_eq_true_iff, decide_eq_false_iff_not]
      rintro rfl same
      exact fresh (same ▸ held)
    rw [same] at rest
    rw [List.flatMap_cons]
    exact (rest.append_left _).trans (List.filter_append_perm _ rows)

/-- Rows of one group, or so few that they fit and all of one key. -/
def Plain (key : ρ → τ) (groupOf : ρ → γ) (limit : Nat) (rows : List ρ) : Prop :=
  (∀ first ∈ rows, ∀ second ∈ rows, groupOf first = groupOf second) ∨
    rows.length ≤ limit ∧ ∀ first ∈ rows, ∀ second ∈ rows, key first = key second

/-- The first rows of the groups of plain rows are the first of all. -/
theorem fanned_ranked (nodup : order.Nodup) (covered : ∀ row ∈ rows, groupOf row ∈ order)
    (ranked : ∀ group, Ranked key (rows.filter fun row => groupOf row = group) (choose group))
    (plain : Plain key groupOf limit rows) :
    ∃ ordered, Ranked key rows ordered ∧ fanned limit choose order = ordered.take limit := by
  rcases plain with single | ⟨fits, equal⟩
  · cases rows with
    | nil =>
      have none_ (group : γ) : choose group = [] := List.perm_nil.mp (ranked group).perm
      refine ⟨[], ⟨.refl _, .nil⟩, ?_⟩
      rw [List.take_nil]
      exact List.flatMap_eq_nil_iff.mpr fun group _ => by rw [none_, List.take_nil]
    | cons first rest =>
      have whole : (first :: rest).filter (fun row => groupOf row = groupOf first) = first :: rest :=
        List.filter_eq_self.mpr fun row held => decide_eq_true (single row held first List.mem_cons_self)
      have none_ (other : γ) (differs : other ≠ groupOf first) : choose other = [] := by
        have empty : (first :: rest).filter (fun row => groupOf row = other) = [] :=
          List.filter_eq_nil_iff.mpr fun row held same =>
            differs ((of_decide_eq_true same).symm.trans (single row held first List.mem_cons_self))
        exact List.perm_nil.mp (empty ▸ (ranked other).perm)
      obtain ⟨before, after, rfl⟩ := List.append_of_mem (covered first List.mem_cons_self)
      obtain ⟨_, later, apart⟩ := List.nodup_append.mp nodup
      have front : (before.flatMap fun other => (choose other).take limit) = [] :=
        List.flatMap_eq_nil_iff.mpr fun other here => by
          rw [none_ other (apart other here _ List.mem_cons_self), List.take_nil]
      have back : (after.flatMap fun other => (choose other).take limit) = [] :=
        List.flatMap_eq_nil_iff.mpr fun other here => by
          rw [none_ other fun same => (List.nodup_cons.mp later).1 (same ▸ here), List.take_nil]
      refine ⟨choose (groupOf first), whole ▸ ranked (groupOf first), ?_⟩
      rw [fanned, List.flatMap_append, List.flatMap_cons, front, back, List.nil_append, List.append_nil]
  · have parts : fanned limit choose order = order.flatMap choose :=
      List.flatMap_congr fun group _ => List.take_of_length_le
        ((ranked group).perm.length_eq.trans_le ((List.length_filter_le _ _).trans fits))
    have perm : (fanned limit choose order).Perm rows := by
      rw [parts]
      exact (List.Perm.flatMap_left _ fun group _ => (ranked group).perm).trans (grouped_perm nodup covered)
    refine ⟨fanned limit choose order, ⟨perm, ?_⟩, (List.take_of_length_le (perm.length_eq.trans_le fits)).symm⟩
    exact List.pairwise_of_forall_mem_list fun first held second held' =>
      (equal second (perm.mem_iff.mp held') first (perm.mem_iff.mp held)).le

/-- If they are never too many and never out of order, in whatever order the groups are walked,
the rows are plain. -/
theorem of_fanned (positive : 0 < limit) (nodup : groups.Nodup) (covered : ∀ row ∈ rows, groupOf row ∈ groups)
    (ranked : ∀ group, Ranked key (rows.filter fun row => groupOf row = group) (choose group))
    (always : ∀ order, order.Perm groups → (fanned limit choose order).length ≤ limit ∧
      (fanned limit choose order).Pairwise fun first second => key second ≤ key first) :
    Plain key groupOf limit rows := by
  -- Two groups with rows are walked first, in either order.
  have both {first second : ρ} (here : first ∈ rows) (here' : second ∈ rows) (differs : groupOf first ≠ groupOf second) :
      (rows.filter fun row => groupOf row = groupOf first).length < limit ∧ key second ≤ key first := by
    have front : (groupOf first :: groupOf second :: (groups.erase (groupOf first)).erase (groupOf second)).Perm groups :=
      ((List.perm_cons_erase ((List.mem_erase_of_ne differs.symm).mpr (covered second here'))).symm.cons _).trans
        (List.perm_cons_erase (covered first here)).symm
    obtain ⟨short, sorted⟩ := always _ front
    rw [fanned, List.flatMap_cons, List.flatMap_cons] at short sorted
    simp only [List.length_append, List.length_take, (ranked _).perm.length_eq] at short
    have some_ {row : ρ} (held : row ∈ rows) : 0 < (rows.filter fun other => groupOf other = groupOf row).length :=
      List.length_pos_of_mem (List.mem_filter.mpr ⟨held, decide_eq_true rfl⟩)
    have less := some_ here
    have less' := some_ here'
    have own : (rows.filter fun row => groupOf row = groupOf first).length < limit := by omega
    have own' : (rows.filter fun row => groupOf row = groupOf second).length < limit := by omega
    have listed {row : ρ} (held : row ∈ rows) (fits : (rows.filter fun other => groupOf other = groupOf row).length < limit) :
        row ∈ (choose (groupOf row)).take limit := by
      rw [List.take_of_length_le ((ranked _).perm.length_eq.trans_le fits.le)]
      exact (ranked _).perm.mem_iff.mpr (List.mem_filter.mpr ⟨held, decide_eq_true rfl⟩)
    exact ⟨own, (List.pairwise_append.mp sorted).2.2 first (listed here own) second
      (List.mem_append_left _ (listed here' own'))⟩
  by_cases single : ∀ first ∈ rows, ∀ second ∈ rows, groupOf first = groupOf second
  · exact .inl single
  · right
    push Not at single
    obtain ⟨one, held, another, held', differs⟩ := single
    have other (row : ρ) : ∃ second ∈ rows, groupOf row ≠ groupOf second := by
      by_cases same : groupOf row = groupOf one
      · exact ⟨another, held', same ▸ differs⟩
      · exact ⟨one, held, same⟩
    have whole (group : γ) : (rows.filter fun row => groupOf row = group).length ≤ limit := by
      by_cases some_ : ∃ row ∈ rows, groupOf row = group
      · obtain ⟨row, here, rfl⟩ := some_
        obtain ⟨second, here', apart⟩ := other row
        exact (both here here' apart).1.le
      · push Not at some_
        rw [List.filter_eq_nil_iff.mpr fun row here same => some_ row here (of_decide_eq_true same)]
        exact Nat.zero_le limit
    have parts : fanned limit choose groups = groups.flatMap choose :=
      List.flatMap_congr fun group _ => List.take_of_length_le ((ranked group).perm.length_eq.trans_le (whole group))
    have perm : (fanned limit choose groups).Perm rows := by
      rw [parts]
      exact (List.Perm.flatMap_left _ fun group _ => (ranked group).perm).trans (grouped_perm nodup covered)
    refine ⟨perm.length_eq.symm.trans_le (always groups (.refl _)).1, fun first here second here' => ?_⟩
    have equal {row row' : ρ} (here : row ∈ rows) (here' : row' ∈ rows) (apart : groupOf row ≠ groupOf row') : key row = key row' :=
      le_antisymm (both here' here apart.symm).2 (both here here' apart).2
    by_cases same : groupOf first = groupOf second
    · obtain ⟨third, between, apart⟩ := other first
      exact (equal here between apart).trans (equal here' between (same ▸ apart)).symm
    · exact equal here here' same

end Groups

end Ironsight.RankedRows
