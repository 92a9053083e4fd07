import Mathlib.Data.List.Basic
import Mathlib.Data.List.Infix
import Mathlib.Data.List.Induction

/-! Removal of dot segments, over any kind of segment: one stays, one goes to the
parent and the others enter a child. The root is its own parent. Where a walk
ends is read off its parts by counting: how deep it gets is the greatest surplus
of names at its end (`length_walk_le`), and the child of the root it is in is the
last one entered at the root and not left again (`getLast?_walk`). -/
namespace Ironsight.DotSegments

inductive Kind where
  | here
  | parent
  | name
  deriving DecidableEq

section Walks
variable {α : Type*} (kind : α → Kind)

/-- One segment, with the children entered so far, the last one first. -/
def enter (kept : List α) (segment : α) : List α :=
  match kind segment with
  | .here => kept
  | .parent => kept.tail
  | .name => segment :: kept

def walk (segments : List α) : List α := segments.foldl (enter kind) []

def names (part : List α) : Nat := part.countP fun segment => kind segment = .name

def parents (part : List α) : Nat := part.countP fun segment => kind segment = .parent

/-- What is left of the path, from the root on. -/
def resolve (segments : List α) : List α := (walk kind segments).reverse

/-- The walk comes to the root. -/
def AtRoot (segments : List α) : Prop := ∀ part ∈ segments.tails, names kind part ≤ parents kind part

/-- The walk never leaves where it starts. -/
def Stays (segments : List α) : Prop := ∀ part ∈ segments.inits, parents kind part ≤ names kind part

instance (segments : List α) : Decidable (AtRoot kind segments) := inferInstanceAs (Decidable (∀ part ∈ _, _))
instance (segments : List α) : Decidable (Stays kind segments) := inferInstanceAs (Decidable (∀ part ∈ _, _))

variable {kind}

theorem walk_snoc (segments : List α) (last : α) :
    walk kind (segments ++ [last]) = enter kind (walk kind segments) last := by
  simp only [walk, List.foldl_append, List.foldl_cons, List.foldl_nil]

theorem names_snoc (part : List α) (last : α) :
    names kind (part ++ [last]) = names kind part + if kind last = .name then 1 else 0 := by
  by_cases named : kind last = .name <;> simp [names, named]

theorem parents_snoc (part : List α) (last : α) :
    parents kind (part ++ [last]) = parents kind part + if kind last = .parent then 1 else 0 := by
  by_cases up : kind last = .parent <;> simp [parents, up]

theorem forall_tails_snoc {holds : List α → Prop} {segments : List α} {last : α} :
    (∀ part ∈ (segments ++ [last]).tails, holds part) ↔ (∀ part ∈ segments.tails, holds (part ++ [last])) ∧ holds [] := by
  induction segments with
  | nil => simp
  | cons first rest ih =>
    rw [List.cons_append, List.tails_cons, List.tails_cons, List.forall_mem_cons, List.forall_mem_cons, ih]
    rw [List.cons_append, and_assoc]

theorem stays_snoc {segments : List α} {last : α} :
    Stays kind (segments ++ [last]) ↔ Stays kind segments ∧
      parents kind (segments ++ [last]) ≤ names kind (segments ++ [last]) := by
  unfold Stays
  simp only [List.mem_inits, List.prefix_concat_iff]
  constructor
  · exact fun all => ⟨fun part shorter => all part (.inr shorter), all _ (.inl rfl)⟩
  · rintro ⟨earlier, whole⟩ part (rfl | shorter)
    · exact whole
    · exact earlier part shorter

/-- A walk gets as deep as its end enters more than it leaves. -/
theorem length_walk_le (segments : List α) (bound : Nat) :
    (walk kind segments).length ≤ bound ↔ ∀ part ∈ segments.tails, names kind part ≤ parents kind part + bound := by
  induction segments using List.reverseRecOn generalizing bound with
  | nil => simp [walk, names, parents]
  | append_singleton segments last ih =>
    rw [walk_snoc, forall_tails_snoc]
    simp only [names_snoc, parents_snoc, enter]
    have empty (k : Nat) : names kind [] ≤ parents kind [] + k := Nat.zero_le _
    cases stage : kind last with
    | here => simpa [empty] using ih bound
    | parent =>
      simp only [List.length_tail, reduceCtorEq, if_false, if_true, Nat.add_zero, empty, and_true]
      rw [Nat.sub_le_iff_le_add, ih]
      simp only [Nat.add_assoc, Nat.add_comm 1 bound]
    | name =>
      simp only [List.length_cons, if_true, reduceCtorEq, if_false, Nat.add_zero, empty, and_true]
      cases bound with
      | zero =>
        refine iff_of_false (by omega) fun all => ?_
        have last := all [] (by simp)
        simp [names, parents] at last
      | succ bound =>
        rw [Nat.add_le_add_iff_right, ih]
        simp only [← Nat.add_assoc, Nat.add_le_add_iff_right]

theorem walk_eq_nil_iff (segments : List α) : walk kind segments = [] ↔ AtRoot kind segments := by
  rw [← List.length_eq_zero_iff, ← Nat.le_zero, length_walk_le]
  rfl

/-- A walk that stays only adds to what it starts from. -/
theorem foldl_enter_of_stays {segments : List α} (stays : Stays kind segments) (kept : List α) :
    ∃ added, segments.foldl (enter kind) kept = added ++ kept ∧
      added.length + parents kind segments = names kind segments := by
  induction segments using List.reverseRecOn with
  | nil => exact ⟨[], rfl, rfl⟩
  | append_singleton segments last ih =>
    obtain ⟨earlier, whole⟩ := stays_snoc.mp stays
    obtain ⟨added, same, size⟩ := ih earlier
    rw [names_snoc, parents_snoc] at whole ⊢
    rw [List.foldl_append, same]
    simp only [List.foldl_cons, List.foldl_nil, enter]
    cases stage : kind last with
    | here => exact ⟨added, rfl, by simpa using size⟩
    | parent =>
      simp only [stage, reduceCtorEq, if_false, if_true, Nat.add_zero] at whole
      cases added with
      | nil => simp only [List.length_nil] at size; omega
      | cons first added =>
        refine ⟨added, rfl, ?_⟩
        simp only [List.length_cons] at size
        simp only [reduceCtorEq, if_false, if_true]
        omega
    | name =>
      refine ⟨last :: added, rfl, ?_⟩
      simp only [List.length_cons, reduceCtorEq, if_true, if_false]
      omega

/-- A walk that enters a child of the root and stays there still has it at its end. -/
theorem walk_inside {before after : List α} {child : α} (named : kind child = .name) (root : AtRoot kind before)
    (inside : Stays kind after) : ∃ added, walk kind (before ++ child :: after) = added ++ [child] ∧
      added.length + parents kind after = names kind after := by
  obtain ⟨added, same, size⟩ := foldl_enter_of_stays inside [child]
  refine ⟨added, ?_, size⟩
  have start : walk kind before = [] := (walk_eq_nil_iff before).mpr root
  unfold walk at start ⊢
  rw [List.foldl_append, start, List.foldl_cons, ← same]
  simp only [enter, named]

/-- One more segment stays in the child, unless it is a parent segment that finds the
walk in the child itself. -/
theorem stays_snoc_of_deep {before after : List α} {child last : α} (named : kind child = .name)
    (root : AtRoot kind before) (inside : Stays kind after)
    (deep : kind last = .parent → 1 < (walk kind (before ++ child :: after)).length) : Stays kind (after ++ [last]) := by
  refine stays_snoc.mpr ⟨inside, ?_⟩
  obtain ⟨added, same, size⟩ := walk_inside named root inside
  rw [same, List.length_append, List.length_singleton] at deep
  rw [names_snoc, parents_snoc]
  cases stage : kind last with
  | here => simp only [reduceCtorEq, if_false]; omega
  | parent =>
    have deeper := deep stage
    simp only [reduceCtorEq, if_false, if_true]
    omega
  | name => simp only [reduceCtorEq, if_false, if_true]; omega

/-- The child of the root that a walk ends in was entered at the root and not
left again. -/
theorem getLast?_walk {segments : List α} {child : α} (named : kind child = .name) :
    (walk kind segments).getLast? = some child ↔
      ∃ before after, segments = before ++ child :: after ∧ AtRoot kind before ∧ Stays kind after := by
  constructor
  · induction segments using List.reverseRecOn with
    | nil => intro ends; cases ends
    | append_singleton segments last ih =>
      rw [walk_snoc, enter]
      -- The walk so far ended in the same child; the segment does not leave it.
      have extend (ends : (walk kind segments).getLast? = some child)
          (deep : kind last = .parent → 1 < (walk kind segments).length) : ∃ before after,
          segments ++ [last] = before ++ child :: after ∧ AtRoot kind before ∧ Stays kind after := by
        obtain ⟨before, after, rfl, root, inside⟩ := ih ends
        exact ⟨before, after ++ [last], by simp, root, stays_snoc_of_deep named root inside deep⟩
      cases stage : kind last with
      | here => exact fun ends => extend ends (by simp [stage])
      | parent =>
        intro ends
        cases deep : walk kind segments with
        | nil => simp [deep] at ends
        | cons first rest =>
          rw [deep, List.tail_cons] at ends
          have more : rest ≠ [] := by
            rintro rfl
            cases ends
          refine extend ?_ fun _ => ?_
          · rw [deep, List.getLast?_cons_of_ne_nil more]
            exact ends
          · rw [deep, List.length_cons]
            have := List.length_pos_iff.mpr more
            omega
      | name =>
        intro ends
        cases deep : walk kind segments with
        | nil =>
          rw [deep] at ends
          obtain rfl : last = child := Option.some.inj ends
          exact ⟨segments, [], rfl, (walk_eq_nil_iff segments).mp deep, by simp [Stays, names, parents]⟩
        | cons first rest =>
          rw [deep, List.getLast?_cons_of_ne_nil (by simp)] at ends
          exact extend (by rw [deep]; exact ends) (by simp [stage])
  · rintro ⟨before, after, rfl, root, inside⟩
    obtain ⟨added, same, _⟩ := walk_inside named root inside
    rw [same]
    simp

theorem head?_resolve {segments : List α} {child : α} (named : kind child = .name) :
    (resolve kind segments).head? = some child ↔
      ∃ before after, segments = before ++ child :: after ∧ AtRoot kind before ∧ Stays kind after := by
  rw [resolve, List.head?_reverse]
  exact getLast?_walk named

end Walks

end Ironsight.DotSegments
