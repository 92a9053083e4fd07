import Mathlib.Data.List.Basic

/-! Texts into which copies of another text are put, each before a mark. Where that may happen
depends on what stands before the mark and on the element behind it. -/
namespace Ironsight.Insertions

variable {α : Type*}

/-- A text and what became of it, behind a text that is read backwards. -/
inductive Grown (mark : α) (copy : List α) (Opens : List α → Option α → Prop) : List α → List α → List α → Prop
  | nil {before : List α} : Grown mark copy Opens before [] []
  | keep {before x y : List α} {a : α} : Grown mark copy Opens (a :: before) x y → Grown mark copy Opens before (a :: x) (a :: y)
  | insert {before x y : List α} : Opens before x.head? → Grown mark copy Opens (mark :: before) x y →
      Grown mark copy Opens before (mark :: x) (copy ++ mark :: y)

variable {mark : α} {copy : List α} {Opens : List α → Option α → Prop} {before x y z s : List α}

namespace Grown

/-- More text in front, of which nothing changes. -/
theorem append (s : List α) (grown : Grown mark copy Opens (s.reverse ++ before) x y) :
    Grown mark copy Opens before (s ++ x) (s ++ y) := by
  induction s generalizing before with
  | nil => exact grown
  | cons a s ih =>
    refine .keep (ih ?_)
    simpa using grown

/-- Each part of a text grows by itself; the element behind a mark may be in the next part. -/
theorem split (grown : Grown mark copy Opens before (s ++ x) y) :
    ∃ s' x', y = s' ++ x' ∧ Grown mark copy (fun before _ => ∃ next, Opens before next) before s s' ∧
      Grown mark copy Opens (s.reverse ++ before) x x' := by
  induction s generalizing before y with
  | nil => exact ⟨[], y, rfl, .nil, grown⟩
  | cons a s ih =>
    cases grown with
    | keep rest =>
      obtain ⟨s', x', rfl, first, second⟩ := ih rest
      exact ⟨a :: s', x', rfl, .keep first, by simpa using second⟩
    | insert opens rest =>
      obtain ⟨s', x', rfl, first, second⟩ := ih rest
      exact ⟨copy ++ mark :: s', x', by simp, .insert ⟨_, opens⟩ first, by simpa using second⟩

theorem eq_of_notMem (grown : Grown mark copy Opens before x y) (none_ : mark ∉ x) : y = x := by
  induction grown with
  | nil => rfl
  | keep _ ih => rw [ih fun held => none_ (List.mem_cons_of_mem _ held)]
  | insert => exact absurd List.mem_cons_self none_

/-- A front without marks was there before. -/
theorem back (starts : copy.head? = some mark) (none_ : mark ∉ s) (grown : Grown mark copy Opens before x (s ++ y)) :
    ∃ x', x = s ++ x' ∧ Grown mark copy Opens (s.reverse ++ before) x' y := by
  induction s generalizing before x with
  | nil => exact ⟨x, rfl, grown⟩
  | cons a s ih =>
    have other : a ≠ mark := fun same => none_ (same ▸ List.mem_cons_self)
    generalize whole : a :: s ++ y = text at grown
    cases grown with
    | nil => cases whole
    | keep rest =>
      obtain ⟨rfl, rfl⟩ := List.cons.inj whole
      obtain ⟨x', rfl, later⟩ := ih (fun held => none_ (List.mem_cons_of_mem _ held)) rest
      exact ⟨x', rfl, by simpa using later⟩
    | insert =>
      cases copy with
      | nil => cases starts
      | cons first copy =>
        obtain rfl := Option.some.inj starts
        exact absurd (List.cons.inj whole).1 other

theorem getLast?_eq (grown : Grown mark copy Opens before x y) : y.getLast? = x.getLast? := by
  induction grown with
  | nil => rfl
  | keep _ ih => rw [List.getLast?_cons, List.getLast?_cons, ih]
  | insert _ _ ih => rw [List.getLast?_append_of_ne_nil _ (List.cons_ne_nil _ _), List.getLast?_cons, List.getLast?_cons, ih]

theorem mem_or (grown : Grown mark copy Opens before x y) {a : α} (held : a ∈ y) : a ∈ x ∨ a ∈ copy := by
  induction grown with
  | nil => cases held
  | keep _ ih =>
    rcases List.mem_cons.mp held with rfl | later
    · exact .inl List.mem_cons_self
    · exact (ih later).imp_left (List.mem_cons_of_mem _)
  | insert _ _ ih =>
    rcases List.mem_append.mp held with copied | rest
    · exact .inr copied
    · rcases List.mem_cons.mp rest with rfl | later
      · exact .inl List.mem_cons_self
      · exact (ih later).imp_left (List.mem_cons_of_mem _)

/-- Where nothing may be put, a text starts as before. -/
theorem of_closed (closed : ∀ next, ¬ Opens before next) (grown : Grown mark copy Opens before x y) :
    (x = [] ∧ y = []) ∨ ∃ a x' y', x = a :: x' ∧ y = a :: y' ∧ Grown mark copy Opens (a :: before) x' y' := by
  cases grown with
  | nil => exact .inl ⟨rfl, rfl⟩
  | keep rest => exact .inr ⟨_, _, _, rfl, rfl, rest⟩
  | insert opens => exact absurd opens (closed _)

/-- A front behind whose elements nothing may be put is there before and after. -/
theorem prefix_iff (closed : ∀ next, ¬ Opens before next) (plain : ∀ a ∈ s, ∀ before next, ¬ Opens (a :: before) next)
    (grown : Grown mark copy Opens before x y) : s <+: x ↔ s <+: y := by
  induction s generalizing before x y with
  | nil => simp
  | cons a s ih =>
    rcases of_closed closed grown with ⟨rfl, rfl⟩ | ⟨b, x', y', rfl, rfl, rest⟩
    · exact Iff.rfl
    · rw [List.cons_prefix_cons, List.cons_prefix_cons]
      refine and_congr_right ?_
      rintro rfl
      exact ih (plain a List.mem_cons_self before) (fun c held => plain c (List.mem_cons_of_mem _ held)) rest

/-- Such a front stays in its place. -/
theorem front (closed : ∀ next, ¬ Opens before next) (plain : ∀ a ∈ s, ∀ before next, ¬ Opens (a :: before) next)
    (grown : Grown mark copy Opens before (s ++ x) y) : ∃ y', y = s ++ y' ∧ Grown mark copy Opens (s.reverse ++ before) x y' := by
  induction s generalizing before y with
  | nil => exact ⟨y, rfl, grown⟩
  | cons a s ih =>
    rcases of_closed closed grown with ⟨none_, _⟩ | ⟨b, x', y', whole, rfl, rest⟩
    · cases none_
    · obtain ⟨rfl, rfl⟩ := List.cons.inj whole
      obtain ⟨y', rfl, later⟩ := ih (plain a List.mem_cons_self before) (fun c held => plain c (List.mem_cons_of_mem _ held)) rest
      exact ⟨y', rfl, by simpa using later⟩

end Grown

/-- A text and what became of it when copies were put anywhere: without the copies it is the text
again. -/
inductive Inserts (copy : List α) : List α → List α → Prop
  | nil : Inserts copy [] []
  | keep {x y : List α} {a : α} : Inserts copy x y → Inserts copy (a :: x) (a :: y)
  | insert {x y : List α} : Inserts copy x y → Inserts copy x (copy ++ y)

namespace Inserts

theorem refl (x : List α) : Inserts copy x x := by
  induction x with
  | nil => exact .nil
  | cons a x ih => exact .keep ih

/-- A text that grows further, though not inside the copies. -/
theorem grow (starts : copy.head? = some mark) (plain : ∀ a ∈ copy, ∀ before next, ¬ Opens (a :: before) next)
    (inserts : Inserts copy x y) (grown : Grown mark copy Opens before y z) : Inserts copy x z := by
  induction inserts generalizing before z with
  | nil =>
    cases grown
    exact .nil
  | keep _ ih =>
    cases grown with
    | keep rest => exact .keep (ih rest)
    | insert _ rest => exact .insert (.keep (ih rest))
  | @insert x y _ ih =>
    cases copy with
    | nil => cases starts
    | cons first copy =>
      obtain rfl := Option.some.inj starts
      have inner (a : α) (held : a ∈ copy) := plain a (List.mem_cons_of_mem _ held)
      have closed (before : List α) := plain first List.mem_cons_self before
      generalize whole : first :: copy ++ y = text at grown
      cases grown with
      | nil => cases whole
      | keep rest =>
        obtain ⟨rfl, rfl⟩ := List.cons.inj whole
        obtain ⟨z', rfl, later⟩ := rest.front (closed _) inner
        exact .insert (ih later)
      | insert _ rest =>
        obtain ⟨_, rfl⟩ := List.cons.inj whole
        obtain ⟨z', rfl, later⟩ := rest.front (closed _) inner
        exact .insert (.insert (ih later))

end Inserts

end Ironsight.Insertions
