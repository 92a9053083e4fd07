import Ironsight.Paths
import Mathlib.Data.List.TakeWhile

/-! Cleaned paths. Cleaning keeps the components that a path really goes through, and its
text is the one of those, so two paths have one cleaned text exactly when they keep the
same components. A plain name at the end of a path is kept as it is. -/
namespace Ironsight.CleanPaths
open Paths

/-- A name that stands for an entry of a directory. -/
structure Plain (name : List Char) : Prop where
  given : name ≠ []
  closed : '/' ∉ name
  other : name ≠ ['.'] ∧ name ≠ ['.', '.']

instance (name : List Char) : Decidable (Plain name) :=
  decidable_of_iff (name ≠ [] ∧ '/' ∉ name ∧ name ≠ ['.'] ∧ name ≠ ['.', '.'])
    ⟨fun ⟨given, closed, other⟩ => ⟨given, closed, other⟩, fun plain => ⟨plain.given, plain.closed, plain.other⟩⟩

def rooted (path : String) : Bool := path.toList.head? = some '/'

/-- The components that are kept, the first one first. -/
def kept (path : String) : List (List Char) := ((components path.toList).foldl (enter (rooted path)) []).reverse

/-- The text of a cleaned path. -/
def render (rooted : Bool) (kept : List (List Char)) : String :=
  let text := String.intercalate "/" (kept.map String.ofList)
  if rooted then "/" ++ text else if kept = [] then "." else text

theorem clean_eq (path : String) : clean path = render (rooted path) (kept path) := by
  by_cases slash : path.toList.head? = some '/' <;> simp [clean, render, rooted, kept, slash]

/-! ## Kept components -/

theorem components_named (path : List Char) : ∀ name ∈ components path, name ≠ [] ∧ '/' ∉ name := by
  induction path with
  | nil => exact fun name member => absurd member List.not_mem_nil
  | cons c rest ih =>
    rw [components]
    split
    · exact ih
    · rename_i plain
      split
      · rw [List.forall_mem_cons]
        exact ⟨⟨List.cons_ne_nil _ _, by simpa using Ne.symm plain⟩, ih⟩
      · cases found : components rest with
        | nil => simp
        | cons first later =>
          rw [found] at ih
          rw [List.forall_mem_cons] at ih
          simp only [List.modifyHead_cons, List.forall_mem_cons]
          exact ⟨⟨List.cons_ne_nil _ _, by simpa [Ne.symm plain] using ih.1.2⟩, ih.2⟩

private theorem enter_kept {rooted : Bool} {kept : List (List Char)} {name : List Char} (named : name ≠ [] ∧ '/' ∉ name)
    (all : ∀ other ∈ kept, other ≠ [] ∧ '/' ∉ other ∧ other ≠ ['.']) :
    ∀ other ∈ enter rooted kept name, other ≠ [] ∧ '/' ∉ other ∧ other ≠ ['.'] := by
  unfold enter
  split
  · exact all
  · rename_i not_here
    split
    · rename_i up
      have named_up : name ≠ [] ∧ '/' ∉ name ∧ name ≠ ['.'] := ⟨named.1, named.2, not_here⟩
      cases kept with
      | nil =>
        dsimp only
        split
        · exact fun other member => absurd member List.not_mem_nil
        · simpa using named_up
      | cons last rest =>
        rw [List.forall_mem_cons] at all
        dsimp only
        split
        · rw [List.forall_mem_cons, List.forall_mem_cons]
          exact ⟨named_up, all.1, all.2⟩
        · exact all.2
    · rw [List.forall_mem_cons]
      exact ⟨⟨named.1, named.2, not_here⟩, all⟩

theorem kept_named (path : String) : ∀ name ∈ kept path, name ≠ [] ∧ '/' ∉ name ∧ name ≠ ['.'] := by
  have folded : ∀ names : List (List Char), (∀ name ∈ names, name ≠ [] ∧ '/' ∉ name) → ∀ start : List (List Char),
      (∀ name ∈ start, name ≠ [] ∧ '/' ∉ name ∧ name ≠ ['.']) →
      ∀ name ∈ names.foldl (enter (rooted path)) start, name ≠ [] ∧ '/' ∉ name ∧ name ≠ ['.'] := by
    intro names
    induction names with
    | nil => exact fun _ _ all => all
    | cons name names ih =>
      intro named start all
      rw [List.forall_mem_cons] at named
      exact ih named.2 _ (enter_kept named.1 all)
  intro name member
  exact folded _ (components_named path.toList) [] (fun _ none => absurd none List.not_mem_nil) name (List.mem_reverse.mp member)

theorem enter_plain {rooted : Bool} {kept : List (List Char)} {name : List Char} (plain : Plain name) :
    enter rooted kept name = name :: kept := by
  unfold enter
  rw [if_neg plain.other.1, if_neg plain.other.2]

theorem foldl_enter_plain {rooted : Bool} {names : List (List Char)} (plain : ∀ name ∈ names, Plain name) :
    ∀ kept : List (List Char), names.foldl (enter rooted) kept = names.reverse ++ kept := by
  induction names with
  | nil => exact fun _ => rfl
  | cons name names ih =>
    intro kept
    rw [List.forall_mem_cons] at plain
    rw [List.foldl_cons, enter_plain plain.1, ih plain.2]
    simp

/-! ## Texts -/

private theorem toList_intercalate (names : List (List Char)) :
    (String.intercalate "/" (names.map String.ofList)).toList = ['/'].intercalate names := by
  simp [String.toList_intercalate]

private theorem intercalate_cons_cons (first second : List Char) (rest : List (List Char)) :
    ['/'].intercalate (first :: second :: rest) = first ++ '/' :: ['/'].intercalate (second :: rest) := by
  simp [List.intercalate]

theorem components_intercalate : ∀ names : List (List Char),
    components (['/'].intercalate names) = names.flatMap components
  | [] => rfl
  | [name] => by simp [List.intercalate]
  | first :: second :: rest => by
    rw [intercalate_cons_cons, components_append, components_intercalate (second :: rest), ← List.flatMap_cons]

private theorem flatMap_components {names : List (List Char)} (named : ∀ name ∈ names, name ≠ [] ∧ '/' ∉ name) :
    names.flatMap components = names := by
  induction names with
  | nil => rfl
  | cons name names ih =>
    rw [List.forall_mem_cons] at named
    rw [List.flatMap_cons, components_name named.1.1 named.1.2, ih named.2]
    rfl

private theorem head_intercalate {names : List (List Char)} (given : names ≠ []) (named : ∀ name ∈ names, name ≠ [] ∧ '/' ∉ name) :
    (['/'].intercalate names).head? ≠ some '/' := by
  cases names with
  | nil => exact absurd rfl given
  | cons first rest =>
    rw [List.forall_mem_cons] at named
    obtain ⟨c, tail, rfl⟩ := List.exists_cons_of_ne_nil named.1.1
    have plain : c ≠ '/' := fun same => named.1.2 (same ▸ List.mem_cons_self)
    cases rest with
    | nil => simpa [List.intercalate] using plain
    | cons second rest => simpa [intercalate_cons_cons] using plain

/-- The text of a cleaned path says where it leads. -/
theorem place_render {rooted : Bool} {kept : List (List Char)} (named : ∀ name ∈ kept, name ≠ [] ∧ '/' ∉ name)
    (given : kept ≠ [] ∨ rooted = true) : place (render rooted kept) = ⟨rooted, kept⟩ := by
  unfold render place
  cases rooted with
  | true =>
    have text : ("/" ++ String.intercalate "/" (kept.map String.ofList)).toList = '/' :: ['/'].intercalate kept := by
      rw [String.toList_append, toList_intercalate]
      rfl
    simp only [if_true, text, components, components_intercalate, flatMap_components named]
    rfl
  | false =>
    have some_kept : kept ≠ [] := given.resolve_right Bool.false_ne_true
    have head := head_intercalate some_kept named
    simp only [Bool.false_eq_true, if_false, if_neg some_kept, toList_intercalate, components_intercalate,
      flatMap_components named, head, decide_false]

theorem render_inj {r s : Bool} {left right : List (List Char)} (leftNamed : ∀ name ∈ left, name ≠ [] ∧ '/' ∉ name ∧ name ≠ ['.'])
    (rightNamed : ∀ name ∈ right, name ≠ [] ∧ '/' ∉ name ∧ name ≠ ['.']) :
    render r left = render s right ↔ r = s ∧ left = right := by
  constructor
  · intro same
    have places := congrArg place same
    have dot : place (render false []) = ⟨false, [['.']]⟩ := by decide
    have named {names : List (List Char)} (all : ∀ name ∈ names, name ≠ [] ∧ '/' ∉ name ∧ name ≠ ['.']) :
        ∀ name ∈ names, name ≠ [] ∧ '/' ∉ name := fun name member => ⟨(all name member).1, (all name member).2.1⟩
    by_cases leftEmpty : left ≠ [] ∨ r = true
    · rw [place_render (named leftNamed) leftEmpty] at places
      by_cases rightEmpty : right ≠ [] ∨ s = true
      · rw [place_render (named rightNamed) rightEmpty] at places
        simpa using places
      · obtain ⟨rfl, rfl⟩ : right = [] ∧ s = false := by simpa using rightEmpty
        rw [dot] at places
        obtain ⟨-, rfl⟩ := Place.mk.inj places
        exact absurd rfl (leftNamed ['.'] (by simp)).2.2
    · obtain ⟨rfl, rfl⟩ : left = [] ∧ r = false := by simpa using leftEmpty
      rw [dot] at places
      by_cases rightEmpty : right ≠ [] ∨ s = true
      · rw [place_render (named rightNamed) rightEmpty] at places
        obtain ⟨-, rfl⟩ := Place.mk.inj places
        exact absurd rfl (rightNamed ['.'] (by simp)).2.2
      · obtain ⟨rfl, rfl⟩ : right = [] ∧ s = false := by simpa using rightEmpty
        exact ⟨rfl, rfl⟩
  · rintro ⟨rfl, rfl⟩
    rfl

/-- Two paths have one cleaned text exactly when they keep the same components. -/
theorem clean_inj {left right : String} :
    clean left = clean right ↔ rooted left = rooted right ∧ kept left = kept right := by
  rw [clean_eq, clean_eq]
  exact render_inj (kept_named left) (kept_named right)

/-! ## Joining -/

/-- What a joined path goes through: the components of its elements, one after another. -/
theorem join_eq {first : String} {rest : List String} (given : first ≠ "") : join (first :: rest) =
    render (rooted first) (((first :: rest).flatMap fun element => components element.toList).foldl
      (enter (rooted first)) []).reverse := by
  have text : (String.intercalate "/" (first :: rest)).toList = ['/'].intercalate ((first :: rest).map String.toList) := by
    simp [String.toList_intercalate]
  have head : rooted (String.intercalate "/" (first :: rest)) = rooted first := by
    unfold rooted
    rw [text]
    have some : first.toList ≠ [] := by simpa using given
    cases rest with
    | nil => simp [List.intercalate]
    | cons second rest =>
      rw [List.map_cons, List.map_cons, intercalate_cons_cons, List.head?_append_of_ne_nil _ some]
  have whole : components (String.intercalate "/" (first :: rest)).toList =
      (first :: rest).flatMap fun element => components element.toList := by
    rw [text, components_intercalate, List.flatMap_map]
  have dropped : (first :: rest).dropWhile (fun element => decide (element = "")) = first :: rest := by simp [given]
  rw [join, dropped]
  dsimp only
  rw [clean_eq, kept, head, whole]

/-- Elements behind a directory whose components are plain are kept as they are. -/
theorem join_components {directory : String} (given : directory ≠ "") {elements : List String} {names : List (List Char)}
    (own : (elements.flatMap fun element => components element.toList) = names) (plain : ∀ name ∈ names, Plain name) :
    join (directory :: elements) = render (rooted directory) (kept directory ++ names) := by
  rw [join_eq given, List.flatMap_cons, own, List.foldl_append, foldl_enter_plain plain]
  simp [kept]

private theorem flatMap_plain {names : List String} (plain : ∀ name ∈ names, Plain name.toList) :
    (names.flatMap fun element => components element.toList) = names.map String.toList := by
  rw [← List.flatMap_map]
  exact flatMap_components fun name member => by
    obtain ⟨element, held, rfl⟩ := List.mem_map.mp member
    exact ⟨(plain element held).given, (plain element held).closed⟩

/-- Plain names behind a directory are kept as they are, whatever the directory. -/
theorem join_plain (directory : String) {first : String} {rest : List String} (plain : ∀ name ∈ first :: rest, Plain name.toList) :
    join (directory :: first :: rest) = render (rooted directory) (kept directory ++ (first :: rest).map String.toList) := by
  have own := flatMap_plain plain
  have all : ∀ name ∈ (first :: rest).map String.toList, Plain name := fun name member => by
    obtain ⟨element, held, rfl⟩ := List.mem_map.mp member
    exact plain element held
  by_cases empty : directory = ""
  · subst empty
    have given : first ≠ "" := fun none => (plain first List.mem_cons_self).given (by rw [none]; rfl)
    have unrooted : rooted first = false := by
      have closed := (plain first List.mem_cons_self).closed
      unfold rooted
      cases text : first.toList with
      | nil => rfl
      | cons c tail =>
        rw [text, List.mem_cons, not_or] at closed
        simpa using Ne.symm closed.1
    have dropped : join ("" :: first :: rest) = join (first :: rest) := by simp [join]
    have nothing : rooted "" = false ∧ kept "" = [] := by decide
    rw [dropped, join_eq given, own, foldl_enter_plain all, unrooted, nothing.1, nothing.2]
    simp
  · exact join_components empty own all

/-! ## Cleaning again -/

/-- The stack of a path being cleaned is what its own components lead to. -/
private theorem enter_settled {rooted : Bool} {stack : List (List Char)} (name : List Char)
    (here : ∀ other ∈ stack, other ≠ ['.']) (settled : stack.reverse.foldl (enter rooted) [] = stack) :
    (enter rooted stack name).reverse.foldl (enter rooted) [] = enter rooted stack name := by
  have again (more : List Char) (entered : enter rooted stack more = more :: stack) :
      (more :: stack).reverse.foldl (enter rooted) [] = more :: stack := by
    rw [List.reverse_cons, List.foldl_append, settled]
    exact entered
  by_cases dot : name = ['.']
  · simpa [enter, dot] using settled
  · by_cases up : name = ['.', '.']
    · cases stack with
      | nil =>
        cases rooted with
        | true | false => simp [enter, up]
      | cons last rest =>
        by_cases higher : last = ['.', '.']
        · have entered : enter rooted (last :: rest) name = name :: last :: rest := by simp [enter, up, higher]
          rw [entered]
          exact again name entered
        · have popped : enter rooted (last :: rest) name = rest := by simp [enter, up, higher]
          have before : enter rooted (rest.reverse.foldl (enter rooted) []) last = last :: rest := by
            simpa [List.foldl_append] using settled
          rw [popped]
          simpa [enter, here last List.mem_cons_self, higher] using before
    · have entered : enter rooted stack name = name :: stack := by simp [enter, dot, up]
      rw [entered]
      exact again name entered

private theorem foldl_settled {rooted : Bool} {names : List (List Char)} (named : ∀ name ∈ names, name ≠ [] ∧ '/' ∉ name) :
    (names.foldl (enter rooted) []).reverse.foldl (enter rooted) [] = names.foldl (enter rooted) [] := by
  have along : ∀ stack : List (List Char), (∀ name ∈ stack, name ≠ [] ∧ '/' ∉ name ∧ name ≠ ['.']) →
      stack.reverse.foldl (enter rooted) [] = stack →
      (names.foldl (enter rooted) stack).reverse.foldl (enter rooted) [] = names.foldl (enter rooted) stack := by
    induction names with
    | nil => exact fun _ _ settled => settled
    | cons name names ih =>
      intro stack all settled
      rw [List.forall_mem_cons] at named
      exact ih named.2 _ (enter_kept named.1 all) (enter_settled name (fun other member => (all other member).2.2) settled)
  exact along [] (fun _ none => absurd none List.not_mem_nil) rfl

/-- A cleaned directory is kept when a plain name is joined to it. -/
theorem kept_render {path : String} {names : List (List Char)} (plain : ∀ name ∈ names, Plain name)
    (given : names ≠ []) : rooted (render (rooted path) (kept path ++ names)) = rooted path ∧
      kept (render (rooted path) (kept path ++ names)) = kept path ++ names := by
  have named : ∀ name ∈ kept path ++ names, name ≠ [] ∧ '/' ∉ name := by
    intro name member
    rcases List.mem_append.mp member with old | new
    · exact ⟨(kept_named path name old).1, (kept_named path name old).2.1⟩
    · exact ⟨(plain name new).given, (plain name new).closed⟩
  have led : place (render (rooted path) (kept path ++ names)) = ⟨rooted path, kept path ++ names⟩ :=
    place_render named (.inl (List.append_ne_nil_of_right_ne_nil _ given))
  obtain ⟨head, through⟩ := Place.mk.inj led
  have same : rooted (render (rooted path) (kept path ++ names)) = rooted path := head
  refine ⟨same, ?_⟩
  rw [kept, same, through, List.foldl_append, foldl_enter_plain plain]
  unfold kept
  rw [foldl_settled (components_named path.toList)]
  simp

/-! ## Last elements -/

/-- `filepath.Base`. -/
def base (path : String) : String :=
  if path = "" then "."
  else
    let last := ((path.toList.reverse.dropWhile fun c => c = '/').takeWhile fun c => c ≠ '/').reverse
    if last = [] then "/" else String.ofList last

/-- `filepath.Dir`. -/
def dir (path : String) : String := clean (String.ofList (path.toList.reverse.dropWhile fun c => c ≠ '/').reverse)

private theorem base_of_split {path : String} (front : List Char) {name : List Char} (text : path.toList = front ++ name) (given : name ≠ [])
    (closed : '/' ∉ name) (ends : front = [] ∨ front.getLast? = some '/') : base path = String.ofList name := by
  have some_path : path ≠ "" := by
    rintro rfl
    have empty : front ++ name = [] := text.symm
    exact given (List.append_eq_nil_iff.mp empty).2
  have plain (c : Char) (member : c ∈ name.reverse) : c ≠ '/' := fun same => closed (same ▸ List.mem_reverse.mp member)
  obtain ⟨last, more, reversed⟩ := List.exists_cons_of_ne_nil (List.reverse_ne_nil_iff.mpr given)
  have undropped : (path.toList.reverse.dropWhile fun c => decide (c = '/')) = name.reverse ++ front.reverse := by
    have differs := plain last (by rw [reversed]; exact List.mem_cons_self)
    rw [text, List.reverse_append, reversed, List.cons_append, List.dropWhile_cons_of_neg (by simpa using differs)]
  have stopped : front.reverse.takeWhile (fun c => decide (c ≠ '/')) = [] := by
    rcases ends with rfl | slash
    · rfl
    · obtain ⟨body, rfl⟩ := List.getLast?_eq_some_iff.mp slash
      simp
  have taken : (name.reverse ++ front.reverse).takeWhile (fun c => decide (c ≠ '/')) = name.reverse := by
    rw [List.takeWhile_append_of_pos fun c member => by simpa using plain c member, stopped, List.append_nil]
  rw [base, if_neg some_path]
  simp only [undropped, taken, List.reverse_reverse, given, if_false]

theorem base_render {rooted : Bool} {kept : List (List Char)} {name : List Char} (given : name ≠ []) (closed : '/' ∉ name) :
    base (render rooted (kept ++ [name])) = String.ofList name := by
  have some : kept ++ [name] ≠ [] := by simp
  have text : ∃ front, ['/'].intercalate (kept ++ [name]) = front ++ name ∧ (front = [] ∨ front.getLast? = Option.some '/') := by
    induction kept with
    | nil => exact ⟨[], by simp [List.intercalate], .inl rfl⟩
    | cons first rest ih =>
      obtain ⟨front, whole, ends⟩ := ih (by simp)
      refine ⟨first ++ '/' :: front, ?_, .inr ?_⟩
      · obtain ⟨second, later, next⟩ := List.exists_cons_of_ne_nil (List.append_ne_nil_of_right_ne_nil rest (List.cons_ne_nil name []))
        rw [List.cons_append, next, intercalate_cons_cons, ← next, whole]
        simp
      · rcases ends with rfl | slash
        · simp
        · rw [List.getLast?_append, List.getLast?_cons, slash]
          rfl
  obtain ⟨front, whole, ends⟩ := text
  cases rooted with
  | true =>
    refine base_of_split ('/' :: front) ?_ given closed (.inr ?_)
    · simp only [render, if_true, String.toList_append, toList_intercalate, whole]
      rfl
    · rcases ends with rfl | slash
      · rfl
      · rw [List.getLast?_cons, slash]
        rfl
  | false =>
    refine base_of_split front ?_ given closed ends
    simp only [render, Bool.false_eq_true, if_false, if_neg some, toList_intercalate, whole]

end Ironsight.CleanPaths
