import Mathlib.Data.List.Infix

/-! Slash-separated paths by their components, which are compared literally. -/
namespace Ironsight.Paths

/-- The components of a path; empty ones are left out. -/
def components : List Char → List (List Char)
  | [] => []
  | c :: rest =>
    if c = '/' then components rest
    else if rest = [] ∨ rest.head? = some '/' then [c] :: components rest
    else (components rest).modifyHead (c :: ·)

/-- Where a path leads: from the root or from the working directory, and through which
components. -/
structure Place where
  rooted : Bool
  components : List (List Char)
  deriving DecidableEq

def place (path : String) : Place := ⟨path.toList.head? = some '/', components path.toList⟩

/-- A further component of a path that is being cleaned; the kept ones, the last one first. -/
def enter (rooted : Bool) (kept : List (List Char)) (name : List Char) : List (List Char) :=
  if name = ['.'] then kept
  else if name = ['.', '.'] then
    match kept with
    | [] => if rooted then [] else [name]
    | last :: rest => if last = ['.', '.'] then name :: kept else rest
  else name :: kept

/-- The shortest path that leads to the same place, without a look at the file system. -/
def clean (path : String) : String :=
  let rooted := path.toList.head? = some '/'
  let kept := ((components path.toList).foldl (enter rooted) []).reverse
  let text := String.intercalate "/" (kept.map String.ofList)
  if rooted then "/" ++ text else if kept = [] then "." else text

def join (elements : List String) : String :=
  match elements.dropWhile (· = "") with
  | [] => ""
  | first :: rest => clean (String.intercalate "/" (first :: rest))

example : join ["/frames", "org/../../x", "./a"] = "/x/a" := by decide

/-- The place is the directory itself or lies below it. -/
def Place.Within (inner outer : Place) : Prop :=
  inner.rooted = outer.rooted ∧ outer.components <+: inner.components

instance (inner outer : Place) : Decidable (inner.Within outer) := inferInstanceAs (Decidable (_ ∧ _))

/-- The place lies below the directory. -/
def Place.Below (inner outer : Place) : Prop := inner.Within outer ∧ inner ≠ outer

instance (inner outer : Place) : Decidable (inner.Below outer) := inferInstanceAs (Decidable (_ ∧ _))

/-! ## Components of longer paths -/

private theorem components_cons {c : Char} (plain : c ≠ '/') (rest : List Char) : components (c :: rest) =
    if rest = [] ∨ rest.head? = some '/' then [c] :: components rest else (components rest).modifyHead (c :: ·) := by
  rw [components, if_neg plain]

private theorem modifyHead_append {α : Type} {head : α → α} {items others : List α} (given : items ≠ []) :
    (items ++ others).modifyHead head = items.modifyHead head ++ others := by
  cases items with
  | nil => exact absurd rfl given
  | cons item items => rfl

theorem components_cons_ne_nil {c : Char} {rest : List Char} (plain : c ≠ '/') : components (c :: rest) ≠ [] := by
  induction rest generalizing c with
  | nil => simp [components, plain]
  | cons next rest ih =>
    rw [components_cons plain]
    split
    · nofun
    · rename_i inside
      have others : components (next :: rest) ≠ [] := ih fun slash => inside (.inr (by rw [slash]; rfl))
      cases found : components (next :: rest) with
      | nil => exact absurd found others
      | cons first later => nofun

/-- A slash ends a component. -/
theorem components_append (path rest : List Char) :
    components (path ++ '/' :: rest) = components path ++ components rest := by
  induction path with
  | nil => simp [components]
  | cons c path ih =>
    by_cases slash : c = '/'
    · simpa [components, slash] using ih
    · cases path with
      | nil => simp [components, slash]
      | cons next path =>
        rw [List.cons_append, components_cons slash, ih, components_cons slash]
        by_cases ends : next = '/'
        · simp [ends]
        · simp only [List.cons_append, List.head?_cons, Option.some.injEq, ends, reduceCtorEq, or_self, if_false]
          exact modifyHead_append (components_cons_ne_nil ends)

private theorem components_inside {rest : List Char} (inside : ¬ (rest = [] ∨ rest.head? = some '/')) :
    components rest ≠ [] := by
  cases rest with
  | nil => exact absurd (.inl rfl) inside
  | cons next rest => exact components_cons_ne_nil fun slash => inside (.inr (congrArg some slash))

theorem flatten_components (path : List Char) : (components path).flatten = path.filter fun c => c ≠ '/' := by
  induction path with
  | nil => rfl
  | cons c path ih =>
    by_cases slash : c = '/'
    · simpa [components, slash] using ih
    · rw [components_cons slash, List.filter_cons_of_pos (by simpa using slash), ← ih]
      split
      · rfl
      · rename_i inside
        cases found : components path with
        | nil => exact absurd found (components_inside inside)
        | cons first later => rfl

/-- Text at the end of a component makes it longer and starts no other. -/
theorem length_components_append {last next : Char} (plain : last ≠ '/') (plain' : next ≠ '/') (path : List Char) :
    (components (path ++ [last, next])).length = (components (path ++ [last])).length := by
  induction path with
  | nil => simp [components, plain, plain']
  | cons c path ih =>
    by_cases slash : c = '/'
    · simpa [components, slash] using ih
    · cases path with
      | nil => simp [components, slash, plain, plain']
      | cons second path =>
        simp only [List.cons_append] at ih ⊢
        rw [components_cons slash (second :: (path ++ [last, next])), components_cons slash (second :: (path ++ [last]))]
        simp only [List.head?_cons, reduceCtorEq, false_or]
        split
        · simpa using ih
        · simpa using ih

/-- A name is a component of its own. -/
theorem components_name {name : List Char} (given : name ≠ []) (plain : '/' ∉ name) : components name = [name] := by
  induction name with
  | nil => exact absurd rfl given
  | cons c name ih =>
    obtain ⟨differs, others⟩ : '/' ≠ c ∧ '/' ∉ name := by simpa using plain
    rw [components_cons differs.symm]
    cases name with
    | nil => rfl
    | cons next name =>
      have opened : next ≠ '/' := fun slash => others (slash ▸ List.mem_cons_self)
      rw [if_neg (by simp [opened]), ih nofun others]
      rfl

/-- The entry of the given name in a directory. -/
def Place.child (directory : Place) (name : List Char) : Place := ⟨directory.rooted, directory.components ++ [name]⟩

/-- `filepath.Join` of a directory and a name. -/
theorem place_join {directory name : String} (given : directory ≠ "") (given' : name ≠ "") (plain : '/' ∉ name.toList) :
    place (directory ++ "/" ++ name) = (place directory).child name.toList := by
  have text : (directory ++ "/" ++ name).toList = directory.toList ++ '/' :: name.toList := by simp
  have some : directory.toList ≠ [] := by simpa using given
  have named : name.toList ≠ [] := by simpa using given'
  simp only [place, Place.child, text, components_append, components_name named plain,
    List.head?_append_of_ne_nil _ some]

/-! ## Directories -/

/-- What is written after a directory's closing slash lies within the directory. -/
theorem within_of_prefix {directory path : List Char} (closed : directory.getLast? = some '/')
    (starts : directory <+: path) : components directory <+: components path := by
  obtain ⟨rest, rfl⟩ := starts
  obtain ⟨body, rfl⟩ : ∃ body, directory = body ++ ['/'] := List.getLast?_eq_some_iff.mp closed
  rw [components_append, List.append_assoc, List.singleton_append, components_append]
  simp [components]

/-- A sibling whose name goes on where the directory's ends lies outside. -/
theorem sibling_outside {directory : List Char} {last next : Char} (ends : directory.getLast? = some last)
    (plain : last ≠ '/') (plain' : next ≠ '/') : ¬ components directory <+: components (directory ++ [next]) := by
  intro within
  obtain ⟨body, rfl⟩ := List.getLast?_eq_some_iff.mp ends
  have same : components (body ++ [last]) = components (body ++ [last] ++ [next]) := by
    apply within.eq_of_length
    rw [List.append_assoc, List.singleton_append, length_components_append plain plain']
  have flat := congrArg List.flatten same
  rw [flatten_components, flatten_components] at flat
  have longer := congrArg List.length flat
  simp [plain, plain'] at longer

/-- A path that has another character in place of one of the directory's lies outside. -/
theorem substitute_outside {before after : List Char} {c first : Char} (plain : c ≠ '/') (plain' : first ≠ '/')
    (differs : c ≠ first) : ¬ components (before ++ c :: after) <+: components (before ++ first :: after) := by
  intro within
  obtain ⟨rest, same⟩ := within
  have flat := congrArg List.flatten same
  rw [List.flatten_append, flatten_components, flatten_components, List.filter_append, List.filter_append,
    List.filter_cons_of_pos (by simpa using plain), List.filter_cons_of_pos (by simpa using plain'),
    List.append_assoc] at flat
  exact differs (List.cons.inj (List.append_cancel_left flat)).1

/-- A character that the path lacks keeps the path outside. -/
theorem foreign_outside {directory path : List Char} {c : Char} (plain : c ≠ '/') (held : c ∈ directory)
    (lacking : c ∉ path) : ¬ components directory <+: components path := by
  rintro ⟨rest, same⟩
  have flat := congrArg List.flatten same
  rw [List.flatten_append, flatten_components, flatten_components] at flat
  have present : c ∈ path.filter fun c => c ≠ '/' := by
    rw [← flat]
    exact List.mem_append_left _ (List.mem_filter.mpr ⟨held, by simpa using plain⟩)
  exact lacking (List.mem_of_mem_filter present)

end Ironsight.Paths
