import Mathlib.Data.List.Basic

/-! Searches that go through a text from the left, take each match that they come to and go on
behind it. Whether there is a match may depend on the element before it. -/
namespace Ironsight.LeftmostMatches

variable {α μ : Type*}

/-- A search for matches that are not empty. -/
structure Matcher (α μ : Type*) where
  matchAt : Option α → List α → Option μ
  text : μ → List α
  front : ∀ {prev t m}, matchAt prev t = some m → text m <+: t
  given : ∀ {prev t m}, matchAt prev t = some m → text m ≠ []

namespace Matcher

variable (matcher : Matcher α μ)

/-- The matches, when the given number of elements belongs to the last one. -/
def search : Nat → Option α → List α → List μ
  | _, _, [] => []
  | skip + 1, _, a :: t => search skip (some a) t
  | 0, prev, a :: t =>
    match matcher.matchAt prev (a :: t) with
    | some m => m :: search ((matcher.text m).length - 1) (some a) t
    | none => search 0 (some a) t

/-- The text with another one in place of every match. -/
def replaceAll (replace : μ → List α) : Nat → Option α → List α → List α
  | _, _, [] => []
  | skip + 1, _, a :: t => replaceAll replace skip (some a) t
  | 0, prev, a :: t =>
    match matcher.matchAt prev (a :: t) with
    | some m => replace m ++ replaceAll replace ((matcher.text m).length - 1) (some a) t
    | none => a :: replaceAll replace 0 (some a) t

/-- The first match and the text before it. -/
def find : Option α → List α → Option (List α × μ)
  | _, [] => none
  | prev, a :: t =>
    match matcher.matchAt prev (a :: t) with
    | some m => some ([], m)
    | none => (find (some a) t).map fun found => (a :: found.1, found.2)

variable {matcher} {prev : Option α} {a : α} {s rest t : List α} {m : μ} {replace : μ → List α}

/-! ## Step by step -/

private theorem search_cons (prev : Option α) (a : α) (t : List α) : matcher.search 0 prev (a :: t) =
    match matcher.matchAt prev (a :: t) with
    | some m => m :: matcher.search ((matcher.text m).length - 1) (some a) t
    | none => matcher.search 0 (some a) t := rfl

private theorem replaceAll_cons (prev : Option α) (a : α) (t : List α) : matcher.replaceAll replace 0 prev (a :: t) =
    match matcher.matchAt prev (a :: t) with
    | some m => replace m ++ matcher.replaceAll replace ((matcher.text m).length - 1) (some a) t
    | none => a :: matcher.replaceAll replace 0 (some a) t := rfl

private theorem find_cons (prev : Option α) (a : α) (t : List α) : matcher.find prev (a :: t) =
    match matcher.matchAt prev (a :: t) with
    | some m => some ([], m)
    | none => (matcher.find (some a) t).map fun found => (a :: found.1, found.2) := rfl

/-- What the last match has is passed over. -/
private theorem search_succ (skip : Nat) (prev : Option α) (a : α) (t : List α) :
    matcher.search (skip + 1) prev (a :: t) = matcher.search skip (some a) t := rfl

private theorem replaceAll_succ (skip : Nat) (prev : Option α) (a : α) (t : List α) :
    matcher.replaceAll replace (skip + 1) prev (a :: t) = matcher.replaceAll replace skip (some a) t := rfl

private theorem search_skip (prev : Option α) (s rest : List α) :
    matcher.search s.length prev (s ++ rest) = matcher.search 0 (s.getLast?.or prev) rest := by
  induction s generalizing prev with
  | nil => rfl
  | cons a s ih =>
    rw [List.length_cons, List.cons_append, search_succ, ih, List.getLast?_cons]
    cases s.getLast? <;> rfl

private theorem replaceAll_skip (prev : Option α) (s rest : List α) :
    matcher.replaceAll replace s.length prev (s ++ rest) = matcher.replaceAll replace 0 (s.getLast?.or prev) rest := by
  induction s generalizing prev with
  | nil => rfl
  | cons a s ih =>
    rw [List.length_cons, List.cons_append, replaceAll_succ, ih, List.getLast?_cons]
    cases s.getLast? <;> rfl

theorem search_gap (none_ : matcher.matchAt prev (a :: t) = none) :
    matcher.search 0 prev (a :: t) = matcher.search 0 (some a) t := by
  rw [search_cons, none_]

theorem search_match (hit : matcher.matchAt prev (s ++ rest) = some m) (same : matcher.text m = s) :
    matcher.search 0 prev (s ++ rest) = m :: matcher.search 0 s.getLast? rest := by
  cases s with
  | nil => exact absurd same (matcher.given hit)
  | cons a s =>
    rw [List.cons_append] at hit ⊢
    rw [search_cons, hit]
    dsimp only
    rw [same, List.length_cons, Nat.add_sub_cancel, search_skip, List.getLast?_cons]
    cases s.getLast? <;> rfl

theorem replaceAll_gap (none_ : matcher.matchAt prev (a :: t) = none) :
    matcher.replaceAll replace 0 prev (a :: t) = a :: matcher.replaceAll replace 0 (some a) t := by
  rw [replaceAll_cons, none_]

theorem replaceAll_match (hit : matcher.matchAt prev (s ++ rest) = some m) (same : matcher.text m = s) :
    matcher.replaceAll replace 0 prev (s ++ rest) = replace m ++ matcher.replaceAll replace 0 s.getLast? rest := by
  cases s with
  | nil => exact absurd same (matcher.given hit)
  | cons a s =>
    rw [List.cons_append] at hit ⊢
    rw [replaceAll_cons, hit]
    dsimp only
    rw [same, List.length_cons, Nat.add_sub_cancel, replaceAll_skip, List.getLast?_cons]
    cases s.getLast? <;> rfl

theorem find_match (hit : matcher.matchAt prev s = some m) (given : s ≠ []) : matcher.find prev s = some ([], m) := by
  obtain ⟨a, t, rfl⟩ := List.exists_cons_of_ne_nil given
  rw [find_cons, hit]

theorem find_none (missed : ∀ s a t', s ++ a :: t' = t → matcher.matchAt (s.getLast?.or prev) (a :: t') = none) :
    matcher.find prev t = none := by
  induction t generalizing prev with
  | nil => rfl
  | cons a t ih =>
    have here : matcher.matchAt prev (a :: t) = none := missed [] a t rfl
    have later : matcher.find (some a) t = none := by
      refine ih fun s b t' whole => ?_
      have found := missed (a :: s) b t' (by rw [List.cons_append, whole])
      rw [List.getLast?_cons] at found
      cases last : s.getLast? <;> simpa [last] using found
    rw [find_cons, here]
    dsimp only
    rw [later, Option.map_none]

/-- What holds of the empty text, of a text one element longer that does not start with a match,
and of a text longer by a match holds of every text. -/
theorem induct {motive : Option α → List α → Prop} (nil : ∀ prev, motive prev [])
    (gap : ∀ prev a t, matcher.matchAt prev (a :: t) = none → motive (some a) t → motive prev (a :: t))
    (hit : ∀ prev m rest, matcher.matchAt prev (matcher.text m ++ rest) = some m → motive (matcher.text m).getLast? rest →
      motive prev (matcher.text m ++ rest)) (prev : Option α) (t : List α) : motive prev t := by
  generalize size : t.length = n
  induction n using Nat.strongRecOn generalizing prev t with
  | ind n ih =>
    subst size
    cases t with
    | nil => exact nil prev
    | cons a t =>
      cases found : matcher.matchAt prev (a :: t) with
      | none => exact gap prev a t found (ih t.length (Nat.lt_succ_self _) _ _ rfl)
      | some m =>
        obtain ⟨rest, whole⟩ := matcher.front found
        have positive := List.length_pos_of_ne_nil (matcher.given found)
        have shorter : rest.length < (a :: t).length := by
          rw [← whole, List.length_append]
          omega
        rw [← whole] at found ⊢
        exact hit prev m rest found (ih rest.length shorter _ _ rfl)

theorem search_found (held : m ∈ matcher.search 0 prev t) :
    ∃ prev rest, matcher.matchAt prev (matcher.text m ++ rest) = some m := by
  induction prev, t using matcher.induct with
  | nil => cases held
  | gap prev a t none_ ih =>
    rw [search_gap none_] at held
    exact ih held
  | hit prev m' rest found ih =>
    rw [search_match found rfl] at held
    rcases List.mem_cons.mp held with rfl | later
    · exact ⟨prev, rest, found⟩
    · exact ih later

/-! ## Nothing to replace -/

theorem replaceAll_self (same : ∀ m ∈ matcher.search 0 prev t, replace m = matcher.text m) :
    matcher.replaceAll replace 0 prev t = t := by
  induction prev, t using matcher.induct with
  | nil => rfl
  | gap prev a t none_ ih =>
    rw [search_gap none_] at same
    rw [replaceAll_gap none_, ih same]
  | hit prev m rest found ih =>
    rw [search_match found rfl] at same
    rw [replaceAll_match found rfl, same m List.mem_cons_self, ih fun other held => same other (List.mem_cons_of_mem _ held)]

end Matcher

end Ironsight.LeftmostMatches
