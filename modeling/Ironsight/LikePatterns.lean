import Mathlib.Data.List.Infix
import Mathlib.Data.List.Forall2

/-! SQL patterns: `_` stands for one character, `%` for any text, and a backslash
takes the character after it as it is. -/
namespace Ironsight.LikePatterns

inductive Piece where
  | literal (c : Char)
  | one
  | many
  deriving DecidableEq

def piece (c : Char) : Piece := if c = '%' then .many else if c = '_' then .one else .literal c

/-- The pieces of a pattern, from after a backslash or not; a pattern that ends in one
has none. -/
def pieces : (escaped : Bool) → List Char → Option (List Piece)
  | false, [] => some []
  | true, [] => none
  | true, c :: rest => (pieces false rest).map (.literal c :: ·)
  | false, c :: rest => if c = '\\' then pieces true rest else (pieces false rest).map (piece c :: ·)

def accepts : List Piece → List Char → Bool
  | [], text => text.isEmpty
  | .literal c :: rest, first :: text => decide (c = first) && accepts rest text
  | .one :: rest, _ :: text => accepts rest text
  | .many :: rest, text => text.tails.any fun tail => accepts rest tail
  | _, [] => false

/-- `text LIKE pattern`. -/
def like (pattern text : List Char) : Bool :=
  match pieces false pattern with
  | none => false
  | some found => accepts found text

/-- A pattern character that does not only stand for itself. -/
def Wildcard (c : Char) : Prop := c = '%' ∨ c = '_'

instance (c : Char) : Decidable (Wildcard c) := inferInstanceAs (Decidable (_ ∨ _))

theorem pieces_append {plain rest : List Char} (unescaped : '\\' ∉ plain) :
    pieces false (plain ++ rest) = (pieces false rest).map (plain.map piece ++ ·) := by
  induction plain with
  | nil => simp
  | cons c plain ih =>
    obtain ⟨differs, others⟩ : '\\' ≠ c ∧ '\\' ∉ plain := by simpa using unescaped
    rw [List.cons_append, pieces, if_neg differs.symm, ih others, Option.map_map]
    rfl

/-- What `LIKE prefix || '%'` asks of a text. -/
theorem like_percent {plain text : List Char} (unescaped : '\\' ∉ plain) :
    like (plain ++ ['%']) text = accepts (plain.map piece ++ [.many]) text := by
  have found : pieces false ['%'] = some [.many] := by decide
  simp [like, pieces_append unescaped, found]

private theorem accepts_many {rest : List Piece} {text : List Char} :
    accepts (.many :: rest) text = true ↔ ∃ tail, tail <:+ text ∧ accepts rest tail = true := by
  simp [accepts]

private theorem accepts_cons {c first : Char} {rest : List Piece} {text : List Char} (covers : c = first ∨ Wildcard c)
    (accepted : accepts rest text = true) : accepts (piece c :: rest) (first :: text) = true := by
  by_cases percent : c = '%'
  · rw [piece, if_pos percent, accepts_many]
    exact ⟨text, List.suffix_cons first text, accepted⟩
  · by_cases underscore : c = '_'
    · rw [piece, if_neg percent, if_pos underscore]
      exact accepted
    · have same : c = first := by
        rcases covers with same | percent' | underscore'
        · exact same
        · exact absurd percent' percent
        · exact absurd underscore' underscore
      rw [piece, if_neg percent, if_neg underscore]
      simp [accepts, same, accepted]

/-- A text is found when each of its characters is the one of the pattern, or stands
under a wildcard. -/
theorem like_of_covers {plain text rest : List Char} (unescaped : '\\' ∉ plain)
    (covers : List.Forall₂ (fun c first => c = first ∨ Wildcard c) plain text) :
    like (plain ++ ['%']) (text ++ rest) = true := by
  rw [like_percent unescaped]
  clear unescaped
  induction covers with
  | nil => exact accepts_many.mpr ⟨[], List.nil_suffix, rfl⟩
  | cons covered _ ih => exact accepts_cons covered ih

private theorem forall₂_self (plain : List Char) :
    List.Forall₂ (fun c first => c = first ∨ Wildcard c) plain plain :=
  List.forall₂_same.mpr fun _ _ => .inl rfl

theorem like_self {plain : List Char} (unescaped : '\\' ∉ plain) (rest : List Char) :
    like (plain ++ ['%']) (plain ++ rest) = true :=
  like_of_covers unescaped (forall₂_self plain)

/-- Any character passes under a wildcard. -/
theorem like_wildcard {before after : List Char} {c : Char} (unescaped : '\\' ∉ before ++ c :: after)
    (wild : Wildcard c) (first : Char) : like (before ++ c :: after ++ ['%']) (before ++ first :: after) = true := by
  rw [← List.append_nil (before ++ first :: after)]
  exact like_of_covers unescaped (List.rel_append (forall₂_self before) (.cons (.inr wild) (forall₂_self after)))

/-- Without wildcards the pattern finds the texts that begin with the prefix. -/
theorem like_plain {plain text : List Char} (unescaped : '\\' ∉ plain) (tame : ∀ c ∈ plain, ¬ Wildcard c) :
    like (plain ++ ['%']) text = true ↔ plain <+: text := by
  constructor
  · rw [like_percent unescaped]
    clear unescaped
    induction plain generalizing text with
    | nil => simp
    | cons c plain ih =>
      obtain ⟨own, others⟩ := List.forall_mem_cons.mp tame
      have literal : piece c = .literal c := by
        rw [piece, if_neg fun same => own (.inl same), if_neg fun same => own (.inr same)]
      intro accepted
      rw [List.map_cons, List.cons_append, literal] at accepted
      cases text with
      | nil => cases accepted
      | cons first text =>
        obtain ⟨same, rest⟩ : c = first ∧ accepts (plain.map piece ++ [.many]) text = true := by
          simpa [accepts] using accepted
        exact List.cons_prefix_cons.mpr ⟨same, ih others rest⟩
  · rintro ⟨rest, rfl⟩
    exact like_self unescaped rest

example : like "/mnt/a_b%".toList "/mnt/axb/seg.mp4".toList = true := by decide

end Ironsight.LikePatterns
