import Mathlib.Data.List.InsertIdx
import Mathlib.Data.List.Nodup
import Mathlib.Data.List.Perm.Basic

/-! A list that is shown in two parts: the elements at the front, and behind them the
others, both in the order of the list and without the elements that have no tile. An
element of the list is moved by its place there; the lemmas say when this moves the
tile that is shown at the place of the same number. -/
namespace Ironsight.PartedLists

variable {α β : Type*}

/-- The element at the place `i` is taken out and put back at the place `j`, or at
the end where the list is too short. -/
def move (items : List α) (i j : Nat) : List α :=
  match items[i]? with
  | some a => (items.eraseIdx i).insertIdx (min j (items.length - 1)) a
  | none => items

theorem map_move {γ : Type*} (f : α → γ) (items : List α) (i j : Nat) :
    (move items i j).map f = move (items.map f) i j := by
  simp only [move, List.getElem?_map, List.length_map]
  cases items[i]? with
  | none => rfl
  | some a => rw [Option.map_some, List.map_insertIdx, List.eraseIdx_map]

theorem move_perm (items : List α) (i j : Nat) : (move items i j).Perm items := by
  rw [move]
  cases found : items[i]? with
  | none => exact .refl _
  | some a =>
    obtain ⟨inside, rfl⟩ := List.getElem?_eq_some_iff.mp found
    have length := List.length_eraseIdx_of_lt inside
    refine (List.perm_insertIdx _ _ (by omega)).trans ?_
    exact (List.getElem_cons_eraseIdx_perm inside)

/-- How the elements of a list are shown. -/
structure Display (α β : Type*) where
  front : α → Bool
  tile : α → Option β

namespace Display

variable (display : Display α β)

/-- The tiles of the front part, or of the other one. -/
def part (front : Bool) (items : List α) : List β :=
  items.filterMap fun a => if display.front a = front then display.tile a else none

def shown (items : List α) : List β := display.part true items ++ display.part false items

/-- The number of tiles of one part. -/
def count (front : Bool) (items : List α) : Nat := items.countP fun a => (display.tile a).isSome && display.front a == front

/-- The number of tiles shown before an element of one part that stands at the place `k`. -/
def ahead (front : Bool) (items : List α) (k : Nat) : Nat :=
  (if front then 0 else display.count true items) + display.count front (items.take k)

/-- The element at the place `k` has a tile, and `k` tiles are shown before it. -/
def InPlace (items : List α) (k : Nat) : Prop :=
  ∃ a ∈ items[k]?, (display.tile a).isSome ∧ display.ahead (display.front a) items k = k

instance (items : List α) (k : Nat) : Decidable (display.InPlace items k) := inferInstanceAs (Decidable (∃ a ∈ items[k]?, _))

end Display

/-! ## Inserting -/

theorem insertIdx_length (before behind : List α) (a : α) :
    (before ++ behind).insertIdx before.length a = before ++ a :: behind := by
  induction before with
  | nil => rfl
  | cons first rest ih => rw [List.cons_append, List.length_cons, List.insertIdx_succ_cons, ih, List.cons_append]

theorem insertIdx_eq {items : List α} {k : Nat} (inside : k ≤ items.length) (a : α) :
    items.insertIdx k a = items.take k ++ a :: items.drop k := by
  have split := insertIdx_length (items.take k) (items.drop k) a
  rwa [List.take_append_drop, List.length_take_of_le inside] at split

/-- A list with one more element, at one place and at another: the element that is
second there at `j` is first here at `i` only if it is the new one, where the
places lie on the same side of each other. -/
theorem moved_iff {tiles : List β} {t : β} {p q i j : Nat} (fresh : (t :: tiles).Nodup) (before : p ≤ tiles.length)
    (after : q ≤ tiles.length) (first : i < tiles.length + 1) (apart : i ≠ j) (ahead : i < j → p ≤ q) (behind : j < i → q ≤ p) :
    ((tiles.insertIdx q t)[j]? = (tiles.insertIdx p t)[i]? ∧
      (tiles.insertIdx q t).eraseIdx j = (tiles.insertIdx p t).eraseIdx i) ↔
      p = i ∧ q = j := by
  obtain ⟨notOld, distinct⟩ := List.nodup_cons.mp fresh
  constructor
  · intro ⟨same, _⟩
    have absent (k : Nat) : tiles[k]? ≠ some t := fun found => notOld (List.mem_of_getElem? found)
    rcases Nat.lt_trichotomy i p with early | rfl | late
    · -- the element first shown at `i` was in front of the new one
      rw [List.getElem?_insertIdx_of_lt early] at same
      have inside : i < tiles.length := by omega
      rcases Nat.lt_trichotomy j q with front | rfl | rear
      · rw [List.getElem?_insertIdx_of_lt front] at same
        have := (List.getElem?_inj inside distinct).mp same.symm
        omega
      · rw [List.getElem?_insertIdx_self, if_pos after] at same
        exact absurd same.symm (absent i)
      · rw [List.getElem?_insertIdx_of_gt rear] at same
        have := (List.getElem?_inj inside distinct).mp same.symm
        omega
    · refine ⟨rfl, ?_⟩
      rw [List.getElem?_insertIdx_self, if_pos before] at same
      rcases Nat.lt_trichotomy j q with front | rfl | rear
      · rw [List.getElem?_insertIdx_of_lt front] at same
        exact absurd same (absent j)
      · rfl
      · rw [List.getElem?_insertIdx_of_gt rear] at same
        exact absurd same (absent (j - 1))
    · rw [List.getElem?_insertIdx_of_gt late] at same
      have inside : i - 1 < tiles.length := by omega
      rcases Nat.lt_trichotomy j q with front | rfl | rear
      · rw [List.getElem?_insertIdx_of_lt front] at same
        have := (List.getElem?_inj inside distinct).mp same.symm
        omega
      · rw [List.getElem?_insertIdx_self, if_pos after] at same
        exact absurd same.symm (absent (i - 1))
      · rw [List.getElem?_insertIdx_of_gt rear] at same
        have := (List.getElem?_inj inside distinct).mp same.symm
        omega
  · rintro ⟨rfl, rfl⟩
    rw [List.getElem?_insertIdx_self, List.getElem?_insertIdx_self, if_pos before, if_pos after, List.eraseIdx_insertIdx_self,
      List.eraseIdx_insertIdx_self]
    exact ⟨rfl, rfl⟩

namespace Display

variable {display : Display α β}

/-! ## Where elements are shown -/

theorem part_cons (front : Bool) (a : α) (items : List α) :
    display.part front (a :: items) =
      (if display.front a = front then display.tile a else none).toList ++ display.part front items := by
  rw [part, part, List.filterMap_cons]
  cases if display.front a = front then display.tile a else none <;> rfl

theorem shown_perm (items : List α) : (display.shown items).Perm (items.filterMap display.tile) := by
  induction items with
  | nil => exact .refl _
  | cons a rest ih =>
    rw [shown] at ih ⊢
    rw [part_cons, part_cons, List.filterMap_cons]
    cases tile : display.tile a with
    | none => simpa using ih
    | some t =>
      cases side : display.front a with
      | true => simpa using ih
      | false => simpa using List.perm_middle.trans (ih.cons t)

theorem length_shown_le (items : List α) : (display.shown items).length ≤ items.length := by
  rw [(shown_perm items).length_eq]
  exact List.length_filterMap_le _ _

theorem part_append (front : Bool) (items more : List α) :
    display.part front (items ++ more) = display.part front items ++ display.part front more := List.filterMap_append

theorem length_part (front : Bool) (items : List α) :
    (display.part front items).length = display.count front items := by
  rw [part, List.length_filterMap_eq_countP, count]
  refine List.countP_congr fun a _ => ?_
  by_cases own : display.front a = front <;> simp [own]

theorem part_insert (front : Bool) (items : List α) {k : Nat} (inside : k ≤ items.length) (a : α) :
    display.part front (items.insertIdx k a) =
      display.part front (items.take k) ++ (if display.front a = front then display.tile a else none).toList ++
        display.part front (items.drop k) := by
  rw [insertIdx_eq inside, part_append, part_cons, List.append_assoc]

theorem part_split (front : Bool) (items : List α) (k : Nat) :
    display.part front (items.take k) ++ display.part front (items.drop k) = display.part front items := by
  rw [← part_append, List.take_append_drop]

theorem ahead_le (display : Display α β) (front : Bool) (items : List α) (k : Nat) :
    display.ahead front items k ≤ (display.shown items).length := by
  have less : display.count front (items.take k) ≤ display.count front items := (List.take_sublist k items).countP_le
  rw [ahead, shown, List.length_append, length_part, length_part]
  cases front <;> simp <;> omega

/-- An element with a tile is shown behind those of its part that stand before it. -/
theorem shown_insert {items : List α} {k : Nat} (inside : k ≤ items.length) {a : α} {t : β} (visible : display.tile a = some t) :
    display.shown (items.insertIdx k a) = (display.shown items).insertIdx (display.ahead (display.front a) items k) t := by
  cases side : display.front a with
  | true =>
    have length : display.ahead true items k = (display.part true (items.take k)).length := by simp [ahead, length_part]
    have whole : display.shown items =
        display.part true (items.take k) ++ (display.part true (items.drop k) ++ display.part false items) := by
      rw [shown, ← part_split true items k, List.append_assoc]
    rw [length, whole, insertIdx_length, shown, part_insert true items inside, part_insert false items inside, side, if_pos rfl,
      if_neg (by simp), visible, Option.toList_none, List.append_nil, part_split]
    simp
  | false =>
    have length : display.ahead false items k = (display.part true items ++ display.part false (items.take k)).length := by
      simp [ahead, length_part]
    have whole : display.shown items =
        (display.part true items ++ display.part false (items.take k)) ++ display.part false (items.drop k) := by
      rw [List.append_assoc, part_split, shown]
    rw [length, whole, insertIdx_length, shown, part_insert true items inside, part_insert false items inside, side, if_pos rfl,
      if_neg (by simp), visible, Option.toList_none, List.append_nil, part_split]
    simp

theorem shown_insert_hidden {items : List α} {k : Nat} (inside : k ≤ items.length) {a : α} (hidden : display.tile a = none) :
    display.shown (items.insertIdx k a) = display.shown items := by
  rw [shown, part_insert true items inside, part_insert false items inside, hidden, ite_self, ite_self, Option.toList_none,
    List.append_nil, List.append_nil, part_split, part_split, shown]

/-! ## Counting -/

theorem count_append (front : Bool) (items more : List α) :
    display.count front (items ++ more) = display.count front items + display.count front more := List.countP_append

theorem ahead_succ (display : Display α β) (front : Bool) {items : List α} {k : Nat} (inside : k < items.length) :
    display.ahead front items (k + 1) =
      display.ahead front items k + if (display.tile items[k]).isSome ∧ display.front items[k] = front then 1 else 0 := by
  rw [ahead, ahead, List.take_succ_eq_append_getElem inside, count_append, Nat.add_assoc]
  congr 2
  simp [count, List.countP_cons]

theorem ahead_mono (display : Display α β) (front : Bool) (items : List α) {k m : Nat} (order : k ≤ m) :
    display.ahead front items k ≤ display.ahead front items m :=
  Nat.add_le_add_left (List.take_sublist_take_left order).countP_le _

theorem ahead_le_add (display : Display α β) (front : Bool) (items : List α) (k more : Nat) :
    display.ahead front items (k + more) ≤ display.ahead front items k + more := by
  rw [ahead, ahead, List.take_add, count_append]
  have few : display.count front ((items.drop k).take more) ≤ more :=
    Nat.le_trans List.countP_le_length (List.length_take_le _ _)
  omega

/-- An element of one part does not count in front of the other one. -/
theorem count_true_insert {items : List α} {k : Nat} (inside : k ≤ items.length) {a : α} (side : display.front a = false) :
    display.count true (items.insertIdx k a) = display.count true items := by
  rw [← length_part, ← length_part, part_insert true items inside, side, if_neg (by simp), Option.toList_none, List.append_nil,
    part_split]

/-- A place up to that of an inserted element has the same tiles before it as without. -/
theorem ahead_insert_of_le {items : List α} {i j : Nat} (inside : i ≤ items.length) (a : α) (order : j ≤ i) :
    display.ahead (display.front a) (items.insertIdx i a) j = display.ahead (display.front a) items j := by
  have front : (items.insertIdx i a).take j = items.take j := List.take_insertIdx_eq_take_of_le items a j i order
  rw [ahead, ahead, front]
  cases side : display.front a with
  | true => rfl
  | false => rw [if_neg (by simp), if_neg (by simp), count_true_insert inside side]

/-- A place behind an inserted element has one more. -/
theorem ahead_insert_of_gt {items : List α} {i j : Nat} (inside : i ≤ items.length) {a : α} (visible : (display.tile a).isSome)
    (order : i ≤ j) :
    display.ahead (display.front a) (items.insertIdx i a) (j + 1) = display.ahead (display.front a) items j + 1 := by
  obtain ⟨more, rfl⟩ := Nat.exists_eq_add_of_le order
  have front : (items.insertIdx i a).take (i + more + 1) = items.take i ++ a :: (items.drop i).take more := by
    have cut : (items.take i ++ a :: items.drop i).take ((items.take i).length + (more + 1)) =
        items.take i ++ (a :: items.drop i).take (more + 1) := List.take_length_add_append (more + 1)
    rwa [List.length_take_of_le inside, List.take_succ_cons, ← insertIdx_eq inside, ← Nat.add_assoc] at cut
  have counted : display.count (display.front a) (items.take i ++ a :: (items.drop i).take more) =
      display.count (display.front a) (items.take (i + more)) + 1 := by
    rw [List.take_add, count_append, count_append]
    simp [count, visible, Nat.add_assoc]
  rw [ahead, ahead, front, counted, ← Nat.add_assoc]
  cases side : display.front a with
  | true => rfl
  | false => rw [if_neg (by simp), if_neg (by simp), count_true_insert inside side]

/-! ## Moving -/

theorem inPlace_shown {items : List α} {k : Nat} (inPlace : display.InPlace items k) :
    ∃ a ∈ items[k]?, ∃ t, display.tile a = some t ∧ (display.shown items)[k]? = some t := by
  obtain ⟨a, found, visible, place⟩ := inPlace
  obtain ⟨inside, rfl⟩ := List.getElem?_eq_some_iff.mp found
  obtain ⟨t, tile⟩ := Option.isSome_iff_exists.mp visible
  refine ⟨_, found, t, tile, ?_⟩
  have rest : k ≤ (items.eraseIdx k).length := by rw [List.length_eraseIdx_of_lt inside]; omega
  have whole : (items.eraseIdx k).insertIdx k items[k] = items := List.insertIdx_eraseIdx_getElem inside
  have before : display.ahead (display.front items[k]) (items.eraseIdx k) k = k := by
    rw [← ahead_insert_of_le rest _ (Nat.le_refl k), whole]
    exact place
  have shown := shown_insert rest tile
  rw [whole, before] at shown
  have room := ahead_le display (display.front items[k]) (items.eraseIdx k) k
  rw [shown, List.getElem?_insertIdx_self, if_pos (by omega)]

/-- An inserted element is in place if it has a tile and as many are before it as elements. -/
theorem inPlace_self_iff {rest : List α} {i : Nat} {a : α} (source : i ≤ rest.length) :
    display.InPlace (rest.insertIdx i a) i ↔ (display.tile a).isSome ∧ display.ahead (display.front a) rest i = i := by
  have found : (rest.insertIdx i a)[i]? = some a := by rw [List.getElem?_insertIdx_self, if_pos source]
  have before : display.ahead (display.front a) (rest.insertIdx i a) i = display.ahead (display.front a) rest i :=
    ahead_insert_of_le source a (Nat.le_refl i)
  constructor
  · rintro ⟨b, at_, visible, place⟩
    obtain rfl := Option.some.inj (found.symm.trans at_)
    exact ⟨visible, before ▸ place⟩
  · rintro ⟨visible, place⟩
    exact ⟨a, found, visible, before.trans place⟩

/-- The tile of an element that stays where it stands moves there only past tiles of its
part that do the same. -/
theorem inPlace_of_ahead {rest : List α} {i j : Nat} {a : α} (visible : (display.tile a).isSome) (source : i ≤ rest.length)
    (target : j ≤ rest.length) (apart : i ≠ j) (here : display.ahead (display.front a) rest i = i)
    (there : display.ahead (display.front a) rest j = j) : display.InPlace (rest.insertIdx i a) j := by
  rcases Nat.lt_or_gt_of_ne apart with right | left
  · obtain ⟨k, rfl⟩ : ∃ k, j = k + 1 := ⟨j - 1, by omega⟩
    have inside : k < rest.length := target
    have next := ahead_succ display (display.front a) inside
    have near := ahead_le_add display (display.front a) rest i (k - i)
    rw [show i + (k - i) = k by omega] at near
    have own : (display.tile rest[k]).isSome ∧ display.front rest[k] = display.front a := by
      by_contra other
      rw [if_neg other] at next
      omega
    rw [if_pos own] at next
    refine ⟨rest[k], ?_, own.1, ?_⟩
    · rw [List.getElem?_insertIdx_of_gt right]
      exact List.getElem?_eq_getElem inside
    · rw [own.2, ahead_insert_of_gt source visible (by omega)]
      omega
  · have inside : j < rest.length := by omega
    have next := ahead_succ display (display.front a) inside
    have near := ahead_le_add display (display.front a) rest (j + 1) (i - (j + 1))
    rw [show j + 1 + (i - (j + 1)) = i by omega] at near
    have own : (display.tile rest[j]).isSome ∧ display.front rest[j] = display.front a := by
      by_contra other
      rw [if_neg other] at next
      omega
    refine ⟨rest[j], ?_, own.1, ?_⟩
    · rw [List.getElem?_insertIdx_of_lt left]
      exact List.getElem?_eq_getElem inside
    · rw [own.2, ahead_insert_of_le source a (Nat.le_of_lt left)]
      exact there

theorem ahead_of_inPlace {rest : List α} {i j : Nat} {a x : α} (visible : (display.tile a).isSome) (source : i ≤ rest.length)
    (apart : i ≠ j) (found : (rest.insertIdx i a)[j]? = some x) (shown : (display.tile x).isSome)
    (side : display.front x = display.front a) (place : display.ahead (display.front x) (rest.insertIdx i a) j = j) :
    display.ahead (display.front a) rest j = j := by
  rw [side] at place
  rcases Nat.lt_or_gt_of_ne apart with right | left
  · obtain ⟨k, rfl⟩ : ∃ k, j = k + 1 := ⟨j - 1, by omega⟩
    rw [List.getElem?_insertIdx_of_gt right, Nat.add_sub_cancel] at found
    obtain ⟨inside, rfl⟩ := List.getElem?_eq_some_iff.mp found
    rw [ahead_insert_of_gt source visible (by omega)] at place
    rw [ahead_succ display _ inside, if_pos ⟨shown, side⟩]
    exact place
  · rwa [ahead_insert_of_le source a (Nat.le_of_lt left)] at place

/-- The tile at `i` is the one at `j` afterwards, and all others keep their order, exactly
if both places show what stands at them. -/
theorem move_shown_iff {items : List α} (distinct : (display.shown items).Nodup) {i j : Nat}
    (first : i < (display.shown items).length) (second : j < (display.shown items).length) (apart : i ≠ j)
    (same : display.InPlace items i → display.InPlace items j →
      ∀ a ∈ items[i]?, ∀ x ∈ items[j]?, display.front x = display.front a) :
    ((display.shown (move items i j))[j]? = (display.shown items)[i]? ∧
      (display.shown (move items i j)).eraseIdx j = (display.shown items).eraseIdx i) ↔
    display.InPlace items i ∧ display.InPlace items j := by
  have inside : i < items.length := Nat.lt_of_lt_of_le first (length_shown_le items)
  have other : j < items.length := Nat.lt_of_lt_of_le second (length_shown_le items)
  have found : items[i]? = some items[i] := List.getElem?_eq_getElem inside
  have moved : move items i j = (items.eraseIdx i).insertIdx j items[i] := by
    rw [move, found]
    dsimp only
    rw [Nat.min_eq_left (by omega)]
  have whole : (items.eraseIdx i).insertIdx i items[i] = items := List.insertIdx_eraseIdx_getElem inside
  have source : i ≤ (items.eraseIdx i).length := by rw [List.length_eraseIdx_of_lt inside]; omega
  have target : j ≤ (items.eraseIdx i).length := by rw [List.length_eraseIdx_of_lt inside]; omega
  generalize items[i] = a at *
  generalize items.eraseIdx i = rest at *
  subst whole
  rw [moved]
  cases tile : display.tile a with
  | none =>
    rw [shown_insert_hidden source tile] at distinct first second ⊢
    rw [shown_insert_hidden target tile]
    refine ⟨fun kept => absurd ((List.getElem?_inj second distinct).mp kept.1) apart.symm, fun ⟨here, _⟩ => ?_⟩
    have visible := ((inPlace_self_iff source).mp here).1
    rw [tile] at visible
    cases visible
  | some t =>
    have visible : (display.tile a).isSome := by rw [tile]; rfl
    rw [shown_insert source tile] at distinct first ⊢
    rw [shown_insert target tile]
    have room := ahead_le display (display.front a) rest i
    have fresh : (t :: display.shown rest).Nodup := (List.perm_insertIdx t _ room).nodup_iff.mp distinct
    rw [List.length_insertIdx_of_le_length room] at first
    rw [moved_iff fresh room (ahead_le display _ _ _) first apart (fun right => ahead_mono display _ _ (Nat.le_of_lt right))
      fun left => ahead_mono display _ _ (Nat.le_of_lt left)]
    constructor
    · rintro ⟨here, there⟩
      exact ⟨(inPlace_self_iff source).mpr ⟨visible, here⟩, inPlace_of_ahead visible source target apart here there⟩
    · rintro ⟨here, there⟩
      obtain ⟨x, at_, shown, place⟩ := there
      have side := same here ⟨x, at_, shown, place⟩ a found x at_
      exact ⟨((inPlace_self_iff source).mp here).2, ahead_of_inPlace visible source apart at_ shown side place⟩

end Display

end Ironsight.PartedLists
