import Ironsight.EventMessages
import Mathlib.Tactic.Linarith

/-! The boxes of the objects of a message, for exact coordinates. Which of the two ranges an
object's box is in is judged by its own coordinates, so that the objects of one camera may
end up in two scales. -/
namespace Ironsight.AnalyticsBoxes
open Tables PpeWorker EventMessages

variable {lib : Library ℚ}

/-! ## Objects -/

/-- The tokens of each object, from its start to the next end of an object; another start in
between begins anew. The first argument is what stands inside an object that is open. -/
def bodies : Option (List Token) → List Token → List (List Token)
  | _, [] => []
  | inside, .start name attrs :: rest =>
    if name = "Object" then bodies (some []) rest else bodies (inside.map (· ++ [.start name attrs])) rest
  | inside, .charData text :: rest => bodies (inside.map (· ++ [.charData text])) rest
  | inside, .end_ name :: rest =>
    if name = "Object" then inside.toList ++ bodies none rest else bodies (inside.map (· ++ [.end_ name])) rest

def boxAttrs : Token → List (String × String)
  | .start name attrs => if name = "BoundingBox" then attrs else []
  | _ => []

/-- The last value that an object has for a side of its box. -/
def coordinate (lib : Library ℚ) (body : List Token) (side : String) : ℚ :=
  (((body.flatMap boxAttrs).filter fun attr => attr.1 = side).getLast?.map fun attr => parseFloat lib attr.2).getD 0

structure Box where
  left : ℚ
  top : ℚ
  right : ℚ
  bottom : ℚ
  deriving DecidableEq

def boxIn (lib : Library ℚ) (body : List Token) : Box where
  left := coordinate lib body "left"
  top := coordinate lib body "top"
  right := coordinate lib body "right"
  bottom := coordinate lib body "bottom"

/-- The boxes of the objects of a message, in order. -/
def boxesIn (lib : Library ℚ) (innerXML : String) : List Box := (bodies none (innerTokens lib innerXML)).map (boxIn lib)

/-- The range of ONVIF, from -1 to 1. -/
structure Box.InRange (box : Box) : Prop where
  left : -1 ≤ box.left
  top : -1 ≤ box.top
  right : box.right ≤ 1
  bottom : box.bottom ≤ 1
  wide : box.left < box.right
  high : box.top < box.bottom

/-- A coordinate that only the scale from -1 to 1 has. -/
def Box.Negative (box : Box) : Prop := box.left < 0 ∨ box.top < 0 ∨ box.right < 0 ∨ box.bottom < 0

instance (box : Box) : Decidable box.Negative := inferInstanceAs (Decidable (_ ∨ _ ∨ _ ∨ _))

/-- A box of the range from -1 to 1 in coordinates from 0 to 1: its corner and its extent. -/
def Box.scaled (box : Box) : ℚ × ℚ × ℚ × ℚ :=
  ((box.left + 1) / 2, (box.top + 1) / 2, (box.right - box.left) / 2, (box.bottom - box.top) / 2)

def corner (box : BoxJSON ℚ) : ℚ × ℚ × ℚ × ℚ := (box.x, box.y, box.w, box.h)

/-- The boxes that are stored are those of all objects, in order and in one scale. -/
def OneScale (lib : Library ℚ) (innerXML : String) (details : Details ℚ) : Prop :=
  ∃ boxes, (parseDataItems lib innerXML details).find? "bounding_boxes" = some ("bounding_boxes", .boxes boxes) ∧
    boxes.map corner = (boxesIn lib innerXML).map Box.scaled

/-! ## Reading the objects -/

private theorem lastAttr_concat {α : Type} (name : String) (read : String → α) (old : α) (attrs : List (String × String))
    (attr : String × String) : lastAttr name read old (attrs ++ [attr]) =
      if attr.1 = name then read attr.2 else lastAttr name read old attrs := by
  rw [lastAttr, List.foldl_append]
  rfl

private theorem lastAttr_eq {α : Type} (name : String) (read : String → α) (old : α) (attrs : List (String × String)) :
    lastAttr name read old attrs = ((attrs.filter fun attr => attr.1 = name).getLast?.map fun attr => read attr.2).getD old := by
  induction attrs using List.reverseRecOn with
  | nil => rfl
  | append_singleton attrs attr ih =>
    rw [lastAttr_concat, ih, List.filter_append]
    by_cases named : attr.1 = name
    · simp [named]
    · simp [named]

private theorem coordinate_concat (body : List Token) (token : Token) (side : String) :
    coordinate lib (body ++ [token]) side = lastAttr side (parseFloat lib) (coordinate lib body side) (boxAttrs token) := by
  rw [lastAttr_eq, coordinate, List.flatMap_append, List.flatMap_singleton, List.filter_append, List.getLast?_append]
  cases ((boxAttrs token).filter fun attr => attr.1 = side).getLast? with
  | none => rfl
  | some attr => rfl

def sides (o : AnalyticsObject ℚ) : Box := ⟨o.left, o.top, o.right, o.bottom⟩

/-- What the loop knows of the object that is open. -/
private structure Reads (lib : Library ℚ) (s : State ℚ) (inside : Option (List Token)) : Prop where
  opened : s.inObject = inside.isSome
  current : ∀ body ∈ inside, sides s.currentObj = boxIn lib body

private theorem Reads.other {s after : State ℚ} {inside : Option (List Token)} {token : Token} (reads : Reads lib s inside)
    (opened : after.inObject = s.inObject) (current : sides after.currentObj = sides s.currentObj)
    (plain : boxAttrs token = []) : Reads lib after (inside.map (· ++ [token])) where
  opened := by rw [opened, reads.opened, Option.isSome_map]
  current := by
    intro body held
    obtain ⟨before, open_, rfl⟩ := Option.map_eq_some_iff.mp held
    rw [current, reads.current before open_]
    simp only [boxIn, coordinate_concat, plain]
    rfl

private theorem zero_eq : (zero : ℚ) = 0 := by
  decide +kernel

/-- A box extends the object that is open. -/
private theorem Reads.box {s : State ℚ} {body : List Token} (reads : Reads lib s (some body)) (attrs : List (String × String)) :
    Reads lib (parseToken lib s (.start "BoundingBox" attrs)) (some (body ++ [.start "BoundingBox" attrs])) where
  opened := by simp [parseToken, reads.opened]
  current := by
    rintro _ ⟨⟩
    obtain ⟨left, top, right, bottom⟩ := Box.mk.injEq .. ▸ reads.current body rfl
    simp [parseToken, reads.opened, sides, boxIn, coordinate_concat, boxAttrs, left, top, right, bottom]

/-- A token moves the loop along the objects. -/
private theorem parseToken_reads {s : State ℚ} {inside : Option (List Token)} (reads : Reads lib s inside) (token : Token)
    (rest : List Token) : ∃ inside', Reads lib (parseToken lib s token) inside' ∧
      s.objects.map sides ++ (bodies inside (token :: rest)).map (boxIn lib) =
        (parseToken lib s token).objects.map sides ++ (bodies inside' rest).map (boxIn lib) := by
  cases token with
  | start name attrs =>
    by_cases object : name = "Object"
    · subst object
      refine ⟨some [], ⟨by simp [parseToken], ?_⟩, by simp [parseToken, bodies]⟩
      rintro _ ⟨⟩
      simp [parseToken, sides, emptyObject, boxIn, coordinate, zero_eq]
    · refine ⟨inside.map (· ++ [.start name attrs]), ?_, ?_⟩
      · by_cases box : name = "BoundingBox"
        · subst box
          cases inside with
          | none => exact ⟨by simp [parseToken, reads.opened], nofun⟩
          | some body => exact reads.box attrs
        · refine reads.other ?_ ?_ (if_neg box)
          · simp only [parseToken]
            split_ifs <;> rfl
          · simp only [parseToken]
            split_ifs <;> rfl
      · have kept : (parseToken lib s (.start name attrs)).objects = s.objects := by
          simp only [parseToken]
          split_ifs <;> rfl
        rw [kept, bodies, if_neg object]
  | charData text =>
    refine ⟨inside.map (· ++ [.charData text]), reads.other ?_ ?_ rfl, ?_⟩
    · simp only [parseToken]
      split <;> rfl
    · simp only [parseToken]
      split <;> rfl
    · have kept : (parseToken lib s (.charData text)).objects = s.objects := by
        simp only [parseToken]
        split <;> rfl
      rw [kept, bodies]
  | end_ name =>
    by_cases object : name = "Object"
    · subst object
      refine ⟨none, ⟨?_, nofun⟩, ?_⟩
      · cases opened : s.inObject <;> simp [parseToken, opened]
      · cases inside with
        | none => simp [parseToken, bodies, reads.opened]
        | some body => simp [parseToken, bodies, reads.opened, reads.current body rfl]
    · have kept : parseToken lib s (.end_ name) = s := by simp [parseToken, object]
      refine ⟨inside.map (· ++ [.end_ name]), reads.other (by rw [kept]) (by rw [kept]) rfl, ?_⟩
      rw [kept, bodies, if_neg object]

private theorem foldl_reads (tokens : List Token) : ∀ {s : State ℚ} {inside : Option (List Token)}, Reads lib s inside →
    (tokens.foldl (parseToken lib) s).objects.map sides = s.objects.map sides ++ (bodies inside tokens).map (boxIn lib) := by
  induction tokens with
  | nil =>
    intro s inside _
    simp [bodies]
  | cons token tokens ih =>
    intro s inside reads
    obtain ⟨inside', reads', same⟩ := parseToken_reads reads token tokens
    rw [List.foldl_cons, ih reads', same]

/-! ## Scales -/

private theorem one_eq : (one : ℚ) = 1 := by
  decide +kernel

private theorem two_eq : (two : ℚ) = 2 := by
  decide +kernel

private theorem clamp01_of_range {v : ℚ} (low : 0 ≤ v) (high : v ≤ 1) : clamp01 v = v := by
  simp only [clamp01, Float64.less, zero_eq, one_eq, decide_eq_true_eq]
  rw [if_neg (not_lt.mpr low), if_neg (not_lt.mpr high)]

/-- What is stored of a box. -/
private def stored (box : Box) : ℚ × ℚ × ℚ × ℚ :=
  if box.Negative then box.scaled else (box.left, box.top, box.right - box.left, box.bottom - box.top)

private theorem negative_eq (o : AnalyticsObject ℚ) : (Float64.less o.left zero || Float64.less o.top zero ||
    Float64.less o.right zero || Float64.less o.bottom zero) = decide (sides o).Negative := by
  rw [Bool.eq_iff_iff, decide_eq_true_iff]
  simp only [Float64.less, zero_eq, Box.Negative, sides, Bool.or_eq_true, decide_eq_true_eq, or_assoc]

private theorem boxOf_stored {o : AnalyticsObject ℚ} (ranged : (sides o).InRange) :
    ∃ box, boxOf o = some box ∧ corner box = stored (sides o) := by
  obtain ⟨left, top, right, bottom, wide, high⟩ := ranged
  simp only [sides] at left top right bottom wide high
  unfold boxOf stored
  by_cases negative : (sides o).Negative
  · have scale {v : ℚ} (low : -1 ≤ v) (up : v ≤ 1) : clamp01 ((v + one) / two) = (v + 1) / 2 := by
      rw [one_eq, two_eq]
      exact clamp01_of_range (by linarith) (by linarith)
    simp only [negative_eq, decide_eq_true negative, if_true, if_pos negative, scale left (by linarith), scale top (by linarith),
      scale (by linarith) right, scale (by linarith) bottom]
    simp only [Float64.atMost, zero_eq, Bool.or_eq_true, decide_eq_true_eq]
    rw [if_neg (by rw [not_or, not_le, not_le]; exact ⟨by linarith, by linarith⟩)]
    refine ⟨_, rfl, ?_⟩
    simp only [corner, Box.scaled, sides, Prod.mk.injEq, true_and]
    exact ⟨by linarith, by linarith⟩
  · have signs : 0 ≤ o.left ∧ 0 ≤ o.top ∧ 0 ≤ o.right ∧ 0 ≤ o.bottom := by
      simpa only [Box.Negative, sides, not_or, not_lt] using negative
    obtain ⟨left', top', right', bottom'⟩ := signs
    simp only [negative_eq, decide_eq_false negative, Bool.false_eq_true, if_false, if_neg negative,
      clamp01_of_range left' (by linarith), clamp01_of_range top' (by linarith), clamp01_of_range right' right,
      clamp01_of_range bottom' bottom]
    simp only [Float64.atMost, zero_eq, Bool.or_eq_true, decide_eq_true_eq]
    rw [if_neg (by rw [not_or, not_le, not_le]; exact ⟨by linarith, by linarith⟩)]
    exact ⟨_, rfl, rfl⟩

/-- A box that is not in the right scale is off in its corner. -/
private theorem stored_eq_scaled_iff {box : Box} (ranged : box.InRange) : stored box = box.scaled ↔ box.Negative := by
  unfold stored
  split
  case isTrue negative => exact iff_of_true rfl negative
  case isFalse positive =>
    refine iff_of_false (fun same => ?_) positive
    have corner : box.left = (box.left + 1) / 2 := congrArg Prod.fst same
    have inside : box.left < 1 := lt_of_lt_of_le ranged.wide ranged.right
    linarith

private theorem filterMap_boxOf {objects : List (AnalyticsObject ℚ)} (ranged : ∀ o ∈ objects, (sides o).InRange) :
    (objects.filterMap boxOf).map corner = (objects.map sides).map stored := by
  induction objects with
  | nil => rfl
  | cons o objects ih =>
    obtain ⟨box, found, same⟩ := boxOf_stored (ranged o List.mem_cons_self)
    rw [List.filterMap_cons_some found, List.map_cons, same, ih fun other held => ranged other (List.mem_cons_of_mem _ held)]
    rfl

/-- With a negative coordinate somewhere in the message, the boxes end up in one scale exactly
if every object has one. -/
theorem oneScale_iff (lib : Library ℚ) (innerXML : String) (details : Details ℚ)
    (ranged : ∀ box ∈ boxesIn lib innerXML, box.InRange) (signed : ∃ box ∈ boxesIn lib innerXML, box.Negative) :
    OneScale lib innerXML details ↔ ∀ box ∈ boxesIn lib innerXML, box.Negative := by
  have start : Reads lib ⟨details, false, emptyObject, []⟩ none := ⟨rfl, nofun⟩
  have read := foldl_reads (innerTokens lib innerXML) start
  rw [List.map_nil, List.nil_append] at read
  have inRange : ∀ o ∈ ((innerTokens lib innerXML).foldl (parseToken lib) ⟨details, false, emptyObject, []⟩).objects,
      (sides o).InRange := by
    intro o held
    have listed := List.mem_map_of_mem (f := sides) held
    rw [read] at listed
    exact ranged (sides o) listed
  have kept := filterMap_boxOf inRange
  rw [read] at kept
  have some_ : ((innerTokens lib innerXML).foldl (parseToken lib) ⟨details, false, emptyObject, []⟩).objects ≠ [] := by
    obtain ⟨box, held, _⟩ := signed
    intro none_
    rw [boxesIn, ← read, none_] at held
    cases held
  have found : (parseDataItems lib innerXML details).find? "bounding_boxes" = some ("bounding_boxes",
      .boxes (((innerTokens lib innerXML).foldl (parseToken lib) ⟨details, false, emptyObject, []⟩).objects.filterMap boxOf)) := by
    rw [parseDataItems, if_neg some_]
    exact Table.find?_eq_some.mpr ⟨Table.mem_put.mpr (.inl rfl), rfl⟩
  have settled : OneScale lib innerXML details ↔ (boxesIn lib innerXML).map stored = (boxesIn lib innerXML).map Box.scaled := by
    rw [OneScale, found]
    constructor
    · rintro ⟨boxes, same, corners⟩
      cases same
      exact kept.symm.trans corners
    · exact fun same => ⟨_, rfl, kept.trans same⟩
  rw [settled, List.map_inj_left]
  exact forall₂_congr fun box held => stored_eq_scaled_iff (ranged box held)

/-- Two persons, the second in the lower right quadrant. -/
private def twoPersons : List Token :=
  [.start "root" [], .start "Object" [("ObjectId", "1")],
    .start "BoundingBox" [("left", "-0.5"), ("top", "-0.5"), ("right", "0"), ("bottom", "0")], .end_ "BoundingBox", .end_ "Object",
    .start "Object" [("ObjectId", "2")],
    .start "BoundingBox" [("left", "0"), ("top", "0"), ("right", "0.5"), ("bottom", "0.5")], .end_ "BoundingBox", .end_ "Object",
    .end_ "root"]

/-- Two persons on the left, one above the other. -/
private def leftPersons : List Token :=
  [.start "root" [], .start "Object" [("ObjectId", "1")],
    .start "BoundingBox" [("left", "-0.5"), ("top", "-0.5"), ("right", "0"), ("bottom", "0")], .end_ "BoundingBox", .end_ "Object",
    .start "Object" [("ObjectId", "2")],
    .start "BoundingBox" [("left", "-0.5"), ("top", "0"), ("right", "0"), ("bottom", "0.5")], .end_ "BoundingBox", .end_ "Object",
    .end_ "root"]

/-- The libraries on a message of these tokens. -/
private def halves (tokens : List Token) : Library ℚ where
  toLower text := text
  tokens _ := tokens
  sscanf text := if text = "-0.5" then -1 / 2 else if text = "0.5" then 1 / 2 else 0

/-- Each of them has a negative coordinate. -/
theorem left_persons_scaled : OneScale (halves leftPersons) "" .empty := by
  have boxes : boxesIn (halves leftPersons) "" = [⟨-1 / 2, -1 / 2, 0, 0⟩, ⟨-1 / 2, 0, 0, 1 / 2⟩] := by decide +kernel
  refine (oneScale_iff (halves leftPersons) "" .empty ?_ ?_).mpr ?_
  · rw [boxes, List.forall_mem_cons, List.forall_mem_singleton]
    exact ⟨⟨by decide +kernel, by decide +kernel, by decide +kernel, by decide +kernel, by decide +kernel, by decide +kernel⟩,
      ⟨by decide +kernel, by decide +kernel, by decide +kernel, by decide +kernel, by decide +kernel, by decide +kernel⟩⟩
  · rw [boxes]
    exact ⟨_, List.mem_cons_self, by decide +kernel⟩
  · rw [boxes, List.forall_mem_cons, List.forall_mem_singleton]
    exact ⟨by decide +kernel, by decide +kernel⟩

private def corners : Detail ℚ → List (ℚ × ℚ × ℚ × ℚ)
  | .boxes boxes => boxes.map corner
  | .text _ => []

/-- The second person stays where the coordinates from -1 to 1 have it. -/
theorem lower_right_unscaled : ¬ ∀ (lib : Library ℚ) (innerXML : String) (details : Details ℚ),
    (∀ box ∈ boxesIn lib innerXML, box.InRange) → (∃ box ∈ boxesIn lib innerXML, box.Negative) →
      OneScale lib innerXML details := by
  intro scaled
  have boxes : boxesIn (halves twoPersons) "" = [⟨-1 / 2, -1 / 2, 0, 0⟩, ⟨0, 0, 1 / 2, 1 / 2⟩] := by decide +kernel
  have written : (parseDataItems (halves twoPersons) "" .empty).rows.map (fun entry => corners entry.2) =
      [[(1 / 4, 1 / 4, 1 / 4, 1 / 4), (0, 0, 1 / 2, 1 / 2)]] := by decide +kernel
  have ranged : ∀ box ∈ boxesIn (halves twoPersons) "", box.InRange := by
    rw [boxes, List.forall_mem_cons, List.forall_mem_singleton]
    exact ⟨⟨by decide +kernel, by decide +kernel, by decide +kernel, by decide +kernel, by decide +kernel, by decide +kernel⟩,
      ⟨by decide +kernel, by decide +kernel, by decide +kernel, by decide +kernel, by decide +kernel, by decide +kernel⟩⟩
  obtain ⟨found, same, scale⟩ := scaled (halves twoPersons) "" .empty ranged ⟨_, boxes ▸ List.mem_cons_self, by decide +kernel⟩
  have listed := List.mem_map_of_mem (f := fun entry => corners entry.2) (Table.find?_eq_some.mp same).1
  rw [written, List.mem_singleton] at listed
  have off : [(1 / 4, 1 / 4, 1 / 4, 1 / 4), (0, 0, 1 / 2, 1 / 2)] ≠ (boxesIn (halves twoPersons) "").map Box.scaled := by
    decide +kernel
  exact off (listed.symm.trans scale)

end Ironsight.AnalyticsBoxes
