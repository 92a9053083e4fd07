import Ironsight.RecoveryCodes
import Ironsight.VcaCoordinates

/-! What comes back of a pushed rule. The push writes through one vendor
interface and the pull reads through another; both are followed here for a camera
that keeps the values it was sent and gives them back as they are. Coordinates are
doubles, and what is done with them rounds. -/
namespace Ironsight.VcaRoundTrip
open FormBody VcaPush VcaPull VcaCoordinates
open Binary64 (Double)
open EventReads (atoi)
open RecoveryCodes (trimSpace)

abbrev Point := VcaPush.Point Double

abbrev VCARuleCompact := VcaPush.VCARuleCompact Double

/-! ## The answer of a getter -/

/-- An entry of `detectionInfoList`, with `regionIndex` or `lineIndex` and the
switch of the type. A value that the camera does not hold is missing, and
decodes as zero. -/
structure DetectionInfo where
  index : Int64
  enable : Int64
  direction : Int64
  minLoiteringTime : Int64
  polygonX : Text
  polygonY : Text
  deriving DecidableEq

/-- The payload of `get.vca.*`; the sensitivity is `intrusionDetectionSens`,
`intrusionEnterSens` or `lineCrossingSens`. -/
structure Payload where
  sens : Int64
  detectionInfoList : List DetectionInfo
  deriving DecidableEq

/-! ## Polygons -/

def splitSlotList (s : Text) : List Int :=
  let trimmed := if s.getLast? = some ':' then s.dropLast else s
  (trimmed.splitOn ':').filterMap fun p =>
    let p := trimSpace (String.ofList p)
    if p = "" then none else some ((atoi p).getD (-1))

def parsePolygon (polyX polyY : Text) : List Point :=
  ((splitSlotList polyX).zip (splitSlotList polyY)).filterMap fun (x, y) =>
    if x < 0 ∨ y < 0 then none else some ⟨normalise x, normalise y⟩

/-! ## The pull functions -/

/-- What the pull functions share: every entry with enough vertices is a rule. -/
def pullRegions (kind : Kind) (least : Nat) (sensitivity : Int64) (vertices : List Point → List Point)
    (direction : DetectionInfo → String) (thresholdSec : DetectionInfo → Int64) (payload : Payload) :
    List (PulledRule Point) :=
  payload.detectionInfoList.filterMap fun info =>
    let pts := parsePolygon info.polygonX info.polygonY
    if pts.length < least then none
    else some {
      kind := kind
      regionIndex := info.index
      enabled := info.enable = 1
      sensitivity := sensitivity
      region := vertices pts
      direction := direction info
      thresholdSec := thresholdSec info }

def pullIntrusion (payload : Payload) : List (PulledRule Point) :=
  pullRegions .intrusion 3 (payload.sens * 20) id (fun _ => "") (fun _ => 0) payload

def pullRegionEntrance (payload : Payload) : List (PulledRule Point) :=
  pullRegions .regionentrance 3 (payload.sens * 20) id (fun _ => "") (fun _ => 0) payload

/-- No sensitivity is read. -/
def pullLoitering (payload : Payload) : List (PulledRule Point) :=
  pullRegions .loitering 3 0 id (fun _ => "") DetectionInfo.minLoiteringTime payload

def lineCrossDirection (d : Int64) : String :=
  if d = 0 then "both" else if d = 1 then "left_to_right" else if d = 2 then "right_to_left" else "both"

/-- Only the first two vertices are kept. -/
def pullLineCross (payload : Payload) : List (PulledRule Point) :=
  pullRegions .linecross 2 (payload.sens * 20) (List.take 2) (fun info => lineCrossDirection info.direction)
    (fun _ => 0) payload

def pull : Kind → Payload → List (PulledRule Point)
  | .intrusion => pullIntrusion
  | .linecross => pullLineCross
  | .regionentrance => pullRegionEntrance
  | .loitering => pullLoitering

/-! ## The camera between push and pull -/

def configKey : Kind → Text
  | .intrusion => text "vca/intrusion"
  | .linecross => text "vca/linecross"
  | .regionentrance => text "vca/regionentrance"
  | .loitering => text "vca/loitering"

/-- What the camera holds of a type: the values that were sent. -/
def stored (kind : Kind) (rules : List VCARuleCompact) : Config :=
  assign (fun _ => none) (writes (configKey kind) kind.ruleType rules)

/-- A stored value as a number of the answer. -/
def number (value : Option Text) : Int64 :=
  match value with
  | none => 0
  | some held => Int64.ofInt ((atoi (String.ofList held)).getD 0)

/-- A stored count. -/
def count (value : Option Text) : Nat :=
  match value with
  | none => 0
  | some held => Nat.ofDigitChars 10 held 0

/-- How a camera fills what its interfaces do not agree on: the unused vertex
slots it adds to each list, and the region whose sensitivity it gives for the
type. -/
structure Getter where
  padding : Nat
  region : List Nat → Nat
  chosen : ∀ regions, regions ≠ [] → region regions ∈ regions

/-- A list of vertex coordinates: the stored texts, each ended by a colon. -/
def slotText (slots : List Text) : Text := slots.flatMap fun slot => slot ++ [':']

/-- The coordinates of a region as the answer lists them. -/
def Getter.slots (getter : Getter) (field : Nat → Field) (config : Config) (key : Text) (regionIdx : Nat) : Text :=
  let pointnum := count (config (fieldKey key regionIdx .pointnum))
  slotText ((List.range pointnum).map (fun j => (config (fieldKey key regionIdx (field (j + 1)))).getD (text "-1")) ++
    List.replicate getter.padding (text "-1"))

/-- What a getter answers for one region. -/
def Getter.info (getter : Getter) (config : Config) (key : Text) (regionIdx : Nat) : DetectionInfo where
  index := Int64.ofNat (regionIdx - 1)
  enable := number (config (fieldKey key regionIdx .enable))
  direction := number (config (fieldKey key regionIdx .direction))
  minLoiteringTime := number (config (fieldKey key regionIdx .duration))
  polygonX := getter.slots .pointX config key regionIdx
  polygonY := getter.slots .pointY config key regionIdx

/-- `get.vca.*` for the regions that a push has set. -/
def Getter.get (getter : Getter) (config : Config) (key : Text) (regions : List Nat) : Payload where
  sens := number (config (fieldKey key (getter.region regions) .sensitivity))
  detectionInfoList := regions.map (getter.info config key)

/-- The rules of one type, pushed and pulled. -/
def roundTrip (getter : Getter) (kind : Kind) (rules : List VCARuleCompact) : List (PulledRule Point) :=
  pull kind (getter.get (stored kind rules) (configKey kind) ((rules.zipIdx 1).map Prod.snd))

/-! ## What a round trip is for -/

def pushedView (rule : VCARuleCompact) : Visible Double where
  enabled := rule.enabled
  sensitivity := rule.sensitivity.toInt
  thresholdSec := rule.thresholdSec.toInt
  direction := rule.direction
  region := rule.region.map fun pt => (pt.x, pt.y)

def pulledView (rule : PulledRule Point) : Visible Double where
  enabled := rule.enabled
  sensitivity := rule.sensitivity.toInt
  thresholdSec := rule.thresholdSec.toInt
  direction := rule.direction
  region := rule.region.map fun pt => (pt.x, pt.y)

/-- The pulled rules of a type are the pushed ones, one by one. -/
def Returned (getter : Getter) (kind : Kind) (rules : List VCARuleCompact) : Prop :=
  List.Forall₂ (fun pushed pulled => rulesEquivalent (pushedView pushed) (pulledView pulled) = true) rules
    (roundTrip getter kind rules)

/-- The rules that the driver is given: enabled, with a percentage for their
sensitivity and coordinates on the unit square. -/
structure Pushable (rule : VCARuleCompact) : Prop where
  enabled : rule.enabled = true
  sensitivity : 0 ≤ rule.sensitivity.toInt ∧ rule.sensitivity.toInt ≤ 100
  square : ∀ pt ∈ rule.region, (0 ≤ pt.x.value ∧ pt.x.value ≤ 1) ∧ 0 ≤ pt.y.value ∧ pt.y.value ≤ 1

/-- The rules that come back. -/
structure Survives (kind : Kind) (rule : VCARuleCompact) : Prop where
  sensitivity : rule.sensitivity = 0
  vertices : if kind = .linecross then rule.region.length = 2 else 3 ≤ rule.region.length
  points : ∀ pt ∈ rule.region, AtCornerOrEdge pt.x ∧ AtCornerOrEdge pt.y
  thresholdSec : if kind = .loitering then 0 ≤ rule.thresholdSec else rule.thresholdSec = 0
  direction : if kind = .linecross then (dirMap.lookup rule.direction).isSome = true else rule.direction = ""

/-! ## Numbers through both interfaces -/

private theorem digits_all (n : Nat) : (Nat.toDigits 10 n).all Char.isDigit = true :=
  List.all_eq_true.mpr fun _ member => Nat.isDigit_of_mem_toDigits (by decide) (by decide) member

/-- `strconv.Atoi` reads what `%d` writes. -/
theorem atoi_decimal {n : Int} (least : -9223372036854775808 ≤ n) (greatest : n ≤ 9223372036854775807) :
    atoi (String.ofList (decimal n)) = some n := by
  cases n with
  | ofNat n => exact EventReads.atoi_toDigits (Int.ofNat_le.mp greatest)
  | negSucc n =>
    have value : (-1 : Int) * ((Nat.ofDigitChars 10 (Nat.toDigits 10 (n + 1)) 0 : Nat) : Int) = Int.negSucc n := by
      rw [Nat.ofDigitChars_ten_toDigits]
      omega
    unfold atoi
    rw [String.toList_ofList]
    dsimp only [decimal]
    split
    · rename_i rest signed
      cases signed
      rw [if_pos ⟨Nat.toDigits_ne_nil, digits_all (n + 1)⟩, value, if_pos ⟨least, greatest⟩]
    · rename_i rest signed
      exact absurd (List.cons.inj signed).1 (by decide)
    · rename_i other _
      exact (other _ rfl).elim

theorem number_decimal (n : Int64) : number (some (decimal n.toInt)) = n := by
  have least : -9223372036854775808 ≤ n.toInt := n.le_toInt
  have greatest : n.toInt ≤ 9223372036854775807 := Int.le_of_lt_add_one n.toInt_lt
  simp only [number, atoi_decimal least greatest, Option.getD_some, Int64.ofInt_toInt]

theorem count_decimal (n : Nat) : count (some (decimal n)) = n := Nat.ofDigitChars_ten_toDigits

private theorem notSpace_of_mem_decimal {n : Int} : ∀ c ∈ decimal n, RecoveryCodes.isSpace c = false := by
  have digit (c : Char) (held : c.isDigit = true) : RecoveryCodes.isSpace c = false := by
    obtain ⟨low, high⟩ : 48 ≤ c.toNat ∧ c.toNat ≤ 57 := Char.isDigit_iff_toNat.mp held
    simp only [RecoveryCodes.isSpace, List.mem_cons, List.not_mem_nil, or_false, decide_eq_false_iff_not]
    omega
  intro c member
  cases n with
  | ofNat n => exact digit c (Nat.isDigit_of_mem_toDigits (by decide) (by decide) member)
  | negSucc n =>
    rcases List.mem_cons.mp member with rfl | member
    · decide
    · exact digit c (Nat.isDigit_of_mem_toDigits (by decide) (by decide) member)

private theorem dropSpace {held : Text} (plain : ∀ c ∈ held, RecoveryCodes.isSpace c = false) :
    held.dropWhile RecoveryCodes.isSpace = held := by
  cases held with
  | nil => rfl
  | cons c rest =>
    apply List.dropWhile_cons_of_neg
    rw [plain c List.mem_cons_self]
    exact Bool.false_ne_true

private theorem trimSpace_decimal (n : Int) : trimSpace (String.ofList (decimal n)) = String.ofList (decimal n) := by
  unfold trimSpace
  rw [String.toList_ofList, dropSpace notSpace_of_mem_decimal, dropSpace, List.reverse_reverse]
  intro c member
  exact notSpace_of_mem_decimal c (List.mem_reverse.mp member)

private theorem decimal_ne_empty (n : Int) : String.ofList (decimal n) ≠ "" := by
  intro empty
  have none_ : decimal n = [] := by simpa using congrArg String.toList empty
  cases n with
  | ofNat n => exact Nat.toDigits_ne_nil none_
  | negSucc n => cases none_

private theorem slotText_eq {slots : List Text} (some_ : slots ≠ []) :
    slotText slots = List.intercalate [':'] slots ++ [':'] := by
  induction slots with
  | nil => exact (some_ rfl).elim
  | cons slot rest ih =>
    cases rest with
    | nil => simp [slotText, List.intercalate]
    | cons next rest =>
      have later := ih (List.cons_ne_nil _ _)
      have split : slotText (slot :: next :: rest) = slot ++ ':' :: slotText (next :: rest) := by
        simp [slotText]
      rw [split, later]
      simp [List.intercalate]

/-- The slots are read as the numbers they were written for. -/
theorem splitSlotList_slotText {slots : List Int}
    (small : ∀ n ∈ slots, -9223372036854775808 ≤ n ∧ n ≤ 9223372036854775807) :
    splitSlotList (slotText (slots.map decimal)) = slots := by
  by_cases some_ : slots.map decimal = []
  · rw [List.map_eq_nil_iff.mp some_]
    decide
  · have colonless : ∀ slot ∈ slots.map decimal, ':' ∉ slot := by
      intro slot member
      obtain ⟨n, _, rfl⟩ := List.mem_map.mp member
      exact notMem_decimal (by decide) (by decide) n
    unfold splitSlotList
    rw [slotText_eq some_, List.getLast?_concat]
    dsimp only
    rw [if_pos rfl, List.dropLast_concat, List.splitOn_intercalate _ colonless some_, List.filterMap_map]
    have read : ∀ n ∈ slots, ((fun p => if trimSpace (String.ofList p) = "" then none
        else some ((atoi (trimSpace (String.ofList p))).getD (-1))) ∘ decimal) n = some n := by
      intro n member
      obtain ⟨least, greatest⟩ := small n member
      simp only [Function.comp_apply, trimSpace_decimal, decimal_ne_empty, if_false, atoi_decimal least greatest,
        Option.getD_some]
    rw [List.filterMap_congr read, List.filterMap_some]

/-! ## The stored values -/

private theorem configKey_plain (kind : Kind) : '.' ∉ configKey kind := by cases kind <;> decide

/-- The camera holds exactly the fields of the rules, each in its region. -/
theorem stored_field {kind : Kind} {rules : List VCARuleCompact} {placed : VCARuleCompact × Nat}
    (member : placed ∈ rules.zipIdx 1) (enabled : placed.1.enabled = true) (field : Field) :
    stored kind rules (fieldKey (configKey kind) placed.2 field) = fieldValue kind.ruleType placed.1 field := by
  have only {value : Text}
      (written : (fieldKey (configKey kind) placed.2 field, value) ∈ writes (configKey kind) kind.ruleType rules) :
      fieldValue kind.ruleType placed.1 field = some value := by
    rcases mem_writes.mp written with same | ⟨other, held, field', value', sent, same⟩
    · have key := (Prod.mk.inj same).1
      exact (enableKey_ne_fieldKey (configKey_plain kind) (configKey_plain kind) key.symm).elim
    · obtain ⟨key, rfl⟩ := Prod.mk.inj same
      obtain ⟨_, regions, rfl⟩ := fieldKey_inj (configKey_plain kind) (configKey_plain kind) key
      have one := (List.mem_zipIdx_iff_le_and_getElem?_sub.mp member).2
      have two := (List.mem_zipIdx_iff_le_and_getElem?_sub.mp (List.mem_filter.mp held).1).2
      rw [← regions, one] at two
      rw [Option.some.inj two]
      exact sent
  unfold stored
  cases sent : fieldValue kind.ruleType placed.1 field with
  | none =>
    apply assign_of_not_written
    intro write written key
    have value : (fieldKey (configKey kind) placed.2 field, write.2) ∈ writes (configKey kind) kind.ruleType rules :=
      key ▸ written
    rw [only value] at sent
    cases sent
  | some value =>
    apply assign_eq
    · apply mem_writes.mpr
      exact .inr ⟨placed, List.mem_filter.mpr ⟨member, enabled⟩, field, value, sent, rfl⟩
    · intro other written
      exact Option.some.inj ((only written).symm.trans sent)

/-! ## Polygons through both interfaces -/

private def slotsOf (getter : Getter) (coordinate : Point → Double) (region : List Point) : List Int :=
  region.map (fun pt => int (scaled (coordinate pt))) ++ List.replicate getter.padding (-1)

private theorem slots_eq (getter : Getter) {config : Config} {key : Text} {regionIdx : Nat} {region : List Point}
    {field : Nat → Field} {coordinate : Point → Double}
    (pointnum : config (fieldKey key regionIdx .pointnum) = some (decimal region.length))
    (points : ∀ j pt, region[j]? = some pt →
      config (fieldKey key regionIdx (field (j + 1))) = some (decimal (int (scaled (coordinate pt))))) :
    getter.slots field config key regionIdx = slotText ((slotsOf getter coordinate region).map decimal) := by
  have listed : (List.range region.length).map
      (fun j => (config (fieldKey key regionIdx (field (j + 1)))).getD (text "-1")) =
        region.map fun pt => decimal (int (scaled (coordinate pt))) := by
    apply List.ext_getElem
    · simp
    · intro j left right
      have inside : j < region.length := by simpa using left
      rw [List.getElem_map, List.getElem_map, List.getElem_range, points j region[j] (List.getElem?_eq_getElem inside)]
      rfl
  unfold Getter.slots slotsOf
  rw [pointnum, count_decimal]
  dsimp only
  rw [listed, List.map_append, List.map_map, List.map_replicate]
  rfl

/-- A vertex after the round trip. -/
def returnedPoint (pt : Point) : Point := ⟨normalise (int (scaled pt.x)), normalise (int (scaled pt.y))⟩

private theorem parsePolygon_slots (getter : Getter) {region : List Point}
    (square : ∀ pt ∈ region, (0 ≤ pt.x.value ∧ pt.x.value ≤ 1) ∧ 0 ≤ pt.y.value ∧ pt.y.value ≤ 1) :
    parsePolygon (slotText ((slotsOf getter VcaPush.Point.x region).map decimal))
      (slotText ((slotsOf getter VcaPush.Point.y region).map decimal)) = region.map returnedPoint := by
  have small (coordinate : Point → Double) (inside : ∀ pt ∈ region, 0 ≤ (coordinate pt).value ∧ (coordinate pt).value ≤ 1) :
      ∀ n ∈ slotsOf getter coordinate region, -9223372036854775808 ≤ n ∧ n ≤ 9223372036854775807 := by
    intro n member
    rcases List.mem_append.mp member with member | member
    · obtain ⟨pt, held, rfl⟩ := List.mem_map.mp member
      obtain ⟨low, high⟩ := (int_scaled_bounds (inside pt held)).1
      omega
    · rw [List.eq_of_mem_replicate member]
      decide
  unfold parsePolygon
  rw [splitSlotList_slotText (small _ fun pt held => (square pt held).1),
    splitSlotList_slotText (small _ fun pt held => (square pt held).2)]
  unfold slotsOf
  rw [List.zip_append (by simp), List.filterMap_append, List.zip_map', List.filterMap_map]
  have vertices : ∀ pt ∈ region, ((fun slot : Int × Int => if slot.1 < 0 ∨ slot.2 < 0 then none
      else some (⟨normalise slot.1, normalise slot.2⟩ : Point)) ∘
        fun pt : Point => (int (scaled pt.x), int (scaled pt.y))) pt = some (returnedPoint pt) := by
    intro pt held
    have x := (int_scaled_bounds (square pt held).1).1.1
    have y := (int_scaled_bounds (square pt held).2).1.1
    simp only [Function.comp_apply, not_or.mpr ⟨not_lt.mpr x, not_lt.mpr y⟩, if_false]
    rfl
  rw [List.filterMap_congr vertices, List.filterMap_eq_map', List.zip_replicate', List.filterMap_replicate_of_none,
    List.append_nil]
  decide

/-! ## The rules of one type -/

private theorem forall₂_placed {α β : Type} {entries : List α} {start : Nat} {read : α × Nat → Option β}
    {agree : α → β → Prop} :
    List.Forall₂ agree entries ((entries.zipIdx start).filterMap read) ↔ ∀ placed ∈ entries.zipIdx start,
      ∃ value, read placed = some value ∧ agree placed.1 value := by
  induction entries generalizing start with
  | nil => simp
  | cons entry rest ih =>
    rw [List.zipIdx_cons]
    cases found : read (entry, start) with
    | none =>
      rw [List.filterMap_cons_none found]
      constructor
      · intro all
        have short := List.length_filterMap_le read (rest.zipIdx (start + 1))
        have same := all.length_eq
        rw [List.length_cons] at same
        rw [List.length_zipIdx] at short
        omega
      · intro all
        obtain ⟨value, read_, _⟩ := all (entry, start) List.mem_cons_self
        rw [found] at read_
        cases read_
    | some value =>
      rw [List.filterMap_cons_some found, List.forall₂_cons, ih, List.forall_mem_cons, found]
      simp

private def least : Kind → Nat
  | .linecross => 2
  | _ => 3

/-- A rule after the round trip, for the sensitivity that the camera gives for the type. -/
private def returnedRule (kind : Kind) (sens : Int64) (rule : VCARuleCompact) (regionIdx : Nat) : PulledRule Point where
  kind := kind
  regionIndex := Int64.ofNat (regionIdx - 1)
  enabled := true
  sensitivity := if kind = .loitering then 0 else sens * 20
  region := if kind = .linecross then (rule.region.map returnedPoint).take 2 else rule.region.map returnedPoint
  direction :=
    if kind = .linecross then lineCrossDirection (number (fieldValue kind.ruleType rule .direction)) else ""
  thresholdSec := if kind = .loitering then number (fieldValue kind.ruleType rule .duration) else 0

private def givenSens (getter : Getter) (kind : Kind) (rules : List VCARuleCompact) : Int64 :=
  (getter.get (stored kind rules) (configKey kind) ((rules.zipIdx 1).map Prod.snd)).sens

private theorem polygon_returned (getter : Getter) {kind : Kind} {rules : List VCARuleCompact}
    {placed : VCARuleCompact × Nat} (member : placed ∈ rules.zipIdx 1) (pushable : Pushable placed.1) :
    parsePolygon (getter.slots .pointX (stored kind rules) (configKey kind) placed.2)
      (getter.slots .pointY (stored kind rules) (configKey kind) placed.2) = placed.1.region.map returnedPoint := by
  have field (field : Field) : stored kind rules (fieldKey (configKey kind) placed.2 field) =
      fieldValue kind.ruleType placed.1 field := stored_field member pushable.enabled field
  have xs : getter.slots .pointX (stored kind rules) (configKey kind) placed.2 =
      slotText ((slotsOf getter VcaPush.Point.x placed.1.region).map decimal) := by
    apply slots_eq getter (field .pointnum)
    intro j pt held
    rw [field (.pointX (j + 1)), fieldValue, held, Option.map_some]
  have ys : getter.slots .pointY (stored kind rules) (configKey kind) placed.2 =
      slotText ((slotsOf getter VcaPush.Point.y placed.1.region).map decimal) := by
    apply slots_eq getter (field .pointnum)
    intro j pt held
    rw [field (.pointY (j + 1)), fieldValue, held, Option.map_some]
  rw [xs, ys, parsePolygon_slots getter pushable.square]

/-- What the shared part of the pull functions reads of the stored rules. -/
private theorem pullRegions_get (getter : Getter) {kind : Kind} {rules : List VCARuleCompact}
    (pushable : ∀ rule ∈ rules, Pushable rule) (least : Nat) (sensitivity : Int64)
    (vertices : List Point → List Point) (direction : DetectionInfo → String) (thresholdSec : DetectionInfo → Int64) :
    pullRegions kind least sensitivity vertices direction thresholdSec
        (getter.get (stored kind rules) (configKey kind) ((rules.zipIdx 1).map Prod.snd)) =
      (rules.zipIdx 1).filterMap fun placed =>
        if placed.1.region.length < least then none
        else some {
          kind := kind
          regionIndex := Int64.ofNat (placed.2 - 1)
          enabled := true
          sensitivity := sensitivity
          region := vertices (placed.1.region.map returnedPoint)
          direction := direction (getter.info (stored kind rules) (configKey kind) placed.2)
          thresholdSec := thresholdSec (getter.info (stored kind rules) (configKey kind) placed.2) } := by
  unfold pullRegions Getter.get
  rw [List.map_map, List.filterMap_map]
  apply List.filterMap_congr
  intro placed member
  have can := pushable placed.1 (List.fst_mem_of_mem_zipIdx member)
  have polygon : parsePolygon (getter.slots .pointX (stored kind rules) (configKey kind) placed.2)
      (getter.slots .pointY (stored kind rules) (configKey kind) placed.2) = placed.1.region.map returnedPoint :=
    polygon_returned getter member can
  have enable : number (stored kind rules (fieldKey (configKey kind) placed.2 .enable)) = 1 :=
    (congrArg number (stored_field member can.enabled .enable)).trans (number_decimal 1)
  simp only [Function.comp_apply, Getter.info, polygon, enable, List.length_map, decide_true]

private theorem roundTrip_eq (getter : Getter) {kind : Kind} {rules : List VCARuleCompact}
    (pushable : ∀ rule ∈ rules, Pushable rule) :
    roundTrip getter kind rules = (rules.zipIdx 1).filterMap fun placed =>
      if placed.1.region.length < least kind then none
      else some (returnedRule kind (givenSens getter kind rules) placed.1 placed.2) := by
  have field (placed) (member : placed ∈ rules.zipIdx 1) (field : Field) :
      stored kind rules (fieldKey (configKey kind) placed.2 field) = fieldValue kind.ruleType placed.1 field :=
    stored_field member (pushable placed.1 (List.fst_mem_of_mem_zipIdx member)).enabled field
  cases kind with
  | intrusion | regionentrance => exact pullRegions_get getter pushable 3 _ id _ _
  | linecross =>
    apply (pullRegions_get getter pushable 2 _ (List.take 2) _ _).trans
    apply List.filterMap_congr
    intro placed member
    simp only [Getter.info, field placed member]
    rfl
  | loitering =>
    apply (pullRegions_get getter pushable 3 _ id _ _).trans
    apply List.filterMap_congr
    intro placed member
    simp only [Getter.info, field placed member]
    rfl

private theorem region_agrees {region : List Point}
    (square : ∀ pt ∈ region, (0 ≤ pt.x.value ∧ pt.x.value ≤ 1) ∧ 0 ≤ pt.y.value ∧ pt.y.value ≤ 1) :
    (((region.map fun pt => (pt.x, pt.y)).zip ((region.map returnedPoint).map fun pt => (pt.x, pt.y))).all
      fun (p, q) => !(apart p.1 q.1 || apart p.2 q.2)) = true ↔ ∀ pt ∈ region, AtCornerOrEdge pt.x ∧ AtCornerOrEdge pt.y := by
  rw [List.map_map, List.zip_map', List.all_map, List.all_eq_true]
  apply forall_congr'
  intro pt
  apply forall_congr'
  intro held
  rw [← apart_normalise (square pt held).1, ← apart_normalise (square pt held).2]
  simp [returnedPoint]

private theorem vertices_agree {kind : Kind} {region : List Point} :
    (¬ region.length < least kind ∧ region.length =
      (if kind = .linecross then (region.map returnedPoint).take 2 else region.map returnedPoint).length) ↔
      if kind = .linecross then region.length = 2 else 3 ≤ region.length := by
  cases kind <;> simp [least]
  omega

private theorem lineCrossDirection_agrees (direction : String) :
    direction = lineCrossDirection (number (dirMap.lookup direction)) ↔ (dirMap.lookup direction).isSome = true := by
  have known : ∀ entry ∈ dirMap, entry.1 = lineCrossDirection (number (some entry.2)) := by decide
  cases found : dirMap.lookup direction with
  | none =>
    have absent : direction ≠ "both" := by
      rintro rfl
      cases found
    simpa [number, lineCrossDirection] using absent
  | some value =>
    obtain ⟨before, after, split, _⟩ := List.lookup_eq_some_iff.mp found
    have entry : (direction, value) ∈ dirMap := split ▸ List.mem_append_right _ List.mem_cons_self
    exact iff_of_true (known _ entry) rfl

private theorem duration_agrees (threshold : Int64) :
    threshold = number (if 0 < threshold then some (decimal threshold.toInt) else none) ↔ 0 ≤ threshold := by
  by_cases positive : 0 < threshold
  · rw [if_pos positive, number_decimal]
    exact iff_of_true rfl (Int64.le_of_lt positive)
  · rw [if_neg positive]
    constructor
    · intro zero
      rw [zero]
      exact Int64.le_refl _
    · intro atLeast
      exact Int64.le_antisymm (Int64.not_lt.mp positive) atLeast

private theorem threshold_agrees (kind : Kind) (rule : VCARuleCompact) : rule.thresholdSec =
      (if kind = .loitering then number (fieldValue kind.ruleType rule .duration) else 0) ↔
    if kind = .loitering then 0 ≤ rule.thresholdSec else rule.thresholdSec = 0 := by
  by_cases loitering : kind = .loitering
  · subst loitering
    have sent : fieldValue Kind.loitering.ruleType rule .duration =
        if 0 < rule.thresholdSec then some (decimal rule.thresholdSec.toInt) else none := by
      simp [fieldValue, Kind.ruleType]
    rw [if_pos rfl, if_pos rfl, sent]
    exact duration_agrees rule.thresholdSec
  · rw [if_neg loitering, if_neg loitering]

private theorem direction_agrees (kind : Kind) (rule : VCARuleCompact) : rule.direction =
      (if kind = .linecross then lineCrossDirection (number (fieldValue kind.ruleType rule .direction)) else "") ↔
    if kind = .linecross then (dirMap.lookup rule.direction).isSome = true else rule.direction = "" := by
  by_cases linecross : kind = .linecross
  · subst linecross
    have sent : fieldValue Kind.linecross.ruleType rule .direction = dirMap.lookup rule.direction := by
      simp [fieldValue, Kind.ruleType]
    rw [if_pos rfl, if_pos rfl, sent]
    exact lineCrossDirection_agrees rule.direction
  · rw [if_neg linecross, if_neg linecross]

/-- A line of two vertices loses none. -/
private theorem vertices_kept {kind : Kind} {region : List Point}
    (vertices : if kind = .linecross then region.length = 2 else 3 ≤ region.length) :
    (if kind = .linecross then (region.map returnedPoint).take 2 else region.map returnedPoint) =
      region.map returnedPoint := by
  split at vertices
  · rename_i linecross
    rw [if_pos linecross, List.take_of_length_le]
    rw [List.length_map, vertices]
  · rename_i polygon
    rw [if_neg polygon]

private def sensitivityGiven (kind : Kind) (sens : Int64) : Int64 := if kind = .loitering then 0 else sens * 20

/-- One rule: everything but the sensitivity depends on the rule alone. -/
private theorem returnedRule_iff {kind : Kind} {sens : Int64} {rule : VCARuleCompact} {regionIdx : Nat}
    (can : Pushable rule) :
    (¬ rule.region.length < least kind ∧
      rulesEquivalent (pushedView rule) (pulledView (returnedRule kind sens rule regionIdx)) = true) ↔
      rule.sensitivity = sensitivityGiven kind sens ∧
        (if kind = .linecross then rule.region.length = 2 else 3 ≤ rule.region.length) ∧
        (∀ pt ∈ rule.region, AtCornerOrEdge pt.x ∧ AtCornerOrEdge pt.y) ∧
        (if kind = .loitering then 0 ≤ rule.thresholdSec else rule.thresholdSec = 0) ∧
        (if kind = .linecross then (dirMap.lookup rule.direction).isSome = true else rule.direction = "") := by
  rw [← threshold_agrees kind rule, ← direction_agrees kind rule]
  simp only [rulesEquivalent, pushedView, pulledView, returnedRule, can.enabled, decide_true, Bool.true_and,
    Bool.and_eq_true, decide_eq_true_eq, List.length_map, Int64.toInt_inj]
  constructor
  · rintro ⟨enough, ⟨⟨⟨sensitivity, thresholds⟩, directions⟩, length⟩, points⟩
    have vertices := vertices_agree.mp ⟨enough, length⟩
    rw [vertices_kept vertices] at points
    exact ⟨sensitivity, vertices, (region_agrees can.square).mp points, thresholds, directions⟩
  · rintro ⟨sensitivity, vertices, points, thresholds, directions⟩
    obtain ⟨enough, length⟩ := vertices_agree.mpr vertices
    rw [vertices_kept vertices] at length ⊢
    exact ⟨enough, ⟨⟨⟨sensitivity, thresholds⟩, directions⟩, length⟩, (region_agrees can.square).mpr points⟩

/-- The sensitivity of the type is that of one of its rules. -/
private theorem givenSens_mem (getter : Getter) (kind : Kind) {rules : List VCARuleCompact} (some_ : rules ≠ [])
    (pushable : ∀ rule ∈ rules, Pushable rule) : ∃ rule ∈ rules, givenSens getter kind rules = rule.sensitivity := by
  have regions : (rules.zipIdx 1).map Prod.snd ≠ [] := by simpa using some_
  obtain ⟨placed, member, same⟩ := List.mem_map.mp (getter.chosen _ regions)
  have held := List.fst_mem_of_mem_zipIdx member
  refine ⟨placed.1, held, ?_⟩
  unfold givenSens Getter.get
  rw [← same, stored_field member (pushable placed.1 held).enabled]
  exact number_decimal placed.1.sensitivity

private theorem zero_of_twentyfold {s : Int64} (percent : 0 ≤ s.toInt ∧ s.toInt ≤ 100) (same : s = s * 20) : s = 0 := by
  have twenty : (20 : Int64).toInt = 20 := by decide
  have values : s.toInt = (s.toInt * 20).bmod (2 ^ 64) := by
    have product := congrArg Int64.toInt same
    rwa [Int64.toInt_mul, twenty] at product
  rw [Int.bmod_eq_of_le (by omega) (by omega)] at values
  apply Int64.toInt_inj.mp
  have zero : (0 : Int64).toInt = 0 := by decide
  omega

/-- Sensitivities come back twenty times as large, so only zero comes back. -/
private theorem sensitivity_agrees (getter : Getter) (kind : Kind) {rules : List VCARuleCompact}
    (pushable : ∀ rule ∈ rules, Pushable rule) :
    (∀ rule ∈ rules, rule.sensitivity = sensitivityGiven kind (givenSens getter kind rules)) ↔
      ∀ rule ∈ rules, rule.sensitivity = 0 := by
  by_cases some_ : rules = []
  · rw [some_]
    simp
  obtain ⟨chosen, held, given_⟩ := givenSens_mem getter kind some_ pushable
  rw [given_]
  unfold sensitivityGiven
  constructor
  · intro all rule member
    by_cases loitering : kind = .loitering
    · rw [all rule member, if_pos loitering]
    · have itself := all chosen held
      rw [if_neg loitering] at itself
      have zero := zero_of_twentyfold (pushable chosen held).sensitivity itself
      rw [all rule member, if_neg loitering, zero]
      rfl
  · intro zero rule member
    rw [zero rule member, zero chosen held]
    split <;> rfl

/-- The pulled list is met rule by rule: a region that is dropped is missed. -/
private theorem returned_each (getter : Getter) {kind : Kind} {rules : List VCARuleCompact}
    (pushable : ∀ rule ∈ rules, Pushable rule) :
    Returned getter kind rules ↔ ∀ placed ∈ rules.zipIdx 1, ¬ placed.1.region.length < least kind ∧
      rulesEquivalent (pushedView placed.1)
        (pulledView (returnedRule kind (givenSens getter kind rules) placed.1 placed.2)) = true := by
  unfold Returned
  rw [roundTrip_eq getter pushable, forall₂_placed]
  apply forall_congr'
  intro placed
  apply forall_congr'
  intro _
  split
  · rename_i short
    simp [short]
  · rename_i enough
    simp [enough]

/-- A type comes back whole exactly when each of its rules is one that survives. -/
theorem returned_iff (getter : Getter) {kind : Kind} {rules : List VCARuleCompact}
    (pushable : ∀ rule ∈ rules, Pushable rule) : Returned getter kind rules ↔ ∀ rule ∈ rules, Survives kind rule := by
  rw [returned_each getter pushable]
  constructor
  · intro all
    have places : ∀ rule ∈ rules, ∃ n, (rule, n) ∈ rules.zipIdx 1 := by
      intro rule member
      obtain ⟨j, inside⟩ := List.getElem?_of_mem member
      exact ⟨1 + j, List.mk_add_mem_zipIdx_iff_getElem?.mpr inside⟩
    have zero : ∀ rule ∈ rules, rule.sensitivity = 0 := by
      apply (sensitivity_agrees getter kind pushable).mp
      intro rule member
      obtain ⟨n, placed⟩ := places rule member
      exact ((returnedRule_iff (pushable rule member)).mp (all _ placed)).1
    intro rule member
    obtain ⟨n, placed⟩ := places rule member
    obtain ⟨_, vertices, points, thresholdSec, direction⟩ :=
      (returnedRule_iff (pushable rule member)).mp (all _ placed)
    exact ⟨zero rule member, vertices, points, thresholdSec, direction⟩
  · intro survive placed member
    have held := List.fst_mem_of_mem_zipIdx member
    obtain ⟨_, vertices, points, thresholdSec, direction⟩ := survive placed.1 held
    have given_ := (sensitivity_agrees getter kind pushable).mpr fun rule member => (survive rule member).sensitivity
    exact (returnedRule_iff (pushable placed.1 held)).mpr
      ⟨given_ placed.1 held, vertices, points, thresholdSec, direction⟩

/-- Pushing and pulling gives every rule back if and only if all have sensitivity
zero, coordinates at the top left corner or the far edges, and no fields beside
those of their type. -/
theorem round_trip_iff_survives (getter : Getter) {rules : List VCARuleCompact}
    (pushable : ∀ rule ∈ rules, Pushable rule) :
    (∀ kind : Kind, Returned getter kind (ofType kind.ruleType rules)) ↔
      ∀ kind : Kind, ∀ rule ∈ ofType kind.ruleType rules, Survives kind rule := by
  apply forall_congr'
  intro kind
  exact returned_iff getter fun rule member => pushable rule (List.mem_of_mem_filter member)

private def plainGetter : Getter where
  padding := 7
  region regions := regions.headD 0
  chosen regions some_ := by
    cases regions with
    | nil => exact (some_ rfl).elim
    | cons region rest => exact List.mem_cons_self

private def origin : Double := .ofRat 0

private def farEdge : Double := .ofRat 1

private theorem origin_value : origin.value = 0 := Binary64.nearest_zero

private theorem ends_square : (0 ≤ origin.value ∧ origin.value ≤ 1) ∧ 0 ≤ farEdge.value ∧ farEdge.value ≤ 1 := by
  have farEdge_value : farEdge.value = 1 := value_one
  rw [origin_value, farEdge_value]
  norm_num

private theorem ends_return : AtCornerOrEdge origin ∧ AtCornerOrEdge farEdge := by
  have farEdge_value : farEdge.value = 1 := value_one
  rw [AtCornerOrEdge, AtCornerOrEdge, origin_value, farEdge_value, value_corner, value_edge]
  norm_num

private def wholeFrame (sensitivity : Int64) : VCARuleCompact :=
  { ruleType := "intrusion", name := "Frame", sensitivity := sensitivity, region := [⟨origin, origin⟩, ⟨farEdge, origin⟩, ⟨farEdge, farEdge⟩] }

private def diagonal : VCARuleCompact :=
  { ruleType := "linecross", name := "Gate", sensitivity := 0, region := [⟨origin, origin⟩, ⟨farEdge, farEdge⟩], direction := "both" }

private theorem wholeFrame_pushable {sensitivity : Int64} (percent : 0 ≤ sensitivity.toInt ∧ sensitivity.toInt ≤ 100) :
    Pushable (wholeFrame sensitivity) := by
  obtain ⟨first, last⟩ := ends_square
  exact ⟨rfl, percent, by simp [wholeFrame, first, last]⟩

/-- A rule over half the frame and a line across it come back, both at sensitivity zero. -/
theorem round_trip_corners :
    Returned plainGetter .intrusion (ofType "intrusion" [wholeFrame 0, diagonal]) ∧
      Returned plainGetter .linecross (ofType "linecross" [wholeFrame 0, diagonal]) := by
  obtain ⟨first, last⟩ := ends_square
  obtain ⟨corner, edge⟩ := ends_return
  have diagonal_pushable : Pushable diagonal := ⟨rfl, by decide, by simp [diagonal, first, last]⟩
  have pushable : ∀ rule ∈ [wholeFrame 0, diagonal], Pushable rule := by
    simpa using ⟨wholeFrame_pushable (by decide), diagonal_pushable⟩
  have all := (round_trip_iff_survives plainGetter pushable).mpr fun kind rule member => by
    obtain ⟨held, type⟩ := List.mem_filter.mp member
    obtain rfl | rfl := List.mem_pair.mp held
    · obtain rfl : kind = .intrusion := by
        revert type
        cases kind <;> decide
      exact ⟨rfl, by decide, by simp [wholeFrame, corner, edge], rfl, rfl⟩
    · obtain rfl : kind = .linecross := by
        revert type
        cases kind <;> decide
      exact ⟨rfl, rfl, by simp [diagonal, corner, edge], rfl, rfl⟩
  exact ⟨all .intrusion, all .linecross⟩

/-- The same rule at the default sensitivity does not. -/
theorem round_trip_default : Pushable (wholeFrame 50) ∧ ¬ Returned plainGetter .intrusion [wholeFrame 50] := by
  have pushable : Pushable (wholeFrame 50) := wholeFrame_pushable (by decide)
  refine ⟨pushable, fun returned => ?_⟩
  have survives := (returned_iff plainGetter (List.forall_mem_singleton.mpr pushable)).mp returned
  have zero := (survives (wholeFrame 50) List.mem_cons_self).sensitivity
  exact absurd zero (by decide)

end Ironsight.VcaRoundTrip
