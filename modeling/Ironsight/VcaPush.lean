import Mathlib.Data.Rat.Floor
import Mathlib.Data.List.Dedup
import Ironsight.EventReads
import Ironsight.FormBody

/-! Pushing VCA rules to a Milesight camera. The rules of one type are written
into one form body, unescaped, under region numbers taken from their places in
the list; the camera overwrites the keys it is sent and keeps all others.
Coordinates are of any kind that can be scaled to the camera's grid; what a push
is for is said of exact rationals. -/
namespace Ironsight.VcaPush
open EventReads FormBody

abbrev Text := List Char

def text (literal : String) : Text := literal.toList

/-- The camera splits a body at `&` and each piece at its first `=`. -/
def marks : Marks Char := ⟨'&', '='⟩

abbrev Config := FormBody.Config Char

/-- `v * 10000` in the arithmetic of the coordinates. -/
class GridScale (F : Type) where
  scaled : F → ℚ

export GridScale (scaled)

/-- Coordinates without rounding. -/
instance exactScale : GridScale ℚ := ⟨(· * 10000)⟩

structure Point (F : Type) where
  x : F
  y : F
  deriving DecidableEq

structure VCARuleCompact (F : Type) where
  ruleType : String
  name : String
  enabled : Bool := true
  sensitivity : Int64 := 50
  region : List (Point F) := []
  direction : String := ""
  thresholdSec : Int64 := 0
  deriving DecidableEq

section Push
variable {F : Type} [GridScale F]

/-! ## The form body -/

/-- `%d`. -/
def decimal : Int → Text
  | .ofNat n => Nat.toDigits 10 n
  | .negSucc n => '-' :: Nat.toDigits 10 (n + 1)

/-- `int(v)` drops the fraction, towards zero. -/
def int (value : ℚ) : Int := value.num.tdiv value.den

/-- `strings.ReplaceAll(name, " ", "+")`. -/
def plusForSpace (name : Text) : Text := name.map fun char => if char = ' ' then '+' else char

def milesightVCAConfigKeys : List (String × Text) :=
  [("intrusion", text "vca/intrusion"), ("linecross", text "vca/linecross"),
    ("regionentrance", text "vca/regionentrance"), ("loitering", text "vca/loitering")]

def dirMap : List (String × Text) :=
  [("both", text "0"), ("left_to_right", text "1"), ("right_to_left", text "2")]

/-- The params of one enabled rule. -/
def regionParams (configKey : Text) (ruleType : String) (rule : VCARuleCompact F) (regionIdx : Nat) : List Text :=
  let start := configKey ++ text ".region" ++ Nat.toDigits 10 regionIdx
  [start ++ text ".enable=1",
    start ++ text ".name=" ++ plusForSpace rule.name.toList,
    start ++ text ".sensitivity=" ++ decimal rule.sensitivity.toInt,
    start ++ text ".pointnum=" ++ decimal rule.region.length] ++
  ((rule.region.zipIdx 1).flatMap fun (pt, ptIdx) =>
    [start ++ text ".point" ++ Nat.toDigits 10 ptIdx ++ text "x=" ++ decimal (int (scaled pt.x)),
      start ++ text ".point" ++ Nat.toDigits 10 ptIdx ++ text "y=" ++ decimal (int (scaled pt.y))]) ++
  (if ruleType = "linecross" then
    match dirMap.lookup rule.direction with
    | some v => [start ++ text ".direction=" ++ v]
    | none => []
  else []) ++
  (if ruleType = "loitering" ∧ 0 < rule.thresholdSec then
    [start ++ text ".duration=" ++ decimal rule.thresholdSec.toInt]
  else [])

/-- Disabled rules are left out, but their places count. -/
def buildMilesightFormBody (configKey : Text) (ruleType : String) (rules : List (VCARuleCompact F)) : Text :=
  marks.join ((configKey ++ text ".enable=1") :: (rules.zipIdx 1).flatMap fun (rule, regionIdx) =>
    if rule.enabled then regionParams configKey ruleType rule regionIdx else [])

/-! ## The push -/

/-- What comes of one request. A request that fails may have reached the camera. -/
inductive Answer where
  | ok
  | failed (err : String) (taken : Bool)
  deriving DecidableEq

def Answer.taken : Answer → Bool
  | .ok => true
  | .failed _ taken => taken

/-- The camera after one `setconfig` request. -/
def post (answer : Answer) (config : Config) (body : Text) : Config :=
  if answer.taken then marks.setconfig config body else config

/-- The rules that one request of the push carries. -/
def ofType (ruleType : String) (rules : List (VCARuleCompact F)) : List (VCARuleCompact F) :=
  rules.filter fun rule => rule.ruleType = ruleType

/-- The first loop: the body of each type is pushed until one fails. No body is
sent twice, so the answers may be read off the bodies. -/
def pushTypes (answers : Text → Answer) (rules : List (VCARuleCompact F)) :
    List String → Config → Option String × Config
  | [], config => (none, config)
  | ruleType :: rest, config =>
    match milesightVCAConfigKeys.lookup ruleType with
    | none => pushTypes answers rules rest config
    | some configKey =>
      let formBody := buildMilesightFormBody configKey ruleType (ofType ruleType rules)
      match answers formBody with
      | .ok => pushTypes answers rules rest (post .ok config formBody)
      | .failed err taken =>
        (some ("push " ++ ruleType ++ " rules: " ++ err), post (.failed err taken) config formBody)

def disableBody (configKey : Text) : Text := configKey ++ text ".enable=0"

/-- The second loop: a type without rules is disabled, and a failure only logged. -/
def disableTypes (answers : Text → Answer) (byType : List String) : List String → Config → Config
  | [], config => config
  | ruleType :: rest, config =>
    match milesightVCAConfigKeys.lookup ruleType with
    | none => disableTypes answers byType rest config
    | some configKey =>
      if ruleType ∈ byType then disableTypes answers byType rest config
      else disableTypes answers byType rest (post (answers (disableBody configKey)) config (disableBody configKey))

/-- `PushVCARules`: its error and the camera's configuration. -/
def pushVCARules (answers : Text → Answer) (order : MapOrder) (rules : List (VCARuleCompact F)) (config : Config) :
    Option String × Config :=
  let byType := (rules.map VCARuleCompact.ruleType).dedup
  match pushTypes answers rules (order.arrange byType) config with
  | (some err, config) => (some err, config)
  | (none, config) =>
    (none, disableTypes answers byType (order.arrange (milesightVCAConfigKeys.map Prod.fst)) config)

/-! ## The camera's keys -/

inductive Field where
  | enable
  | name
  | sensitivity
  | pointnum
  | pointX (ptIdx : Nat)
  | pointY (ptIdx : Nat)
  | direction
  | duration
  deriving DecidableEq

def Field.text : Field → Text
  | .enable => VcaPush.text "enable"
  | .name => VcaPush.text "name"
  | .sensitivity => VcaPush.text "sensitivity"
  | .pointnum => VcaPush.text "pointnum"
  | .pointX ptIdx => VcaPush.text "point" ++ Nat.toDigits 10 ptIdx ++ ['x']
  | .pointY ptIdx => VcaPush.text "point" ++ Nat.toDigits 10 ptIdx ++ ['y']
  | .direction => VcaPush.text "direction"
  | .duration => VcaPush.text "duration"

def enableKey (configKey : Text) : Text := configKey ++ text ".enable"

def fieldKey (configKey : Text) (regionIdx : Nat) (field : Field) : Text :=
  configKey ++ text ".region" ++ Nat.toDigits 10 regionIdx ++ '.' :: field.text

/-! ## What a push is for -/

/-- The enabled rules of a type with their region numbers: places in the list of
all rules of the type. -/
def enabledRules (ruleType : String) (rules : List (VCARuleCompact F)) : List (VCARuleCompact F × Nat) :=
  ((ofType ruleType rules).zipIdx 1).filter fun placed => placed.1.enabled

/-- The camera watches a region when both the type and the region are enabled. -/
def EnabledRegion (config : Config) (configKey : Text) (regionIdx : Nat) : Prop :=
  config (enableKey configKey) = some (text "1") ∧ config (fieldKey configKey regionIdx .enable) = some (text "1")

/-- A region of the camera is the rule: its name as the camera reads it, its
sensitivity and its points on the grid. -/
structure Shows (reads : Text → Text) (config : Config) (configKey : Text) (regionIdx : Nat) (rule : VCARuleCompact ℚ) :
    Prop where
  name : ∃ stored, config (fieldKey configKey regionIdx .name) = some stored ∧ reads stored = rule.name.toList
  sensitivity : config (fieldKey configKey regionIdx .sensitivity) = some (decimal rule.sensitivity.toInt)
  pointnum : config (fieldKey configKey regionIdx .pointnum) = some (decimal rule.region.length)
  points : ∀ placed ∈ rule.region.zipIdx 1,
    config (fieldKey configKey regionIdx (.pointX placed.2)) = some (decimal ⌊10000 * placed.1.x⌋) ∧
      config (fieldKey configKey regionIdx (.pointY placed.2)) = some (decimal ⌊10000 * placed.1.y⌋)

/-- The keys that are the rule set's own. -/
def Concerns (rules : List (VCARuleCompact F)) (key : Text) : Prop :=
  ∃ kind ∈ milesightVCAConfigKeys, key = enableKey kind.2 ∨
    ∃ placed ∈ enabledRules kind.1 rules, ∃ field, key = fieldKey kind.2 placed.2 field

/-- The camera's enabled regions are the enabled rules, and nothing else changed. -/
structure Installed (reads : Text → Text) (rules : List (VCARuleCompact ℚ)) (before after : Config) : Prop where
  regions : ∀ kind ∈ milesightVCAConfigKeys, ∀ regionIdx, EnabledRegion after kind.2 regionIdx ↔
    ∃ rule, (rule, regionIdx) ∈ enabledRules kind.1 rules
  shown : ∀ kind ∈ milesightVCAConfigKeys, ∀ placed ∈ enabledRules kind.1 rules,
    Shows reads after kind.2 placed.2 placed.1
  others : ∀ key, ¬ Concerns rules key → after key = before key

/-- Dropping the fraction rounds such a coordinate down. -/
def OnGrid (value : ℚ) : Prop := 0 ≤ value ∨ ∃ n : ℤ, 10000 * value = n

/-- What a push needs to install its rules: names that survive the unescaped
body, coordinates that are not rounded up, no other region enabled beside those
of a type with rules, and no region left of a type whose disable was lost. -/
structure Installable (reads : Text → Text) (answers : Text → Answer) (rules : List (VCARuleCompact ℚ))
    (before : Config) : Prop where
  names : ∀ kind ∈ milesightVCAConfigKeys, ∀ placed ∈ enabledRules kind.1 rules,
    '&' ∉ placed.1.name.toList ∧ reads (plusForSpace placed.1.name.toList) = placed.1.name.toList
  grid : ∀ kind ∈ milesightVCAConfigKeys, ∀ placed ∈ enabledRules kind.1 rules,
    ∀ pt ∈ placed.1.region, OnGrid pt.x ∧ OnGrid pt.y
  fresh : ∀ kind ∈ milesightVCAConfigKeys, kind.1 ∈ rules.map VCARuleCompact.ruleType → ∀ regionIdx,
    before (fieldKey kind.2 regionIdx .enable) = some (text "1") →
      ∃ rule, (rule, regionIdx) ∈ enabledRules kind.1 rules
  disabled : ∀ kind ∈ milesightVCAConfigKeys, kind.1 ∉ rules.map VCARuleCompact.ruleType →
    (answers (disableBody kind.2)).taken = true ∨ ∀ regionIdx, ¬ EnabledRegion before kind.2 regionIdx

/-! ## Keys are distinct -/

theorem digits_inj {n m : Nat} (same : Nat.toDigits 10 n = Nat.toDigits 10 m) : n = m := by
  have read := congrArg (Nat.ofDigitChars 10 · 0) same
  simpa only [Nat.ofDigitChars_ten_toDigits] using read

private theorem notMem_digits {char : Char} (other : char.isDigit = false) (n : Nat) : char ∉ Nat.toDigits 10 n := by
  intro member
  rw [Nat.isDigit_of_mem_toDigits (by decide) (by decide) member] at other
  cases other

theorem decimal_inj {n m : Int} (same : decimal n = decimal m) : n = m := by
  have positive (k : Nat) : '-' ∉ Nat.toDigits 10 k := notMem_digits (by decide) k
  cases n with
  | ofNat n =>
    cases m with
    | ofNat m => rw [digits_inj same]
    | negSucc m =>
      dsimp only [decimal] at same
      exact (positive n (by rw [same]; exact List.mem_cons_self)).elim
  | negSucc n =>
    cases m with
    | ofNat m =>
      dsimp only [decimal] at same
      exact (positive m (by rw [← same]; exact List.mem_cons_self)).elim
    | negSucc m =>
      have tails : n + 1 = m + 1 := digits_inj (List.cons.inj same).2
      rw [Nat.succ.inj tails]

private theorem digits_append_ne {char : Char} (other : char ≠ 'm') (n : Nat) :
    Nat.toDigits 10 n ++ [char] ≠ ['n', 'u', 'm'] := by
  intro same
  have last := congrArg List.getLast? same
  rw [List.getLast?_concat] at last
  exact other (Option.some.inj last)

theorem Field.text_injective : Function.Injective Field.text := by
  intro first second same
  cases first <;> cases second <;> simp [Field.text, VcaPush.text] at same ⊢
  case pointX.pointX => exact digits_inj same
  case pointY.pointY => exact digits_inj same
  case pointX.pointnum => exact digits_append_ne (by decide) _ same
  case pointY.pointnum => exact digits_append_ne (by decide) _ same
  case pointnum.pointX => exact digits_append_ne (by decide) _ same.symm
  case pointnum.pointY => exact digits_append_ne (by decide) _ same.symm

/-- Texts with no dot are told apart before a first dot. -/
private theorem dotted_inj {first second rest other : Text} (left : '.' ∉ first) (right : '.' ∉ second)
    (same : first ++ '.' :: rest = second ++ '.' :: other) : first = second ∧ rest = other := by
  have pairs : (first, rest) = (second, other) := line_inj ⟨'.', '.'⟩ left right same
  exact Prod.mk.inj pairs

private theorem dot_notMem_digits (n : Nat) : '.' ∉ text "region" ++ Nat.toDigits 10 n := by
  rw [List.mem_append, not_or]
  exact ⟨by decide, notMem_digits (by decide) n⟩

private theorem fieldKey_eq (configKey : Text) (regionIdx : Nat) (field : Field) :
    fieldKey configKey regionIdx field =
      configKey ++ '.' :: ((text "region" ++ Nat.toDigits 10 regionIdx) ++ '.' :: field.text) := by
  have start : text ".region" = '.' :: text "region" := by decide
  simp only [fieldKey, start, List.append_assoc, List.cons_append]

theorem fieldKey_inj {first second : Text} {n m : Nat} {f g : Field} (left : '.' ∉ first) (right : '.' ∉ second)
    (same : fieldKey first n f = fieldKey second m g) : first = second ∧ n = m ∧ f = g := by
  rw [fieldKey_eq, fieldKey_eq] at same
  obtain ⟨keys, same⟩ := dotted_inj left right same
  obtain ⟨regions, fields⟩ := dotted_inj (dot_notMem_digits n) (dot_notMem_digits m) same
  exact ⟨keys, digits_inj (List.append_cancel_left regions), Field.text_injective fields⟩

theorem enableKey_inj {first second : Text} (same : enableKey first = enableKey second) : first = second :=
  List.append_cancel_right same

theorem enableKey_ne_fieldKey {first second : Text} {n : Nat} {f : Field} (left : '.' ∉ first) (right : '.' ∉ second) :
    enableKey first ≠ fieldKey second n f := by
  intro same
  rw [fieldKey_eq] at same
  obtain ⟨_, same⟩ : _ ∧ text "enable" = _ := dotted_inj left right same
  have first : text "enable" = 'e' :: text "nable" := by decide
  have second : text "region" = 'r' :: text "egion" := by decide
  rw [first, second] at same
  exact absurd (List.cons.inj same).1 (by decide)

/-- The config keys have no dot and are pairwise different. -/
private theorem configKey_plain : ∀ kind ∈ milesightVCAConfigKeys, '.' ∉ kind.2 ∧ '&' ∉ kind.2 ∧ '=' ∉ kind.2 := by
  decide

private theorem mem_of_lookup {entries : List (String × Text)} {key : String} {value : Text}
    (found : entries.lookup key = some value) : (key, value) ∈ entries := by
  obtain ⟨first, rest, rfl, _⟩ := List.lookup_eq_some_iff.mp found
  exact List.mem_append_right _ List.mem_cons_self

private theorem lookup_known : ∀ kind ∈ milesightVCAConfigKeys,
    milesightVCAConfigKeys.lookup kind.1 = some kind.2 := by decide

private theorem configKey_inj : ∀ kind ∈ milesightVCAConfigKeys, ∀ other ∈ milesightVCAConfigKeys,
    kind.2 = other.2 → kind = other := by decide

/-! ## What a body says -/

/-- The fields of a rule's region and their values, in the order of the params. -/
def sentFields (ruleType : String) (rule : VCARuleCompact F) : List (Field × Text) :=
  [(.enable, text "1"), (.name, plusForSpace rule.name.toList), (.sensitivity, decimal rule.sensitivity.toInt),
    (.pointnum, decimal rule.region.length)] ++
  ((rule.region.zipIdx 1).flatMap fun (pt, ptIdx) =>
    [(.pointX ptIdx, decimal (int (scaled pt.x))), (.pointY ptIdx, decimal (int (scaled pt.y)))]) ++
  (if ruleType = "linecross" then
    match dirMap.lookup rule.direction with
    | some v => [(.direction, v)]
    | none => []
  else []) ++
  (if ruleType = "loitering" ∧ 0 < rule.thresholdSec then [(.duration, decimal rule.thresholdSec.toInt)] else [])

def writes (configKey : Text) (ruleType : String) (rules : List (VCARuleCompact F)) : List (Text × Text) :=
  (enableKey configKey, text "1") :: ((rules.zipIdx 1).filter fun placed => placed.1.enabled).flatMap fun placed =>
    (sentFields ruleType placed.1).map fun sent => (fieldKey configKey placed.2 sent.1, sent.2)

private theorem regionParams_eq (configKey : Text) (ruleType : String) (rule : VCARuleCompact F) (regionIdx : Nat) :
    regionParams configKey ruleType rule regionIdx =
      (sentFields ruleType rule).map fun sent => marks.line (fieldKey configKey regionIdx sent.1, sent.2) := by
  have points : ((rule.region.zipIdx 1).flatMap fun (pt, ptIdx) =>
      [configKey ++ text ".region" ++ Nat.toDigits 10 regionIdx ++ text ".point" ++ Nat.toDigits 10 ptIdx ++
          text "x=" ++ decimal (int (scaled pt.x)),
        configKey ++ text ".region" ++ Nat.toDigits 10 regionIdx ++ text ".point" ++ Nat.toDigits 10 ptIdx ++
          text "y=" ++ decimal (int (scaled pt.y))]) =
      ((rule.region.zipIdx 1).flatMap fun (pt, ptIdx) =>
        [(Field.pointX ptIdx, decimal (int (scaled pt.x))), (Field.pointY ptIdx, decimal (int (scaled pt.y)))]).map
          fun sent => marks.line (fieldKey configKey regionIdx sent.1, sent.2) := by
    simp [List.map_flatMap, Marks.line, marks, fieldKey, Field.text, text]
  unfold regionParams sentFields
  rw [List.map_append, List.map_append, List.map_append, ← points]
  refine congrArg₂ (· ++ ·) (congrArg₂ (· ++ ·) (congrArg₂ (· ++ ·) ?fixed rfl) ?direction) ?duration
  case fixed => simp [Marks.line, marks, fieldKey, Field.text, text]
  case direction =>
    split
    · cases dirMap.lookup rule.direction with
      | none => rfl
      | some v => simp [Marks.line, marks, fieldKey, Field.text, text]
    · rfl
  case duration =>
    split
    · simp [Marks.line, marks, fieldKey, Field.text, text]
    · rfl

/-- The body is the join of its writes. -/
theorem body_eq (configKey : Text) (ruleType : String) (rules : List (VCARuleCompact F)) :
    buildMilesightFormBody configKey ruleType rules = marks.join ((writes configKey ruleType rules).map marks.line) := by
  have first : configKey ++ text ".enable=1" = marks.line (enableKey configKey, text "1") := by
    simp [Marks.line, marks, enableKey, text]
  unfold buildMilesightFormBody writes
  rw [List.map_cons, ← first, List.map_flatMap]
  congr 2
  induction rules.zipIdx 1 with
  | nil => rfl
  | cons placed rest ih =>
    rw [List.flatMap_cons, ih]
    cases on : placed.1.enabled with
    | true =>
      rw [List.filter_cons_of_pos (p := fun placed : VCARuleCompact F × Nat => placed.1.enabled) on, List.flatMap_cons]
      simp only [on, if_true, regionParams_eq, List.map_map, Function.comp_def]
    | false =>
      rw [List.filter_cons_of_neg (p := fun placed : VCARuleCompact F × Nat => placed.1.enabled) (by simp [on])]
      simp only [on, Bool.false_eq_true, if_false, List.nil_append]

/-- What a rule sends for a field, if it sends that field. -/
def fieldValue (ruleType : String) (rule : VCARuleCompact F) : Field → Option Text
  | .enable => some (text "1")
  | .name => some (plusForSpace rule.name.toList)
  | .sensitivity => some (decimal rule.sensitivity.toInt)
  | .pointnum => some (decimal rule.region.length)
  | .pointX 0 | .pointY 0 => none
  | .pointX (j + 1) => rule.region[j]?.map fun pt => decimal (int (scaled pt.x))
  | .pointY (j + 1) => rule.region[j]?.map fun pt => decimal (int (scaled pt.y))
  | .direction => if ruleType = "linecross" then dirMap.lookup rule.direction else none
  | .duration => if ruleType = "loitering" ∧ 0 < rule.thresholdSec then some (decimal rule.thresholdSec.toInt) else none

private theorem mem_placed {P : Type} {region : List P} {pt : P} {ptIdx : Nat} :
    (pt, ptIdx) ∈ region.zipIdx 1 ↔ ∃ j, ptIdx = j + 1 ∧ region[j]? = some pt := by
  rw [List.mk_mem_zipIdx_iff_le_and_getElem?_sub]
  constructor
  · rintro ⟨least, held⟩
    exact ⟨ptIdx - 1, by omega, held⟩
  · rintro ⟨j, rfl, held⟩
    exact ⟨by omega, held⟩

theorem mem_sentFields {ruleType : String} {rule : VCARuleCompact F} {field : Field} {value : Text} :
    (field, value) ∈ sentFields ruleType rule ↔ fieldValue ruleType rule field = some value := by
  have placed : (∃ pt ptIdx, (pt, ptIdx) ∈ rule.region.zipIdx 1 ∧
      ((field, value) = (.pointX ptIdx, decimal (int (scaled pt.x))) ∨
        (field, value) = (.pointY ptIdx, decimal (int (scaled pt.y))))) ↔
      (field, value) ∈ (rule.region.zipIdx 1).flatMap fun (pt, ptIdx) =>
        [(Field.pointX ptIdx, decimal (int (scaled pt.x))), (Field.pointY ptIdx, decimal (int (scaled pt.y)))] := by
    simp [List.mem_flatMap]
  have direction : (field, value) ∈ (if ruleType = "linecross" then
      match dirMap.lookup rule.direction with
      | some v => [(Field.direction, v)]
      | none => []
    else []) ↔ field = .direction ∧ ruleType = "linecross" ∧ dirMap.lookup rule.direction = some value := by
    split
    · cases dirMap.lookup rule.direction <;> simp_all [eq_comm]
    · simp_all
  unfold sentFields
  rw [List.mem_append, List.mem_append, List.mem_append, ← placed, direction]
  cases field with
  | pointX ptIdx => cases ptIdx <;> simp [fieldValue, mem_placed, eq_comm]
  | pointY ptIdx => cases ptIdx <;> simp [fieldValue, mem_placed, eq_comm]
  | _ => simp [fieldValue, eq_comm]

theorem mem_writes {configKey : Text} {ruleType : String} {rules : List (VCARuleCompact F)} {write : Text × Text} :
    write ∈ writes configKey ruleType rules ↔ write = (enableKey configKey, text "1") ∨
      ∃ placed ∈ (rules.zipIdx 1).filter fun placed => placed.1.enabled, ∃ field value,
        fieldValue ruleType placed.1 field = some value ∧ write = (fieldKey configKey placed.2 field, value) := by
  unfold writes
  rw [List.mem_cons, List.mem_flatMap]
  apply or_congr_right
  apply exists_congr
  intro placed
  apply and_congr_right
  intro _
  rw [List.mem_map]
  constructor
  · rintro ⟨⟨field, value⟩, sent, rfl⟩
    exact ⟨field, value, mem_sentFields.mp sent, rfl⟩
  · rintro ⟨field, value, sent, rfl⟩
    exact ⟨(field, value), mem_sentFields.mpr sent, rfl⟩

/-! ## Names that survive the body -/

theorem notMem_decimal {char : Char} (digit : char.isDigit = false) (minus : char ≠ '-') (n : Int) :
    char ∉ decimal n := by
  cases n with
  | ofNat n => exact notMem_digits digit n
  | negSucc n =>
    intro member
    rcases List.mem_cons.mp member with same | member
    · exact minus same
    · exact notMem_digits digit _ member

private theorem mark_notMem_fieldText {char : Char} (mark : char = '&' ∨ char = '=') (field : Field) :
    char ∉ field.text := by
  have digits (n : Nat) : char ∉ Nat.toDigits 10 n := by
    apply notMem_digits
    rcases mark with rfl | rfl <;> decide
  cases field <;> rcases mark with rfl | rfl <;> simp [Field.text, VcaPush.text, digits]

private theorem mark_notMem_fieldKey {char : Char} (mark : char = '&' ∨ char = '=') {kind : String × Text}
    (known : kind ∈ milesightVCAConfigKeys) (regionIdx : Nat) (field : Field) :
    char ∉ fieldKey kind.2 regionIdx field := by
  have inKey : char ∉ kind.2 := by
    obtain ⟨_, between, equals⟩ := configKey_plain kind known
    rcases mark with rfl | rfl
    · exact between
    · exact equals
  have inDigits : char ∉ Nat.toDigits 10 regionIdx := by
    apply notMem_digits
    rcases mark with rfl | rfl <;> decide
  have inText := mark_notMem_fieldText mark field
  rcases mark with rfl | rfl <;> simp [fieldKey, text, inKey, inDigits, inText]

private theorem mark_notMem_enableKey {char : Char} (mark : char = '&' ∨ char = '=') {kind : String × Text}
    (known : kind ∈ milesightVCAConfigKeys) : char ∉ enableKey kind.2 := by
  obtain ⟨_, between, equals⟩ := configKey_plain kind known
  rcases mark with rfl | rfl <;> simp [enableKey, text, between, equals]

/-- Only a name can bring a mark into the body. -/
private theorem ampersand_notMem_fieldValue {ruleType : String} {rule : VCARuleCompact F} {field : Field} {value : Text}
    (clean : '&' ∉ rule.name.toList) (sent : fieldValue ruleType rule field = some value) : '&' ∉ value := by
  have number (n : Int) : '&' ∉ decimal n := notMem_decimal (by decide) (by decide) n
  have coded : ∀ entry ∈ dirMap, '&' ∉ entry.2 := by decide
  cases field with
  | enable => cases sent; decide
  | name =>
    cases sent
    intro member
    obtain ⟨char, held, same⟩ := List.mem_map.mp member
    split at same
    · exact absurd same (by decide)
    · exact clean (same ▸ held)
  | sensitivity | pointnum => cases sent; exact number _
  | pointX ptIdx =>
    cases ptIdx with
    | zero => cases sent
    | succ j =>
      obtain ⟨pt, _, rfl⟩ := Option.map_eq_some_iff.mp sent
      exact number _
  | pointY ptIdx =>
    cases ptIdx with
    | zero => cases sent
    | succ j =>
      obtain ⟨pt, _, rfl⟩ := Option.map_eq_some_iff.mp sent
      exact number _
  | direction =>
    dsimp only [fieldValue] at sent
    split at sent
    · exact coded _ (mem_of_lookup sent)
    · cases sent
  | duration =>
    dsimp only [fieldValue] at sent
    split at sent
    · cases sent; exact number _
    · cases sent

/-- With clean names the camera reads a body as it was meant. -/
private theorem assignments_body {kind : String × Text} {rules : List (VCARuleCompact F)}
    (known : kind ∈ milesightVCAConfigKeys) (clean : ∀ placed ∈ enabledRules kind.1 rules, '&' ∉ placed.1.name.toList) :
    marks.assignments (buildMilesightFormBody kind.2 kind.1 (ofType kind.1 rules)) =
      writes kind.2 kind.1 (ofType kind.1 rules) := by
  rw [body_eq]
  apply assignments_join
  · exact List.cons_ne_nil _ _
  · intro write member
    rcases mem_writes.mp member with rfl | ⟨placed, _, field, value, _, rfl⟩
    · exact mark_notMem_enableKey (.inr rfl) known
    · exact mark_notMem_fieldKey (.inr rfl) known placed.2 field
  · intro write member
    have equals : marks.between ≠ marks.equals := by decide
    rcases mem_writes.mp member with rfl | ⟨placed, enabled, field, value, sent, rfl⟩
    · have key : marks.between ∉ enableKey kind.2 := mark_notMem_enableKey (.inl rfl) known
      simp [Marks.line, key, equals]
      decide
    · have key : marks.between ∉ fieldKey kind.2 placed.2 field := mark_notMem_fieldKey (.inl rfl) known placed.2 field
      have shown : marks.between ∉ value := ampersand_notMem_fieldValue (clean placed enabled) sent
      simp [Marks.line, key, equals, shown]

private theorem assignments_disableBody {kind : String × Text} (known : kind ∈ milesightVCAConfigKeys) :
    marks.assignments (disableBody kind.2) = [(enableKey kind.2, text "0")] := by
  have body : disableBody kind.2 = marks.join ([(enableKey kind.2, text "0")].map marks.line) := by
    simp [disableBody, Marks.join, Marks.line, marks, enableKey, text]
  rw [body]
  apply assignments_join
  · exact List.cons_ne_nil _ _
  · intro write member
    cases List.mem_singleton.mp member
    exact mark_notMem_enableKey (.inr rfl) known
  · intro write member
    cases List.mem_singleton.mp member
    have key : marks.between ∉ enableKey kind.2 := mark_notMem_enableKey (.inl rfl) known
    have equals : marks.between ≠ marks.equals := by decide
    simp [Marks.line, key, equals]
    decide

/-! ## What a push writes -/

/-- The assignments of the bodies of a push that reports no error, in its order. -/
def pushedTypes (rules : List (VCARuleCompact F)) (types : List String) : List (Text × Text) :=
  types.flatMap fun ruleType =>
    match milesightVCAConfigKeys.lookup ruleType with
    | none => []
    | some configKey => marks.assignments (buildMilesightFormBody configKey ruleType (ofType ruleType rules))

def disabledTypes (answers : Text → Answer) (byType kinds : List String) : List (Text × Text) :=
  kinds.flatMap fun ruleType =>
    match milesightVCAConfigKeys.lookup ruleType with
    | none => []
    | some configKey =>
      if ruleType ∉ byType ∧ (answers (disableBody configKey)).taken = true then
        marks.assignments (disableBody configKey)
      else []

private theorem pushTypes_config {answers : Text → Answer} {rules : List (VCARuleCompact F)} {types : List String}
    {config : Config} (pushed : (pushTypes answers rules types config).1 = none) :
    (pushTypes answers rules types config).2 = assign config (pushedTypes rules types) := by
  induction types generalizing config with
  | nil => rfl
  | cons ruleType types ih =>
    unfold pushTypes at pushed ⊢
    unfold pushedTypes
    rw [List.flatMap_cons, assign_append]
    cases known : milesightVCAConfigKeys.lookup ruleType with
    | none =>
      simp only [known] at pushed ⊢
      exact ih pushed
    | some configKey =>
      simp only [known] at pushed ⊢
      cases answered : answers (buildMilesightFormBody configKey ruleType (ofType ruleType rules)) with
      | ok =>
        simp only [answered] at pushed ⊢
        exact ih pushed
      | failed err taken =>
        simp only [answered] at pushed
        cases pushed

private theorem disableTypes_config (answers : Text → Answer) (byType kinds : List String) (config : Config) :
    disableTypes answers byType kinds config = assign config (disabledTypes answers byType kinds) := by
  induction kinds generalizing config with
  | nil => rfl
  | cons ruleType kinds ih =>
    unfold disableTypes disabledTypes
    rw [List.flatMap_cons, assign_append]
    cases known : milesightVCAConfigKeys.lookup ruleType with
    | none => exact ih config
    | some configKey =>
      dsimp only
      by_cases held : ruleType ∈ byType
      · rw [if_pos held, if_neg (fun both => both.1 held)]
        exact ih config
      · rw [if_neg held, ih, post]
        cases (answers (disableBody configKey)).taken with
        | true =>
          rw [if_pos rfl, if_pos ⟨held, rfl⟩]
          rfl
        | false =>
          rw [if_neg Bool.false_ne_true, if_neg (fun both => Bool.false_ne_true both.2)]
          rfl

/-- All that the camera is told in a push that reports no error. -/
def sentWrites (answers : Text → Answer) (order : MapOrder) (rules : List (VCARuleCompact F)) : List (Text × Text) :=
  let byType := (rules.map VCARuleCompact.ruleType).dedup
  pushedTypes rules (order.arrange byType) ++
    disabledTypes answers byType (order.arrange (milesightVCAConfigKeys.map Prod.fst))

variable {reads : Text → Text} {answers : Text → Answer} {order : MapOrder} {rules : List (VCARuleCompact F)}
  {before : Config}

private theorem push_config (pushed : (pushVCARules answers order rules before).1 = none) :
    (pushVCARules answers order rules before).2 = assign before (sentWrites answers order rules) := by
  unfold pushVCARules at pushed ⊢
  unfold sentWrites
  dsimp only at pushed ⊢
  split at pushed
  · cases pushed
  · rename_i config ran
    have types := pushTypes_config (congrArg Prod.fst ran)
    rw [ran] at types
    dsimp only at types ⊢
    rw [disableTypes_config, assign_append, ← types]

private theorem mem_sentWrites {write : Text × Text} :
    write ∈ sentWrites answers order rules ↔ ∃ kind ∈ milesightVCAConfigKeys,
      (kind.1 ∈ rules.map VCARuleCompact.ruleType ∧
        write ∈ marks.assignments (buildMilesightFormBody kind.2 kind.1 (ofType kind.1 rules))) ∨
      (kind.1 ∉ rules.map VCARuleCompact.ruleType ∧ (answers (disableBody kind.2)).taken = true ∧
        write ∈ marks.assignments (disableBody kind.2)) := by
  have types (ruleType : String) : ruleType ∈ order.arrange (rules.map VCARuleCompact.ruleType).dedup ↔
      ruleType ∈ rules.map VCARuleCompact.ruleType := (order.perm _).mem_iff.trans List.mem_dedup
  have kinds (ruleType : String) : ruleType ∈ order.arrange (milesightVCAConfigKeys.map Prod.fst) ↔
      ruleType ∈ milesightVCAConfigKeys.map Prod.fst := (order.perm _).mem_iff
  unfold sentWrites pushedTypes disabledTypes
  rw [List.mem_append, List.mem_flatMap, List.mem_flatMap]
  constructor
  · rintro (⟨ruleType, member, told⟩ | ⟨ruleType, member, told⟩)
    · cases known : milesightVCAConfigKeys.lookup ruleType with
      | none => simp [known] at told
      | some configKey =>
        rw [known] at told
        exact ⟨(ruleType, configKey), mem_of_lookup known, .inl ⟨(types ruleType).mp member, told⟩⟩
    · cases known : milesightVCAConfigKeys.lookup ruleType with
      | none => simp [known] at told
      | some configKey =>
        rw [known] at told
        dsimp only at told
        split at told
        · rename_i both
          exact ⟨(ruleType, configKey), mem_of_lookup known,
            .inr ⟨fun held => both.1 (List.mem_dedup.mpr held), both.2, told⟩⟩
        · cases told
  · rintro ⟨kind, known, ⟨member, told⟩ | ⟨absent, taken, told⟩⟩
    · refine .inl ⟨kind.1, (types kind.1).mpr member, ?_⟩
      rw [lookup_known kind known]
      exact told
    · refine .inr ⟨kind.1, (kinds kind.1).mpr (List.mem_map_of_mem known), ?_⟩
      rw [lookup_known kind known]
      dsimp only
      rw [if_pos ⟨fun held => absent (List.mem_dedup.mp held), taken⟩]
      exact told

/-- Whatever the names hold, what the camera stores for one has lost its marks. -/
private theorem ampersand_notMem_stored {kind : String × Text} {placed : VCARuleCompact F × Nat}
    (known : kind ∈ milesightVCAConfigKeys) (enabled : placed ∈ enabledRules kind.1 rules)
    (member : kind.1 ∈ rules.map VCARuleCompact.ruleType) {stored : Text}
    (held : assign before (sentWrites answers order rules) (fieldKey kind.2 placed.2 .name) = some stored) :
    '&' ∉ stored := by
  have line : (fieldKey kind.2 placed.2 .name, plusForSpace placed.1.name.toList) ∈
      writes kind.2 kind.1 (ofType kind.1 rules) :=
    mem_writes.mpr (.inr ⟨placed, enabled, .name, _, rfl, rfl⟩)
  obtain ⟨read, told, key⟩ := key_written marks line (mark_notMem_fieldKey (.inr rfl) known placed.2 .name)
    (mark_notMem_fieldKey (.inl rfl) known placed.2 .name) (by decide)
  rw [← body_eq] at told
  obtain ⟨value, kept, written⟩ := assign_of_written before
    ⟨read, mem_sentWrites.mpr ⟨kind, known, .inl ⟨member, told⟩⟩, key⟩
  cases held.symm.trans kept
  obtain ⟨_, _, ⟨_, told⟩ | ⟨_, _, told⟩⟩ := mem_sentWrites.mp written
  · exact between_notMem_value marks told
  · exact between_notMem_value marks told

/-! ## The camera after a push -/

omit [GridScale F] in
private theorem mem_of_enabled {kind : String} {placed : VCARuleCompact F × Nat}
    (enabled : placed ∈ enabledRules kind rules) : placed.1 ∈ rules ∧ placed.1.ruleType = kind := by
  have member := List.fst_mem_of_mem_zipIdx (List.mem_filter.mp enabled).1
  obtain ⟨held, type⟩ := List.mem_filter.mp member
  exact ⟨held, of_decide_eq_true type⟩

omit [GridScale F] in
private theorem ofType_ne_nil {kind : String} {placed : VCARuleCompact F × Nat}
    (enabled : placed ∈ enabledRules kind rules) : kind ∈ rules.map VCARuleCompact.ruleType := by
  obtain ⟨held, rfl⟩ := mem_of_enabled enabled
  exact List.mem_map_of_mem held

omit [GridScale F] in
private theorem placed_unique {kind : String} {first second : VCARuleCompact F × Nat}
    (left : first ∈ enabledRules kind rules) (right : second ∈ enabledRules kind rules) (same : first.2 = second.2) :
    first = second := by
  have one := (List.mem_zipIdx_iff_le_and_getElem?_sub.mp (List.mem_filter.mp left).1).2
  have two := (List.mem_zipIdx_iff_le_and_getElem?_sub.mp (List.mem_filter.mp right).1).2
  rw [← same, one] at two
  exact Prod.ext (Option.some.inj two) same

/-- No enabled rule's name brings a mark into a body. -/
def CleanNames (rules : List (VCARuleCompact F)) : Prop :=
  ∀ kind ∈ milesightVCAConfigKeys, ∀ placed ∈ enabledRules kind.1 rules, '&' ∉ placed.1.name.toList

instance (rules : List (VCARuleCompact F)) : Decidable (CleanNames rules) :=
  inferInstanceAs (Decidable (∀ kind ∈ milesightVCAConfigKeys, _))

/-- What the camera is told when the names are clean. -/
private theorem mem_sentWrites_clean (clean : CleanNames rules) {write : Text × Text} :
    write ∈ sentWrites answers order rules ↔ ∃ kind ∈ milesightVCAConfigKeys,
      (kind.1 ∈ rules.map VCARuleCompact.ruleType ∧ (write = (enableKey kind.2, text "1") ∨
        ∃ placed ∈ enabledRules kind.1 rules, ∃ field value, fieldValue kind.1 placed.1 field = some value ∧
          write = (fieldKey kind.2 placed.2 field, value))) ∨
      (kind.1 ∉ rules.map VCARuleCompact.ruleType ∧ (answers (disableBody kind.2)).taken = true ∧
        write = (enableKey kind.2, text "0")) := by
  rw [mem_sentWrites]
  apply exists_congr
  intro kind
  apply and_congr_right
  intro known
  rw [assignments_body known (clean kind known), mem_writes, assignments_disableBody known, List.mem_singleton]
  rfl

private theorem plain {kind : String × Text} (known : kind ∈ milesightVCAConfigKeys) : '.' ∉ kind.2 :=
  (configKey_plain kind known).1

/-- A field that is sent holds what was sent. -/
theorem sent_field (clean : CleanNames rules) {kind : String × Text} (known : kind ∈ milesightVCAConfigKeys)
    {placed : VCARuleCompact F × Nat} (enabled : placed ∈ enabledRules kind.1 rules) {field : Field} {value : Text}
    (sent : fieldValue kind.1 placed.1 field = some value) :
    assign before (sentWrites answers order rules) (fieldKey kind.2 placed.2 field) = some value := by
  apply assign_eq
  · exact (mem_sentWrites_clean clean).mpr
      ⟨kind, known, .inl ⟨ofType_ne_nil enabled, .inr ⟨placed, enabled, field, value, sent, rfl⟩⟩⟩
  · intro other written
    obtain ⟨second, known', ⟨_, same | ⟨found, enabled', field', value', sent', same⟩⟩ | ⟨_, _, same⟩⟩ :=
      (mem_sentWrites_clean clean).mp written
    · exact (enableKey_ne_fieldKey (plain known') (plain known) (Prod.mk.inj same).1.symm).elim
    · obtain ⟨key, rfl⟩ := Prod.mk.inj same
      obtain ⟨keys, regions, rfl⟩ := fieldKey_inj (plain known) (plain known') key
      cases configKey_inj kind known second known' keys
      cases placed_unique enabled enabled' regions
      exact Option.some.inj (sent'.symm.trans sent)
    · exact (enableKey_ne_fieldKey (plain known') (plain known) (Prod.mk.inj same).1.symm).elim

/-- A field of a region that no enabled rule has keeps its value. -/
private theorem unsent_field (clean : CleanNames rules) {kind : String × Text}
    (known : kind ∈ milesightVCAConfigKeys) {regionIdx : Nat}
    (free : ∀ rule, (rule, regionIdx) ∉ enabledRules kind.1 rules) (field : Field) :
    assign before (sentWrites answers order rules) (fieldKey kind.2 regionIdx field) =
      before (fieldKey kind.2 regionIdx field) := by
  apply assign_of_not_written
  intro write written key
  obtain ⟨second, known', ⟨_, rfl | ⟨found, enabled', field', value', _, rfl⟩⟩ | ⟨_, _, rfl⟩⟩ :=
    (mem_sentWrites_clean clean).mp written
  · exact enableKey_ne_fieldKey (plain known') (plain known) key
  · obtain ⟨keys, regions, _⟩ := fieldKey_inj (plain known') (plain known) key
    cases configKey_inj second known' kind known keys
    exact free found.1 (regions ▸ enabled')
  · exact enableKey_ne_fieldKey (plain known') (plain known) key

/-- What is sent for the switch of a type: one value for a type with rules, another
for one without. -/
private theorem enable_written (clean : CleanNames rules) {kind : String × Text} (known : kind ∈ milesightVCAConfigKeys)
    {value : Text} (written : (enableKey kind.2, value) ∈ sentWrites answers order rules) :
    (kind.1 ∈ rules.map VCARuleCompact.ruleType ∧ value = text "1") ∨
      (kind.1 ∉ rules.map VCARuleCompact.ruleType ∧ (answers (disableBody kind.2)).taken = true ∧ value = text "0") := by
  obtain ⟨second, known', ⟨member, same | ⟨found, enabled', field', value', _, same⟩⟩ | ⟨absent, taken, same⟩⟩ :=
    (mem_sentWrites_clean clean).mp written
  · obtain ⟨key, rfl⟩ := Prod.mk.inj same
    cases configKey_inj kind known second known' (enableKey_inj key)
    exact .inl ⟨member, rfl⟩
  · exact (enableKey_ne_fieldKey (plain known) (plain known') (Prod.mk.inj same).1).elim
  · obtain ⟨key, rfl⟩ := Prod.mk.inj same
    cases configKey_inj kind known second known' (enableKey_inj key)
    exact .inr ⟨absent, taken, rfl⟩

/-- The switch of a type: on with rules, off when the camera took its disable. -/
private theorem sent_enable (clean : CleanNames rules) {kind : String × Text} (known : kind ∈ milesightVCAConfigKeys) :
    assign before (sentWrites answers order rules) (enableKey kind.2) =
      if kind.1 ∈ rules.map VCARuleCompact.ruleType then some (text "1")
      else if (answers (disableBody kind.2)).taken then some (text "0")
      else before (enableKey kind.2) := by
  split
  · rename_i member
    apply assign_eq
    · exact (mem_sentWrites_clean clean).mpr ⟨kind, known, .inl ⟨member, .inl rfl⟩⟩
    · intro other written
      rcases enable_written clean known written with ⟨_, same⟩ | ⟨absent, _⟩
      · exact same
      · exact (absent member).elim
  · rename_i absent
    split
    · rename_i taken
      apply assign_eq
      · exact (mem_sentWrites_clean clean).mpr ⟨kind, known, .inr ⟨absent, taken, rfl⟩⟩
      · intro other written
        rcases enable_written clean known written with ⟨member, _⟩ | ⟨_, _, same⟩
        · exact (absent member).elim
        · exact same
    · rename_i lost
      apply assign_of_not_written
      intro write written key
      have named : (enableKey kind.2, write.2) ∈ sentWrites answers order rules := key ▸ written
      rcases enable_written clean known named with ⟨member, _⟩ | ⟨_, taken, _⟩
      · exact absent member
      · exact lost taken

/-- A key that is not the rule set's keeps its value. -/
private theorem unsent_key (clean : CleanNames rules) {key : Text} (free : ¬ Concerns rules key) :
    assign before (sentWrites answers order rules) key = before key := by
  apply assign_of_not_written
  intro write written same
  apply free
  obtain ⟨kind, known, ⟨_, rfl | ⟨placed, enabled, field, value, _, rfl⟩⟩ | ⟨_, _, rfl⟩⟩ :=
    (mem_sentWrites_clean clean).mp written
  · exact ⟨kind, known, .inl same.symm⟩
  · exact ⟨kind, known, .inr ⟨placed, enabled, field, same.symm⟩⟩
  · exact ⟨kind, known, .inl same.symm⟩

end Push

/-! ## Exactly when a push installs the rules -/

section Installing
variable {reads : Text → Text} {answers : Text → Answer} {order : MapOrder} {rules : List (VCARuleCompact ℚ)}
  {before : Config}

/-- Towards zero is down where nothing is negative or nothing is dropped. -/
theorem int_eq_floor (value : ℚ) : int value = ⌊value⌋ ↔ 0 ≤ value ∨ ∃ n : ℤ, value = n := by
  have positive : (0 : ℤ) < value.den := Int.natCast_pos.mpr value.den_pos
  have whole : (value.den : ℤ) ∣ value.num ↔ ∃ n : ℤ, value = n := by
    constructor
    · rintro ⟨n, split⟩
      refine ⟨n, ?_⟩
      rw [← Rat.num_div_den value, split]
      push_cast
      rw [mul_div_cancel_left₀]
      exact_mod_cast value.den_ne_zero
    · rintro ⟨n, rfl⟩
      exact one_dvd _
  rw [int, ← whole, ← Rat.num_nonneg, Rat.floor_def', Int.tdiv_eq_ediv, Int.sign_eq_one_of_pos positive]
  split
  · rename_i exactly
    simp only [exactly, Int.add_zero]
  · rename_i rounded
    simp only [rounded, iff_false]
    omega

private theorem int_eq_floor_iff (value : ℚ) : int (scaled value) = ⌊10000 * value⌋ ↔ OnGrid value := by
  have sign : 0 ≤ 10000 * value ↔ 0 ≤ value := mul_nonneg_iff_of_pos_left (by norm_num)
  have exactly : scaled value = 10000 * value := mul_comm value 10000
  rw [exactly, int_eq_floor, sign, OnGrid]

private theorem decimal_int_iff (value : ℚ) :
    decimal (int (scaled value)) = decimal ⌊10000 * value⌋ ↔ OnGrid value := by
  rw [← int_eq_floor_iff]
  exact ⟨decimal_inj, congrArg decimal⟩

/-- A region shows its rule when its name reads back and its points are on the grid. -/
private theorem shows_iff (clean : CleanNames rules) {kind : String × Text} (known : kind ∈ milesightVCAConfigKeys)
    {placed : VCARuleCompact ℚ × Nat} (enabled : placed ∈ enabledRules kind.1 rules) :
    Shows reads (assign before (sentWrites answers order rules)) kind.2 placed.2 placed.1 ↔
      reads (plusForSpace placed.1.name.toList) = placed.1.name.toList ∧
        ∀ pt ∈ placed.1.region, OnGrid pt.x ∧ OnGrid pt.y := by
  have sent {field : Field} {value : Text} (told : fieldValue kind.1 placed.1 field = some value) :
      assign before (sentWrites answers order rules) (fieldKey kind.2 placed.2 field) = some value :=
    sent_field clean known enabled told
  have pointX {pt : Point ℚ} {ptIdx : Nat} (member : (pt, ptIdx) ∈ placed.1.region.zipIdx 1) :
      fieldValue kind.1 placed.1 (.pointX ptIdx) = some (decimal (int (scaled pt.x))) := by
    obtain ⟨j, rfl, held⟩ := mem_placed.mp member
    simp only [fieldValue, held, Option.map_some]
  have pointY {pt : Point ℚ} {ptIdx : Nat} (member : (pt, ptIdx) ∈ placed.1.region.zipIdx 1) :
      fieldValue kind.1 placed.1 (.pointY ptIdx) = some (decimal (int (scaled pt.y))) := by
    obtain ⟨j, rfl, held⟩ := mem_placed.mp member
    simp only [fieldValue, held, Option.map_some]
  constructor
  · intro shows
    refine ⟨?_, ?_⟩
    · obtain ⟨stored, held, read⟩ := shows.name
      have name : fieldValue kind.1 placed.1 .name = some (plusForSpace placed.1.name.toList) := rfl
      cases (sent name).symm.trans held
      exact read
    · intro pt member
      obtain ⟨j, inside, rfl⟩ := List.mem_iff_getElem.mp member
      have placedAt : (placed.1.region[j], j + 1) ∈ placed.1.region.zipIdx 1 :=
        mem_placed.mpr ⟨j, rfl, List.getElem?_eq_getElem inside⟩
      obtain ⟨x, y⟩ := shows.points _ placedAt
      rw [sent (pointX placedAt)] at x
      rw [sent (pointY placedAt)] at y
      exact ⟨(decimal_int_iff _).mp (Option.some.inj x), (decimal_int_iff _).mp (Option.some.inj y)⟩
  · rintro ⟨name, grid⟩
    refine ⟨⟨_, sent rfl, name⟩, sent rfl, sent rfl, ?_⟩
    intro point member
    obtain ⟨x, y⟩ := grid _ (List.fst_mem_of_mem_zipIdx member)
    rw [sent (pointX member), sent (pointY member), (decimal_int_iff _).mpr x, (decimal_int_iff _).mpr y]
    exact ⟨rfl, rfl⟩

private theorem enabledRules_nil {kind : String} (absent : kind ∉ rules.map VCARuleCompact.ruleType)
    (rule : VCARuleCompact ℚ) (regionIdx : Nat) : (rule, regionIdx) ∉ enabledRules kind rules :=
  fun enabled => absent (ofType_ne_nil enabled)

/-- The regions of one type: what the push enabled, beside what was enabled before. -/
private theorem enabledRegion_iff (clean : CleanNames rules) {kind : String × Text}
    (known : kind ∈ milesightVCAConfigKeys) (regionIdx : Nat) :
    EnabledRegion (assign before (sentWrites answers order rules)) kind.2 regionIdx ↔
      (∃ rule, (rule, regionIdx) ∈ enabledRules kind.1 rules) ∨
      (kind.1 ∈ rules.map VCARuleCompact.ruleType ∧ before (fieldKey kind.2 regionIdx .enable) = some (text "1")) ∨
      (kind.1 ∉ rules.map VCARuleCompact.ruleType ∧ (answers (disableBody kind.2)).taken = false ∧
        EnabledRegion before kind.2 regionIdx) := by
  unfold EnabledRegion
  rw [sent_enable clean known]
  by_cases placed : ∃ rule, (rule, regionIdx) ∈ enabledRules kind.1 rules
  · obtain ⟨rule, enabled⟩ := placed
    have on : fieldValue kind.1 rule .enable = some (text "1") := rfl
    rw [if_pos (ofType_ne_nil enabled), sent_field clean known enabled on]
    exact iff_of_true ⟨rfl, rfl⟩ (.inl ⟨rule, enabled⟩)
  · rw [unsent_field clean known (not_exists.mp placed)]
    have different : (some (text "0") : Option Text) ≠ some (text "1") := by decide
    by_cases member : kind.1 ∈ rules.map VCARuleCompact.ruleType
    · rw [if_pos member]
      simp only [placed, member, not_true, false_and, true_and, or_false, false_or]
    · rw [if_neg member]
      cases (answers (disableBody kind.2)).taken with
      | true => simp only [if_true, different, placed, member, false_and, Bool.true_eq_false, and_false, or_false]
      | false =>
        simp only [Bool.false_eq_true, if_false, placed, member, not_false_eq_true, false_and, true_and, false_or]

/-- What is installed by the writes of a push could be installed. -/
private theorem installable_of_installed (unescaped : ∀ value, '&' ∈ reads value → '&' ∈ value)
    (installed : Installed reads rules before (assign before (sentWrites answers order rules))) :
    Installable reads answers rules before := by
  have clean : CleanNames rules := by
    intro kind known placed enabled
    obtain ⟨stored, held, read⟩ := (installed.shown kind known placed enabled).name
    rw [← read]
    exact fun member => ampersand_notMem_stored known enabled (ofType_ne_nil enabled) held (unescaped stored member)
  have shown (kind) (known : kind ∈ milesightVCAConfigKeys) (placed) (enabled : placed ∈ enabledRules kind.1 rules) :=
    (shows_iff clean known enabled).mp (installed.shown kind known placed enabled)
  refine ⟨?names, ?grid, ?fresh, ?disabled⟩
  case names =>
    intro kind known placed enabled
    exact ⟨clean kind known placed enabled, (shown kind known placed enabled).1⟩
  case grid => exact fun kind known placed enabled => (shown kind known placed enabled).2
  case fresh =>
    intro kind known member regionIdx stale
    apply (installed.regions kind known regionIdx).mp
    exact (enabledRegion_iff clean known regionIdx).mpr (.inr (.inl ⟨member, stale⟩))
  case disabled =>
    intro kind known absent
    cases taken : (answers (disableBody kind.2)).taken with
    | true => exact .inl rfl
    | false =>
      refine .inr fun regionIdx stale => ?_
      obtain ⟨rule, member⟩ := (installed.regions kind known regionIdx).mp
        ((enabledRegion_iff clean known regionIdx).mpr (.inr (.inr ⟨absent, taken, stale⟩)))
      exact enabledRules_nil absent rule regionIdx member

private theorem installed_of_installable (installable : Installable reads answers rules before) :
    Installed reads rules before (assign before (sentWrites answers order rules)) := by
  have clean : CleanNames rules := fun kind known placed enabled => (installable.names kind known placed enabled).1
  refine ⟨?regions, ?shown, fun key => unsent_key clean⟩
  case regions =>
    intro kind known regionIdx
    rw [enabledRegion_iff clean known]
    constructor
    · rintro (placed | ⟨member, stale⟩ | ⟨absent, lost, stale⟩)
      · exact placed
      · exact installable.fresh kind known member regionIdx stale
      · rcases installable.disabled kind known absent with taken | none
        · rw [lost] at taken
          cases taken
        · exact (none regionIdx stale).elim
    · exact .inl
  case shown =>
    intro kind known placed enabled
    apply (shows_iff clean known enabled).mpr
    exact ⟨(installable.names kind known placed enabled).2, installable.grid kind known placed enabled⟩

/-- A push that reports no error installs exactly its rules if and only if no
enabled name holds an `&` or reads back differently, no coordinate is rounded
up, and the camera held no enabled region that the push leaves on. -/
theorem installed_iff_installable (unescaped : ∀ value, '&' ∈ reads value → '&' ∈ value)
    (pushed : (pushVCARules answers order rules before).1 = none) :
    Installed reads rules before (pushVCARules answers order rules before).2 ↔
      Installable reads answers rules before := by
  rw [push_config pushed]
  exact ⟨installable_of_installed unescaped, installed_of_installable⟩

end Installing

/-! Two rules for a camera that reads `+` as a space. -/

private def plusAsSpace (stored : Text) : Text := stored.map fun char => if char = '+' then ' ' else char

private theorem plusAsSpace_unescaped (value : Text) (member : '&' ∈ plusAsSpace value) : '&' ∈ value := by
  obtain ⟨char, held, same⟩ := List.mem_map.mp member
  split at same
  · exact absurd same (by decide)
  · exact same ▸ held

/-- The keys as they are listed. -/
def walked : MapOrder := ⟨fun keys => keys, fun _ => .refl _⟩

private def triangle : List (Point ℚ) := [⟨1 / 4, 1 / 4⟩, ⟨3 / 4, 1 / 4⟩, ⟨1 / 2, 3 / 4⟩]

private def dock : VCARuleCompact ℚ := { ruleType := "intrusion", name := "Loading dock", region := triangle }

private def gate : VCARuleCompact ℚ := { ruleType := "intrusion", name := "Gate", region := triangle }

private def pushTo (rules : List (VCARuleCompact ℚ)) (config : Config) : Option String × Config :=
  pushVCARules (fun _ => .ok) walked rules config

private theorem triangle_onGrid : ∀ pt ∈ triangle, OnGrid pt.x ∧ OnGrid pt.y := by
  intro pt member
  have inside : 0 ≤ pt.x ∧ 0 ≤ pt.y := by
    simp only [triangle, List.mem_cons, List.not_mem_nil, or_false] at member
    rcases member with rfl | rfl | rfl <;> norm_num
  exact ⟨.inl inside.1, .inl inside.2⟩

/-- Two rules on a camera without any configuration. -/
theorem installed_on_empty :
    Installed plusAsSpace [dock, gate] (fun _ => none) (pushTo [dock, gate] fun _ => none).2 := by
  apply (installed_iff_installable plusAsSpace_unescaped rfl).mpr
  refine ⟨by decide, ?_, ?_, fun _ _ _ => .inl rfl⟩
  · intro kind known placed enabled
    have region : placed.1.region = triangle := by
      rcases List.mem_pair.mp (mem_of_enabled enabled).1 with same | same <;> rw [same] <;> rfl
    rw [region]
    exact triangle_onGrid
  · intro _ _ _ _ stale
    cases stale

/-- Pushing one rule after two leaves the second region enabled. -/
theorem removed_rule_stays : (pushTo [dock] (pushTo [dock, gate] fun _ => none).2).1 = none ∧
    ¬ Installed plusAsSpace [dock] (pushTo [dock, gate] fun _ => none).2
      (pushTo [dock] (pushTo [dock, gate] fun _ => none).2).2 := by
  refine ⟨rfl, fun installed => ?_⟩
  have known : ("intrusion", text "vca/intrusion") ∈ milesightVCAConfigKeys := List.mem_cons_self
  have gateOn : (pushTo [dock, gate] fun _ => none).2 (fieldKey (text "vca/intrusion") 2 .enable) = some (text "1") := by
    unfold pushTo
    rw [push_config rfl]
    have placed : (gate, 2) ∈ enabledRules "intrusion" [dock, gate] := List.mem_cons_of_mem _ List.mem_cons_self
    exact sent_field (by decide) known placed rfl
  have stays : EnabledRegion (pushTo [dock] (pushTo [dock, gate] fun _ => none).2).2 (text "vca/intrusion") 2 := by
    unfold pushTo at gateOn ⊢
    rw [push_config rfl]
    exact (enabledRegion_iff (by decide) known 2).mpr (.inr (.inl ⟨by decide, gateOn⟩))
  obtain ⟨rule, placed⟩ := (installed.regions _ known 2).mp stays
  have single : ∀ placed ∈ enabledRules "intrusion" [dock], placed.2 = 1 := by decide
  exact absurd (single _ placed) (Nat.succ_ne_self 1)

end Ironsight.VcaPush
