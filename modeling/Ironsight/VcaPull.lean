import Ironsight.AnalyticsProofs
import Ironsight.KeyedMatch
import Ironsight.PpeWorker
import Ironsight.VcaPush

/-! Reading a camera's VCA rules back: the difference between its rules and the
stored ones, matched by type and name, and the overwrite of the stored rules with
the camera's. -/
namespace Ironsight.VcaPull
open Tables Uuid Access Analytics AnalyticsProofs KeyedMatch
open EventReads (MapOrder)

/-- Go's `float64` as the comparison of points uses it. The distance of a number
from itself is zero, or no number at all, and neither is above the tolerance. -/
class Coordinate (F : Type) where
  ofBits : BitVec 64 → F
  sub : F → F → F
  less : F → F → Bool
  tolerance : F
  self_close : ∀ x, less tolerance (sub x x) = false

/-- Coordinates without rounding. -/
instance exactCoordinate : Coordinate ℚ where
  ofBits := PpeWorker.double
  sub x y := x - y
  less x y := x < y
  tolerance := 1 / 50
  self_close x := by simp

/-- The fields of a rule that the comparison reads. -/
structure Visible (F : Type) where
  enabled : Bool
  sensitivity : Int
  thresholdSec : Int
  direction : String
  region : List (F × F)

section Comparison
variable {F : Type} [Coordinate F]

def absDelta (a b : F) : F := if Coordinate.less b a then Coordinate.sub a b else Coordinate.sub b a

/-- Two coordinates are more than the tolerance apart. -/
def apart (a b : F) : Bool := Coordinate.less Coordinate.tolerance (absDelta a b)

def rulesEquivalent (a b : Visible F) : Bool :=
  a.enabled = b.enabled && a.sensitivity = b.sensitivity && a.thresholdSec = b.thresholdSec &&
    a.direction = b.direction && a.region.length = b.region.length &&
    (a.region.zip b.region).all fun (p, q) => !(apart p.1 q.1 || apart p.2 q.2)

theorem apart_self (x : F) : apart x x = false := by
  unfold apart absDelta
  split <;> exact Coordinate.self_close x

theorem rulesEquivalent_self (rule : Visible F) : rulesEquivalent rule rule = true := by
  have points : (rule.region.zip rule.region).all (fun (p, q) => !(apart p.1 q.1 || apart p.2 q.2)) = true := by
    rw [List.all_eq_true]
    intro pair member
    rw [List.zip, List.zipWith_self] at member
    obtain ⟨point, _, rfl⟩ := List.mem_map.mp member
    simp only [apart_self, Bool.or_self, Bool.not_false]
  simp only [rulesEquivalent, decide_true, Bool.true_and, points]

end Comparison

/-- A stored or pulled rule as the comparison sees it. -/
def visible (F : Type) [Coordinate F] (rule : VCARule) : Visible F where
  enabled := rule.enabled
  sensitivity := rule.sensitivity
  thresholdSec := rule.thresholdSec
  direction := rule.direction
  region := rule.region.map fun point => (Coordinate.ofBits point.x, Coordinate.ofBits point.y)

/-! ## The difference -/

structure VCAPullModification where
  before : VCARule
  after : VCARule
  deriving DecidableEq

structure Diff where
  dbOnly : List VCARule
  camOnly : List VCARule
  modified : List VCAPullModification
  deriving DecidableEq

/-- What makes two rules the same one: type and name. -/
def ruleKey (rule : VCARule) : String := rule.ruleType ++ "|" ++ rule.name

/-- `dbByKey`, filled in the order of the stored rules. -/
def dbByKey (inDB : List VCARule) (key : String) : Option VCARule := latest ruleKey inDB key

/-- `diffVCARules`; the stored rules come in the order in which the map is walked. -/
def diffVCARules (F : Type) [Coordinate F] (order : MapOrder) (inDB fromCam : List VCARule) : Diff where
  dbOnly :=
    let seen := fromCam.map ruleKey
    ((order.arrange (inDB.map ruleKey).dedup).filter fun key => key ∉ seen).filterMap (dbByKey inDB)
  camOnly := fromCam.filter fun c => (dbByKey inDB (ruleKey c)).isNone
  modified := fromCam.filterMap fun c =>
    match dbByKey inDB (ruleKey c) with
    | some d => if rulesEquivalent (visible F d) (visible F c) then none else some ⟨d, c⟩
    | none => none

/-- The matches that the difference passes over. -/
def unchanged (F : Type) [Coordinate F] (inDB fromCam : List VCARule) : List VCAPullModification :=
  fromCam.filterMap fun c =>
    match dbByKey inDB (ruleKey c) with
    | some d => if rulesEquivalent (visible F d) (visible F c) then some ⟨d, c⟩ else none
    | none => none

/-! ## The overwrite -/

/-- What the transaction meets outside: the clock, random identifiers, and the
faults of its statements. -/
structure Transaction where
  now : Instant := 0
  ids : Nat → UUID
  beginFault : Option String := none
  deleteFault : Option String := none
  insertFault : Nat → Option String := fun _ => none
  int4Fault : String := ""
  commitFault : Option String := none
  quote : String → String := id

/-- The create that `applyCameraVCAToDB` makes of a pulled rule. -/
def createOf (rule : VCARule) : VCARuleCreate where
  ruleType := rule.ruleType
  name := rule.name
  enabled := rule.enabled
  sensitivity := Int64.ofInt rule.sensitivity
  region := rule.region
  direction := rule.direction
  thresholdSec := Int64.ofInt rule.thresholdSec
  schedule := rule.schedule
  actions := rule.actions

/-- One `insertVCARule` of the transaction. -/
def insertNth (tx : Transaction) (db : Database) (camera : UUID) (n : Nat) (create : VCARuleCreate) :
    Except String Database :=
  match tx.insertFault n with
  | some err => .error err
  | none =>
    if encodes create then
      match insertVCARule db { now := tx.now } (vcaRuleFromCreate (tx.ids n) camera create) with
      | .error refusal => .error refusal.text
      | .ok rules => .ok { db with vcaRules := rules }
    else .error tx.int4Fault

def insertAll (tx : Transaction) (camera : UUID) : Nat → List VCARuleCreate → Database → Except String Database
  | _, [], db => .ok db
  | n, create :: rest, db =>
    match insertNth tx db camera n create with
    | .error err => .error ("ReplaceVCARules create rule " ++ tx.quote create.name ++ ": " ++ err)
    | .ok db => insertAll tx camera (n + 1) rest db

/-- `ReplaceVCARules`. -/
def replaceVCARules (tx : Transaction) (db : Database) (camera : UUID) (creates : List VCARuleCreate) :
    Except String Database :=
  match tx.beginFault with
  | some err => .error ("ReplaceVCARules begin tx: " ++ err)
  | none =>
    match tx.deleteFault with
    | some err => .error ("ReplaceVCARules delete existing: " ++ err)
    | none =>
      let active (rule : VCARule) : Bool := rule.cameraId = camera ∧ rule.deletedAt = none
      match insertAll tx camera 0 creates { db with vcaRules := db.vcaRules.remove active } with
      | .error err => .error err
      | .ok after =>
        match tx.commitFault with
        | some err => .error err
        | none => .ok after

def applyCameraVCAToDB (tx : Transaction) (db : Database) (camera : UUID) (rules : List VCARule) :
    Except String Database :=
  replaceVCARules tx db camera (rules.map createOf)

/-- `ListVCARules`. -/
def listVCARules (db : Database) (camera : UUID) : List VCARule := (activeVCARules db camera).map scanned

/-! ## Pulled rules -/

inductive Kind where
  | intrusion
  | linecross
  | regionentrance
  | loitering
  deriving DecidableEq

def Kind.ruleType : Kind → String
  | .intrusion => "intrusion"
  | .linecross => "linecross"
  | .regionentrance => "regionentrance"
  | .loitering => "loitering"

def Kind.label : Kind → String
  | .intrusion => "Intrusion Region "
  | .linecross => "Line "
  | .regionentrance => "Region Entrance "
  | .loitering => "Loitering Region "

/-- What a pull function reads of one region of the camera, the points in the
form `P`. -/
structure PulledRule (P : Type) where
  kind : Kind
  regionIndex : Int64
  enabled : Bool
  sensitivity : Int64 := 0
  region : List P
  direction : String := ""
  thresholdSec : Int64 := 0

/-- `fmt.Sprintf("… %d", regionIndex+1)`. -/
def PulledRule.name {P : Type} (rule : PulledRule P) : String :=
  rule.kind.label ++ String.ofList (VcaPush.decimal (rule.regionIndex + 1).toInt)

/-- The `database.VCARule` that the pull functions build. -/
def PulledRule.toRule (camera : UUID) (rule : PulledRule Point) : VCARule where
  id := .nil
  cameraId := camera
  ruleType := rule.kind.ruleType
  name := rule.name
  enabled := rule.enabled
  sensitivity := rule.sensitivity.toInt
  region := rule.region
  direction := rule.direction
  thresholdSec := rule.thresholdSec.toInt
  schedule := ""
  actions := some ["record", "notify"]
  synced := true

/-! ## What the difference is for -/

variable {F : Type} [Coordinate F]

/-- Every stored rule and every rule of the camera is met exactly once: on one
side only, in a modification, or unchanged. -/
structure Partitions (F : Type) [Coordinate F] (order : MapOrder) (inDB fromCam : List VCARule) : Prop where
  database : ((diffVCARules F order inDB fromCam).dbOnly ++
    (diffVCARules F order inDB fromCam).modified.map VCAPullModification.before ++
    (unchanged F inDB fromCam).map VCAPullModification.before).Perm inDB
  camera : ((diffVCARules F order inDB fromCam).camOnly ++
    (diffVCARules F order inDB fromCam).modified.map VCAPullModification.after ++
    (unchanged F inDB fromCam).map VCAPullModification.after).Perm fromCam

/-- After the overwrite nothing differs, in whatever order the rows are read. -/
def ResolvedByApply (F : Type) [Coordinate F] (camera : UUID) (fromCam : List VCARule) : Prop :=
  ∀ order tx db after, applyCameraVCAToDB tx db camera fromCam = .ok after →
    ∀ stored, stored.Perm (listVCARules after camera) → diffVCARules F order stored fromCam = ⟨[], [], []⟩

/-! ## The two partitions -/

/-- The pairs that the second loop finds, with those it passes over. -/
private def matches_ (inDB fromCam : List VCARule) : List VCAPullModification :=
  fromCam.filterMap fun c => (dbByKey inDB (ruleKey c)).map fun d => ⟨d, c⟩

private def equivalent (F : Type) [Coordinate F] (pair : VCAPullModification) : Bool :=
  rulesEquivalent (visible F pair.before) (visible F pair.after)

private theorem modified_eq (order : MapOrder) (inDB fromCam : List VCARule) :
    (diffVCARules F order inDB fromCam).modified = (matches_ inDB fromCam).filter fun pair => !equivalent F pair := by
  rw [matches_, List.filter_filterMap]
  apply List.filterMap_congr
  intro c _
  cases dbByKey inDB (ruleKey c) with
  | none => rfl
  | some d =>
    simp only [Option.map_some, Option.filter_some, equivalent, Bool.not_eq_true']
    split <;> simp_all

private theorem unchanged_eq (inDB fromCam : List VCARule) :
    unchanged F inDB fromCam = (matches_ inDB fromCam).filter (equivalent F) := by
  rw [matches_, List.filter_filterMap]
  apply List.filterMap_congr
  intro c _
  cases dbByKey inDB (ruleKey c) with
  | none => rfl
  | some d =>
    simp only [Option.map_some, Option.filter_some, equivalent]
    rfl

private theorem matched_perm {β : Type} (part : VCAPullModification → β) (order : MapOrder)
    (inDB fromCam : List VCARule) :
    ((diffVCARules F order inDB fromCam).modified.map part ++ (unchanged F inDB fromCam).map part).Perm
      ((matches_ inDB fromCam).map part) := by
  rw [modified_eq, unchanged_eq, ← List.map_append]
  apply List.Perm.map
  apply List.perm_append_comm.trans
  exact List.filter_append_perm (equivalent F) _

private theorem matches_before (inDB fromCam : List VCARule) :
    (matches_ inDB fromCam).map VCAPullModification.before = (fromCam.map ruleKey).filterMap (dbByKey inDB) := by
  rw [matches_, List.map_filterMap, List.filterMap_map]
  apply List.filterMap_congr
  intro c _
  cases found : dbByKey inDB (ruleKey c) <;> simp [found]

private theorem matches_after (inDB fromCam : List VCARule) :
    (matches_ inDB fromCam).map VCAPullModification.after =
      fromCam.filter fun c => !(dbByKey inDB (ruleKey c)).isNone := by
  rw [matches_, List.map_filterMap, ← List.filterMap_eq_filter]
  apply List.filterMap_congr
  intro c _
  cases found : dbByKey inDB (ruleKey c) <;> simp [found, Option.guard]

/-- The camera's side is split whatever the stored rules are. -/
private theorem camera_partition (order : MapOrder) (inDB fromCam : List VCARule) :
    ((diffVCARules F order inDB fromCam).camOnly ++
      (diffVCARules F order inDB fromCam).modified.map VCAPullModification.after ++
      (unchanged F inDB fromCam).map VCAPullModification.after).Perm fromCam := by
  rw [List.append_assoc]
  apply ((matched_perm _ order inDB fromCam).append_left _).trans
  rw [matches_after]
  exact List.filter_append_perm (fun c => (dbByKey inDB (ruleKey c)).isNone) fromCam

/-- The stored side is the map's entries. -/
private theorem database_partition (order : MapOrder) {inDB fromCam : List VCARule}
    (distinct : (fromCam.map ruleKey).Nodup) :
    ((diffVCARules F order inDB fromCam).dbOnly ++
      (diffVCARules F order inDB fromCam).modified.map VCAPullModification.before ++
      (unchanged F inDB fromCam).map VCAPullModification.before).Perm
        ((order.arrange (inDB.map ruleKey).dedup).filterMap (dbByKey inDB)) := by
  rw [List.append_assoc]
  apply ((matched_perm _ order inDB fromCam).append_left _).trans
  rw [matches_before]
  apply lookups_perm
  · exact (order.perm _).nodup_iff.mpr (List.nodup_dedup _)
  · exact distinct
  · intro key found
    exact (order.perm _).mem_iff.mpr (List.mem_dedup.mpr (latest_isSome.mp found))

/-- The difference partitions both sides exactly when no two stored rules share
their type and name. -/
theorem partitions_iff (order : MapOrder) {inDB fromCam : List VCARule} (distinct : (fromCam.map ruleKey).Nodup) :
    Partitions F order inDB fromCam ↔ (inDB.map ruleKey).Nodup := by
  have covers := order.perm (inDB.map ruleKey).dedup
  constructor
  · intro partitions
    exact (entries_perm_iff covers).mp ((database_partition order distinct).symm.trans partitions.database)
  · intro unique
    exact ⟨(database_partition order distinct).trans ((entries_perm_iff covers).mpr unique),
      camera_partition order inDB fromCam⟩

/-! ## After the overwrite -/

/-- Rules that agree with the camera's, one under each key, differ in nothing. -/
theorem diff_empty (order : MapOrder) {stored fromCam : List VCARule} (distinct : (stored.map ruleKey).Nodup)
    (known : ∀ d ∈ stored, ruleKey d ∈ fromCam.map ruleKey)
    (same : ∀ c ∈ fromCam, ∃ d ∈ stored, ruleKey d = ruleKey c ∧ rulesEquivalent (visible F d) (visible F c) = true) :
    diffVCARules F order stored fromCam = ⟨[], [], []⟩ := by
  have found : ∀ c ∈ fromCam, ∃ d, dbByKey stored (ruleKey c) = some d ∧
      rulesEquivalent (visible F d) (visible F c) = true := by
    intro c member
    obtain ⟨d, held, key, agrees⟩ := same c member
    exact ⟨d, key ▸ latest_of_distinct distinct held, agrees⟩
  have dbOnly : ((order.arrange (stored.map ruleKey).dedup).filter fun key => key ∉ fromCam.map ruleKey) = [] := by
    rw [List.filter_eq_nil_iff]
    intro key member absent
    obtain ⟨d, held, rfl⟩ := List.mem_map.mp (List.mem_dedup.mp ((order.perm _).mem_iff.mp member))
    exact of_decide_eq_true absent (known d held)
  have camOnly : (fromCam.filter fun c => (dbByKey stored (ruleKey c)).isNone) = [] := by
    rw [List.filter_eq_nil_iff]
    intro c member absent
    obtain ⟨d, lookup, _⟩ := found c member
    rw [lookup] at absent
    cases absent
  have modified : (diffVCARules F order stored fromCam).modified = [] := by
    rw [diffVCARules, List.filterMap_eq_nil_iff]
    intro c member
    obtain ⟨d, lookup, agrees⟩ := found c member
    simp only [lookup, agrees, if_true]
  have whole : diffVCARules F order stored fromCam =
      ⟨((order.arrange (stored.map ruleKey).dedup).filter fun key => key ∉ fromCam.map ruleKey).filterMap
          (dbByKey stored),
        fromCam.filter fun c => (dbByKey stored (ruleKey c)).isNone,
        (diffVCARules F order stored fromCam).modified⟩ := rfl
  rw [whole, modified, dbOnly, camOnly, List.filterMap_nil]

/-- The row that the transaction makes of a create. -/
def rowOf (tx : Transaction) (camera : UUID) (create : VCARuleCreate) (n : Nat) : VCARule :=
  { vcaRuleFromCreate (tx.ids n) camera create with createdAt := tx.now, updatedAt := tx.now }

private theorem insertNth_ok {tx : Transaction} {db after : Database} {camera : UUID} {n : Nat}
    {create : VCARuleCreate} (done : insertNth tx db camera n create = .ok after) :
    after.vcaRules.rows = db.vcaRules.rows ++ [rowOf tx camera create n] := by
  unfold insertNth at done
  split at done
  · cases done
  · split at done
    · split at done
      · cases done
      · rename_i rules inserted
        cases done
        simp only [insertVCARule, bind_ok, require_ok, ensure_ok, pure, Except.pure, Except.ok.injEq] at inserted
        obtain ⟨table, inserted, _, _, rfl⟩ := inserted
        exact Table.insert?_rows inserted
    · cases done

private theorem insertAll_ok {tx : Transaction} {camera : UUID} {n : Nat} {creates : List VCARuleCreate}
    {db after : Database} (done : insertAll tx camera n creates db = .ok after) :
    after.vcaRules.rows =
      db.vcaRules.rows ++ (creates.zipIdx n).map fun placed => rowOf tx camera placed.1 placed.2 := by
  induction creates generalizing n db with
  | nil =>
    cases done
    exact (List.append_nil _).symm
  | cons create rest ih =>
    unfold insertAll at done
    split at done
    · cases done
    · rename_i next inserted
      rw [ih done, insertNth_ok inserted, List.append_assoc]
      rfl

/-- The stored rules of the camera after the overwrite are those of the creates. -/
private theorem listVCARules_replaced {tx : Transaction} {db after : Database} {camera : UUID}
    {creates : List VCARuleCreate} (done : replaceVCARules tx db camera creates = .ok after) :
    (listVCARules after camera).Perm
      ((creates.zipIdx 0).map fun placed => scanned (rowOf tx camera placed.1 placed.2)) := by
  unfold replaceVCARules at done
  split at done
  · cases done
  · split at done
    · cases done
    · dsimp only at done
      split at done
      · cases done
      · rename_i committed inserted
        split at done
        · cases done
        · cases done
          have rows := insertAll_ok inserted
          have gone : (db.vcaRules.remove fun rule => rule.cameraId = camera ∧ rule.deletedAt = none).rows.filter
              (fun rule => rule.cameraId = camera ∧ rule.deletedAt = none) = [] := by
            rw [List.filter_eq_nil_iff]
            intro rule member active
            have kept := (Table.mem_remove.mp member).2
            rw [active] at kept
            cases kept
          have all : ((creates.zipIdx 0).map fun placed => rowOf tx camera placed.1 placed.2).filter
              (fun rule => rule.cameraId = camera ∧ rule.deletedAt = none) =
              (creates.zipIdx 0).map fun placed => rowOf tx camera placed.1 placed.2 := by
            rw [List.filter_eq_self]
            intro rule member
            obtain ⟨placed, _, rfl⟩ := List.mem_map.mp member
            exact decide_eq_true ⟨rfl, rfl⟩
          unfold listVCARules activeVCARules
          apply ((List.perm_insertionSort _ _).map scanned).trans
          rw [rows, List.filter_append, gone, List.nil_append, all, List.map_map]
          rfl

/-! ## Pulled rules are told apart by their keys -/

theorem ruleKey_inj {camera : UUID} {first second : PulledRule Point}
    (same : ruleKey (first.toRule camera) = ruleKey (second.toRule camera)) :
    (first.kind, first.regionIndex) = (second.kind, second.regionIndex) := by
  have plain (kind : Kind) : '|' ∉ kind.ruleType.toList := by cases kind <;> decide
  have texts := congrArg String.toList same
  simp only [ruleKey, String.toList_append] at texts
  have cut : (first.kind.ruleType.toList, first.name.toList) = (second.kind.ruleType.toList, second.name.toList) := by
    apply FormBody.line_inj ⟨'|', '|'⟩ (plain first.kind) (plain second.kind)
    simpa [FormBody.Marks.line, PulledRule.toRule] using texts
  obtain ⟨types, names⟩ := Prod.mk.inj cut
  have kinds : first.kind = second.kind := by
    revert types
    cases first.kind <;> cases second.kind <;> decide
  rw [PulledRule.name, PulledRule.name, kinds, String.toList_append, String.toList_append, String.toList_ofList,
    String.toList_ofList] at names
  have numbers := VcaPush.decimal_inj (List.append_cancel_left names)
  have regions : first.regionIndex + 1 = second.regionIndex + 1 := Int64.toInt_inj.mp numbers
  rw [kinds, ← Int64.add_sub_cancel first.regionIndex 1, regions, Int64.add_sub_cancel]

private theorem keys_distinct {camera : UUID} {slots : List (PulledRule Point)}
    (distinct : (slots.map fun slot => (slot.kind, slot.regionIndex)).Nodup) :
    ((slots.map (PulledRule.toRule camera)).map ruleKey).Nodup := by
  rw [List.map_map]
  apply List.Nodup.map_on _ (List.Nodup.of_map _ distinct)
  intro first left second right same
  exact List.inj_on_of_nodup_map distinct left right (ruleKey_inj same)

/-- Nothing that the comparison reads is lost on the way through the store. -/
private theorem rowOf_visible (tx : Transaction) (camera : UUID) (slot : PulledRule Point) (n : Nat) :
    visible F (scanned (rowOf tx camera (createOf (slot.toRule camera)) n)) = visible F (slot.toRule camera) := by
  simp only [visible, scanned, rowOf, vcaRuleFromCreate, createOf, PulledRule.toRule, Int64.ofInt_toInt]

/-- The stored rules after the overwrite are the pulled ones, each with its own key. -/
private theorem stored_perm {tx : Transaction} {db after : Database} {camera : UUID} {rules : List VCARule}
    (applied : applyCameraVCAToDB tx db camera rules = .ok after) :
    (listVCARules after camera).Perm
      ((rules.zipIdx 0).map fun placed => scanned (rowOf tx camera (createOf placed.1) placed.2)) := by
  have rows := listVCARules_replaced applied
  rwa [List.zipIdx_map, List.map_map] at rows

theorem resolvedByApply {camera : UUID} {slots : List (PulledRule Point)}
    (distinct : (slots.map fun slot => (slot.kind, slot.regionIndex)).Nodup) :
    ResolvedByApply F camera (slots.map (PulledRule.toRule camera)) := by
  intro order tx db after applied stored read
  have rows := read.trans (stored_perm applied)
  have keys : (stored.map ruleKey).Perm ((slots.map (PulledRule.toRule camera)).map ruleKey) := by
    apply (rows.map ruleKey).trans
    have each := List.zipIdx_map_fst 0 (slots.map (PulledRule.toRule camera))
    conv_rhs => rw [← each]
    rw [List.map_map, List.map_map]
    rfl
  apply diff_empty
  · exact keys.nodup_iff.mpr (keys_distinct distinct)
  · intro d held
    exact keys.mem_iff.mp (List.mem_map_of_mem held)
  · intro c member
    obtain ⟨slot, held, rfl⟩ := List.mem_map.mp member
    obtain ⟨n, placed⟩ := List.getElem?_of_mem member
    refine ⟨scanned (rowOf tx camera (createOf (slot.toRule camera)) n), ?_, rfl, ?_⟩
    · apply rows.mem_iff.mpr
      exact List.mem_map_of_mem (List.mk_mem_zipIdx_iff_getElem?.mpr placed)
    · rw [rowOf_visible]
      exact rulesEquivalent_self _

/-- For camera rules with distinct regions: the difference partitions both sides,
and the overwrite leaves none, exactly when no two stored rules share their type
and name. -/
theorem diff_resolves_iff_distinct (order : MapOrder) (camera : UUID) {inDB : List VCARule}
    {slots : List (PulledRule Point)} (distinct : (slots.map fun slot => (slot.kind, slot.regionIndex)).Nodup) :
    (Partitions F order inDB (slots.map (PulledRule.toRule camera)) ∧
      ResolvedByApply F camera (slots.map (PulledRule.toRule camera))) ↔ (inDB.map ruleKey).Nodup := by
  rw [partitions_iff order (keys_distinct distinct)]
  exact and_iff_left (resolvedByApply distinct)

private def yard : UUID := ⟨1⟩

private def storedGate (id : UUID) : VCARule := { id := id, cameraId := yard, ruleType := "intrusion", name := "Gate" }

private def storedRegion : VCARule :=
  { id := ⟨4⟩, cameraId := yard, ruleType := "intrusion", name := "Intrusion Region 1", sensitivity := 20 }

private def cameraRegion (regionIndex : Int64) : PulledRule Point :=
  { kind := .intrusion, regionIndex := regionIndex, enabled := true, region := [] }

/-- Two stored rules and two regions of the camera, one of which has the name of a stored rule. -/
theorem diff_resolves_gate :
    let fromCam := [cameraRegion 0, cameraRegion 1].map (PulledRule.toRule yard)
    Partitions ℚ VcaPush.walked [storedGate ⟨2⟩, storedRegion] fromCam ∧ ResolvedByApply ℚ yard fromCam :=
  (diff_resolves_iff_distinct VcaPush.walked yard (by decide)).mpr (by decide)

example : (diffVCARules ℚ VcaPush.walked [storedGate ⟨2⟩, storedRegion] [(cameraRegion 0).toRule yard]).modified =
    [⟨storedRegion, (cameraRegion 0).toRule yard⟩] := by decide

/-- Of two stored rules with one name only the later is reported. -/
theorem diff_drops_namesake :
    (diffVCARules ℚ VcaPush.walked [storedGate ⟨2⟩, storedGate ⟨3⟩] []).dbOnly = [storedGate ⟨3⟩] ∧
    ¬ Partitions ℚ VcaPush.walked [storedGate ⟨2⟩, storedGate ⟨3⟩] [] := by
  constructor
  · decide
  · intro partitions
    have lengths := partitions.database.length_eq
    revert lengths
    decide

end Ironsight.VcaPull
