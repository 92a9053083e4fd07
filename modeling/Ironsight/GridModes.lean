import Mathlib.Data.List.Count
import Mathlib.Data.List.Perm.Subperm
import Ironsight.Comparators

/-! The two modes of the camera grid: a preset with numbered slots, and a canvas
of 32 columns with items that lie anywhere. Slots become items by their row and
column; items become slots in reading order, in the smallest preset with room. -/
namespace Ironsight.GridModes
open Comparators

/-! ## Layouts -/

/-- A camera of the server. Its id is a UUID, so it is not empty. -/
structure Camera where
  id : String
  named : id ≠ ""
  deriving DecidableEq

/-- An item of the free layout: its camera, place and size. -/
structure LayoutItem where
  i : String
  x : Int
  y : Int
  w : Int
  h : Int
  cameraId : Option String
  deriving DecidableEq

/-- Columns and rows of a fixed layout. -/
structure Preset where
  w : Nat
  h : Nat
  deriving DecidableEq

/-- `GRID_COLS`. -/
def gridCols : Nat := 32

/-- `STATIC_PRESETS`. -/
def staticPresets : List Preset :=
  [⟨1, 1⟩, ⟨2, 1⟩, ⟨2, 2⟩, ⟨3, 2⟩, ⟨3, 3⟩, ⟨4, 3⟩, ⟨4, 4⟩, ⟨5, 3⟩, ⟨6, 4⟩]

/-- A `Record<number, string>`; its entries come in the order of the slots. -/
structure Assignments where
  entries : List (Nat × String)
  ascending : entries.Pairwise fun first second => first.1 < second.1
  deriving DecidableEq

/-- The entries after `assignments[slot] = id`. -/
def put (slot : Nat) (id : String) : List (Nat × String) → List (Nat × String)
  | [] => [(slot, id)]
  | entry :: rest =>
    if slot < entry.1 then (slot, id) :: entry :: rest
    else if slot = entry.1 then (slot, id) :: rest
    else entry :: put slot id rest

theorem mem_put {slot : Nat} {id : String} {entries : List (Nat × String)} {entry : Nat × String}
    (member : entry ∈ put slot id entries) : entry = (slot, id) ∨ entry ∈ entries := by
  induction entries with
  | nil => exact .inl (List.mem_singleton.mp member)
  | cons first rest ih =>
    rw [put] at member
    split at member
    · exact List.mem_cons.mp member
    · split at member
      · exact (List.mem_cons.mp member).imp_right (List.mem_cons_of_mem first)
      · rcases List.mem_cons.mp member with rfl | later
        · exact .inr List.mem_cons_self
        · exact (ih later).imp_right (List.mem_cons_of_mem first)

theorem put_ascending (slot : Nat) (id : String) {entries : List (Nat × String)}
    (ascending : entries.Pairwise fun first second => first.1 < second.1) :
    (put slot id entries).Pairwise fun first second => first.1 < second.1 := by
  induction entries with
  | nil => exact List.pairwise_singleton _ _
  | cons first rest ih =>
    obtain ⟨ahead, others⟩ := List.pairwise_cons.mp ascending
    rw [put]
    split
    · rename_i before
      refine List.pairwise_cons.mpr ⟨fun entry member => ?_, ascending⟩
      rcases List.mem_cons.mp member with rfl | later
      · exact before
      · exact before.trans (ahead entry later)
    · split
      · rename_i same
        exact List.pairwise_cons.mpr ⟨fun entry member => same ▸ ahead entry member, others⟩
      · refine List.pairwise_cons.mpr ⟨fun entry member => ?_, ih others⟩
        rcases mem_put member with rfl | later
        · dsimp only
          omega
        · exact ahead entry later

/-- A slot behind all others goes to the end. -/
theorem put_behind {slot : Nat} {id : String} {entries : List (Nat × String)}
    (behind : ∀ entry ∈ entries, entry.1 < slot) : put slot id entries = entries ++ [(slot, id)] := by
  induction entries with
  | nil => rfl
  | cons first rest ih =>
    have before := behind first List.mem_cons_self
    rw [put, if_neg (by omega), if_neg (by omega), ih fun entry member => behind entry (List.mem_cons_of_mem first member)]
    rfl

def Assignments.set (assignments : Assignments) (slot : Nat) (id : String) : Assignments :=
  ⟨put slot id assignments.entries, put_ascending slot id assignments.ascending⟩

/-! ## The conversions -/

/-- The camera that an item names; an empty id names none. -/
def LayoutItem.camera (item : LayoutItem) : Option String := item.cameraId.filter fun id => id ≠ ""

/-- The item of a slot. -/
def slotItem (preset : Preset) (slot : Nat) (camId : String) : LayoutItem :=
  let colSpan := gridCols / preset.w
  let rowSpan := max 4 (18 / preset.h)
  let col := slot % preset.w
  let row := slot / preset.w
  { i := camId
    x := (col * colSpan : Nat)
    y := (row * rowSpan : Nat)
    w := (colSpan : Nat)
    h := (rowSpan : Nat)
    cameraId := some camId }

/-- `staticToFreeform`: one item for each slot that is taken. -/
def staticToFreeform (assignments : Assignments) (preset : Preset) (_cameras : List Camera) : List LayoutItem :=
  assignments.entries.map fun entry => slotItem preset entry.1 entry.2

/-- The canvas of the quick layouts. -/
def generateDefaultLayout (cameras : List Camera) (viewCols hUnits : Nat) : List LayoutItem :=
  cameras.zipIdx.map fun placed =>
    { i := placed.1.id
      x := (placed.2 % viewCols * (gridCols / viewCols) : Nat)
      y := (placed.2 / viewCols * hUnits : Nat)
      w := (gridCols / viewCols : Nat)
      h := hUnits
      cameraId := some placed.1.id }

/-- The filter of `freeformToStatic`. -/
def cameraItems (items : List LayoutItem) (cameras : List Camera) : List LayoutItem :=
  items.filter fun item => item.camera.any fun id => cameras.any fun camera => camera.id = id

/-- The smallest preset with room, or else the last one. -/
def presetFor (count : Nat) : Preset := (staticPresets.find? fun preset => count ≤ preset.w * preset.h).getD ⟨6, 4⟩

/-- Reading order: from the top, and from the left in a row. -/
def byPosition (a b : LayoutItem) : Int := if a.y ≠ b.y then a.y - b.y else a.x - b.x

/-- One item of the final loop, with its place. -/
def assign (preset : Preset) (assignments : Assignments) (placed : LayoutItem × Nat) : Assignments :=
  match placed.1.camera with
  | some id => if placed.2 < preset.w * preset.h then assignments.set placed.2 id else assignments
  | none => assignments

/-- `freeformToStatic`: a preset for the cameras that the layout shows, and its slots. -/
def freeformToStatic (items : List LayoutItem) (cameras : List Camera) : Preset × Assignments :=
  let shown := cameraItems items cameras
  let preset := presetFor shown.length
  let sorted := sort byPosition shown
  (preset, sorted.zipIdx.foldl (assign preset) ⟨[], List.Pairwise.nil⟩)

/-! ## Slots as items -/

/-- The item lies on the grid. -/
def LayoutItem.Inside (item : LayoutItem) : Prop :=
  0 ≤ item.x ∧ 0 < item.w ∧ item.x + item.w ≤ gridCols ∧ 0 ≤ item.y ∧ 0 < item.h

theorem byPosition_le {a b : LayoutItem} : byPosition a b ≤ 0 ↔ a.y < b.y ∨ a.y = b.y ∧ a.x ≤ b.x := by
  rw [byPosition]
  split <;> omega

theorem byPosition_consistent : Consistent byPosition where
  total a b := by
    simp only [byPosition_le]
    omega
  trans a b c := by
    simp only [byPosition_le]
    omega

/-- Two items share no cell of the canvas. -/
def Apart (a b : LayoutItem) : Prop := a.x + a.w ≤ b.x ∨ b.x + b.w ≤ a.x ∨ a.y + a.h ≤ b.y ∨ b.y + b.h ≤ a.y

theorem preset_size {preset : Preset} (listed : preset ∈ staticPresets) :
    0 < preset.w ∧ preset.w ≤ 6 ∧ preset.w * preset.h ≤ 24 := by
  revert preset
  decide

/-- A later slot lies in a lower row, or in the same row further to the right. -/
theorem later_slot {w first second : Nat} (before : first < second) :
    first / w < second / w ∨ first / w = second / w ∧ first % w < second % w := by
  have upper := Nat.div_add_mod first w
  have lower := Nat.div_add_mod second w
  rcases Nat.lt_or_eq_of_le (Nat.div_le_div_right (c := w) before.le) with above | level
  · exact .inl above
  · rw [level] at upper
    exact .inr ⟨level, by omega⟩

/-- Rows, or columns, of one size do not run into each other. -/
theorem next_span (size : Nat) {first second : Nat} (before : first < second) :
    ((first * size : Nat) : Int) + size ≤ (second * size : Nat) := by
  have room : (first + 1) * size ≤ second * size := Nat.mul_le_mul_right size before
  rw [Nat.succ_mul] at room
  omega

theorem slotItem_inside {preset : Preset} (listed : preset ∈ staticPresets) (slot : Nat) (camId : String) :
    (slotItem preset slot camId).Inside := by
  obtain ⟨wide, narrow, -⟩ := preset_size listed
  have span : 0 < gridCols / preset.w := Nat.div_pos (le_trans narrow (by decide)) wide
  have last : (slot % preset.w + 1) * (gridCols / preset.w) ≤ gridCols :=
    le_trans (Nat.mul_le_mul_right _ (Nat.mod_lt _ wide)) (Nat.mul_div_le gridCols preset.w)
  rw [Nat.succ_mul] at last
  simp only [LayoutItem.Inside, slotItem]
  omega

theorem slotItem_apart (preset : Preset) {first second : Nat} (before : first < second) (camId other : String) :
    Apart (slotItem preset first camId) (slotItem preset second other) := by
  rcases later_slot (w := preset.w) before with above | ⟨-, left⟩
  · exact .inr (.inr (.inl (next_span _ above)))
  · exact .inl (next_span _ left)

theorem slotItem_ordered (preset : Preset) {first second : Nat} (before : first < second) (camId other : String) :
    byPosition (slotItem preset first camId) (slotItem preset second other) ≤ 0 := by
  rw [byPosition_le]
  rcases later_slot (w := preset.w) before with above | ⟨level, left⟩
  · have lower := next_span (max 4 (18 / preset.h)) above
    simp only [slotItem]
    omega
  · exact .inr ⟨by simp only [slotItem, level], Int.ofNat_le.mpr (Nat.mul_le_mul_right _ left.le)⟩

theorem camera_slotItem (preset : Preset) (slot : Nat) {camId : String} (named : camId ≠ "") :
    (slotItem preset slot camId).camera = some camId := by
  simp [LayoutItem.camera, slotItem, named]

/-! ## Items as slots -/

/-- The ids of a list in the slots 0, 1, 2, ... -/
def numbered (ids : List String) : List (Nat × String) := ids.zipIdx.map Prod.swap

/-- The cameras of a layout's items that still exist. -/
theorem mem_cameraItems {items : List LayoutItem} {cameras : List Camera} {item : LayoutItem} :
    item ∈ cameraItems items cameras ↔ item ∈ items ∧ ∃ camera ∈ cameras, item.camera = some camera.id := by
  rw [cameraItems, List.mem_filter, Option.any_eq_true]
  simp only [List.any_eq_true, decide_eq_true_eq]
  refine and_congr_right fun _ => ⟨?_, ?_⟩
  · rintro ⟨id, named, camera, listed, rfl⟩
    exact ⟨camera, listed, named⟩
  · rintro ⟨camera, listed, named⟩
    exact ⟨camera.id, named, camera, listed, rfl⟩

/-- The loop fills the slots from some number on, up to the last one. -/
theorem foldl_assign (preset : Preset) {items : List LayoutItem} {ids : List String}
    (named : items.map LayoutItem.camera = ids.map some) (slot : Nat) (assignments : Assignments)
    (behind : ∀ entry ∈ assignments.entries, entry.1 < slot) :
    ((items.zipIdx slot).foldl (assign preset) assignments).entries =
      assignments.entries ++ ((ids.take (preset.w * preset.h - slot)).zipIdx slot).map Prod.swap := by
  induction items generalizing ids slot assignments with
  | nil =>
    obtain rfl : ids = [] := by simpa using named.symm
    simp
  | cons item rest ih =>
    cases ids with
    | nil => cases named
    | cons id others =>
      simp only [List.map_cons, List.cons.injEq] at named
      rw [List.zipIdx_cons, List.foldl_cons, assign, named.1]
      dsimp only
      split
      · rename_i room
        have placed : (assignments.set slot id).entries = assignments.entries ++ [(slot, id)] := put_behind behind
        rw [ih named.2 (slot + 1) (assignments.set slot id), placed]
        · obtain ⟨left, more⟩ : ∃ left, preset.w * preset.h - slot = left + 1 := ⟨preset.w * preset.h - slot - 1, by omega⟩
          rw [more, List.take_succ_cons, List.zipIdx_cons, List.map_cons, List.append_assoc]
          rw [show preset.w * preset.h - (slot + 1) = left by omega]
          rfl
        · intro entry member
          rw [placed] at member
          rcases List.mem_append.mp member with earlier | last
          · exact (behind entry earlier).trans (Nat.lt_succ_self slot)
          · rw [List.mem_singleton.mp last]
            exact Nat.lt_succ_self slot
      · rename_i full
        rw [ih named.2 (slot + 1) assignments fun entry member => (behind entry member).trans (Nat.lt_succ_self slot)]
        rw [show preset.w * preset.h - slot = 0 by omega, show preset.w * preset.h - (slot + 1) = 0 by omega]
        rfl

/-- The preset that is chosen has room for all, or is the largest. -/
theorem presetFor_room (count : Nat) :
    presetFor count ∈ staticPresets ∧
      (count ≤ (presetFor count).w * (presetFor count).h ∨ presetFor count = ⟨6, 4⟩ ∧ 24 < count) := by
  rw [presetFor]
  cases chosen : staticPresets.find? fun preset => count ≤ preset.w * preset.h with
  | some preset =>
    have room := List.find?_some (p := fun preset : Preset => decide (count ≤ preset.w * preset.h)) chosen
    exact ⟨List.mem_of_find?_eq_some chosen, .inl (of_decide_eq_true room)⟩
  | none =>
    have large := List.find?_eq_none.mp chosen ⟨6, 4⟩ (by decide)
    rw [decide_eq_true_eq] at large
    exact ⟨by decide, .inr ⟨rfl, Nat.not_le.mp large⟩⟩

/-- The tiles in reading order take the first slots, as many as the largest preset has. -/
theorem freeformToStatic_entries (items : List LayoutItem) (cameras : List Camera) {ids : List String}
    (named : (sort byPosition (cameraItems items cameras)).map LayoutItem.camera = ids.map some) :
    (freeformToStatic items cameras).2.entries = numbered (ids.take 24) := by
  have count : ids.length = (cameraItems items cameras).length := by
    have lengths := congrArg List.length named
    rwa [List.length_map, List.length_map, (sort_perm _).length_eq, eq_comm] at lengths
  rw [freeformToStatic]
  dsimp only
  rw [foldl_assign _ named 0 _ (fun entry member => absurd member List.not_mem_nil), List.nil_append, Nat.sub_zero, numbered]
  congr 2
  obtain ⟨listed, room | ⟨largest, -⟩⟩ := presetFor_room (cameraItems items cameras).length
  · have few : ids.length ≤ 24 := count.trans_le (room.trans (preset_size listed).2.2)
    rw [List.take_of_length_le (count.trans_le room), List.take_of_length_le few]
  · rw [largest]
    rfl

/-- Every tile of an existing camera names it. -/
theorem exists_ids (items : List LayoutItem) (cameras : List Camera) :
    ∃ ids : List String, (sort byPosition (cameraItems items cameras)).map LayoutItem.camera = ids.map some := by
  refine ⟨(sort byPosition (cameraItems items cameras)).filterMap LayoutItem.camera, ?_⟩
  have all : ∀ item ∈ sort byPosition (cameraItems items cameras), ∃ id, item.camera = some id := fun item member =>
    have ⟨_, camera, _, named⟩ := mem_cameraItems.mp ((sort_perm _).subset member)
    ⟨camera.id, named⟩
  generalize sort byPosition (cameraItems items cameras) = tiles at all
  induction tiles with
  | nil => rfl
  | cons item rest ih =>
    obtain ⟨id, named⟩ := all item List.mem_cons_self
    rw [List.filterMap_cons_some named, List.map_cons, List.map_cons, named,
      ih fun other member => all other (List.mem_cons_of_mem item member)]

/-- The slots that hold a camera. -/
def slotsOf (assignments : Assignments) (id : String) : List Nat :=
  (assignments.entries.filter fun entry => entry.2 = id).map Prod.fst

/-- No more entries than slots. -/
theorem length_entries_le {assignments : Assignments} {size : Nat} (inside : ∀ entry ∈ assignments.entries, entry.1 < size) :
    assignments.entries.length ≤ size := by
  have distinct : (assignments.entries.map Prod.fst).Nodup :=
    List.pairwise_map.mpr (assignments.ascending.imp fun before => Nat.ne_of_lt before)
  have within : assignments.entries.map Prod.fst ⊆ List.range size := fun slot member => by
    obtain ⟨entry, listed, rfl⟩ := List.mem_map.mp member
    exact List.mem_range.mpr (inside entry listed)
  have counted := (distinct.subperm within).length_le
  rwa [List.length_map, List.length_range] at counted

/-- Through the canvas and back the cameras keep their order, and lose their gaps. -/
theorem freeformToStatic_staticToFreeform {preset : Preset} (listed : preset ∈ staticPresets) (assignments : Assignments)
    (cameras : List Camera) (inside : ∀ entry ∈ assignments.entries, entry.1 < preset.w * preset.h)
    (existing : ∀ entry ∈ assignments.entries, ∃ camera ∈ cameras, camera.id = entry.2) :
    (freeformToStatic (staticToFreeform assignments preset cameras) cameras).2.entries =
      numbered (assignments.entries.map Prod.snd) := by
  have named : ∀ entry ∈ assignments.entries, (slotItem preset entry.1 entry.2).camera = some entry.2 := fun entry member => by
    obtain ⟨camera, _, same⟩ := existing entry member
    exact camera_slotItem preset entry.1 (same ▸ camera.named)
  have shown : cameraItems (staticToFreeform assignments preset cameras) cameras =
      staticToFreeform assignments preset cameras := by
    refine List.filter_eq_self.mpr fun item member => ?_
    obtain ⟨entry, held, rfl⟩ := List.mem_map.mp member
    obtain ⟨camera, alive, same⟩ := existing entry held
    have kept : slotItem preset entry.1 entry.2 ∈ cameraItems (staticToFreeform assignments preset cameras) cameras :=
      mem_cameraItems.mpr ⟨member, camera, alive, (named entry held).trans (congrArg some same.symm)⟩
    exact (List.mem_filter.mp kept).2
  have sorted : (staticToFreeform assignments preset cameras).Pairwise fun a b => byPosition a b ≤ 0 :=
    List.pairwise_map.mpr (assignments.ascending.imp fun before => slotItem_ordered preset before _ _)
  have ids : (sort byPosition (cameraItems (staticToFreeform assignments preset cameras) cameras)).map LayoutItem.camera =
      (assignments.entries.map Prod.snd).map some := by
    rw [shown, sort_of_sorted sorted, staticToFreeform, List.map_map, List.map_map]
    exact List.map_congr_left named
  rw [freeformToStatic_entries _ cameras ids, List.take_of_length_le]
  rw [List.length_map]
  exact (length_entries_le inside).trans (preset_size listed).2.2

theorem length_slotsOf {assignments : Assignments} {ids : List String} (entries : assignments.entries = numbered ids) (id : String) :
    (slotsOf assignments id).length = ids.count id := by
  have taken : assignments.entries.map Prod.snd = ids := by
    rw [entries, numbered, List.map_map]
    exact List.zipIdx_map_fst 0 ids
  rw [slotsOf, List.length_map, ← List.countP_eq_length_filter, ← taken, List.count_eq_countP, List.countP_map]
  rfl

theorem count_ids {layout : List LayoutItem} {cameras : List Camera} {ids : List String}
    (named : (sort byPosition (cameraItems layout cameras)).map LayoutItem.camera = ids.map some)
    {camera : Camera} (alive : camera ∈ cameras) :
    ids.count camera.id = layout.countP fun item => item.camera = some camera.id := by
  have filtered : (cameraItems layout cameras).countP (fun item => item.camera = some camera.id) =
      layout.countP fun item => item.camera = some camera.id := by
    rw [cameraItems, List.countP_filter]
    refine List.countP_congr fun item _ => ?_
    simp only [Bool.and_eq_true, decide_eq_true_eq, and_iff_left_iff_imp]
    intro same
    rw [same]
    exact List.any_eq_true.mpr ⟨camera, alive, decide_eq_true rfl⟩
  calc ids.count camera.id = (ids.map some).count (some camera.id) :=
        (List.count_map_of_injective ids some (Option.some_injective _) camera.id).symm
    _ = (sort byPosition (cameraItems layout cameras)).countP (fun item => item.camera = some camera.id) := by
        rw [← named, List.count_eq_countP, List.countP_map]
        exact List.countP_congr fun item _ => by simp
    _ = (cameraItems layout cameras).countP (fun item => item.camera = some camera.id) := (sort_perm _).countP_eq _
    _ = layout.countP fun item => item.camera = some camera.id := filtered

/-- Switching to the canvas keeps the cameras of the wall apart, inside the 32 columns
and in order; switching back gives them the slots 0, 1, 2, ... The tiles of any canvas
take these slots in reading order, up to the 24 of the largest preset, so that on a canvas
with no more tiles each camera keeps one slot for each of its tiles. -/
theorem grid_modes_keep_tiles {preset : Preset} (listed : preset ∈ staticPresets) (assignments : Assignments)
    (cameras : List Camera) (inside : ∀ entry ∈ assignments.entries, entry.1 < preset.w * preset.h)
    (existing : ∀ entry ∈ assignments.entries, ∃ camera ∈ cameras, camera.id = entry.2) (layout : List LayoutItem) :
    ((∀ item ∈ staticToFreeform assignments preset cameras, item.Inside) ∧
      (staticToFreeform assignments preset cameras).Pairwise Apart) ∧
    (freeformToStatic (staticToFreeform assignments preset cameras) cameras).2.entries =
      numbered (assignments.entries.map Prod.snd) ∧
    (∃ (tiles : List LayoutItem) (ids : List String), tiles.Perm (cameraItems layout cameras) ∧
        tiles.Pairwise (fun a b => a.y < b.y ∨ a.y = b.y ∧ a.x ≤ b.x) ∧
      tiles.map LayoutItem.camera = ids.map some ∧ (freeformToStatic layout cameras).2.entries = numbered (ids.take 24)) ∧
    ((cameraItems layout cameras).length ≤ 24 → ∀ camera ∈ cameras,
      (slotsOf (freeformToStatic layout cameras).2 camera.id).length = layout.countP fun item => item.camera = some camera.id) := by
  obtain ⟨ids, named⟩ := exists_ids layout cameras
  have entries := freeformToStatic_entries layout cameras named
  refine ⟨⟨fun item member => ?_, ?_⟩, freeformToStatic_staticToFreeform listed assignments cameras inside existing,
    ⟨_, ids, sort_perm _, ?_, named, entries⟩, fun few camera alive => ?_⟩
  · obtain ⟨entry, _, rfl⟩ := List.mem_map.mp member
    exact slotItem_inside listed entry.1 entry.2
  · exact List.pairwise_map.mpr (assignments.ascending.imp fun before => slotItem_apart preset before _ _)
  · exact (sort_sorted byPosition_consistent _).imp byPosition_le.mp
  · have count := congrArg List.length named
    rw [List.length_map, List.length_map, (sort_perm _).length_eq] at count
    rw [List.take_of_length_le (by omega)] at entries
    rw [length_slotsOf entries, count_ids named alive]

private def gate : Camera := ⟨"gate", by decide⟩
private def yard : Camera := ⟨"yard", by decide⟩

/-- Two cameras with a gap between them come back without it. -/
theorem gap_closed :
    (freeformToStatic (staticToFreeform ⟨[(1, "yard"), (7, "gate")], by decide⟩ ⟨3, 3⟩ [gate, yard]) [gate, yard]).2.entries =
      [(0, "yard"), (1, "gate")] :=
  (@grid_modes_keep_tiles ⟨3, 3⟩ (by decide) ⟨[(1, "yard"), (7, "gate")], by decide⟩ [gate, yard]
    (by decide) (by decide) []).2.1

/-- Some cameras, each named by as many letters as its number. -/
private def fleet (size : Nat) : List Camera :=
  (List.range size).map fun n => ⟨String.ofList (List.replicate (n + 1) 'c'), fun none => by
    have short := congrArg String.length none
    simp at short⟩

/-- The 25th camera of a quick layout has no slot. -/
theorem last_camera_dropped :
    ¬ ∀ camera ∈ fleet 25,
      (slotsOf (freeformToStatic (generateDefaultLayout (fleet 25) 5 4) (fleet 25)).2 camera.id).length = 1 := by
  decide +kernel

end Ironsight.GridModes
