import Ironsight.Comparators
import Ironsight.PartedLists
import Ironsight.Runs

/-! The camera wall of an operator. A layout gives each camera of a site an order and
a pin; the wall shows the cameras that the site has now, those with a pin first. A
drag is made on the wall, but moves an item of the layout by the same two numbers. -/
namespace Ironsight.CameraWall
open Comparators PartedLists Runs

/-! ## The hook -/

structure SiteCamera where
  id : String
  name : String
  deriving DecidableEq

structure CameraLayoutItem where
  cameraId : String
  order : Nat
  pinned : Bool
  deriving DecidableEq

structure LayoutConfig where
  siteId : String
  cameras : List CameraLayoutItem
  columns : Nat
  deriving DecidableEq

/-- The arguments of `useCameraLayout`: a site, and the cameras it has now. -/
structure Site where
  siteId : String
  cameras : List SiteCamera
  distinct : (cameras.map SiteCamera.id).Nodup

/-- The state of `useCameraLayout`. -/
structure Hook where
  layouts : String → Option LayoutConfig := fun _ => none
  dragItem : Option Nat := none
  dragOverItem : Option Nat := none

/-- One item for each camera, in their order. -/
def freshItems (cameras : List SiteCamera) : List CameraLayoutItem :=
  cameras.zipIdx.map fun placed => ⟨placed.1.id, placed.2, false⟩

/-- The layout of a site, or the first one where none was saved. -/
def layout (hook : Hook) (site : Site) : LayoutConfig :=
  (hook.layouts site.siteId).getD ⟨site.siteId, freshItems site.cameras, 3⟩

/-- The comparator of the wall. -/
def pinnedFirst (a b : CameraLayoutItem) : Int :=
  if a.pinned && !b.pinned then -1
  else if !a.pinned && b.pinned then 1
  else (a.order : Int) - b.order

/-- The comparator of `onDragEnd`. -/
def byOrder (a b : CameraLayoutItem) : Int := (a.order : Int) - b.order

/-- A camera on the wall. -/
structure Tile where
  camera : SiteCamera
  pinned : Bool
  deriving DecidableEq

/-- The tile of a camera by its id, where the site has that camera. -/
def tileOf (cameras : List SiteCamera) (cameraId : String) (pinned : Bool) : Option Tile :=
  (cameras.find? fun camera => camera.id = cameraId).map fun camera => ⟨camera, pinned⟩

/-- The tiles of the wall: pinned cameras first, then in the order of the layout. -/
def orderedCameras (hook : Hook) (site : Site) : List Tile :=
  (sort pinnedFirst (layout hook site).cameras).filterMap fun item => tileOf site.cameras item.cameraId item.pinned

def updateLayout (hook : Hook) (site : Site) (newLayout : LayoutConfig) : Hook :=
  { hook with layouts := fun siteId => if siteId = site.siteId then some newLayout else hook.layouts siteId }

/-- The new order of each item is its place. -/
def reindexed (items : List CameraLayoutItem) : List CameraLayoutItem :=
  items.zipIdx.map fun placed => { placed.1 with order := placed.2 }

/-- `onDragEnd`. From a place that the layout does not have nothing is taken out, and
the loop over the new order throws before anything is saved. -/
def onDragEnd (hook : Hook) (site : Site) : Hook :=
  match hook.dragItem, hook.dragOverItem with
  | some dragItem, some dragOverItem =>
    if dragItem = dragOverItem then { hook with dragItem := none, dragOverItem := none }
    else
      let sorted := sort byOrder (layout hook site).cameras
      if dragItem < sorted.length then
        let newCameras := reindexed (move sorted dragItem dragOverItem)
        { updateLayout hook site { layout hook site with cameras := newCameras } with dragItem := none, dragOverItem := none }
      else hook
  | _, _ => { hook with dragItem := none, dragOverItem := none }

def togglePin (hook : Hook) (site : Site) (cameraId : String) : Hook :=
  updateLayout hook site { layout hook site with
    cameras := (layout hook site).cameras.map fun item =>
      if item.cameraId = cameraId then { item with pinned := !item.pinned } else item }

def resetLayout (hook : Hook) (site : Site) : Hook :=
  updateLayout hook site ⟨site.siteId, freshItems site.cameras, (layout hook site).columns⟩

def setColumns (hook : Hook) (site : Site) (cols : Nat) : Hook :=
  updateLayout hook site { layout hook site with columns := cols }

inductive Action where
  | onDragStart (index : Nat)
  | onDragOver (index : Nat)
  | onDragEnd
  | togglePin (cameraId : String)
  | resetLayout
  | setColumns (cols : Nat)
  deriving DecidableEq

/-- An action of the operator, on a site as it is then. -/
def act (hook : Hook) (action : Site × Action) : Hook :=
  match action.2 with
  | .onDragStart index => { hook with dragItem := some index }
  | .onDragOver index => { hook with dragOverItem := some index }
  | .onDragEnd => onDragEnd hook action.1
  | .togglePin cameraId => togglePin hook action.1 cameraId
  | .resetLayout => resetLayout hook action.1
  | .setColumns cols => setColumns hook action.1 cols

/-- The tile at one position is dragged onto the one at another. -/
def drag (hook : Hook) (site : Site) (i j : Nat) : Hook :=
  exec act hook [(site, .onDragStart i), (site, .onDragOver j), (site, .onDragEnd)]

/-! ## Layouts that are reached -/

/-- No camera twice, and the orders are counted from 0. -/
structure Ordered (items : List CameraLayoutItem) : Prop where
  distinct : (items.map CameraLayoutItem.cameraId).Nodup
  counted : (items.map CameraLayoutItem.order).Perm (List.range items.length)

theorem order_reindexed (items : List CameraLayoutItem) :
    (reindexed items).map CameraLayoutItem.order = List.range items.length := by
  rw [reindexed, List.map_map, List.range_eq_range', ← List.zipIdx_map_snd 0 items]
  rfl

/-- What the wall reads of an item beside its order. -/
def card (item : CameraLayoutItem) : String × Bool := (item.cameraId, item.pinned)

theorem card_reindexed (items : List CameraLayoutItem) : (reindexed items).map card = items.map card := by
  rw [reindexed, List.map_map]
  conv => rhs; rw [← List.zipIdx_map_fst 0 items, List.map_map]
  rfl

theorem ids_of_cards (items : List CameraLayoutItem) :
    items.map CameraLayoutItem.cameraId = (items.map card).map Prod.fst := by
  rw [List.map_map]
  rfl

theorem ordered_fresh (site : Site) : Ordered (freshItems site.cameras) where
  distinct := by
    have ids : (freshItems site.cameras).map CameraLayoutItem.cameraId = site.cameras.map SiteCamera.id := by
      conv => rhs; rw [← List.zipIdx_map_fst 0 site.cameras, List.map_map]
      rw [freshItems, List.map_map]
      rfl
    rw [ids]
    exact site.distinct
  counted := by
    have orders : (freshItems site.cameras).map CameraLayoutItem.order = List.range (freshItems site.cameras).length := by
      rw [freshItems, List.map_map, List.length_map, List.length_zipIdx, List.range_eq_range', ← List.zipIdx_map_snd 0 site.cameras]
      rfl
    rw [orders]

variable {items : List CameraLayoutItem}

theorem Ordered.moved (ordered : Ordered items) (i j : Nat) : Ordered (reindexed (move (sort byOrder items) i j)) where
  distinct := by
    have perm : (move (sort byOrder items) i j).Perm items := (move_perm _ i j).trans (sort_perm items)
    rw [ids_of_cards, card_reindexed, ← ids_of_cards]
    exact (perm.map _).nodup_iff.mpr ordered.distinct
  counted := by
    rw [order_reindexed, reindexed, List.length_map, List.length_zipIdx]

theorem Ordered.toggled (ordered : Ordered items) (cameraId : String) :
    Ordered (items.map fun item => if item.cameraId = cameraId then { item with pinned := !item.pinned } else item) := by
  have keeps {β : Type} (field : CameraLayoutItem → β)
      (blind : ∀ item : CameraLayoutItem, field { item with pinned := !item.pinned } = field item) :
      (items.map fun item => if item.cameraId = cameraId then { item with pinned := !item.pinned } else item).map field =
        items.map field := by
    rw [List.map_map]
    refine List.map_congr_left fun item _ => ?_
    rw [Function.comp_apply]
    split
    · exact blind item
    · rfl
  refine ⟨?_, ?_⟩
  · rw [keeps _ fun _ => rfl]
    exact ordered.distinct
  · rw [keeps _ fun _ => rfl, List.length_map]
    exact ordered.counted

/-- Every layout that is saved is in order. -/
def Sound (hook : Hook) : Prop := ∀ siteId config, hook.layouts siteId = some config → Ordered config.cameras

theorem Sound.layout {hook : Hook} (sound : Sound hook) (site : Site) : Ordered (layout hook site).cameras := by
  rw [CameraWall.layout]
  cases saved : hook.layouts site.siteId with
  | none => exact ordered_fresh site
  | some config => exact sound _ config saved

theorem Sound.update {hook : Hook} (sound : Sound hook) (site : Site) {newLayout : LayoutConfig}
    (ordered : Ordered newLayout.cameras) : Sound (updateLayout hook site newLayout) := by
  intro siteId config saved
  rw [updateLayout] at saved
  dsimp only at saved
  split at saved
  · exact Option.some.inj saved ▸ ordered
  · exact sound siteId config saved

theorem Sound.step {hook : Hook} (sound : Sound hook) (action : Site × Action) : Sound (act hook action) := by
  obtain ⟨site, action⟩ := action
  cases action with
  | onDragStart index => exact sound
  | onDragOver index => exact sound
  | onDragEnd =>
    rw [act, onDragEnd]
    dsimp only
    split
    · rename_i dragItem dragOverItem _ _
      split
      · exact sound
      split
      · exact sound.update site ((sound.layout site).moved dragItem dragOverItem)
      · exact sound
    · exact sound
  | togglePin cameraId => exact sound.update site ((sound.layout site).toggled cameraId)
  | resetLayout => exact sound.update site (ordered_fresh site)
  | setColumns cols => exact sound.update site (sound.layout site)

/-- What an operator can come to from a browser without layouts. -/
def Reached (hook : Hook) : Prop := ∃ actions, hook = exec act {} actions

theorem Reached.sound {hook : Hook} (reached : Reached hook) : Sound hook := by
  obtain ⟨actions, rfl⟩ := reached
  have preserved : ∀ hook action, Sound hook → Sound (act hook action) := fun _ action sound => sound.step action
  exact exec_invariant preserved actions {} nofun

/-! ## The wall as a list in two parts -/

/-- The wall reads the items of a layout in their stored order. -/
def stored (items : List CameraLayoutItem) : List (String × Bool) := (sort byOrder items).map card

/-- The cards with a pin are in front, and those of cameras that are gone have no tile. -/
def display (cameras : List SiteCamera) : Display (String × Bool) Tile where
  front := Prod.snd
  tile shown := tileOf cameras shown.1 shown.2

theorem byOrder_consistent : Consistent byOrder := consistent_by fun item => (CameraLayoutItem.order item : Int)

theorem pinnedFirst_consistent : Consistent pinnedFirst where
  total a b := by
    simp only [pinnedFirst]
    cases a.pinned <;> cases b.pinned <;> simp <;> omega
  trans a b c := by
    simp only [pinnedFirst]
    cases a.pinned <;> cases b.pinned <;> cases c.pinned <;> simp <;> omega

theorem Ordered.same (ordered : Ordered items) {a b : CameraLayoutItem} (first : a ∈ items) (second : b ∈ items)
    (level : a.order = b.order) : a = b :=
  List.inj_on_of_nodup_map (ordered.counted.nodup_iff.mpr List.nodup_range) first second level

theorem pinnedFirst_level {a b : CameraLayoutItem} (level : a.pinned = b.pinned) : pinnedFirst a b = byOrder a b := by
  rw [pinnedFirst, level]
  cases b.pinned <;> rfl

/-- Among items of one part the two comparators agree. -/
theorem part_sorted (items : List CameraLayoutItem) (keep : CameraLayoutItem → Bool)
    (level : ∀ a b, keep a = true → keep b = true → a.pinned = b.pinned) :
    ((sort byOrder items).filter keep).Pairwise fun a b => pinnedFirst a b ≤ 0 := by
  refine List.Pairwise.imp_of_mem (fun first second before => ?_) ((sort_sorted byOrder_consistent items).filter keep)
  rwa [pinnedFirst_level (level _ _ (List.mem_filter.mp first).2 (List.mem_filter.mp second).2)]

/-- The comparator of the wall puts the stored order into two parts. -/
theorem sort_pinnedFirst (ordered : Ordered items) : sort pinnedFirst items =
    (sort byOrder items).filter (fun item => item.pinned) ++ (sort byOrder items).filter fun item => !item.pinned := by
  have perm := List.filter_append_perm (fun item => item.pinned) (sort byOrder items)
  refine sort_eq pinnedFirst_consistent (perm.trans (sort_perm items)).symm ?_ fun a first b second before after => ?_
  · refine List.pairwise_append.mpr ⟨part_sorted items _ ?_, part_sorted items _ ?_, fun a first b second => ?_⟩
    · exact fun a b one two => one.trans two.symm
    · exact fun a b one two => Bool.not_inj (one.trans two.symm)
    · have one := (List.mem_filter.mp first).2
      have two := (List.mem_filter.mp second).2
      simp only [Bool.not_eq_true'] at two
      simp [pinnedFirst, one, two]
  · have members := (perm.trans (sort_perm items)).subset
    refine ordered.same (members first) (members second) ?_
    simp only [pinnedFirst] at before after
    cases one : a.pinned <;> cases two : b.pinned <;> simp [one, two] at before after <;> omega

theorem orderedCameras_eq {hook : Hook} (sound : Sound hook) (site : Site) :
    orderedCameras hook site = (display site.cameras).shown (stored (layout hook site).cameras) := by
  rw [orderedCameras, sort_pinnedFirst (sound.layout site), List.filterMap_append, Display.shown, Display.part, Display.part, stored,
    List.filterMap_map, List.filterMap_map, List.filterMap_filter, List.filterMap_filter]
  refine congrArg₂ _ (List.filterMap_congr fun item _ => ?_) (List.filterMap_congr fun item _ => ?_)
  all_goals cases side : item.pinned <;> simp [display, card, side]

/-! ## The tiles -/

theorem tileOf_some {cameras : List SiteCamera} {cameraId : String} {pinned : Bool} {tile : Tile}
    (found : tileOf cameras cameraId pinned = some tile) :
    tile.camera ∈ cameras ∧ tile.camera.id = cameraId ∧ tile.pinned = pinned := by
  obtain ⟨camera, first, rfl⟩ := Option.map_eq_some_iff.mp found
  exact ⟨List.mem_of_find?_eq_some first, by simpa using List.find?_some first, rfl⟩

theorem tileOf_listed (site : Site) {camera : SiteCamera} (listed : camera ∈ site.cameras) (pinned : Bool) :
    tileOf site.cameras camera.id pinned = some ⟨camera, pinned⟩ := by
  rw [tileOf]
  cases found : site.cameras.find? fun other => other.id = camera.id with
  | none => simpa using List.find?_eq_none.mp found camera listed
  | some other =>
    have same : other.id = camera.id := by simpa using List.find?_some found
    rw [List.inj_on_of_nodup_map site.distinct (List.mem_of_find?_eq_some found) listed same]
    rfl

/-- The cards of a stored order name each camera once. -/
theorem stored_distinct (ordered : Ordered items) : ((stored items).map Prod.fst).Nodup := by
  rw [stored, ← ids_of_cards]
  exact ((sort_perm items).map _).nodup_iff.mpr ordered.distinct

theorem mem_stored {cameraId : String} {pinned : Bool} :
    (cameraId, pinned) ∈ stored items ↔ ∃ item ∈ items, item.cameraId = cameraId ∧ item.pinned = pinned := by
  rw [stored, List.mem_map]
  simp only [(sort_perm items).mem_iff, card, Prod.mk.injEq]

/-- No two tiles show the same camera. -/
theorem wall_distinct {hook : Hook} (sound : Sound hook) (site : Site) :
    ((orderedCameras hook site).map Tile.camera).Nodup := by
  rw [orderedCameras_eq sound]
  refine ((((display site.cameras).shown_perm _).map _).nodup_iff).mpr ?_
  refine List.pairwise_map.mpr (List.pairwise_filterMap.mpr ?_)
  refine (List.pairwise_map.mp (stored_distinct (sound.layout site))).imp fun apart one first two second same => apart ?_
  rw [← (tileOf_some first).2.1, ← (tileOf_some second).2.1, same]

theorem mem_wall {hook : Hook} (sound : Sound hook) (site : Site) (camera : SiteCamera) :
    camera ∈ (orderedCameras hook site).map Tile.camera ↔
      camera ∈ site.cameras ∧ ∃ item ∈ (layout hook site).cameras, item.cameraId = camera.id := by
  rw [orderedCameras_eq sound, (((display site.cameras).shown_perm _).map _).mem_iff, List.mem_map]
  simp only [List.mem_filterMap]
  constructor
  · rintro ⟨tile, ⟨shown, held, found⟩, rfl⟩
    obtain ⟨listed, named, -⟩ := tileOf_some found
    obtain ⟨item, member, same, -⟩ := mem_stored.mp held
    exact ⟨listed, item, member, same.trans named.symm⟩
  · rintro ⟨listed, item, member, same⟩
    refine ⟨⟨camera, item.pinned⟩, ⟨(camera.id, item.pinned), mem_stored.mpr ⟨item, member, same, rfl⟩, ?_⟩, rfl⟩
    exact tileOf_listed site listed item.pinned

/-! ## A drag -/

theorem stored_reindexed (items : List CameraLayoutItem) : stored (reindexed items) = items.map card := by
  have ascending : (reindexed items).Pairwise fun a b => byOrder a b ≤ 0 := by
    have orders := List.pairwise_lt_range (n := items.length)
    rw [← order_reindexed] at orders
    refine (List.pairwise_map.mp orders).imp fun before => ?_
    rw [byOrder]
    omega
  rw [stored, sort_of_sorted ascending, card_reindexed]

/-- A drag moves a card of the stored order by the two positions on the wall. -/
theorem wall_dragged {hook : Hook} (sound : Sound hook) (site : Site) {i j : Nat} (apart : i ≠ j)
    (inside : i < (layout hook site).cameras.length) :
    orderedCameras (drag hook site i j) site =
      (display site.cameras).shown (move (stored (layout hook site).cameras) i j) := by
  have dragged : drag hook site i j = { updateLayout hook site { layout hook site with
      cameras := reindexed (move (sort byOrder (layout hook site).cameras) i j) } with dragItem := none, dragOverItem := none } := by
    have held : i < (sort byOrder (layout hook site).cameras).length := by rwa [(sort_perm _).length_eq]
    exact (if_neg apart).trans (if_pos held)
  have saved : layout (drag hook site i j) site = { layout hook site with
      cameras := reindexed (move (sort byOrder (layout hook site).cameras) i j) } := by
    rw [dragged, layout, updateLayout]
    simp
  have after : Sound (drag hook site i j) :=
    ((sound.step (site, .onDragStart i)).step (site, .onDragOver j)).step (site, .onDragEnd)
  rw [orderedCameras_eq after, saved, stored_reindexed, map_move, stored]

theorem wall_undragged (hook : Hook) (site : Site) (i : Nat) :
    orderedCameras (drag hook site i i) site = orderedCameras hook site := by
  have dragged : drag hook site i i = { hook with dragItem := none, dragOverItem := none } := if_pos rfl
  rw [dragged]
  rfl

/-! ## What the operator sees -/

/-- Every camera of the site has an item in its layout. -/
def Listed (hook : Hook) (site : Site) : Prop :=
  ∀ camera ∈ site.cameras, ∃ item ∈ (layout hook site).cameras, item.cameraId = camera.id

/-- The camera at the place `k` of the stored order is there, and `k` tiles come before its own. -/
def InPlace (hook : Hook) (site : Site) (k : Nat) : Prop := (display site.cameras).InPlace (stored (layout hook site).cameras) k

instance (hook : Hook) (site : Site) (k : Nat) : Decidable (InPlace hook site k) :=
  inferInstanceAs (Decidable (Display.InPlace _ _ k))

/-- The tile from the position `i` stands at `j`, and the others are in their order. -/
def Moved (before after : List Tile) (i j : Nat) : Prop := after[j]? = before[i]? ∧ after.eraseIdx j = before.eraseIdx i

instance (before after : List Tile) (i j : Nat) : Decidable (Moved before after i j) := inferInstanceAs (Decidable (_ ∧ _))

theorem shows_all_iff {hook : Hook} (sound : Sound hook) (site : Site) :
    ((orderedCameras hook site).map Tile.camera).Perm site.cameras ↔ Listed hook site := by
  constructor
  · intro all camera listed
    exact ((mem_wall sound site camera).mp (all.symm.subset listed)).2
  · intro every
    refine (List.perm_ext_iff_of_nodup (wall_distinct sound site) (List.Nodup.of_map _ site.distinct)).mpr fun camera => ?_
    rw [mem_wall sound]
    exact ⟨And.left, fun listed => ⟨listed, every camera listed⟩⟩

theorem pinned_first {hook : Hook} (sound : Sound hook) (site : Site) :
    (orderedCameras hook site).Pairwise fun a b => b.pinned = true → a.pinned = true := by
  have side (front : Bool) : ∀ tile ∈ (display site.cameras).part front (stored (layout hook site).cameras), tile.pinned = front := by
    intro tile member
    obtain ⟨shown, _, found⟩ := List.mem_filterMap.mp member
    split at found
    · rename_i own
      exact (tileOf_some found).2.2.trans own
    · cases found
  rw [orderedCameras_eq sound, Display.shown]
  refine List.pairwise_append.mpr ⟨?_, ?_, fun a first b second _ => side true a first⟩
  · exact List.pairwise_of_forall_mem_list fun a first b _ _ => side true a first
  · exact List.pairwise_of_forall_mem_list fun a _ b second pinned => by rw [side false b second] at pinned; cases pinned

theorem moved_iff_inPlace {hook : Hook} (sound : Sound hook) (site : Site) {i j : Nat} {dragged other : Tile}
    (first : (orderedCameras hook site)[i]? = some dragged) (second : (orderedCameras hook site)[j]? = some other)
    (level : dragged.pinned = other.pinned) :
    Moved (orderedCameras hook site) (orderedCameras (drag hook site i j) site) i j ↔
      i = j ∨ InPlace hook site i ∧ InPlace hook site j := by
  by_cases apart : i = j
  · subst apart
    rw [wall_undragged, Moved]
    exact ⟨fun _ => .inl rfl, fun _ => ⟨rfl, rfl⟩⟩
  have distinct : (orderedCameras hook site).Nodup := (wall_distinct sound site).of_map _
  rw [orderedCameras_eq sound] at first second distinct ⊢
  have within := (List.getElem?_eq_some_iff.mp first).1
  have inside : i < (layout hook site).cameras.length := by
    have held := Nat.lt_of_lt_of_le within (Display.length_shown_le _)
    rwa [stored, List.length_map, (sort_perm _).length_eq] at held
  rw [Moved, wall_dragged sound site apart inside, or_iff_right apart]
  refine Display.move_shown_iff distinct within (List.getElem?_eq_some_iff.mp second).1 apart fun here there a held x under => ?_
  -- the cards at the two places are those of the two tiles
  obtain ⟨b, held', t, tile, shown⟩ := Display.inPlace_shown here
  obtain ⟨y, under', u, below, seen⟩ := Display.inPlace_shown there
  obtain rfl := Option.some.inj (held.symm.trans held')
  obtain rfl := Option.some.inj (under.symm.trans under')
  obtain rfl := Option.some.inj (first.symm.trans shown)
  obtain rfl := Option.some.inj (second.symm.trans seen)
  exact (tileOf_some below).2.2.symm.trans (level.symm.trans (tileOf_some tile).2.2)

/-- Whatever the operator did, and whichever cameras the site has by then: the wall shows
each of them once exactly if each has an item in the layout, always those with a pin
first; and a tile that is dragged onto another of its part stands there afterwards, with
all others in their order, exactly if it was dropped where it was taken, or both positions
show what stands at them in the stored order. -/
theorem wall_kept_iff {hook : Hook} (reached : Reached hook) (site : Site) :
    (((orderedCameras hook site).map Tile.camera).Perm site.cameras ↔ Listed hook site) ∧
    (orderedCameras hook site).Pairwise (fun a b => b.pinned = true → a.pinned = true) ∧
    ∀ i j dragged other, (orderedCameras hook site)[i]? = some dragged → (orderedCameras hook site)[j]? = some other →
      dragged.pinned = other.pinned →
      (Moved (orderedCameras hook site) (orderedCameras (drag hook site i j) site) i j ↔
        i = j ∨ InPlace hook site i ∧ InPlace hook site j) :=
  ⟨shows_all_iff reached.sound site, pinned_first reached.sound site,
    fun _ _ _ _ first second level => moved_iff_inPlace reached.sound site first second level⟩

private def gate : SiteCamera := ⟨"cam-1", "Gate"⟩
private def yard : SiteCamera := ⟨"cam-2", "Yard"⟩
private def dock : SiteCamera := ⟨"cam-3", "Dock"⟩
private def harbour : Site := ⟨"site-1", [gate, yard, dock], by decide⟩

/-- Without a pin and with all cameras there, the first tile dragged onto the last one stands there. -/
theorem plain_drag_kept : Moved (orderedCameras {} harbour) (orderedCameras (drag {} harbour 0 2) harbour) 0 2 :=
  ((wall_kept_iff ⟨[], rfl⟩ harbour).2.2 0 2 ⟨gate, false⟩ ⟨dock, false⟩ (by decide +kernel) (by decide +kernel) rfl).mpr
    (.inr (by decide +kernel))

/-- A camera that the site got after a column change is not on the wall; and with a pin on
the dock, the gate dragged onto the yard stays where it was. -/
theorem camera_missing_and_drag_lost :
    (¬ ((orderedCameras (exec act {} [(⟨"site-1", [gate, yard], by decide⟩, .setColumns 4)]) harbour).map Tile.camera).Perm
      harbour.cameras) ∧
    ¬ Moved (orderedCameras (exec act {} [(harbour, .togglePin "cam-3")]) harbour)
      (orderedCameras (drag (exec act {} [(harbour, .togglePin "cam-3")]) harbour 1 2) harbour) 1 2 := by
  decide +kernel

end Ironsight.CameraWall
