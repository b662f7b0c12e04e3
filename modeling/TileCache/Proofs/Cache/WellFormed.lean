import TileCache.Proofs.Cache.Index
import TileCache.Proofs.Geometry.Cells
import TileCache.Cache.Basic

/-!
# Well-formed caches

`Cache.WellFormed` is what holds of a cache whenever nobody works on it: the index has exactly one
entry for each tile, under the origin of the tile's cell; tiles stand on the grid; a tile has a
buffer unless it is being computed; there are no more tiles than the budget allows.

The updates that leave every tile on its cell keep a cache well-formed.  The others, which bring a
new cell in, are the subject of `Acquire`.  For each update there is also a lemma on the tiles one
by one (`getElem?_touch_self`, `getElem?_touch_ne`, …), so that the update need not be unfolded
again.
-/

set_option autoImplicit false

namespace TileCache.Cache

/-! ## Tiles one by one -/

/-- Do all tiles satisfy `P`? -/
def All (c : Cache) (P : Tile → Prop) : Prop :=
  ∀ (id : Nat) (tile : Tile), c.tiles[id]? = some tile → P tile

/-- What a cache is given when it is made, and whether it is still open. -/
structure SameSetting (c d : Cache) : Prop where
  info : d.info = c.info
  size : d.size = c.size
  budget : d.budget = c.budget
  isOpen : d.isOpen = c.isOpen

theorem SameSetting.trans {c d e : Cache} (h : SameSetting c d) (h' : SameSetting d e) :
    SameSetting c e :=
  ⟨h'.info.trans h.info, h'.size.trans h.size, h'.budget.trans h.budget, h'.isOpen.trans h.isOpen⟩

variable {c : Cache} {id j : Nat} {tile : Tile}

theorem lt_size (h : c.tiles[id]? = some tile) : id < c.tiles.size :=
  (Array.getElem?_eq_some_iff.1 h).1

theorem getElem?_setTile_self (h : id < c.tiles.size) (t : Tile) :
    (c.setTile id t).tiles[id]? = some t := by
  rw [setTile, Array.getElem?_setIfInBounds_self_of_lt h]

theorem getElem?_setTile_ne (h : j ≠ id) (t : Tile) :
    (c.setTile id t).tiles[j]? = c.tiles[j]? := by
  rw [setTile, Array.getElem?_setIfInBounds_ne h.symm]

/-- Replacing a tile by one that agrees with it in `f` changes no tile as far as `f` tells. -/
theorem map_setTile {α : Type} (f : Tile → α) {t : Tile} (ht : c.tiles[id]? = some tile)
    (hf : f t = f tile) (j : Nat) :
    ((c.setTile id t).tiles[j]?).map f = (c.tiles[j]?).map f := by
  by_cases hj : j = id
  · subst hj
    rw [getElem?_setTile_self (lt_size ht), ht, Option.map_some, Option.map_some, hf]
  · rw [getElem?_setTile_ne hj]

theorem touch_eq (h : c.tiles[id]? = some tile) :
    c.touch id = { c.setTile id { tile with lastUsed := c.clock } with
      index := c.index.promote tile.area.origin, clock := c.clock + 1 } := by
  rw [touch, h]

theorem touch_eq_self (h : c.tiles[id]? = none) : c.touch id = c := by
  rw [touch, h]

theorem getElem?_touch_self (h : c.tiles[id]? = some tile) :
    (c.touch id).tiles[id]? = some { tile with lastUsed := c.clock } := by
  rw [touch_eq h]
  exact getElem?_setTile_self (lt_size h) _

theorem getElem?_touch_ne (h : j ≠ id) : (c.touch id).tiles[j]? = c.tiles[j]? := by
  cases ht : c.tiles[id]? with
  | none => rw [touch_eq_self ht]
  | some tile =>
    rw [touch_eq ht]
    exact getElem?_setTile_ne h _

/-- Starting on a tile that has a buffer always gives a job for its cell. -/
theorem start_eq {region : Region} (h : c.tiles[id]? = some tile)
    (hr : tile.region? = some region) :
    c.start id =
      (((c.touch id).setTile id
          { tile with lastUsed := c.clock, region? := none, state := .computing }).count
          fun k => { k with computes := k.computes + 1 },
        .compute ⟨id, tile.area, region⟩) := by
  simp only [start, getElem?_touch_self h, Tile.checkout?, hr, Option.map_some]

theorem getElem?_start_self {region : Region} (h : c.tiles[id]? = some tile)
    (hr : tile.region? = some region) :
    (c.start id).1.tiles[id]?
      = some { tile with lastUsed := c.clock, region? := none, state := .computing } := by
  rw [start_eq h hr]
  exact getElem?_setTile_self (by rw [tiles_size_touch]; exact lt_size h) _

theorem getElem?_start_ne {region : Region} (h : c.tiles[id]? = some tile)
    (hr : tile.region? = some region) (hj : j ≠ id) :
    (c.start id).1.tiles[j]? = c.tiles[j]? := by
  rw [start_eq h hr]
  exact (getElem?_setTile_ne hj _).trans (getElem?_touch_ne hj)

theorem sameSetting_touch (c : Cache) (id : Nat) : SameSetting c (c.touch id) := by
  cases h : c.tiles[id]? with
  | none => rw [touch_eq_self h]; exact ⟨rfl, rfl, rfl, rfl⟩
  | some tile => rw [touch_eq h]; exact ⟨rfl, rfl, rfl, rfl⟩

theorem sameSetting_start {region : Region} (h : c.tiles[id]? = some tile)
    (hr : tile.region? = some region) : SameSetting c (c.start id).1 := by
  rw [start_eq h hr]
  exact (sameSetting_touch c id).trans ⟨rfl, rfl, rfl, rfl⟩

/-! ### Updates and the cells of tiles -/

theorem map_area_touch (c : Cache) (id j : Nat) :
    ((c.touch id).tiles[j]?).map Tile.area = (c.tiles[j]?).map Tile.area := by
  cases ht : c.tiles[id]? with
  | none => rw [touch_eq_self ht]
  | some tile =>
    rw [touch_eq ht]
    exact map_setTile Tile.area (t := { tile with lastUsed := c.clock }) ht rfl j

theorem map_area_checkin (c : Cache) (id : Nat) (region : Region) (painted : Bool) (j : Nat) :
    ((c.checkin id region painted).tiles[j]?).map Tile.area = (c.tiles[j]?).map Tile.area := by
  cases ht : c.tiles[id]? with
  | none => rw [checkin, ht]
  | some tile =>
    rw [checkin, ht]
    exact map_setTile Tile.area (t := tile.checkin region painted) ht rfl j

theorem map_area_complete (c : Cache) (id : Nat) (region : Region) (succeeded : Bool) (j : Nat) :
    ((c.complete id region succeeded).tiles[j]?).map Tile.area =
      (c.tiles[j]?).map Tile.area := by
  rw [complete]
  split
  · rfl
  · split
    · rw [map_area_touch, map_area_checkin]
    · exact map_area_checkin c.noteComputeFailure id region false j

theorem map_area_abandon (c : Cache) (id : Nat) (region : Region) (j : Nat) :
    ((c.abandon id region).tiles[j]?).map Tile.area = (c.tiles[j]?).map Tile.area := by
  rw [abandon]
  split
  · rfl
  · exact map_area_checkin c id region false j

/-! ### Updates and the setting -/

theorem sameSetting_checkin (c : Cache) (id : Nat) (region : Region) (painted : Bool) :
    SameSetting c (c.checkin id region painted) := by
  rw [checkin]
  split <;> exact ⟨rfl, rfl, rfl, rfl⟩

theorem sameSetting_complete (c : Cache) (id : Nat) (region : Region) (succeeded : Bool) :
    SameSetting c (c.complete id region succeeded) := by
  rw [complete]
  split
  · exact ⟨rfl, rfl, rfl, rfl⟩
  · split
    · exact (sameSetting_checkin c id region true).trans (sameSetting_touch _ id)
    · have hc : SameSetting c c.noteComputeFailure := ⟨rfl, rfl, rfl, rfl⟩
      exact hc.trans (sameSetting_checkin _ id region false)

theorem sameSetting_abandon (c : Cache) (id : Nat) (region : Region) :
    SameSetting c (c.abandon id region) := by
  rw [abandon]
  split
  · exact ⟨rfl, rfl, rfl, rfl⟩
  · exact sameSetting_checkin c id region false

/-! ## Well-formed caches -/

/-- The index and the tiles say the same: each tile has one entry, under the origin of its cell. -/
structure Indexed (c : Cache) : Prop where
  distinct : c.index.Distinct
  mem_index : ∀ cell id, (cell, id) ∈ c.index.entries ↔
    (c.tiles[id]?).map (·.area.origin) = some cell

/-- What holds of an open cache whenever nobody works on it. -/
structure WellFormed (c : Cache) : Prop extends Indexed c where
  onGrid : c.All fun t => c.size.IsCell t.area
  buffered : c.All fun t => t.region? = none ↔ t.state = .computing
  withinBudget : ∀ limit, c.budget.limit? = some limit → c.tiles.size ≤ limit

theorem Indexed.find? (h : c.Indexed) (ht : c.tiles[id]? = some tile) :
    c.index.find? tile.area.origin = some id := by
  rw [Recency.find?_eq_some_iff h.distinct, h.mem_index, ht, Option.map_some]

theorem Indexed.exists_tile (h : c.Indexed) {cell : Origin} (hf : c.index.find? cell = some id) :
    ∃ t, c.tiles[id]? = some t ∧ t.area.origin = cell := by
  have hm := (h.mem_index cell id).1 (Recency.mem_of_find? hf)
  rwa [Option.map_eq_some_iff] at hm

theorem Indexed.mem_ids_iff (h : c.Indexed) : id ∈ c.index.ids ↔ id < c.tiles.size := by
  rw [Recency.ids, List.mem_map]
  constructor
  · rintro ⟨⟨cell, i⟩, hm, rfl⟩
    obtain ⟨t, ht, -⟩ := Option.map_eq_some_iff.1 ((h.mem_index cell i).1 hm)
    exact lt_size ht
  · intro hid
    refine ⟨(c.tiles[id].area.origin, id), ?_, rfl⟩
    rw [h.mem_index, Array.getElem?_eq_getElem hid, Option.map_some]

/-- The index has as many entries as there are tiles. -/
theorem Indexed.size_index (h : c.Indexed) : c.index.size = c.tiles.size := by
  have hp : c.index.ids.Perm (List.range c.tiles.size) :=
    (List.perm_ext_iff_of_nodup h.distinct.ids List.nodup_range).2 fun i => by
      rw [h.mem_ids_iff, List.mem_range]
  have := hp.length_eq
  rwa [List.length_range, Recency.ids, List.length_map] at this

/-- Two tiles of a well-formed cache never stand on one cell. -/
theorem Indexed.id_eq (h : c.Indexed) {i j : Nat} {s t : Tile} (hs : c.tiles[i]? = some s)
    (ht : c.tiles[j]? = some t) (ho : s.area.origin = t.area.origin) : i = j := by
  have := h.find? hs
  rw [ho, h.find? ht] at this
  exact (Option.some.inj this).symm

/-- The tile that the index has for the origin of a cell stands on that cell. -/
theorem WellFormed.area_eq (h : c.WellFormed) {cell : Rect} (hcell : c.size.IsCell cell)
    (hf : c.index.find? cell.origin = some id) (ht : c.tiles[id]? = some tile) :
    tile.area = cell := by
  obtain ⟨t, ht', ho⟩ := h.exists_tile hf
  rw [ht] at ht'
  obtain rfl := Option.some.inj ht'
  exact (h.onGrid _ _ ht).eq_of_origin hcell ho

/-- Valid pixels of a cell are at hand if a valid tile stands on it. -/
theorem WellFormed.isCached_iff (h : c.WellFormed) {cell : Rect} (hcell : c.size.IsCell cell)
    {generation : Nat} : c.isCached generation cell.origin = true ↔
      ∃ (id : Nat) (t : Tile), c.tiles[id]? = some t ∧ t.area = cell ∧
        t.isValid generation = true := by
  rw [isCached]
  constructor
  · intro hc
    split at hc
    · rename_i t ht
      obtain ⟨id, hf, hid⟩ := Option.bind_eq_some_iff.1 ht
      exact ⟨id, t, hid, h.area_eq hcell hf hid, hc⟩
    · cases hc
  · rintro ⟨id, t, ht, rfl, hv⟩
    have htile : c.tileAt? t.area.origin = some t := by
      rw [tileAt?, h.find? ht]
      exact ht
    rw [htile]
    exact hv

/-- A valid tile has a buffer. -/
theorem WellFormed.exists_region_of_valid (h : c.WellFormed) (ht : c.tiles[id]? = some tile)
    {generation : Nat} (hv : tile.isValid generation = true) :
    ∃ region, tile.region? = some region := by
  refine Option.ne_none_iff_exists'.1 fun hnone => ?_
  rw [Tile.isValid, Tile.isPainted, (h.buffered id tile ht).1 hnone] at hv
  cases hv

/-! ### The cells of the tiles -/

/-- The cells on which tiles stand. -/
def areas (c : Cache) : List Rect := c.tiles.toList.map Tile.area

theorem length_areas (c : Cache) : c.areas.length = c.tiles.size := by
  rw [areas, List.length_map, Array.length_toList]

theorem mem_areas_iff {cell : Rect} :
    cell ∈ c.areas ↔ ∃ (id : Nat) (t : Tile), c.tiles[id]? = some t ∧ t.area = cell := by
  rw [areas, List.mem_map]
  constructor
  · rintro ⟨t, ht, rfl⟩
    obtain ⟨id, hid⟩ := List.mem_iff_getElem?.1 ht
    exact ⟨id, t, by rwa [Array.getElem?_toList] at hid, rfl⟩
  · rintro ⟨id, t, ht, rfl⟩
    exact ⟨t, List.mem_iff_getElem?.2 ⟨id, by rwa [Array.getElem?_toList]⟩, rfl⟩

theorem Indexed.nodup_areas (h : c.Indexed) : c.areas.Nodup := by
  rw [areas, List.nodup_iff_getElem?_ne_getElem?]
  intro i j hij hj he
  rw [List.length_map, Array.length_toList] at hj
  have hs := Array.getElem?_eq_getElem (show i < c.tiles.size by omega)
  have ht := Array.getElem?_eq_getElem hj
  rw [List.getElem?_map, List.getElem?_map, Array.getElem?_toList, Array.getElem?_toList, hs, ht,
    Option.map_some, Option.map_some] at he
  exact absurd (h.id_eq hs ht (congrArg Rect.origin (Option.some.inj he))) (Nat.ne_of_lt hij)

/-- A cell without an entry has no tile. -/
theorem WellFormed.find?_eq_none_iff (h : c.WellFormed) {cell : Rect}
    (hcell : c.size.IsCell cell) : c.index.find? cell.origin = none ↔ cell ∉ c.areas := by
  rw [← not_iff_not, not_not, ← ne_eq, Option.ne_none_iff_exists', mem_areas_iff]
  constructor
  · rintro ⟨id, hf⟩
    obtain ⟨t, ht, -⟩ := h.exists_tile hf
    exact ⟨id, t, ht, h.area_eq hcell hf ht⟩
  · rintro ⟨id, t, ht, rfl⟩
    exact ⟨id, h.find? ht⟩

theorem indexed_of_tiles_empty (ht : c.tiles = #[]) (hi : c.index = .empty) : c.Indexed := by
  refine ⟨hi ▸ Recency.distinct_empty, fun cell id => ?_⟩
  rw [ht, hi]
  simp [Recency.empty]

theorem wellFormed_create (info : ImageInfo) (size : TileSize) (budget : Budget) :
    (create info size budget).WellFormed where
  toIndexed := indexed_of_tiles_empty rfl rfl
  onGrid := fun id t h => by simp [create] at h
  buffered := fun id t h => by simp [create] at h
  withinBudget := fun _ _ => Nat.zero_le _

theorem wellFormed_close (c : Cache) : c.close.WellFormed where
  toIndexed := indexed_of_tiles_empty rfl rfl
  onGrid := fun id t h => by simp [close] at h
  buffered := fun id t h => by simp [close] at h
  withinBudget := fun _ _ => Nat.zero_le _

/-! ### Updates that keep the cells -/

theorem Indexed.setTile (h : c.Indexed) {t : Tile} (ht : c.tiles[id]? = some tile)
    (ha : t.area = tile.area) : (c.setTile id t).Indexed where
  distinct := h.distinct
  mem_index := fun cell j => by
    rw [map_setTile (fun t => t.area.origin) ht (congrArg Rect.origin ha)]
    exact h.mem_index cell j

theorem Indexed.touch (h : c.Indexed) (id : Nat) : (c.touch id).Indexed := by
  cases ht : c.tiles[id]? with
  | none => rwa [touch_eq_self ht]
  | some tile =>
    have hf := h.find? ht
    have hs : (c.setTile id { tile with lastUsed := c.clock }).Indexed := h.setTile ht rfl
    rw [touch_eq ht]
    refine ⟨h.distinct.promote hf, fun cell j => ?_⟩
    exact (Recency.mem_promote h.distinct hf).trans (hs.mem_index cell j)

theorem All.setTile {P : Tile → Prop} (h : c.All P) {t : Tile} (hP : P t) (id : Nat) :
    (c.setTile id t).All P := by
  intro j s hs
  by_cases hj : j = id
  · subst hj
    rw [getElem?_setTile_self (by simpa using lt_size hs)] at hs
    exact Option.some.inj hs ▸ hP
  · rw [getElem?_setTile_ne hj] at hs
    exact h j s hs

theorem All.touch {P : Tile → Prop} (h : c.All P)
    (hP : ∀ t n, P t → P { t with lastUsed := n }) (id : Nat) : (c.touch id).All P := by
  cases ht : c.tiles[id]? with
  | none => rwa [touch_eq_self ht]
  | some tile =>
    rw [touch_eq ht]
    exact All.setTile h (hP _ _ (h id tile ht)) id

theorem WellFormed.setTile (h : c.WellFormed) {t : Tile} (ht : c.tiles[id]? = some tile)
    (ha : t.area = tile.area) (hb : t.region? = none ↔ t.state = .computing) :
    (c.setTile id t).WellFormed where
  toIndexed := h.toIndexed.setTile ht ha
  onGrid := All.setTile h.onGrid (ha ▸ h.onGrid id tile ht) id
  buffered := All.setTile h.buffered hb id
  withinBudget := fun limit hl => by rw [tiles_size_setTile]; exact h.withinBudget limit hl

theorem WellFormed.touch (h : c.WellFormed) (id : Nat) : (c.touch id).WellFormed where
  toIndexed := h.toIndexed.touch id
  onGrid := by
    rw [(sameSetting_touch c id).size]
    exact All.touch h.onGrid (fun _ _ ht => ht) id
  buffered := All.touch h.buffered (fun _ _ ht => ht) id
  withinBudget := by
    rw [(sameSetting_touch c id).budget, tiles_size_touch]
    exact h.withinBudget

theorem WellFormed.count (h : c.WellFormed) (f : Counters → Counters) :
    (c.count f).WellFormed :=
  ⟨⟨h.distinct, h.mem_index⟩, h.onGrid, h.buffered, h.withinBudget⟩

theorem WellFormed.noteAllocationFailure (h : c.WellFormed) :
    c.noteAllocationFailure.WellFormed :=
  h.count _

theorem WellFormed.noteExhausted (h : c.WellFormed) : c.noteExhausted.WellFormed :=
  h.count _

theorem WellFormed.start (h : c.WellFormed) {region : Region} (ht : c.tiles[id]? = some tile)
    (hr : tile.region? = some region) : (c.start id).1.WellFormed := by
  rw [start_eq ht hr]
  dsimp only
  refine WellFormed.count ?_ _
  exact (h.touch id).setTile (getElem?_touch_self ht) rfl ⟨fun _ => rfl, fun _ => rfl⟩

theorem WellFormed.checkin (h : c.WellFormed) (id : Nat) (region : Region) (painted : Bool) :
    (c.checkin id region painted).WellFormed := by
  cases ht : c.tiles[id]? with
  | none => rwa [Cache.checkin, ht]
  | some tile =>
    rw [Cache.checkin, ht]
    refine h.setTile ht rfl ⟨nofun, fun hs => ?_⟩
    cases painted <;> cases hs

theorem WellFormed.complete (h : c.WellFormed) (id : Nat) (region : Region) (succeeded : Bool) :
    (c.complete id region succeeded).WellFormed := by
  rw [Cache.complete]
  split
  · exact h
  · split
    · exact (h.checkin id region true).touch id
    · exact (h.count _).checkin id region false

theorem WellFormed.abandon (h : c.WellFormed) (id : Nat) (region : Region) :
    (c.abandon id region).WellFormed := by
  rw [Cache.abandon]
  split
  · exact h
  · exact h.checkin id region false

end TileCache.Cache
