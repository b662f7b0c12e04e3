import TileCache.Proofs.Cache.Idle

/-!
# A cache as a list of cells

The textbook account of a cache that gives up what was not used for longest is a list: a request
moves its cell to the front, and if that makes the list too long, the last cell is dropped
(`Lru.use`).  Our cache works with numbers of tiles, moves tiles from cell to cell, and notes a use
twice when a tile is computed.  All of that is not to be seen in the list of its cells:
`Cache.lru` reads an `Lru` off a cache, and a request that an idle cache serves does to it what
`Lru.use` does (`Gives.lru`).

The order of the cells is that of the index, so everything comes down to what the operations on the
index do to its list of cells (`cells_insert`, `cells_promote`, `cells_move`).
-/

set_option autoImplicit false

namespace TileCache

/-! ## The textbook -/

/-- The cells that are kept, the one used last in front, and how many were dropped so far. -/
structure Lru where
  cells : List Rect
  dropped : Nat

namespace Lru

def empty : Lru := ⟨[], 0⟩

/-- Uses a cell.  If there are more cells than `capacity` then, the last one is dropped. -/
def use (capacity : Option Nat) (l : Lru) (cell : Rect) : Lru :=
  let cells := cell :: l.cells.erase cell
  if capacity.any (· < cells.length) then ⟨cells.dropLast, l.dropped + 1⟩ else ⟨cells, l.dropped⟩

variable {capacity : Option Nat} {l : Lru} {cell : Rect}

theorem use_of_mem (hle : ∀ limit, capacity = some limit → l.cells.length ≤ limit)
    (h : cell ∈ l.cells) : l.use capacity cell = ⟨cell :: l.cells.erase cell, l.dropped⟩ := by
  have hlength : (cell :: l.cells.erase cell).length = l.cells.length :=
    (List.perm_cons_erase h).length_eq.symm
  refine if_neg ?_
  rw [hlength]
  cases capacity with
  | none => exact Bool.false_ne_true
  | some limit => simpa using hle limit rfl

theorem use_of_room (hlt : ∀ limit, capacity = some limit → l.cells.length < limit)
    (h : cell ∉ l.cells) : l.use capacity cell = ⟨cell :: l.cells, l.dropped⟩ := by
  rw [use, List.erase_of_not_mem h]
  refine if_neg ?_
  cases capacity with
  | none => exact Bool.false_ne_true
  | some limit => simpa [Nat.succ_le_iff] using hlt limit rfl

theorem use_of_full {limit : Nat} (hlimit : capacity = some limit)
    (hle : limit ≤ l.cells.length) (hne : l.cells ≠ []) (h : cell ∉ l.cells) :
    l.use capacity cell = ⟨cell :: l.cells.dropLast, l.dropped + 1⟩ := by
  rw [use, List.erase_of_not_mem h, hlimit, if_pos (by simpa using Nat.lt_succ_of_le hle),
    List.dropLast_cons_of_ne_nil hne]

end Lru

/-! ## The cells of an index -/

namespace Recency

/-- The cells with an entry, the one used last in front. -/
def cells (r : Recency) : List Origin := r.entries.map (·.1)

variable {r : Recency} {cell source target : Origin} {id : Nat}

theorem cells_erase (r : Recency) (cell : Origin) : (r.erase cell).cells = r.cells.erase cell := by
  rw [cells, cells, erase, List.erase_eq_eraseP, List.eraseP_map]
  refine congrArg (List.map _) (congrArg (fun p => List.eraseP p r.entries) (funext fun e => ?_))
  rw [Function.comp, Bool.eq_iff_iff, beq_iff_eq, beq_iff_eq]
  exact eq_comm

theorem cells_insert (r : Recency) (cell : Origin) (id : Nat) :
    (r.insert cell id).cells = cell :: r.cells.erase cell := by
  rw [← cells_erase]
  rfl

theorem cells_promote (h : r.find? cell = some id) :
    (r.promote cell).cells = cell :: r.cells.erase cell := by
  rw [promote, h]
  exact cells_insert r cell id

theorem mem_cells_iff : cell ∈ r.cells ↔ r.find? cell ≠ none := by
  rw [cells, List.mem_map, ne_eq, find?_eq_none_iff, not_forall]
  constructor
  · rintro ⟨⟨c, i⟩, hm, rfl⟩
    exact ⟨i, not_not.2 hm⟩
  · rintro ⟨i, hi⟩
    exact ⟨_, not_not.1 hi, rfl⟩

theorem cells_move (hs : r.find? source = some id) (ht : r.find? target = none) :
    (r.move source target).cells = target :: r.cells.erase source := by
  have hne : source ≠ target := by
    rintro rfl
    rw [hs] at ht
    cases ht
  have hfree : target ∉ r.cells.erase source := fun hm =>
    mem_cells_iff.1 (List.mem_of_mem_erase hm) ht
  rw [move, if_neg hne, hs]
  dsimp only
  rw [cells_insert, cells_erase, List.erase_of_not_mem hfree]

end Recency

/-! ## The cells of a cache -/

/-- The cell with this origin. -/
def TileSize.cellFrom (size : TileSize) (origin : Origin) : Rect :=
  ⟨origin.left, origin.top, size.width, size.height⟩

theorem TileSize.cellFrom_injective (size : TileSize) : Function.Injective size.cellFrom :=
  fun _ _ h => congrArg Rect.origin h

theorem TileSize.IsCell.cellFrom_origin {size : TileSize} {cell : Rect} (h : size.IsCell cell) :
    size.cellFrom cell.origin = cell := by
  rw [cellFrom, ← h.width, ← h.height]
  rfl

namespace Cache

variable {c d : Cache} {id : Nat} {tile : Tile} {generation : Nat} {cell : Rect}

/-- The cache as the textbook sees it. -/
def lru (c : Cache) : Lru := ⟨c.listTiles.map (·.area), c.counters.evictions⟩

/-- The cells of the tiles are those of the index. -/
theorem cells_lru (hw : c.WellFormed) : c.lru.cells = c.index.cells.map c.size.cellFrom := by
  rw [lru, listTiles, Recency.ids, List.filterMap_map, List.map_filterMap, Recency.cells,
    List.map_map, ← List.filterMap_eq_map]
  refine List.filterMap_congr fun e he => ?_
  obtain ⟨t, ht, ho⟩ := Option.map_eq_some_iff.1 ((hw.mem_index e.1 e.2).1 he)
  show (c.tiles[e.2]?).map Tile.area = some (c.size.cellFrom e.1)
  rw [ht, Option.map_some, ← ho, (hw.onGrid _ _ ht).cellFrom_origin]

theorem mem_lru_iff (hw : c.WellFormed) (hcell : c.size.IsCell cell) :
    cell ∈ c.lru.cells ↔ c.index.find? cell.origin ≠ none := by
  rw [cells_lru hw, ← Recency.mem_cells_iff, ← hcell.cellFrom_origin,
    List.mem_map_of_injective c.size.cellFrom_injective]
  rfl

theorem length_lru (hw : c.WellFormed) : c.lru.cells.length = c.tiles.size := by
  rw [cells_lru hw, List.length_map, Recency.cells, List.length_map]
  exact hw.size_index

theorem map_cellFrom_erase (hcell : c.size.IsCell cell) (l : List Origin) :
    (cell.origin :: l.erase cell.origin).map c.size.cellFrom =
      cell :: (l.map c.size.cellFrom).erase cell := by
  rw [List.map_cons, List.map_erase c.size.cellFrom_injective, hcell.cellFrom_origin]

/-- The use of a tile moves its cell to the front. -/
theorem lru_touch (hw : c.WellFormed) (ht : c.tiles[id]? = some tile) :
    (c.touch id).lru = ⟨tile.area :: c.lru.cells.erase tile.area, c.lru.dropped⟩ := by
  have hcells : (c.touch id).lru.cells = tile.area :: c.lru.cells.erase tile.area := by
    have hindex : (c.touch id).index = c.index.promote tile.area.origin := by rw [touch_eq ht]
    rw [cells_lru (hw.touch id), (sameSetting_touch c id).size, hindex,
      Recency.cells_promote (hw.find? ht), map_cellFrom_erase (hw.onGrid _ _ ht), ← cells_lru hw]
  calc (c.touch id).lru = ⟨(c.touch id).lru.cells, (c.touch id).counters.evictions⟩ := rfl
    _ = _ := by rw [hcells, counters_touch]; rfl

theorem lru_start (hw : c.WellFormed) (ht : c.tiles[id]? = some tile) {region : Region}
    (hr : tile.region? = some region) :
    (c.start id).1.lru = ⟨tile.area :: c.lru.cells.erase tile.area, c.lru.dropped⟩ := by
  have hcells : (c.start id).1.lru.cells = (c.touch id).lru.cells := by
    rw [cells_lru (hw.start ht hr), cells_lru (hw.touch id), start_eq ht hr]
    rfl
  calc (c.start id).1.lru = ⟨(c.start id).1.lru.cells, (c.start id).1.counters.evictions⟩ := rfl
    _ = (c.touch id).lru := by
      rw [hcells, counters_start ht hr]
      show Lru.mk _ c.counters.evictions = ⟨_, (c.touch id).counters.evictions⟩
      rw [counters_touch]
      rfl
    _ = _ := lru_touch hw ht

/-- A new tile puts its cell in front. -/
theorem lru_add (hw : c.WellFormed) (hcell : c.size.IsCell cell)
    (hn : c.index.find? cell.origin = none) {d : Cache} (hd : d = c.add cell.origin tile)
    (hwd : d.WellFormed) : d.lru = ⟨cell :: c.lru.cells, c.lru.dropped⟩ := by
  have hnot : cell.origin ∉ c.index.cells := fun hm => Recency.mem_cells_iff.1 hm hn
  have hcells : d.lru.cells = cell :: c.lru.cells := by
    rw [cells_lru hwd, cells_lru hw, hd]
    show (c.index.insert _ _).cells.map c.size.cellFrom = _
    rw [Recency.cells_insert, List.erase_of_not_mem hnot, List.map_cons, hcell.cellFrom_origin]
  calc d.lru = ⟨d.lru.cells, d.counters.evictions⟩ := rfl
    _ = _ := by rw [hcells, hd]; rfl

/-- A tile that is taken over is that of the last cell, and its new cell stands in front. -/
theorem lru_relocate (hw : c.WellFormed) (hidle : c.IsIdle) (hcell : c.size.IsCell cell)
    (hn : c.index.find? cell.origin = none) (hv : c.victim? = some id) {old : Tile}
    (hs : c.tiles[id]? = some old) {d : Cache}
    (hd : d = c.relocate id old.area.origin cell.origin tile) (hwd : d.WellFormed) :
    d.lru = ⟨cell :: c.lru.cells.dropLast, c.lru.dropped + 1⟩ := by
  obtain ⟨front, hfront⟩ : ∃ front, c.index.cells = front ++ [old.area.origin] := by
    rw [victim?_of_isIdle hw.toIndexed hidle, Recency.ids, List.getLast?_map,
      Option.map_eq_some_iff] at hv
    obtain ⟨⟨o, i⟩, hlast, rfl⟩ := hv
    obtain ⟨front, hfront⟩ := List.getLast?_eq_some_iff.1 hlast
    have hm : (o, i) ∈ c.index.entries := List.mem_of_getLast? hlast
    have ho := (hw.mem_index o i).1 hm
    rw [hs, Option.map_some, Option.some.injEq] at ho
    exact ⟨front.map (·.1), by rw [Recency.cells, hfront, List.map_append, ho]; rfl⟩
  have hlast : old.area.origin ∉ front := fun hm => by
    have hnodup := hw.distinct.cells
    change c.index.cells.Nodup at hnodup
    rw [hfront] at hnodup
    exact (List.nodup_append.1 hnodup).2.2 _ hm _ List.mem_cons_self rfl
  have hcells : d.lru.cells = cell :: c.lru.cells.dropLast := by
    rw [cells_lru hwd, cells_lru hw, hd]
    show (c.index.move _ _).cells.map c.size.cellFrom = _
    rw [Recency.cells_move (hw.find? hs) hn, hfront, List.erase_append_right _ hlast,
      List.erase_cons_head, List.append_nil, List.map_cons, hcell.cellFrom_origin, List.map_append]
    exact congrArg (List.cons cell) List.dropLast_concat.symm
  calc d.lru = ⟨d.lru.cells, d.counters.evictions⟩ := rfl
    _ = _ := by rw [hcells, hd]; rfl

/-! ## Requests -/

theorem length_lt_of_allows (h : c.budget.allows c.tiles.size = true) :
    ∀ limit, c.budget.limit? = some limit → c.tiles.size < limit :=
  fun limit hl => budget_le_of_allows h limit hl

/-- To get ready for a cell and then use it is what the textbook does. -/
theorem Prepared.lru_start (hw : c.WellFormed) (hidle : c.IsIdle) (hcell : c.size.IsCell cell)
    (h : Prepared c generation cell d id tile) :
    (d.start id).1.lru = c.lru.use c.budget.limit? cell := by
  obtain ⟨region, hr⟩ := h.exists_region hw
  have hwd := h.wellFormed hw hcell
  have hstart := Cache.lru_start hwd h.stands hr
  rw [h.area hw hcell] at hstart
  rw [hstart]
  have hlength := length_lru hw
  cases h with
  | inPlace hf _ _ _ =>
    have hm : cell ∈ c.lru.cells := (mem_lru_iff hw hcell).2 (by rw [hf]; exact nofun)
    exact (Lru.use_of_mem (fun limit hl => hlength ▸ hw.withinBudget limit hl) hm).symm
  | added hn hroom _ =>
    have hm : cell ∉ c.lru.cells := fun hm => (mem_lru_iff hw hcell).1 hm hn
    rw [lru_add hw hcell hn rfl hwd, List.erase_cons_head]
    exact (Lru.use_of_room (fun limit hl => hlength ▸ length_lt_of_allows hroom limit hl) hm).symm
  | moved hn hfull hv hs _ _ =>
    have hm : cell ∉ c.lru.cells := fun hm => (mem_lru_iff hw hcell).1 hm hn
    obtain ⟨limit, hl, hle⟩ := exists_limit_of_full hfull
    have hne : c.lru.cells ≠ [] := fun he => by
      have hpos := size_pos_of_full hfull
      rw [← hlength, he] at hpos
      cases hpos
    rw [lru_relocate hw hidle hcell hn hv hs rfl hwd, List.erase_cons_head]
    exact (Lru.use_of_full hl (hlength ▸ hle) hne hm).symm

/-- **A request that an idle cache serves is one use of the textbook.** -/
theorem Gives.lru (hw : c.WellFormed) (hidle : c.IsIdle) (hcell : c.size.IsCell cell)
    {r : Cache × Acquired} (h : Gives c generation cell r) :
    r.1.lru = c.lru.use c.budget.limit? cell := by
  cases h with
  | @hit id t hf ht _ =>
    have hm : cell ∈ c.lru.cells := (mem_lru_iff hw hcell).2 (by rw [hf]; exact nofun)
    have htouch := lru_touch (hw.count fun k => { k with hits := k.hits + 1 }) ht
    rw [hw.area_eq hcell hf ht] at htouch
    rw [Lru.use_of_mem (fun limit hl => length_lru hw ▸ hw.withinBudget limit hl) hm]
    exact htouch
  | started ready => exact ready.lru_start hw hidle hcell

/-! ## Jobs that come back -/

/-- The tile of a job that has just been handed out is the one used last. -/
theorem head?_of_compute (hw : c.WellFormed) (hcell : c.size.IsCell cell) {job : Job}
    (h : c.acquire generation cell = (d, .compute job)) :
    d.index.ids.head? = some job.tile := by
  obtain ⟨d₀, tile, hp, rfl, hr, -⟩ := prepared_of_compute hw h
  have hwd := hp.wellFormed hw hcell
  have hindex : (d₀.start job.tile).1.index = d₀.index.promote tile.area.origin := by
    rw [start_eq hp.stands hr, touch_eq hp.stands]
    rfl
  rw [hindex, Recency.ids_promote hwd.distinct (hwd.find? hp.stands), List.head?_cons]

/-- Another use of the tile used last changes nothing. -/
theorem lru_touch_of_head? (hw : c.WellFormed) (h : c.index.ids.head? = some id) :
    (c.touch id).lru = c.lru := by
  rw [Recency.ids, List.head?_map, Option.map_eq_some_iff] at h
  obtain ⟨⟨o, i⟩, hhead, rfl⟩ := h
  obtain ⟨rest, hrest⟩ := List.head?_eq_some_iff.1 hhead
  obtain ⟨t, ht, rfl⟩ := Option.map_eq_some_iff.1
    ((hw.mem_index o i).1 (hrest ▸ List.mem_cons_self))
  have hcells : c.lru.cells = t.area :: (rest.map (·.1)).map c.size.cellFrom := by
    rw [cells_lru hw, Recency.cells, hrest, List.map_cons, List.map_cons,
      (hw.onGrid _ _ ht).cellFrom_origin]
  rw [lru_touch hw ht, hcells, List.erase_cons_head, ← hcells]

theorem lru_checkin (hw : c.WellFormed) (id : Nat) (region : Region) (painted : Bool) :
    (c.checkin id region painted).lru = c.lru := by
  have hcells : (c.checkin id region painted).lru.cells = c.lru.cells := by
    rw [cells_lru (hw.checkin id region painted), cells_lru hw,
      (sameSetting_checkin c id region painted).size, checkin]
    split <;> rfl
  have hcounters : (c.checkin id region painted).counters = c.counters := by
    rw [checkin]
    split <;> rfl
  calc (c.checkin id region painted).lru
      = ⟨(c.checkin id region painted).lru.cells,
          (c.checkin id region painted).counters.evictions⟩ := rfl
    _ = c.lru := by rw [hcells, hcounters]; rfl

/-- The end of a call does not change the list, if the tile is still the one used last. -/
theorem lru_complete (hw : c.WellFormed) (h : c.index.ids.head? = some id) (region : Region)
    (succeeded : Bool) : (c.complete id region succeeded).lru = c.lru := by
  rw [complete]
  split
  · rfl
  · split
    · have hindex : (c.checkin id region true).index = c.index := by
        rw [checkin]
        split <;> rfl
      rw [lru_touch_of_head? (hw.checkin id region true) (hindex ▸ h), lru_checkin hw]
    · exact lru_checkin (c := c.noteComputeFailure) (hw.count _) id region false

theorem lru_abandon (hw : c.WellFormed) (id : Nat) (region : Region) :
    (c.abandon id region).lru = c.lru := by
  rw [abandon]
  split
  · rfl
  · exact lru_checkin hw id region false

end Cache

end TileCache
