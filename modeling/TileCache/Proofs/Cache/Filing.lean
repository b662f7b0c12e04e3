import TileCache.Proofs.Sink.Allocation
import Mathlib.Data.List.Dedup

/-!
# Requests in a cache without a bound

A cache without a bound never takes a tile away.  If all its tiles are valid or in computation, a
request for a cell either finds the tile of the cell, or makes a new one and starts on it, or fails
because the cell cannot have a buffer (`files_acquire`).  So the tiles stand on the cells that were
asked for, each of them was started on once, and nothing depends on the order (`Filed`).
-/

set_option autoImplicit false

namespace TileCache.Cache

variable {c d : Cache} {info : ImageInfo} {generation id : Nat} {cell : Rect} {tile : Tile}
  {requests : List Rect}

/-! ## The cells of the tiles -/

/-- Updates that leave every tile on its cell leave the list of cells alone. -/
theorem areas_congr (h : ∀ j : Nat, (d.tiles[j]?).map Tile.area = (c.tiles[j]?).map Tile.area) :
    d.areas = c.areas := by
  refine List.ext_getElem? fun j => ?_
  rw [areas, areas, List.getElem?_map, List.getElem?_map, Array.getElem?_toList,
    Array.getElem?_toList]
  exact h j

theorem areas_touch (c : Cache) (id : Nat) : (c.touch id).areas = c.areas :=
  areas_congr (map_area_touch c id)

theorem areas_complete (c : Cache) (id : Nat) (region : Region) (succeeded : Bool) :
    (c.complete id region succeeded).areas = c.areas :=
  areas_congr (map_area_complete c id region succeeded)

theorem areas_start {region : Region} (ht : c.tiles[id]? = some tile)
    (hr : tile.region? = some region) : (c.start id).1.areas = c.areas := by
  refine areas_congr fun j => ?_
  by_cases hj : j = id
  · subst hj
    rw [getElem?_start_self ht hr, ht]
    rfl
  · rw [getElem?_start_ne ht hr hj]

theorem areas_add (c : Cache) (cell : Origin) (tile : Tile) :
    (c.add cell tile).areas = c.areas ++ [tile.area] := by
  rw [areas, add, Array.toList_push, List.map_append]
  rfl

/-! ## Requests -/

/-- Are all tiles valid or in computation? -/
def IsCurrent (c : Cache) (generation : Nat) : Prop :=
  c.All fun t => t.state = .computing ∨ t.isValid generation = true

theorem IsCurrent.acquire (hw : c.WellFormed) (h : c.IsCurrent generation) (cell : Rect) :
    (c.acquire generation cell).1.IsCurrent generation := by
  intro j t ht
  rcases getElem?_acquire hw generation cell j with ⟨s, n, hs, hn⟩ | ⟨-, hn⟩ | ⟨d, tile, hp, hd⟩
  · rw [hn] at ht
    exact Option.some.inj ht ▸ h j s hs
  · rw [hn] at ht
    cases ht
  · obtain ⟨region, hr⟩ := hp.exists_region hw
    rw [hd, getElem?_start_self hp.stands hr] at ht
    exact .inl (Option.some.inj ht ▸ rfl)

/-- A computation that ends with fresh pixels leaves all tiles as they should be. -/
theorem IsCurrent.complete (h : c.IsCurrent generation)
    {region : Region} (hfresh : region.isStale generation = false) (id : Nat) :
    (c.complete id region true).IsCurrent generation := by
  refine All.complete (fun _ ht => ht) h fun _ t _ => .inr ?_
  rw [Tile.isValid, Tile.isStale, Tile.checkin]
  exact congrArg not hfresh

/-- What a request can come to in a cache without a bound: what is left of the cache, and the job
that is handed out. -/
inductive Files (info : ImageInfo) (c : Cache) (cell : Rect) : Cache → Option Job → Prop
  /-- The cell has a tile already, or cannot have one. -/
  | kept {d : Cache} (known : cell ∈ c.areas ∨ Allocatable info cell = false)
      (areas : d.areas = c.areas) (computes : d.counters.computes = c.counters.computes) :
      Files info c cell d none
  /-- The cell gets a tile, which is started on. -/
  | started {d : Cache} {job : Job} (new : cell ∉ c.areas)
      (allocatable : Allocatable info cell = true) (area : job.area = cell)
      (areas : d.areas = c.areas ++ [cell])
      (computes : d.counters.computes = c.counters.computes + 1) :
      Files info c cell d (some job)

/-- **A cell is started on if it is new.** -/
theorem files_acquire (hw : c.WellFormed) (ho : c.isOpen = true) (hinfo : c.info = info)
    (hbound : c.budget.limit? = none) (h : c.IsCurrent generation) (hcell : c.size.IsCell cell) :
    Files info c cell (c.acquire generation cell).1
      (Sink.handedOut (c.acquire generation cell).2) := by
  have known : ∀ {id : Nat} {t : Tile}, c.index.find? cell.origin = some id →
      c.tiles[id]? = some t → cell ∈ c.areas := fun hf ht =>
    mem_areas_iff.2 ⟨_, _, ht, hw.area_eq hcell hf ht⟩
  have room : c.budget.allows c.tiles.size ≠ false := by
    intro hfull
    obtain ⟨limit, hlimit, -⟩ := exists_limit_of_full hfull
    rw [hbound] at hlimit
    cases hlimit
  have denied : ∀ {setback : Setback}, c.LacksBuffer cell setback →
      Allocatable info cell = false := by
    intro setback lacks
    cases lacks with
    | new _ failed => exact allocatable_of_buffer_error (buffer_of_create_error (hinfo ▸ failed))
    | reused full _ _ _ => exact absurd full room
  have ha := acquisition hw.toIndexed ho generation cell
  generalize c.acquire generation cell = r at ha ⊢
  cases ha with
  | hit found stands _ =>
    exact .kept (.inl (known found stands)) (areas_touch _ _) (by rw [counters_touch]; rfl)
  | busy found stands _ =>
    exact .kept (.inl (known found stands)) (areas_touch _ _) (by rw [counters_touch])
  | started ready =>
    cases ready with
    | inPlace found stands free invalid =>
      have hcurrent := (h _ _ stands).resolve_left free
      rw [invalid] at hcurrent
      cases hcurrent
    | @added tile missing _ made =>
      obtain ⟨region, hb, rfl⟩ := create_eq_ok made
      have ht := getElem?_add_self c cell.origin ⟨cell, some region, .blank, 0⟩
      have hjob := start_eq ht rfl
      have hok : Allocatable info cell = true := by
        rw [Allocatable, ← hinfo, hb]
        rfl
      rw [hjob]
      refine .started ((hw.find?_eq_none_iff hcell).1 missing) hok rfl ?_ ?_
      · rw [← hjob, areas_start ht rfl, areas_add]
      · rw [← hjob, counters_start ht rfl]
        rfl
    | moved _ full _ _ _ _ => exact absurd full room
  | refused _ lacks => exact .kept (.inr (denied lacks)) rfl rfl
  | broke _ lacks => exact .kept (.inr (denied lacks)) rfl rfl
  | exhausted _ full _ => exact absurd full room

/-! ## What has been asked for -/

/-- The tiles stand on the cells that were asked for, as far as these can have a buffer, and each of
them was started on once. -/
structure Filed (c : Cache) (info : ImageInfo) (requests : List Rect) : Prop where
  mem_areas : ∀ cell, cell ∈ c.areas ↔ cell ∈ requests ∧ Allocatable info cell = true
  computes : c.counters.computes = c.tiles.size

/-- One more cell is asked for. -/
theorem Filed.request (h : c.Filed info requests) {job? : Option Job}
    (hf : Files info c cell d job?) : d.Filed info (requests ++ [cell]) := by
  have hmem : ∀ other, other ∈ requests ++ [cell] ∧ Allocatable info other = true ↔
      other ∈ c.areas ∨ other = cell ∧ Allocatable info other = true := by
    intro other
    rw [List.mem_append, List.mem_singleton, or_and_right, h.mem_areas]
  cases hf with
  | kept known areas computes =>
    refine ⟨fun other => ?_, ?_⟩
    · rw [hmem, areas]
      refine ⟨.inl, fun ho => ho.elim (fun hm => hm) ?_⟩
      rintro ⟨rfl, hok⟩
      refine known.resolve_right fun hno => ?_
      rw [hok] at hno
      cases hno
    · rw [computes, h.computes, ← length_areas, ← length_areas, areas]
  | started new allocatable area areas computes =>
    refine ⟨fun other => ?_, ?_⟩
    · rw [hmem, areas, List.mem_append, List.mem_singleton]
      refine or_congr_right ⟨?_, fun ho => ho.1⟩
      rintro rfl
      exact ⟨rfl, allocatable⟩
    · rw [computes, h.computes, ← length_areas, ← length_areas, areas, List.length_append]
      rfl

/-- A cache whose tiles stay on their cells, with the same count. -/
theorem Filed.congr (h : c.Filed info requests) (hareas : d.areas = c.areas)
    (hcomputes : d.counters.computes = c.counters.computes) : d.Filed info requests where
  mem_areas := hareas ▸ h.mem_areas
  computes := by
    rw [hcomputes, h.computes, ← length_areas, ← length_areas, hareas]

/-- There is exactly one tile for each cell that was asked for and can have a buffer. -/
theorem Filed.areas_perm (h : c.Filed info requests) (hi : c.Indexed) :
    c.areas.Perm (requests.filter (Allocatable info)).dedup := by
  refine (List.perm_ext_iff_of_nodup hi.nodup_areas (List.nodup_dedup _)).2 fun cell => ?_
  rw [h.mem_areas, List.mem_dedup, List.mem_filter]

end TileCache.Cache
