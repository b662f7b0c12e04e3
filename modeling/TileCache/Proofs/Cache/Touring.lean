import TileCache.Proofs.Cache.Order
import TileCache.Proofs.Sink.Allocation
import Mathlib.Data.List.Perm.Subperm

/-!
# Asking for several cells in turn

One cell after the other is asked for, each of them once, and computations may end in between.  If
the cells are no more than the tiles that the cache may have, then none of them is given up again
for a later one.  What is at hand at the beginning does not matter: the tile of a cell that is still
to come may well be taken over before its turn, and then it has to be computed again.

The reason is a count.  `Touring` says that every cell asked for so far has a tile that was used
since the tour began, and that no other tile was used since.  While there are fewer cells than tiles
some tile was not used, hence neither was the oldest one that nobody computes, and so it is not on a
cell that was asked for (`Touring.victim_not_asked`).

* `Touring.begin`: the tour begins when nobody computes.
* `Touring.acquire`, `Touring.complete`: it goes on with every request, and when a job comes back.
* `Touring.isCached`: when all jobs have come back, valid pixels of all cells are at hand.
-/

set_option autoImplicit false

namespace TileCache.Cache

variable {c : Cache} {info : ImageInfo} {generation since : Nat} {asked : List Rect} {cell : Rect}

/-- The cells `asked` were asked for since the clock stood at `since`, and nothing else. -/
structure Touring (c : Cache) (generation since : Nat) (asked : List Rect) : Prop where
  since_le : since ≤ c.clock
  stands : ∀ cell ∈ asked, ∃ (id : Nat) (t : Tile), c.tiles[id]? = some t ∧ t.area = cell ∧
    since ≤ t.lastUsed ∧ (t.state = .computing ∨ t.isValid generation = true)
  used : ∀ (id : Nat) (t : Tile), c.tiles[id]? = some t →
    t.state = .computing ∨ since ≤ t.lastUsed → t.area ∈ asked

/-- A tour begins now, if nobody computes. -/
theorem Touring.begin (ho : c.Ordered) (hidle : c.IsIdle) (generation : Nat) :
    c.Touring generation c.clock [] where
  since_le := Nat.le_refl _
  stands := fun _ hm => absurd hm List.not_mem_nil
  used := by
    rintro id t ht (hc | hle)
    · exact absurd hc (hidle id t ht)
    · exact absurd (ho.past id t ht) (Nat.not_lt.2 hle)

/-- With more tiles than cells, some tile stands on another cell. -/
theorem exists_area_not_mem (hi : c.Indexed) (hlt : asked.length < c.tiles.size) :
    ∃ (id : Nat) (t : Tile), c.tiles[id]? = some t ∧ t.area ∉ asked := by
  by_contra hnone
  have hsub : c.areas ⊆ asked := by
    intro a ha
    obtain ⟨id, t, ht, rfl⟩ := mem_areas_iff.1 ha
    by_contra hn
    exact hnone ⟨id, t, ht, hn⟩
  have hle := (List.subperm_of_subset hi.nodup_areas hsub).length_le
  rw [length_areas] at hle
  omega

/-- A full cache has more tiles than there are cells, if these may all have one and one more. -/
theorem length_lt_of_full (hroom : ∀ limit, c.budget.limit? = some limit → asked.length < limit)
    (hfull : c.budget.allows c.tiles.size = false) : asked.length < c.tiles.size := by
  obtain ⟨limit, hlimit, hle⟩ := exists_limit_of_full hfull
  exact Nat.lt_of_lt_of_le (hroom limit hlimit) hle

/-- **The tile that may be taken over is not on a cell that was asked for.** -/
theorem Touring.victim_not_asked (h : c.Touring generation since asked) (hi : c.Indexed)
    (ho : c.Ordered) (hlt : asked.length < c.tiles.size) :
    c.victim? ≠ none ∧ ∀ (id : Nat) (t : Tile), c.victim? = some id → c.tiles[id]? = some t →
      t.area ∉ asked := by
  obtain ⟨j, u, hu, hn⟩ := exists_area_not_mem hi hlt
  have hfree : u.state ≠ .computing := fun hc => hn (h.used j u hu (.inl hc))
  have hpast : ¬ since ≤ u.lastUsed := fun hle => hn (h.used j u hu (.inr hle))
  refine ⟨hi.victim?_ne_none hu hfree, fun id t hv ht hm => ?_⟩
  obtain ⟨t', ht', -, holdest⟩ := (victim?_eq_some_iff hi ho).1 hv
  rw [ht] at ht'
  obtain rfl := Option.some.inj ht'
  by_cases hj : j = id
  · rw [hj, ht] at hu
    exact hn (Option.some.inj hu ▸ hm)
  · -- the oldest tile is older than one that was not used
    have hlt := holdest j u hj hu hfree
    obtain ⟨i, s, hs, harea, hle, -⟩ := h.stands t.area hm
    obtain rfl := hi.id_eq hs ht (congrArg Rect.origin harea)
    rw [ht] at hs
    obtain rfl := Option.some.inj hs
    omega

/-! ## One request -/

/-- A tile is used for its cell, which is asked for with this; the other tiles are as they were. -/
theorem Touring.use {d : Cache} (h : c.Touring generation since asked) {id : Nat} {t : Tile}
    (ht : d.tiles[id]? = some t) (harea : t.area = cell) (hle : since ≤ t.lastUsed)
    (hstate : t.state = .computing ∨ t.isValid generation = true)
    (hother : ∀ j : Nat, j ≠ id → d.tiles[j]? = c.tiles[j]?)
    (hkept : ∀ t, c.tiles[id]? = some t → t.area ∈ asked → t.area = cell)
    (hclock : since ≤ d.clock) : d.Touring generation since (cell :: asked) where
  since_le := hclock
  stands := by
    intro a ha
    by_cases he : a = cell
    · exact ⟨id, t, ht, harea.trans he.symm, hle, hstate⟩
    · have hm := (List.mem_cons.1 ha).resolve_left he
      obtain ⟨j, u, hu, hua, hrest⟩ := h.stands a hm
      have hj : j ≠ id := by
        rintro rfl
        exact he (hua.symm.trans (hkept u hu (hua ▸ hm)))
      exact ⟨j, u, (hother j hj).trans hu, hua, hrest⟩
  used := by
    intro j u hu hused
    by_cases hj : j = id
    · rw [hj, ht] at hu
      rw [← Option.some.inj hu, harea]
      exact List.mem_cons_self
    · rw [hother j hj] at hu
      exact List.mem_cons_of_mem _ (h.used j u hu hused)

theorem clock_touch (c : Cache) (id : Nat) : c.clock ≤ (c.touch id).clock := by
  rw [touch]
  split
  · exact Nat.le_refl _
  · exact Nat.le_succ _

/-- A tile that is made ready for a cell and started on is one that the tour has not used. -/
theorem Touring.started (hw : c.WellFormed) (ho : c.Ordered) (hcell : c.size.IsCell cell)
    (hroom : ∀ limit, c.budget.limit? = some limit → asked.length < limit)
    (h : c.Touring generation since asked) {d : Cache} {id : Nat} {tile : Tile}
    (ready : Prepared c generation cell d id tile) :
    (d.start id).1.Touring generation since (cell :: asked) := by
  obtain ⟨region, hr⟩ := ready.exists_region hw
  have hclock : since ≤ d.clock := ready.clock ▸ h.since_le
  refine h.use (getElem?_start_self ready.stands hr) (ready.area hw hcell) hclock (.inl rfl)
    (fun j hj => (getElem?_start_ne ready.stands hr hj).trans (ready.other hj)) ?_ ?_
  · intro t ht hm
    cases ready with
    | inPlace found stands _ _ =>
      rw [stands] at ht
      exact Option.some.inj ht ▸ hw.area_eq hcell found stands
    | added _ _ _ => exact absurd (lt_size ht) (Nat.lt_irrefl _)
    | moved _ full victim _ _ _ =>
      have hlt := length_lt_of_full hroom full
      exact absurd hm ((h.victim_not_asked hw.toIndexed ho hlt).2 _ t victim ht)
  · rw [start_eq ready.stands hr]
    exact Nat.le_trans hclock (clock_touch d id)

/-- **A request for a new cell is served, and goes on with the tour.** -/
theorem Touring.acquire (hw : c.WellFormed) (ho : c.Ordered) (hopen : c.isOpen = true)
    (hinfo : c.info = info) (hsuited : c.All (Suited info)) (hcell : c.size.IsCell cell)
    (hok : Allocatable info cell = true)
    (hroom : ∀ limit, c.budget.limit? = some limit → asked.length < limit)
    (h : c.Touring generation since asked) (hnew : cell ∉ asked) :
    c.Gives generation cell (c.acquire generation cell) ∧
      (c.acquire generation cell).1.Touring generation since (cell :: asked) := by
  have hfree : c.budget.allows c.tiles.size = false → c.victim? ≠ none := fun hfull =>
    (h.victim_not_asked hw.toIndexed ho (length_lt_of_full hroom hfull)).1
  rcases acquire_of_free hw hopen hinfo hsuited hok hfree generation with
    hgives | ⟨id, t, found, stands, computing, -⟩
  · refine ⟨hgives, ?_⟩
    generalize c.acquire generation cell = r at hgives ⊢
    cases hgives with
    | hit found stands valid =>
      have harea := hw.area_eq hcell found stands
      refine h.use (getElem?_touch_self
        (c := c.count fun k => { k with hits := k.hits + 1 }) stands) harea h.since_le (.inr valid)
        (fun j hj => getElem?_touch_ne hj) (fun t ht _ => ?_) ?_
      · rw [stands] at ht
        exact Option.some.inj ht ▸ harea
      · exact Nat.le_trans h.since_le (clock_touch (c.count _) _)
    | started ready => exact h.started hw ho hcell hroom ready
  · -- a tile in computation stands on a cell that was asked for
    exact absurd (hw.area_eq hcell found stands ▸ h.used id t stands (.inl computing)) hnew

/-! ## Jobs that come back -/

/-- A job that comes back with fresh pixels leaves the tour as it is. -/
theorem Touring.complete (hopen : c.isOpen = true) (h : c.Touring generation since asked)
    {id : Nat} {t : Tile} (ht : c.tiles[id]? = some t) (hc : t.state = .computing)
    {region : Region} (hfresh : region.isStale generation = false) :
    (c.complete id region true).Touring generation since asked := by
  have hm := h.used id t ht (.inl hc)
  have hvalid : (t.checkin region true).isValid generation = true := by
    rw [Tile.isValid, Tile.isStale, Tile.checkin]
    exact congrArg not hfresh
  have hclock : c.clock ≤ (c.complete id region true).clock := by
    rw [Cache.complete, hopen, checkin, ht]
    exact clock_touch (c.setTile id (t.checkin region true)) id
  have hadded : (c.complete id region true).Touring generation since (t.area :: asked) :=
    h.use (getElem?_complete_self hopen ht region) rfl h.since_le (.inr hvalid)
      (fun j hj => getElem?_complete_ne hj region true)
      (fun s hs _ => by rw [ht] at hs; rw [Option.some.inj hs]) (Nat.le_trans h.since_le hclock)
  exact ⟨hadded.since_le, fun a ha => hadded.stands a (List.mem_cons_of_mem _ ha),
    fun j u hu hused => (List.mem_cons.1 (hadded.used j u hu hused)).elim (fun he => he ▸ hm)
      fun hm => hm⟩

/-- When nobody computes any more, the tiles of all cells asked for are valid. -/
theorem Touring.isCached (hw : c.WellFormed) (hidle : c.IsIdle)
    (h : c.Touring generation since asked) (hcell : c.size.IsCell cell) (hm : cell ∈ asked) :
    c.isCached generation cell.origin = true := by
  obtain ⟨id, t, ht, ha, -, hstate⟩ := h.stands cell hm
  exact (hw.isCached_iff hcell).2 ⟨id, t, ht, ha, hstate.resolve_left (hidle id t ht)⟩

end TileCache.Cache
