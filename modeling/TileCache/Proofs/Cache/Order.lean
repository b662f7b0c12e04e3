import TileCache.Proofs.Cache.Acquire

/-!
# The order of use

A cache keeps twice in what order its tiles were used: the index has the tile used last at its
front, and every tile has the tick of its last use.  `Cache.Ordered` says that both tell the same,
and that all ticks are in the past.

To make a tile ready for a cell brings its entry to the front of the index but gives it no tick;
only the use that follows does.  In between everything but that one tile is in order
(`OrderedBut`), and this is all that a use needs to put the whole cache in order again
(`OrderedBut.touch`).

* `Ordered.acquire`, `Ordered.complete` and `Ordered.abandon`: the cache stays in order.
* `Ordered.listTiles`: the list of tiles has strictly falling ticks.
* `victim?_eq_some_iff`: the tile that may be taken over is the one with the smallest tick of
  those that nobody computes.
-/

set_option autoImplicit false

namespace TileCache.Cache

variable {c d : Cache} {id : Nat} {tile : Tile}

/-- Tile `i` was used later than tile `j`. -/
def Later (c : Cache) (i j : Nat) : Prop :=
  ∀ s t : Tile, c.tiles[i]? = some s → c.tiles[j]? = some t → t.lastUsed < s.lastUsed

/-- The index lists the tiles by falling ticks, and all ticks are in the past. -/
structure Ordered (c : Cache) : Prop where
  later : c.index.ids.Pairwise c.Later
  past : ∀ (j : Nat) (t : Tile), c.tiles[j]? = some t → t.lastUsed < c.clock

/-- All tiles but `id` are in order. -/
structure OrderedBut (c : Cache) (id : Nat) : Prop where
  later : (c.index.ids.erase id).Pairwise c.Later
  past : ∀ (j : Nat) (t : Tile), j ≠ id → c.tiles[j]? = some t → t.lastUsed < c.clock

theorem ordered_of_tiles_empty (ht : c.tiles = #[]) (hi : c.index = .empty) : c.Ordered := by
  refine ⟨?_, fun j t h => ?_⟩
  · rw [hi]
    exact List.Pairwise.nil
  · rw [ht] at h
    cases h

theorem Ordered.but (h : c.Ordered) (id : Nat) : c.OrderedBut id :=
  ⟨h.later.sublist List.erase_sublist, fun j t _ ht => h.past j t ht⟩

/-- The order is a matter of the index, the clock and the ticks. -/
theorem Ordered.congr (h : c.Ordered) (hi : d.index = c.index) (hc : d.clock = c.clock)
    (ht : ∀ j : Nat, (d.tiles[j]?).map Tile.lastUsed = (c.tiles[j]?).map Tile.lastUsed) :
    d.Ordered := by
  have tick : ∀ (j : Nat) (t : Tile), d.tiles[j]? = some t →
      ∃ s, c.tiles[j]? = some s ∧ s.lastUsed = t.lastUsed := by
    intro j t hj
    have hm := ht j
    rw [hj, Option.map_some, eq_comm, Option.map_eq_some_iff] at hm
    exact hm
  constructor
  · rw [hi]
    refine h.later.imp fun {i j} hl s t hs ht => ?_
    obtain ⟨s', hs', hse⟩ := tick i s hs
    obtain ⟨t', ht', hte⟩ := tick j t ht
    rw [← hse, ← hte]
    exact hl s' t' hs' ht'
  · intro j t hj
    obtain ⟨s, hs, hse⟩ := tick j t hj
    rw [hc, ← hse]
    exact h.past j s hs

/-! ## Uses -/

/-- **A use puts the one tile that was out of order in its place.** -/
theorem OrderedBut.touch (hi : c.Indexed) (h : c.OrderedBut id) (ht : c.tiles[id]? = some tile) :
    (c.touch id).Ordered := by
  have hids : (c.touch id).index.ids = id :: c.index.ids.erase id := by
    rw [touch_eq ht]
    exact Recency.ids_promote hi.distinct (hi.find? ht)
  have hclock : (c.touch id).clock = c.clock + 1 := by rw [touch_eq ht]
  have hne : ∀ j ∈ c.index.ids.erase id, j ≠ id := fun j hj =>
    ((hi.distinct.ids.mem_erase_iff).1 hj).1
  constructor
  · rw [hids, List.pairwise_cons]
    constructor
    · intro j hj s t hs ht'
      rw [getElem?_touch_self ht] at hs
      rw [getElem?_touch_ne (hne j hj)] at ht'
      rw [← Option.some.inj hs]
      exact h.past j t (hne j hj) ht'
    · refine h.later.imp_of_mem fun {i j} hi hj hl s t hs ht' => ?_
      rw [getElem?_touch_ne (hne i hi)] at hs
      rw [getElem?_touch_ne (hne j hj)] at ht'
      exact hl s t hs ht'
  · intro j t hj
    rw [hclock]
    by_cases he : j = id
    · subst he
      rw [getElem?_touch_self ht] at hj
      rw [← Option.some.inj hj]
      exact Nat.lt_succ_self c.clock
    · rw [getElem?_touch_ne he] at hj
      exact Nat.lt_succ_of_lt (h.past j t he hj)

theorem Ordered.touch (hi : c.Indexed) (h : c.Ordered) (id : Nat) : (c.touch id).Ordered := by
  cases ht : c.tiles[id]? with
  | none => rwa [touch_eq_self ht]
  | some tile => exact (h.but id).touch hi ht

theorem OrderedBut.start (hi : c.Indexed) (h : c.OrderedBut id) (ht : c.tiles[id]? = some tile)
    {region : Region} (hr : tile.region? = some region) : (c.start id).1.Ordered := by
  rw [start_eq ht hr]
  exact (h.touch hi ht).congr rfl rfl (map_setTile Tile.lastUsed (getElem?_touch_self ht) rfl)

/-! ## Requests -/

section

variable {generation : Nat} {cell : Rect}

/-- Getting ready does not change the order of the other tiles in the index. -/
theorem Prepared.erase_ids (hw : c.WellFormed) (hp : Prepared c generation cell d id tile) :
    d.index.ids.erase id = c.index.ids.erase id := by
  cases hp with
  | inPlace _ _ _ _ => rfl
  | added hn _ _ =>
    have hfresh : c.tiles.size ∉ c.index.ids := by
      rw [hw.mem_ids_iff]
      exact Nat.lt_irrefl _
    show (c.index.insert _ _).ids.erase _ = _
    rw [Recency.ids_insert hn, List.erase_cons_head, List.erase_of_not_mem hfresh]
  | moved hn _ _ hs _ _ =>
    show (c.index.move _ _).ids.erase _ = _
    rw [Recency.ids_move hw.distinct (hw.find? hs) hn, List.erase_cons_head]

theorem Prepared.orderedBut (hw : c.WellFormed) (ho : c.Ordered)
    (hp : Prepared c generation cell d id tile) : d.OrderedBut id := by
  constructor
  · rw [hp.erase_ids hw]
    refine (ho.but id).later.imp_of_mem fun {i j} hi hj hl s t hs ht => ?_
    rw [hp.other ((hw.distinct.ids.mem_erase_iff).1 hi).1] at hs
    rw [hp.other ((hw.distinct.ids.mem_erase_iff).1 hj).1] at ht
    exact hl s t hs ht
  · intro j t hj ht
    rw [hp.other hj] at ht
    rw [hp.clock]
    exact ho.past j t ht

theorem Ordered.acquire (hw : c.WellFormed) (h : c.Ordered) (generation : Nat)
    (hcell : c.size.IsCell cell) : (c.acquire generation cell).1.Ordered := by
  by_cases ho : c.isOpen = true
  · have ha := acquisition hw.toIndexed ho generation cell
    generalize c.acquire generation cell = r at ha ⊢
    cases ha with
    | hit _ _ _ =>
      have hc : (c.count fun k => { k with hits := k.hits + 1 }).Ordered := ⟨h.later, h.past⟩
      exact hc.touch (hw.count _).toIndexed _
    | busy _ _ _ => exact h.touch hw.toIndexed _
    | started hp =>
      obtain ⟨region, hreg⟩ := hp.exists_region hw
      exact (hp.orderedBut hw h).start (hp.indexed hw hcell) hp.stands hreg
    | refused _ _ => exact ⟨h.later, h.past⟩
    | broke _ _ => exact ⟨h.later, h.past⟩
    | exhausted _ _ _ => exact ⟨h.later, h.past⟩
  · rwa [acquire_of_closed (by simpa using ho)]

end

/-! ## Giving a buffer back -/

theorem Ordered.checkin (h : c.Ordered) (id : Nat) (region : Region) (painted : Bool) :
    (c.checkin id region painted).Ordered := by
  cases ht : c.tiles[id]? with
  | none => rwa [Cache.checkin, ht]
  | some tile =>
    rw [Cache.checkin, ht]
    exact h.congr rfl rfl (map_setTile Tile.lastUsed ht rfl)

theorem Ordered.complete (hw : c.WellFormed) (h : c.Ordered) (id : Nat) (region : Region)
    (succeeded : Bool) : (c.complete id region succeeded).Ordered := by
  rw [Cache.complete]
  split
  · exact h
  · split
    · exact (h.checkin id region true).touch (hw.checkin id region true).toIndexed id
    · have hc : c.noteComputeFailure.Ordered := ⟨h.later, h.past⟩
      exact hc.checkin id region false

theorem Ordered.abandon (h : c.Ordered) (id : Nat) (region : Region) :
    (c.abandon id region).Ordered := by
  rw [Cache.abandon]
  split
  · exact h
  · exact h.checkin id region false

/-! ## What the order is good for -/

/-- The list of tiles has strictly falling ticks. -/
theorem Ordered.listTiles (h : c.Ordered) :
    c.listTiles.Pairwise fun s t => t.lastUsed < s.lastUsed := by
  rw [Cache.listTiles, List.pairwise_filterMap]
  exact h.later.imp fun hl s hs t ht => hl s t hs ht

/-- A search through the index, beginning with its last entry, finds the tile with the smallest
tick. -/
theorem lastUsed_lt_of_leastRecent? (hi : c.Indexed) (h : c.Ordered) {p : Nat → Bool}
    (hv : c.index.leastRecent? p = some id) (ht : c.tiles[id]? = some tile) {j : Nat} {u : Tile}
    (hj : c.tiles[j]? = some u) (hp : p j = true) (hne : j ≠ id) :
    tile.lastUsed < u.lastUsed := by
  rw [Recency.leastRecent?, List.find?_eq_some_iff_append] at hv
  obtain ⟨-, later, earlier, hids, hbefore⟩ := hv
  -- the entries behind `id` were passed over, so `j` stands in front of it
  have hids : c.index.ids = earlier.reverse ++ id :: later.reverse := by
    have := congrArg List.reverse hids
    simpa using this
  have hlater := h.later
  rw [hids, List.pairwise_append] at hlater
  have hm : j ∈ c.index.ids := hi.mem_ids_iff.2 (lt_size hj)
  rw [hids, List.mem_append, List.mem_cons, List.mem_reverse] at hm
  rcases hm with hm | rfl | hm
  · exact hlater.2.2 j (List.mem_reverse.2 hm) id List.mem_cons_self u tile hj ht
  · exact absurd rfl hne
  · have := hbefore j (List.mem_reverse.1 hm)
    rw [hp] at this
    cases this

/-- Tile `id` has the smallest tick of all tiles that nobody computes. -/
def IsOldestFree (c : Cache) (id : Nat) : Prop :=
  ∃ t, c.tiles[id]? = some t ∧ t.state ≠ .computing ∧
    ∀ (j : Nat) (u : Tile), j ≠ id → c.tiles[j]? = some u → u.state ≠ .computing →
      t.lastUsed < u.lastUsed

theorem IsOldestFree.eq {i j : Nat} (hi : c.IsOldestFree i) (hj : c.IsOldestFree j) : i = j := by
  obtain ⟨s, hs, hsf, hsl⟩ := hi
  obtain ⟨t, ht, htf, htl⟩ := hj
  by_contra hne
  exact Nat.lt_asymm (hsl j t (Ne.symm hne) ht htf) (htl i s hne hs hsf)

/-- **The tile that a new cell may take over is the oldest one that nobody computes.** -/
theorem victim?_eq_some_iff (hi : c.Indexed) (h : c.Ordered) :
    c.victim? = some id ↔ c.IsOldestFree id := by
  have oldest : ∀ {i : Nat}, c.victim? = some i → c.IsOldestFree i := by
    intro i hv
    obtain ⟨t, ht, hfree⟩ := hi.exists_victim hv
    refine ⟨t, ht, hfree, fun j u hne hj hu => ?_⟩
    refine lastUsed_lt_of_leastRecent? hi h hv ht hj ?_ hne
    simpa [hj, Tile.isComputing] using hu
  refine ⟨oldest, fun ho => ?_⟩
  cases hv : c.victim? with
  | some i => rw [(oldest hv).eq ho]
  | none =>
    obtain ⟨t, ht, hfree, -⟩ := ho
    exact absurd hv (hi.victim?_ne_none ht hfree)

end TileCache.Cache
