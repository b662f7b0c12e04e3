import TileCache.Proofs.Cache.WellFormed

/-!
# All that a request can do to a cache

A request goes through several updates of the tiles, the index and the clock.  `Acquisition` lists
its possible ends, one constructor each, with everything that is known in that case, and
`acquisition` shows that there are no others.  A request that leads to a computation first makes a
tile ready for the cell (`Prepared`) and then starts on it.  What comes after this file looks at
requests only in this way and does not unfold `Cache.acquire` again.
-/

set_option autoImplicit false

namespace TileCache.Cache

variable {c : Cache} {id j : Nat} {tile : Tile}

/-! ## Making a tile ready for a cell -/

/-- `Prepared c generation cell d id tile`: from `c`, tile `id` was made ready to be computed for
`cell`.  It is then `tile`, and the cache is `d`. -/
inductive Prepared (c : Cache) (generation : Nat) (cell : Rect) : Cache → Nat → Tile → Prop
  /-- The tile of the cell has no pixels, or only stale ones. -/
  | inPlace {id : Nat} {tile : Tile} (found : c.index.find? cell.origin = some id)
      (stands : c.tiles[id]? = some tile) (free : tile.state ≠ .computing)
      (invalid : tile.isValid generation = false) : Prepared c generation cell c id tile
  /-- The cell gets a tile of its own. -/
  | added {tile : Tile} (missing : c.index.find? cell.origin = none)
      (room : c.budget.allows c.tiles.size = true) (made : Tile.create c.info cell = .ok tile) :
      Prepared c generation cell (c.add cell.origin tile) c.tiles.size tile
  /-- The cell takes over the tile of another. -/
  | moved {id : Nat} {old tile : Tile} (missing : c.index.find? cell.origin = none)
      (full : c.budget.allows c.tiles.size = false) (victim : c.victim? = some id)
      (stands : c.tiles[id]? = some old) (free : old.state ≠ .computing)
      (made : old.moveTo cell = .ok tile) :
      Prepared c generation cell (c.relocate id old.area.origin cell.origin tile) id tile

/-- There is no buffer for `cell` in a cache that does not know it, and `setback` says why. -/
inductive LacksBuffer (c : Cache) (cell : Rect) (setback : Setback) : Prop
  /-- A new tile cannot get one. -/
  | new (room : c.budget.allows c.tiles.size = true)
      (failed : Tile.create c.info cell = .error setback)
  /-- The tile that should be taken over cannot get one. -/
  | reused {id : Nat} {old : Tile} (full : c.budget.allows c.tiles.size = false)
      (victim : c.victim? = some id) (stands : c.tiles[id]? = some old)
      (failed : old.moveTo cell = .error setback)

/-- The ends of a request for `cell` in an open cache. -/
inductive Acquisition (c : Cache) (generation : Nat) (cell : Rect) : Cache × Acquired → Prop
  /-- The tile of the cell has valid pixels. -/
  | hit {id : Nat} {tile : Tile} (found : c.index.find? cell.origin = some id)
      (stands : c.tiles[id]? = some tile) (valid : tile.isValid generation = true) :
      Acquisition c generation cell
        ((c.count fun k => { k with hits := k.hits + 1 }).touch id, .ready id)
  /-- The tile of the cell is being computed. -/
  | busy {id : Nat} {tile : Tile} (found : c.index.find? cell.origin = some id)
      (stands : c.tiles[id]? = some tile) (computing : tile.state = .computing) :
      Acquisition c generation cell (c.touch id, .ready id)
  /-- A tile is there and has to be computed. -/
  | started {d : Cache} {id : Nat} {tile : Tile} (ready : Prepared c generation cell d id tile) :
      Acquisition c generation cell (d.start id)
  /-- A buffer for the cell is refused. -/
  | refused {error : RegionError} (missing : c.index.find? cell.origin = none)
      (lacks : c.LacksBuffer cell (.refused error)) :
      Acquisition c generation cell (c.noteAllocationFailure, .unavailable)
  /-- The request breaks off because the bytes of the cell cannot be counted. -/
  | broke {fault : Fault} (missing : c.index.find? cell.origin = none)
      (lacks : c.LacksBuffer cell (.faulted fault)) :
      Acquisition c generation cell (c, .broke fault)
  /-- Every tile is being computed. -/
  | exhausted (missing : c.index.find? cell.origin = none)
      (full : c.budget.allows c.tiles.size = false) (none : c.victim? = none) :
      Acquisition c generation cell (c.noteExhausted, .unavailable)

/-- The tile that a new cell may take over is one that nobody computes. -/
theorem Indexed.exists_victim (h : c.Indexed) (hv : c.victim? = some id) :
    ∃ t, c.tiles[id]? = some t ∧ t.state ≠ .computing := by
  obtain ⟨hm, hp⟩ := Recency.leastRecent?_some hv
  rw [h.mem_ids_iff] at hm
  refine ⟨c.tiles[id], Array.getElem?_eq_getElem hm, ?_⟩
  simpa [Array.getElem?_eq_getElem hm, Tile.isComputing] using hp

/-- As long as somebody does not compute a tile, there is one that may be taken over. -/
theorem Indexed.victim?_ne_none (h : c.Indexed) (ht : c.tiles[id]? = some tile)
    (hfree : tile.state ≠ .computing) : c.victim? ≠ none := by
  intro hv
  rw [victim?, Recency.leastRecent?, List.find?_eq_none] at hv
  have := hv id (List.mem_reverse.2 (h.mem_ids_iff.2 (lt_size ht)))
  simp [ht, Tile.isComputing, hfree] at this

/-- A request that does not get a buffer is refused or breaks off. -/
theorem LacksBuffer.acquisition {generation : Nat} {cell : Rect} {setback : Setback}
    (missing : c.index.find? cell.origin = none) (h : c.LacksBuffer cell setback) :
    Acquisition c generation cell (c.withoutBuffer setback) := by
  cases setback with
  | refused error => exact .refused missing h
  | faulted fault => exact .broke missing h

/-- **All that a request can come to.** -/
theorem acquisition (h : c.Indexed) (ho : c.isOpen = true) (generation : Nat) (cell : Rect) :
    Acquisition c generation cell (c.acquire generation cell) := by
  rw [acquire, ho]
  simp only [Bool.not_true, Bool.false_eq_true, if_false]
  cases hf : c.index.find? cell.origin with
  | some id =>
    obtain ⟨t, ht, -⟩ := h.exists_tile hf
    simp only [acquireIndexed, ht]
    cases hs : t.state with
    | computing => exact .busy hf ht hs
    | blank =>
      refine .started (.inPlace hf ht (by simp [hs]) ?_)
      simp [Tile.isValid, Tile.isPainted, hs]
    | painted =>
      dsimp only
      split
      · rename_i hst
        refine .started (.inPlace hf ht (by simp [hs]) ?_)
        simp [Tile.isValid, hst]
      · rename_i hst
        exact .hit hf ht (by simpa [Tile.isValid, Tile.isPainted, hs] using hst)
  | none =>
    dsimp only
    by_cases hroom : c.budget.allows c.tiles.size = true
    · -- an equation lemma for `acquireNew` would make Lean evaluate `Tile.create`
      rw [if_pos hroom]
      delta acquireNew
      cases hm : Tile.create c.info cell with
      | error setback => exact (LacksBuffer.new hroom hm).acquisition hf
      | ok t => exact .started (.added hf hroom hm)
    · rw [if_neg hroom, acquireReused]
      rw [Bool.not_eq_true] at hroom
      cases hv : c.victim? with
      | none => exact .exhausted hf hroom hv
      | some id =>
        obtain ⟨t, ht, hfree⟩ := h.exists_victim hv
        simp only [ht]
        cases hm : t.moveTo cell with
        | error setback => exact (LacksBuffer.reused hroom hv ht hm).acquisition hf
        | ok moved => exact .started (.moved hf hroom hv ht hfree hm)

theorem start_ne_broke (c : Cache) (id : Nat) (fault : Fault) : (c.start id).2 ≠ .broke fault := by
  delta start
  dsimp only
  cases (c.touch id).tiles[id]? with
  | none => exact nofun
  | some t =>
    dsimp only
    cases t.checkout? <;> exact nofun

theorem acquireIndexed_ne_broke (c : Cache) (generation id : Nat) (fault : Fault) :
    (c.acquireIndexed generation id).2 ≠ .broke fault := by
  rw [acquireIndexed]
  cases c.tiles[id]? with
  | none => exact nofun
  | some t =>
    dsimp only
    cases t.state with
    | computing => exact nofun
    | blank => exact start_ne_broke c id fault
    | painted =>
      dsimp only
      split
      · exact start_ne_broke c id fault
      · exact nofun

theorem eq_of_withoutBuffer {setback : Setback} {fault : Fault}
    (h : (c.withoutBuffer setback).2 = .broke fault) : setback = .faulted fault := by
  cases setback with
  | refused error => cases h
  | faulted other => exact congrArg _ (Acquired.broke.inj h)

/-- A request breaks off only where asking for the buffer does. -/
theorem lacksBuffer_of_broke {generation : Nat} {cell : Rect} {fault : Fault}
    (h : (c.acquire generation cell).2 = .broke fault) : c.LacksBuffer cell (.faulted fault) := by
  rw [acquire] at h
  split at h
  · cases h
  · cases hf : c.index.find? cell.origin with
    | some id =>
      rw [hf] at h
      exact absurd h (acquireIndexed_ne_broke c generation id fault)
    | none =>
      rw [hf] at h
      dsimp only at h
      by_cases hroom : c.budget.allows c.tiles.size = true
      · rw [if_pos hroom] at h
        delta acquireNew at h
        cases hm : Tile.create c.info cell with
        | error setback =>
          rw [hm] at h
          obtain rfl := eq_of_withoutBuffer h
          exact .new hroom hm
        | ok t =>
          rw [hm] at h
          exact absurd h (start_ne_broke (c.add cell.origin t) c.tiles.size fault)
      · rw [if_neg hroom, acquireReused] at h
        rw [Bool.not_eq_true] at hroom
        cases hv : c.victim? with
        | none =>
          rw [hv] at h
          cases h
        | some id =>
          rw [hv] at h
          dsimp only at h
          cases ht : c.tiles[id]? with
          | none =>
            rw [ht] at h
            cases h
          | some t =>
            rw [ht] at h
            dsimp only at h
            cases hm : t.moveTo cell with
            | error setback =>
              rw [hm] at h
              obtain rfl := eq_of_withoutBuffer h
              exact .reused hroom hv ht hm
            | ok moved =>
              rw [hm] at h
              exact absurd h
                (start_ne_broke (c.relocate id t.area.origin cell.origin moved) id fault)

/-! ### What getting ready leaves behind -/

theorem create_eq_ok {info : ImageInfo} {cell : Rect} (h : Tile.create info cell = .ok tile) :
    ∃ region, (Region.empty info).buffer cell = .ok region ∧
      tile = { area := cell, region? := some region, state := .blank, lastUsed := 0 } := by
  rw [Tile.create] at h
  cases hb : (Region.empty info).buffer cell with
  | error e => rw [hb] at h; cases h
  | ok region => rw [hb] at h; exact ⟨region, rfl, (Except.ok.inj h).symm⟩

theorem moveTo_cases {old : Tile} {cell : Rect} (h : old.moveTo cell = .ok tile) :
    (old.region? = none ∧
        tile = { area := cell, region? := none, state := .blank, lastUsed := old.lastUsed }) ∨
      ∃ before region, old.region? = some before ∧ before.buffer cell = .ok region ∧
        tile = { old with area := cell, region? := some region, state := .blank } := by
  rw [Tile.moveTo] at h
  cases hr : old.region? with
  | none =>
    rw [hr] at h
    exact .inl ⟨rfl, (Except.ok.inj h).symm⟩
  | some before =>
    rw [hr] at h
    dsimp only at h
    cases hb : before.buffer cell with
    | error e => rw [hb] at h; cases h
    | ok region => rw [hb] at h; exact .inr ⟨before, region, rfl, hb, (Except.ok.inj h).symm⟩

theorem moveTo_eq_ok {old : Tile} {cell : Rect} (hw : old.region? = none ↔ old.state = .computing)
    (hf : old.state ≠ .computing) (h : old.moveTo cell = .ok tile) :
    ∃ before region, old.region? = some before ∧ before.buffer cell = .ok region ∧
      tile = { old with area := cell, region? := some region, state := .blank } := by
  rcases moveTo_cases h with ⟨hr, -⟩ | h
  · exact absurd (hw.1 hr) hf
  · exact h

theorem getElem?_add_self (c : Cache) (cell : Origin) (t : Tile) :
    (c.add cell t).tiles[c.tiles.size]? = some t :=
  Array.getElem?_push_size

theorem getElem?_add_ne (c : Cache) (cell : Origin) (t : Tile) (hj : j ≠ c.tiles.size) :
    (c.add cell t).tiles[j]? = c.tiles[j]? := by
  rw [add, Array.getElem?_push, if_neg hj]

theorem budget_le_of_allows {budget : Budget} {n : Nat} (h : budget.allows n = true) :
    ∀ limit, budget.limit? = some limit → n + 1 ≤ limit := by
  intro limit hl
  cases budget with
  | unbounded => cases hl
  | bounded b pos =>
    obtain rfl : b = limit := Option.some.inj hl
    exact Nat.succ_le_of_lt (by simpa [Budget.allows] using h)

theorem exists_limit_of_full {budget : Budget} {n : Nat} (h : budget.allows n = false) :
    ∃ limit, budget.limit? = some limit ∧ limit ≤ n := by
  cases budget with
  | unbounded => cases h
  | bounded limit pos => exact ⟨limit, rfl, by simpa [Budget.allows] using h⟩

namespace Prepared

variable {d : Cache} {generation : Nat} {cell : Rect}

theorem stands (h : Prepared c generation cell d id tile) : d.tiles[id]? = some tile := by
  cases h with
  | inPlace _ hs _ _ => exact hs
  | added _ _ _ => exact getElem?_add_self c _ tile
  | moved _ _ _ hs _ _ => exact getElem?_setTile_self (lt_size hs) tile

theorem other (h : Prepared c generation cell d id tile) (hj : j ≠ id) :
    d.tiles[j]? = c.tiles[j]? := by
  cases h with
  | inPlace _ _ _ _ => rfl
  | added _ _ _ => exact getElem?_add_ne c _ tile hj
  | moved _ _ _ _ _ _ => exact getElem?_setTile_ne hj tile

/-- A tile that is being computed is never made ready for anything else. -/
theorem was_free (h : Prepared c generation cell d id tile) {t : Tile}
    (ht : c.tiles[id]? = some t) : t.state ≠ .computing := by
  cases h with
  | inPlace _ hs hf _ => rw [hs] at ht; exact Option.some.inj ht ▸ hf
  | added _ _ _ => exact absurd (lt_size ht) (Nat.lt_irrefl _)
  | moved _ _ _ hs hf _ => rw [hs] at ht; exact Option.some.inj ht ▸ hf

theorem sameSetting (h : Prepared c generation cell d id tile) : SameSetting c d := by
  cases h <;> exact ⟨rfl, rfl, rfl, rfl⟩

theorem clock (h : Prepared c generation cell d id tile) : d.clock = c.clock := by
  cases h <;> rfl

theorem area (h : Prepared c generation cell d id tile) (hw : c.WellFormed)
    (hcell : c.size.IsCell cell) : tile.area = cell := by
  cases h with
  | inPlace hf hs _ _ => exact hw.area_eq hcell hf hs
  | added _ _ hm =>
    obtain ⟨region, -, rfl⟩ := create_eq_ok hm
    rfl
  | moved _ _ _ hs hf hm =>
    obtain ⟨before, region, -, -, rfl⟩ := moveTo_eq_ok (hw.buffered _ _ hs) hf hm
    rfl

theorem exists_region (h : Prepared c generation cell d id tile) (hw : c.WellFormed) :
    ∃ region, tile.region? = some region := by
  cases h with
  | inPlace _ hs hf _ =>
    exact Option.ne_none_iff_exists'.1 fun hn => hf ((hw.buffered _ _ hs).1 hn)
  | added _ _ hm =>
    obtain ⟨region, -, rfl⟩ := create_eq_ok hm
    exact ⟨region, rfl⟩
  | moved _ _ _ hs hf hm =>
    obtain ⟨before, region, -, -, rfl⟩ := moveTo_eq_ok (hw.buffered _ _ hs) hf hm
    exact ⟨region, rfl⟩

theorem free (h : Prepared c generation cell d id tile) (hw : c.WellFormed) :
    tile.state ≠ .computing := by
  cases h with
  | inPlace _ _ hf _ => exact hf
  | added _ _ hm =>
    obtain ⟨region, -, rfl⟩ := create_eq_ok hm
    exact nofun
  | moved _ _ _ hs hf hm =>
    obtain ⟨before, region, -, -, rfl⟩ := moveTo_eq_ok (hw.buffered _ _ hs) hf hm
    exact nofun

theorem indexed (h : Prepared c generation cell d id tile) (hw : c.WellFormed)
    (hcell : c.size.IsCell cell) : d.Indexed := by
  have harea := h.area hw hcell
  have hstands := h.stands
  have hother := @other c id
  cases h with
  | inPlace _ _ _ _ => exact hw.toIndexed
  | @added tile hn _ hm =>
    refine ⟨hw.distinct.insert hn (by rw [hw.mem_ids_iff]; exact Nat.lt_irrefl _), ?_⟩
    intro o j
    show (o, j) ∈ (c.index.insert _ _).entries ↔ _
    rw [Recency.entries_insert hn, List.mem_cons, Prod.mk.injEq, hw.mem_index]
    by_cases hj : j = c.tiles.size
    · subst hj
      rw [getElem?_add_self, Option.map_some, harea, Option.some.injEq,
        Array.getElem?_eq_none (Nat.le_refl _)]
      simp [eq_comm]
    · rw [getElem?_add_ne c _ _ hj]
      simp [hj]
  | @moved id old tile hn _ _ hs hf hm =>
    refine ⟨hw.distinct.move (hw.find? hs) hn, ?_⟩
    intro o j
    show (o, j) ∈ (c.index.move _ _).entries ↔ _
    rw [Recency.mem_move hw.distinct (hw.find? hs) hn, hw.mem_index]
    by_cases hj : j = id
    · subst hj
      rw [hstands, Option.map_some, harea, Option.some.injEq]
      simp [eq_comm]
    · rw [show (c.relocate id old.area.origin cell.origin tile).tiles[j]? = c.tiles[j]? from
        getElem?_setTile_ne hj tile]
      simp [hj]

theorem wellFormed (h : Prepared c generation cell d id tile) (hw : c.WellFormed)
    (hcell : c.size.IsCell cell) : d.WellFormed where
  toIndexed := h.indexed hw hcell
  onGrid := fun j t ht => by
    rw [h.sameSetting.size]
    by_cases hj : j = id
    · subst hj
      rw [h.stands] at ht
      rw [← Option.some.inj ht, h.area hw hcell]
      exact hcell
    · exact hw.onGrid j t (h.other hj ▸ ht)
  buffered := fun j t ht => by
    by_cases hj : j = id
    · subst hj
      rw [h.stands] at ht
      obtain rfl := Option.some.inj ht
      obtain ⟨region, hr⟩ := h.exists_region hw
      rw [hr]
      exact ⟨nofun, fun hs => absurd hs (h.free hw)⟩
    · exact hw.buffered j t (h.other hj ▸ ht)
  withinBudget := fun limit hl => by
    rw [h.sameSetting.budget] at hl
    have hle := hw.withinBudget limit hl
    cases h with
    | inPlace _ _ _ _ => exact hle
    | added _ hroom _ =>
      show (c.tiles.push tile).size ≤ limit
      rw [Array.size_push]
      exact budget_le_of_allows hroom limit hl
    | moved _ _ _ _ _ _ =>
      show (c.setTile id tile).tiles.size ≤ limit
      rw [tiles_size_setTile]
      exact hle

end Prepared

/-! ## What a request leaves behind -/

section

variable {generation : Nat} {cell : Rect}

theorem sameSetting_acquire (hw : c.WellFormed) (generation : Nat) (cell : Rect) :
    SameSetting c (c.acquire generation cell).1 := by
  by_cases ho : c.isOpen = true
  · have ha := acquisition hw.toIndexed ho generation cell
    generalize c.acquire generation cell = r at ha ⊢
    cases ha with
    | hit _ _ _ =>
      have hc : SameSetting c (c.count fun k => { k with hits := k.hits + 1 }) :=
        ⟨rfl, rfl, rfl, rfl⟩
      exact hc.trans (sameSetting_touch _ _)
    | busy _ _ _ => exact sameSetting_touch c _
    | started hr =>
      obtain ⟨region, hreg⟩ := hr.exists_region hw
      exact hr.sameSetting.trans (sameSetting_start hr.stands hreg)
    | refused _ _ => exact ⟨rfl, rfl, rfl, rfl⟩
    | broke _ _ => exact ⟨rfl, rfl, rfl, rfl⟩
    | exhausted _ _ _ => exact ⟨rfl, rfl, rfl, rfl⟩
  · rw [acquire_of_closed (by simpa using ho)]
    exact ⟨rfl, rfl, rfl, rfl⟩

theorem WellFormed.acquire (hw : c.WellFormed) (generation : Nat) (hcell : c.size.IsCell cell) :
    (c.acquire generation cell).1.WellFormed := by
  by_cases ho : c.isOpen = true
  · have ha := acquisition hw.toIndexed ho generation cell
    generalize c.acquire generation cell = r at ha ⊢
    cases ha with
    | hit _ _ _ => exact (hw.count _).touch _
    | busy _ _ _ => exact hw.touch _
    | started hr =>
      obtain ⟨region, hreg⟩ := hr.exists_region hw
      exact (hr.wellFormed hw hcell).start hr.stands hreg
    | refused _ _ => exact hw.noteAllocationFailure
    | broke _ _ => exact hw
    | exhausted _ _ _ => exact hw.noteExhausted
  · rwa [acquire_of_closed (by simpa using ho)]

/-- What a request did to tile `j`: it may have made it its own and started on it, and otherwise it
has at most noted a use. -/
theorem getElem?_acquire (hw : c.WellFormed) (generation : Nat) (cell : Rect) (j : Nat) :
    (∃ t n, c.tiles[j]? = some t ∧
        (c.acquire generation cell).1.tiles[j]? = some { t with lastUsed := n }) ∨
      (c.tiles[j]? = none ∧ (c.acquire generation cell).1.tiles[j]? = none) ∨
      ∃ d tile, Prepared c generation cell d j tile ∧
        c.acquire generation cell = d.start j := by
  have same : ∀ {d : Cache}, d.tiles[j]? = c.tiles[j]? →
      (∃ t n, c.tiles[j]? = some t ∧ d.tiles[j]? = some { t with lastUsed := n }) ∨
        (c.tiles[j]? = none ∧ d.tiles[j]? = none) := by
    intro d hd
    cases ht : c.tiles[j]? with
    | none => exact .inr ⟨rfl, hd.trans ht⟩
    | some t => exact .inl ⟨t, t.lastUsed, rfl, hd.trans ht⟩
  have touched : ∀ {d : Cache} (id : Nat), d.tiles = c.tiles →
      (∃ t n, c.tiles[j]? = some t ∧ (d.touch id).tiles[j]? = some { t with lastUsed := n }) ∨
        (c.tiles[j]? = none ∧ (d.touch id).tiles[j]? = none) := by
    intro d id hd
    by_cases hj : j = id
    · subst hj
      cases ht : c.tiles[j]? with
      | none =>
        rw [← hd] at ht
        exact .inr ⟨rfl, by rw [touch_eq_self ht, ht]⟩
      | some t =>
        rw [← hd] at ht
        exact .inl ⟨t, d.clock, rfl, getElem?_touch_self ht⟩
    · exact same ((getElem?_touch_ne hj).trans (by rw [hd]))
  by_cases ho : c.isOpen = true
  · have ha := acquisition hw.toIndexed ho generation cell
    generalize c.acquire generation cell = r at ha ⊢
    cases ha with
    | hit _ _ _ => exact (touched (d := c.count _) _ rfl).imp_right .inl
    | busy _ _ _ => exact (touched _ rfl).imp_right .inl
    | @started d id tile hr =>
      by_cases hj : j = id
      · subst hj
        exact .inr (.inr ⟨d, tile, hr, rfl⟩)
      · obtain ⟨region, hreg⟩ := hr.exists_region hw
        exact (same ((getElem?_start_ne hr.stands hreg hj).trans (hr.other hj))).imp_right .inl
    | refused _ _ => exact (same (d := c.noteAllocationFailure) rfl).imp_right .inl
    | broke _ _ => exact (same rfl).imp_right .inl
    | exhausted _ _ _ => exact (same (d := c.noteExhausted) rfl).imp_right .inl
  · rw [acquire_of_closed (by simpa using ho)]
    exact (same rfl).imp_right .inl

/-- A tile that a request brings to another cell is the one that the cache chooses for that, and
the request is for a new cell of a full cache. -/
theorem victim_of_area_ne (hw : c.WellFormed) {s t : Tile} (hs : c.tiles[j]? = some s)
    (ht : (c.acquire generation cell).1.tiles[j]? = some t) (ha : t.area ≠ s.area) :
    c.index.find? cell.origin = none ∧ c.budget.allows c.tiles.size = false ∧
      c.victim? = some j := by
  rcases getElem?_acquire hw generation cell j with ⟨u, n, hu, hn⟩ | ⟨hn, -⟩ | ⟨d, tile, hp, hd⟩
  · rw [hs] at hu
    obtain rfl := Option.some.inj hu
    rw [ht] at hn
    obtain rfl := Option.some.inj hn
    exact absurd rfl ha
  · rw [hs] at hn
    cases hn
  · obtain ⟨region, hreg⟩ := hp.exists_region hw
    rw [hd, getElem?_start_self hp.stands hreg] at ht
    obtain rfl := Option.some.inj ht
    cases hp with
    | inPlace _ hs' _ _ =>
      rw [hs] at hs'
      obtain rfl := Option.some.inj hs'
      exact absurd rfl ha
    | added _ _ _ => exact absurd (lt_size hs) (Nat.lt_irrefl _)
    | moved hn hfull hv _ _ _ => exact ⟨hn, hfull, hv⟩

/-- A tile that is answered stands on the cell.  It is being computed, or has valid pixels, which
were at hand before the request. -/
theorem exists_of_ready (hw : c.WellFormed) (hcell : c.size.IsCell cell) {d : Cache}
    (h : c.acquire generation cell = (d, .ready id)) :
    ∃ t, d.tiles[id]? = some t ∧ t.area = cell ∧
      (t.state = .computing ∨ c.isCached generation cell.origin = true) := by
  by_cases ho : c.isOpen = true
  · have ha := acquisition hw.toIndexed ho generation cell
    rw [h] at ha
    generalize hr : (d, Acquired.ready id) = r at ha
    cases ha with
    | @hit i t hf hs hv =>
      obtain ⟨rfl, hi⟩ := Prod.mk.inj hr
      obtain rfl := Acquired.ready.inj hi
      have ht := getElem?_touch_self (c := c.count fun k => { k with hits := k.hits + 1 }) hs
      have harea := hw.area_eq hcell hf hs
      exact ⟨_, ht, harea, .inr ((hw.isCached_iff hcell).2 ⟨_, t, hs, harea, hv⟩)⟩
    | @busy i t hf hs computing =>
      obtain ⟨rfl, hi⟩ := Prod.mk.inj hr
      obtain rfl := Acquired.ready.inj hi
      exact ⟨_, getElem?_touch_self hs, (hw.area_eq hcell hf hs : t.area = cell), .inl computing⟩
    | started hp =>
      obtain ⟨region, hreg⟩ := hp.exists_region hw
      rw [start_eq hp.stands hreg] at hr
      cases (Prod.mk.inj hr).2
    | refused _ _ => cases (Prod.mk.inj hr).2
    | broke _ _ => cases (Prod.mk.inj hr).2
    | exhausted _ _ _ => cases (Prod.mk.inj hr).2
  · rw [acquire_of_closed (by simpa using ho)] at h
    cases (Prod.mk.inj h).2

/-- A job that is handed out comes from a tile that was made ready for the cell. -/
theorem prepared_of_compute (hw : c.WellFormed) {d' : Cache} {job : Job}
    (h : c.acquire generation cell = (d', .compute job)) :
    ∃ d tile, Prepared c generation cell d job.tile tile ∧ d' = (d.start job.tile).1 ∧
      tile.region? = some job.region ∧ tile.area = job.area := by
  by_cases ho : c.isOpen = true
  · have ha := acquisition hw.toIndexed ho generation cell
    rw [h] at ha
    generalize hr : (d', Acquired.compute job) = r at ha
    cases ha with
    | hit _ _ _ => cases (Prod.mk.inj hr).2
    | busy _ _ _ => cases (Prod.mk.inj hr).2
    | @started d id tile hp =>
      obtain ⟨region, hreg⟩ := hp.exists_region hw
      have hd : d' = (d.start id).1 := congrArg Prod.fst hr
      rw [start_eq hp.stands hreg] at hr
      obtain rfl := Acquired.compute.inj (Prod.mk.inj hr).2
      exact ⟨d, tile, hp, hd, hreg, rfl⟩
    | refused _ _ => cases (Prod.mk.inj hr).2
    | broke _ _ => cases (Prod.mk.inj hr).2
    | exhausted _ _ _ => cases (Prod.mk.inj hr).2
  · rw [acquire_of_closed (by simpa using ho)] at h
    cases (Prod.mk.inj h).2

/-- A job is for the cell that was asked for, its tile is now being computed, and nobody was
computing it before. -/
theorem computing_of_compute (hw : c.WellFormed) (hcell : c.size.IsCell cell) {d : Cache}
    {job : Job} (h : c.acquire generation cell = (d, .compute job)) :
    job.area = cell ∧
      (∃ t, d.tiles[job.tile]? = some t ∧ t.state = .computing ∧ t.area = job.area) ∧
      ∀ t, c.tiles[job.tile]? = some t → t.state ≠ .computing := by
  obtain ⟨d₀, tile, hp, rfl, hreg, harea⟩ := prepared_of_compute hw h
  refine ⟨harea.symm.trans (hp.area hw hcell), ⟨_, getElem?_start_self hp.stands hreg, rfl, harea⟩,
    fun t ht => hp.was_free ht⟩

/-- A request leaves a tile that is being computed as it is, but may note a use. -/
theorem getElem?_acquire_of_computing (hw : c.WellFormed) {t : Tile} (ht : c.tiles[j]? = some t)
    (hs : t.state = .computing) (generation : Nat) (cell : Rect) :
    ∃ n, (c.acquire generation cell).1.tiles[j]? = some { t with lastUsed := n } := by
  rcases getElem?_acquire hw generation cell j with ⟨s, n, hs', hn⟩ | ⟨hn, -⟩ | ⟨d, tile, hp, -⟩
  · rw [ht] at hs'
    obtain rfl := Option.some.inj hs'
    exact ⟨n, hn⟩
  · rw [ht] at hn
    cases hn
  · exact absurd hs (hp.was_free ht)

/-! ### Valid pixels -/

/-- The cache after a hit on tile `id`. -/
def hit (c : Cache) (id : Nat) : Cache :=
  (c.count fun k => { k with hits := k.hits + 1 }).touch id

theorem sameSetting_hit (c : Cache) (id : Nat) : SameSetting c (c.hit id) := by
  have hc : SameSetting c (c.count fun k => { k with hits := k.hits + 1 }) := ⟨rfl, rfl, rfl, rfl⟩
  exact hc.trans (sameSetting_touch _ id)

theorem WellFormed.hit (hw : c.WellFormed) (id : Nat) : (c.hit id).WellFormed :=
  (hw.count _).touch id

theorem getElem?_hit_self (ht : c.tiles[id]? = some tile) :
    (c.hit id).tiles[id]? = some { tile with lastUsed := c.clock } :=
  getElem?_touch_self (c := c.count fun k => { k with hits := k.hits + 1 }) ht

/-- What is at hand stays at hand when there is a hit. -/
theorem WellFormed.isCached_hit (hw : c.WellFormed) (hcell : c.size.IsCell cell)
    (hc : c.isCached generation cell.origin = true) (id : Nat) :
    (c.hit id).isCached generation cell.origin = true := by
  obtain ⟨j, t, ht, ha, hv⟩ := (hw.isCached_iff hcell).1 hc
  refine ((hw.hit id).isCached_iff ((sameSetting_hit c id).size ▸ hcell)).2 ?_
  by_cases hj : j = id
  · subst hj
    exact ⟨j, _, getElem?_hit_self ht, ha, hv⟩
  · exact ⟨j, t, (getElem?_touch_ne hj).trans ht, ha, hv⟩

/-- A request for a cell whose valid pixels are at hand is a hit. -/
theorem acquire_of_isCached (hw : c.WellFormed) (ho : c.isOpen = true) (hcell : c.size.IsCell cell)
    (hc : c.isCached generation cell.origin = true) :
    ∃ (id : Nat) (t : Tile), c.tiles[id]? = some t ∧ t.area = cell ∧
      t.isValid generation = true ∧ c.acquire generation cell = (c.hit id, .ready id) := by
  obtain ⟨id, t, ht, rfl, hv⟩ := (hw.isCached_iff hcell).1 hc
  have hf := hw.find? ht
  have missing : ¬ c.index.find? t.area.origin = none := by
    rw [hf]
    exact nofun
  have stands : ∀ {i : Nat} {u : Tile}, c.index.find? t.area.origin = some i →
      c.tiles[i]? = some u → i = id ∧ u = t := by
    intro i u hi hu
    obtain rfl := Option.some.inj (hf.symm.trans hi)
    exact ⟨rfl, Option.some.inj (hu.symm.trans ht)⟩
  have ha := acquisition hw.toIndexed ho generation t.area
  generalize c.acquire generation t.area = r at ha ⊢
  cases ha with
  | hit found hs _ =>
    obtain ⟨rfl, rfl⟩ := stands found hs
    exact ⟨_, _, ht, rfl, hv, rfl⟩
  | busy found hs computing =>
    obtain ⟨rfl, rfl⟩ := stands found hs
    rw [Tile.isValid, Tile.isPainted, computing] at hv
    cases hv
  | started ready =>
    cases ready with
    | inPlace found hs _ invalid =>
      obtain ⟨rfl, rfl⟩ := stands found hs
      rw [hv] at invalid
      cases invalid
    | added hn _ _ => exact absurd hn missing
    | moved hn _ _ _ _ _ => exact absurd hn missing
  | refused hn _ => exact absurd hn missing
  | broke hn _ => exact absurd hn missing
  | exhausted hn _ _ => exact absurd hn missing

/-- A request alone brings no valid pixels. -/
theorem isCached_of_acquire (hw : c.WellFormed) (hcell : c.size.IsCell cell) {other : Rect}
    (hother : c.size.IsCell other)
    (h : (c.acquire generation cell).1.isCached generation other.origin = true) :
    c.isCached generation other.origin = true := by
  have hset := sameSetting_acquire hw generation cell
  obtain ⟨id, t, ht, ha, hv⟩ :=
    ((hw.acquire generation hcell).isCached_iff (hset.size ▸ hother)).1 h
  rcases getElem?_acquire hw generation cell id with ⟨s, n, hs, hn⟩ | ⟨-, hn⟩ | ⟨d, tile, hp, hd⟩
  · rw [ht] at hn
    obtain rfl := Option.some.inj hn
    exact (hw.isCached_iff hother).2 ⟨id, s, hs, ha, hv⟩
  · rw [ht] at hn
    cases hn
  · obtain ⟨region, hreg⟩ := hp.exists_region hw
    rw [hd, getElem?_start_self hp.stands hreg] at ht
    obtain rfl := Option.some.inj ht
    cases hv

end

/-! ## Properties of tiles that requests keep -/

/-- A property of a tile that holds when the tile is made and outlasts whatever a request does to
it. -/
structure Durable (info : ImageInfo) (P : Tile → Prop) : Prop where
  created : ∀ {cell : Rect} {t : Tile}, Tile.create info cell = .ok t → P t
  used : ∀ {t : Tile} (n : Nat), P t → P { t with lastUsed := n }
  moved : ∀ {cell : Rect} {t t' : Tile}, P t → t.moveTo cell = .ok t' → P t'
  emptied : ∀ {t : Tile}, P t → P { t with region? := none, state := .computing }

section

variable {P : Tile → Prop} {d : Cache} {generation : Nat} {cell : Rect}

theorem Prepared.durable (hP : Durable c.info P) (h : c.All P)
    (hp : Prepared c generation cell d id tile) : P tile := by
  cases hp with
  | inPlace _ hs _ _ => exact h _ _ hs
  | added _ _ hm => exact hP.created hm
  | moved _ _ _ hs _ hm => exact hP.moved (h _ _ hs) hm

theorem All.acquire (hP : Durable c.info P) (hw : c.WellFormed) (h : c.All P) (generation : Nat)
    (cell : Rect) : (c.acquire generation cell).1.All P := by
  intro j t ht
  rcases getElem?_acquire hw generation cell j with ⟨s, n, hs, hn⟩ | ⟨-, hn⟩ | ⟨d, tile, hp, hd⟩
  · rw [hn] at ht
    exact Option.some.inj ht ▸ hP.used n (h j s hs)
  · rw [hn] at ht
    cases ht
  · obtain ⟨region, hreg⟩ := hp.exists_region hw
    rw [hd, getElem?_start_self hp.stands hreg] at ht
    exact Option.some.inj ht ▸ hP.used _ (hP.emptied (hp.durable hP h))

/-! ### Giving a buffer back -/

theorem All.checkin (h : c.All P) {region : Region} {painted : Bool}
    (hP : ∀ t, c.tiles[id]? = some t → P (t.checkin region painted)) :
    (c.checkin id region painted).All P := by
  cases ht : c.tiles[id]? with
  | none => rwa [Cache.checkin, ht]
  | some t =>
    rw [Cache.checkin, ht]
    exact All.setTile h (hP t ht) id

theorem All.complete (hused : ∀ {t : Tile} (n : Nat), P t → P { t with lastUsed := n })
    (h : c.All P) {region : Region} {succeeded : Bool}
    (hP : c.isOpen = true → ∀ t, c.tiles[id]? = some t → P (t.checkin region succeeded)) :
    (c.complete id region succeeded).All P := by
  rw [Cache.complete]
  split
  · exact h
  · rename_i ho
    have hP := hP (by simpa using ho)
    cases succeeded with
    | true => exact All.touch (All.checkin h hP) (fun _ n => hused n) id
    | false => exact All.checkin (c := c.noteComputeFailure) h hP

theorem All.abandon (h : c.All P) {region : Region}
    (hP : c.isOpen = true → ∀ t, c.tiles[id]? = some t → P (t.checkin region false)) :
    (c.abandon id region).All P := by
  rw [Cache.abandon]
  split
  · exact h
  · rename_i ho
    exact All.checkin h (hP (by simpa using ho))

end

end TileCache.Cache
