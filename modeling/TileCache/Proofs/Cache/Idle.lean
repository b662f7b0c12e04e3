import TileCache.Proofs.Cache.Lends

/-!
# Caches in which nobody computes

As long as no tile is being computed, every tile has its buffer and each of them may be given up.
A request then never finds all tiles in use.  It is either served (`Gives`), or fails because there
is no buffer for the cell; which of both it is, is the subject of `Proofs.Sink.Allocation`.

The tile that is given up is simply the last one of the index (`victim?_of_isIdle`).
-/

set_option autoImplicit false

namespace TileCache.Cache

variable {c d : Cache} {id : Nat} {tile : Tile} {generation : Nat} {cell : Rect}

/-- Nobody computes a tile. -/
def IsIdle (c : Cache) : Prop := c.All fun t => t.state ≠ .computing

theorem IsIdle.exists_region (h : c.IsIdle) (hw : c.WellFormed) (ht : c.tiles[id]? = some tile) :
    ∃ region, tile.region? = some region :=
  Option.ne_none_iff_exists'.1 fun hn => h id tile ht ((hw.buffered id tile ht).1 hn)

/-- A cache is idle if no jobs are out. -/
theorem isIdle_iff_accounts : c.IsIdle ↔ c.Accounts [] :=
  ⟨fun h => ⟨lends_nil c, fun id t ht hc => absurd hc (h id t ht)⟩,
    fun h id t ht hc => absurd (h.covers id t ht hc) List.not_mem_nil⟩

/-- The tile that an idle cache gives up is the last one of its index. -/
theorem victim?_of_isIdle (hi : c.Indexed) (h : c.IsIdle) :
    c.victim? = c.index.ids.getLast? := by
  rw [victim?, Recency.leastRecent?, ← List.head?_reverse]
  cases hl : c.index.ids.reverse with
  | nil => rfl
  | cons id ids =>
    have hm : id ∈ c.index.ids := List.mem_reverse.1 (hl ▸ List.mem_cons_self)
    obtain ⟨t, ht⟩ : ∃ t, c.tiles[id]? = some t :=
      ⟨_, Array.getElem?_eq_getElem (hi.mem_ids_iff.1 hm)⟩
    have hfree : t.isComputing = false := by simpa [Tile.isComputing] using h id t ht
    rw [List.find?_cons_of_pos (by rw [ht]; simp [hfree]), List.head?_cons]

/-- A cache without room for another tile has tiles. -/
theorem size_pos_of_full (h : c.budget.allows c.tiles.size = false) : 0 < c.tiles.size := by
  cases hb : c.budget with
  | unbounded =>
    rw [hb] at h
    cases h
  | bounded limit pos =>
    rw [hb] at h
    have hle : ¬ c.tiles.size < limit := by simpa [Budget.allows] using h
    omega

/-- An idle cache without room for another tile has one to give up. -/
theorem exists_victim_of_isIdle (hi : c.Indexed) (h : c.IsIdle)
    (hfull : c.budget.allows c.tiles.size = false) : c.victim? ≠ none := by
  have ht := Array.getElem?_eq_getElem (size_pos_of_full hfull)
  exact hi.victim?_ne_none ht (h 0 _ ht)

/-- A request was served: the tile of the cell has valid pixels, or one was made ready for it. -/
inductive Gives (c : Cache) (generation : Nat) (cell : Rect) : Cache × Acquired → Prop
  | hit {id : Nat} {tile : Tile} (found : c.index.find? cell.origin = some id)
      (stands : c.tiles[id]? = some tile) (valid : tile.isValid generation = true) :
      Gives c generation cell ((c.count fun k => { k with hits := k.hits + 1 }).touch id, .ready id)
  | started {d : Cache} {id : Nat} {tile : Tile} (ready : Prepared c generation cell d id tile) :
      Gives c generation cell (d.start id)

theorem Gives.ne_unavailable (hw : c.WellFormed) {r : Cache × Acquired}
    (h : Gives c generation cell r) : r.2 ≠ .unavailable := by
  cases h with
  | hit _ _ _ => exact nofun
  | started ready =>
    obtain ⟨region, hr⟩ := ready.exists_region hw
    rw [start_eq ready.stands hr]
    exact nofun

/-- A request that is served is answered with valid pixels or with a job. -/
theorem Gives.cases (hw : c.WellFormed) (hcell : c.size.IsCell cell) {r : Cache × Acquired}
    (h : Gives c generation cell r) :
    (∃ (id : Nat) (t : Tile), r.2 = .ready id ∧ r.1.tiles[id]? = some t ∧ t.area = cell ∧
        t.isValid generation = true) ∨ ∃ job, r.2 = .compute job := by
  cases h with
  | @hit id t found stands valid =>
    have hs := getElem?_touch_self (c := c.count fun k => { k with hits := k.hits + 1 }) stands
    exact .inl ⟨id, _, rfl, hs, (hw.area_eq hcell found stands : t.area = cell), valid⟩
  | started ready =>
    obtain ⟨region, hr⟩ := ready.exists_region hw
    rw [start_eq ready.stands hr]
    exact .inr ⟨_, rfl⟩

/-! ## Requests one by one -/

/-- A request without a job leaves the cache idle. -/
theorem IsIdle.acquire_ready (hw : c.WellFormed) (h : c.IsIdle)
    (ha : c.acquire generation cell = (d, .ready id)) : d.IsIdle :=
  isIdle_iff_accounts.2 ((isIdle_iff_accounts.1 h).acquire hw ha fun _ hj => nomatch hj)

/-- A job that is done at once leaves the cache idle. -/
theorem IsIdle.acquire_complete (hw : c.WellFormed) (h : c.IsIdle) (hcell : c.size.IsCell cell)
    {job : Job} (ha : c.acquire generation cell = (d, .compute job)) (ho : d.isOpen = true)
    (region : Region) (succeeded : Bool) : (d.complete job.tile region succeeded).IsIdle :=
  isIdle_iff_accounts.2 <| ((isIdle_iff_accounts.1 h).acquire_compute hw hcell ha).of_tiles_ne
    (fun _ hj => getElem?_complete_ne hj region succeeded) fun _ ht => free_complete_self ho ht

/-! ## Counts -/

theorem counters_checkin (c : Cache) (id : Nat) (region : Region) (painted : Bool) :
    (c.checkin id region painted).counters = c.counters := by
  rw [checkin]
  split <;> rfl

theorem counters_touch (c : Cache) (id : Nat) : (c.touch id).counters = c.counters := by
  rw [touch]
  split <;> rfl

/-- A computation that succeeded counts for nothing when it ends. -/
theorem counters_complete (c : Cache) (id : Nat) (region : Region) :
    (c.complete id region true).counters = c.counters := by
  rw [complete]
  split
  · rfl
  · rw [if_pos rfl, counters_touch, counters_checkin]

theorem counters_start {region : Region} (h : c.tiles[id]? = some tile)
    (hr : tile.region? = some region) :
    (c.start id).1.counters = { c.counters with computes := c.counters.computes + 1 } := by
  rw [start_eq h hr]
  show Counters.mk _ _ _ _ _ _ = _
  rw [setTile, counters_touch]

/-- A tile that is made ready is not refused. -/
theorem Prepared.refusals (h : Prepared c generation cell d id tile) :
    d.counters.exhausted = c.counters.exhausted ∧
      d.counters.allocationFailures = c.counters.allocationFailures := by
  cases h <;> exact ⟨rfl, rfl⟩

theorem Gives.refusals (hw : c.WellFormed) {r : Cache × Acquired}
    (h : Gives c generation cell r) :
    r.1.counters.exhausted = c.counters.exhausted ∧
      r.1.counters.allocationFailures = c.counters.allocationFailures := by
  cases h with
  | hit _ _ _ =>
    rw [counters_touch]
    exact ⟨rfl, rfl⟩
  | started ready =>
    obtain ⟨region, hr⟩ := ready.exists_region hw
    rw [counters_start ready.stands hr]
    exact ready.refusals

/-- Only a request that is not served counts that there is no buffer. -/
theorem allocationFailures_acquire (hw : c.WellFormed) (ho : c.isOpen = true) {acquired : Acquired}
    (ha : c.acquire generation cell = (d, acquired)) (hserved : acquired ≠ .unavailable) :
    d.counters.allocationFailures = c.counters.allocationFailures := by
  have hr := acquisition hw.toIndexed ho generation cell
  rw [ha] at hr
  generalize hpair : (d, acquired) = r at hr
  obtain rfl : d = r.1 := congrArg Prod.fst hpair
  obtain rfl : acquired = r.2 := congrArg Prod.snd hpair
  cases hr with
  | hit found stands valid => exact ((Gives.hit found stands valid).refusals hw).2
  | busy _ _ _ => rw [counters_touch]
  | started ready => exact ((Gives.started ready).refusals hw).2
  | refused _ _ => exact absurd rfl hserved
  | broke _ _ => rfl
  | exhausted _ _ _ => exact absurd rfl hserved

/-- An idle cache never lacks a tile to give up. -/
theorem exhausted_acquire_of_isIdle (hw : c.WellFormed) (hidle : c.IsIdle) (generation : Nat)
    (cell : Rect) :
    (c.acquire generation cell).1.counters.exhausted = c.counters.exhausted := by
  by_cases ho : c.isOpen = true
  · have ha := acquisition hw.toIndexed ho generation cell
    generalize c.acquire generation cell = r at ha ⊢
    cases ha with
    | hit found stands valid => exact ((Gives.hit found stands valid).refusals hw).1
    | busy _ _ _ => rw [counters_touch]
    | started ready => exact ((Gives.started ready).refusals hw).1
    | refused _ _ => rfl
    | broke _ _ => rfl
    | exhausted _ full none =>
      exact absurd none (exists_victim_of_isIdle hw.toIndexed hidle full)
  · rw [acquire_of_closed (by simpa using ho)]

end TileCache.Cache
