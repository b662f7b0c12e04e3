import TileCache.Proofs.Cache.Acquire

/-!
# Buffers that are out

While a computation has the buffer of a tile, the tile waits for it.  `Cache.Lends c jobs` says
that the jobs that are out and the tiles of the cache agree on this: the tile of each job is being
computed and still stands on the job's cell, and no two jobs have one tile.

A request keeps this and may add one job, which is never one for a tile that has a job already
(`Lends.acquire`, `Lends.acquire_compute`).  A job that comes back takes itself out and leaves the
tiles of all others alone (`getElem?_complete_ne`, `getElem?_abandon_ne`), which keeps it too
(`Lends.of_tiles_ne`).

`Cache.Accounts c jobs` adds the converse, that no other tile is being computed.  It is kept in the
same way, since only a request that hands out a job makes a tile wait (`computing_of_acquire`), and
the tile of a job that has come back waits no longer (`free_complete_self`, `free_abandon_self`).
-/

set_option autoImplicit false

namespace TileCache.Cache

/-- The tile of the job is being computed, for the cell of the job. -/
def IsOut (c : Cache) (job : Job) : Prop :=
  ∃ t, c.tiles[job.tile]? = some t ∧ t.state = .computing ∧ t.area = job.area

/-- The tiles of all jobs are out, one tile for each job. -/
structure Lends (c : Cache) (jobs : List Job) : Prop where
  isOut : ∀ job ∈ jobs, c.IsOut job
  apart : (jobs.map (·.tile)).Nodup

variable {c d : Cache} {id : Nat} {job : Job} {jobs rest : List Job}

theorem lends_nil (c : Cache) : c.Lends [] :=
  ⟨fun _ h => absurd h List.not_mem_nil, List.nodup_nil⟩

theorem Lends.perm (h : c.Lends jobs) (hp : jobs.Perm rest) : c.Lends rest :=
  ⟨fun j hj => h.isOut j (hp.mem_iff.2 hj), (hp.map _).nodup_iff.1 h.apart⟩

theorem Lends.tail (h : c.Lends (job :: jobs)) : c.Lends jobs :=
  ⟨fun j hj => h.isOut j (List.mem_cons_of_mem _ hj), (List.nodup_cons.1 h.apart).2⟩

/-- The tile of one job is not that of another. -/
theorem Lends.tile_ne (h : c.Lends (job :: jobs)) {other : Job} (ho : other ∈ jobs) :
    other.tile ≠ job.tile := fun he =>
  (List.nodup_cons.1 h.apart).1 (List.mem_map.2 ⟨other, ho, he⟩)

/-- What matters of a tile that is out is its cell and that it is out. -/
theorem Lends.congr (h : c.Lends jobs) (ht : ∀ job ∈ jobs, ∀ t, c.tiles[job.tile]? = some t →
    t.state = .computing → ∃ n, d.tiles[job.tile]? = some { t with lastUsed := n }) :
    d.Lends jobs := by
  refine ⟨fun job hj => ?_, h.apart⟩
  obtain ⟨t, hs, hc, ha⟩ := h.isOut job hj
  obtain ⟨n, hn⟩ := ht job hj t hs hc
  exact ⟨_, hn, hc, ha⟩

/-! ## Requests -/

theorem Lends.acquire (hw : c.WellFormed) (h : c.Lends jobs) (generation : Nat) (cell : Rect) :
    (c.acquire generation cell).1.Lends jobs :=
  h.congr fun _ _ _ ht hc => getElem?_acquire_of_computing hw ht hc generation cell

/-- **A tile that is out is not handed out a second time.** -/
theorem Lends.acquire_compute (hw : c.WellFormed) (h : c.Lends jobs) {generation : Nat}
    {cell : Rect} (hcell : c.size.IsCell cell)
    (ha : c.acquire generation cell = (d, .compute job)) : d.Lends (job :: jobs) := by
  obtain ⟨-, hout, hfree⟩ := computing_of_compute hw hcell ha
  have hd : d.Lends jobs := by
    have := h.acquire hw generation cell
    rwa [ha] at this
  refine ⟨List.forall_mem_cons.2 ⟨hout, hd.isOut⟩, ?_⟩
  rw [List.map_cons, List.nodup_cons]
  refine ⟨fun hm => ?_, h.apart⟩
  obtain ⟨other, ho, he⟩ := List.mem_map.1 hm
  obtain ⟨t, ht, hc, -⟩ := h.isOut other ho
  exact hfree t (he ▸ ht) hc

/-! ## Jobs that come back -/

theorem getElem?_checkin_ne {j : Nat} (hj : j ≠ id) (region : Region) (painted : Bool) :
    (c.checkin id region painted).tiles[j]? = c.tiles[j]? := by
  cases ht : c.tiles[id]? with
  | none => rw [checkin, ht]
  | some tile =>
    rw [checkin, ht]
    exact getElem?_setTile_ne hj _

theorem getElem?_complete_ne {j : Nat} (hj : j ≠ id) (region : Region) (succeeded : Bool) :
    (c.complete id region succeeded).tiles[j]? = c.tiles[j]? := by
  rw [complete]
  split
  · rfl
  · split
    · rw [getElem?_touch_ne hj, getElem?_checkin_ne hj]
    · exact getElem?_checkin_ne (c := c.noteComputeFailure) hj region false

/-- A computation that succeeded leaves its tile painted, and used. -/
theorem getElem?_complete_self (ho : c.isOpen = true) {tile : Tile}
    (ht : c.tiles[id]? = some tile) (region : Region) :
    (c.complete id region true).tiles[id]? =
      some { tile.checkin region true with lastUsed := c.clock } := by
  rw [complete, ho, checkin, ht]
  exact getElem?_touch_self (c := c.setTile id (tile.checkin region true))
    (getElem?_setTile_self (lt_size ht) _)

theorem getElem?_abandon_ne {j : Nat} (hj : j ≠ id) (region : Region) :
    (c.abandon id region).tiles[j]? = c.tiles[j]? := by
  rw [abandon]
  split
  · rfl
  · exact getElem?_checkin_ne hj region false

/-- A job that has come back may have changed its own tile only. -/
theorem Lends.of_tiles_ne (h : c.Lends (job :: jobs))
    (hd : ∀ j, j ≠ job.tile → d.tiles[j]? = c.tiles[j]?) : d.Lends jobs :=
  h.tail.congr fun _ ho t ht _ => ⟨t.lastUsed, by rw [hd _ (h.tile_ne ho), ht]⟩

/-! ## Tiles that wait for a job -/

/-- The tiles in computation are those of the jobs, one for each job. -/
structure Accounts (c : Cache) (jobs : List Job) : Prop extends Lends c jobs where
  covers : ∀ (id : Nat) (t : Tile), c.tiles[id]? = some t → t.state = .computing →
    id ∈ jobs.map (·.tile)

theorem accounts_of_tiles_empty (h : c.tiles = #[]) : c.Accounts [] :=
  ⟨lends_nil c, fun id t ht => by rw [h] at ht; cases ht⟩

theorem Accounts.perm (h : c.Accounts jobs) (hp : jobs.Perm rest) : c.Accounts rest :=
  ⟨h.toLends.perm hp, fun id t ht hc => (hp.map _).mem_iff.1 (h.covers id t ht hc)⟩

theorem Accounts.mem_iff (h : c.Accounts jobs) :
    (∃ t, c.tiles[id]? = some t ∧ t.state = .computing) ↔ id ∈ jobs.map (·.tile) := by
  refine ⟨fun ⟨t, ht, hc⟩ => h.covers id t ht hc, fun hid => ?_⟩
  obtain ⟨job, hj, rfl⟩ := List.mem_map.1 hid
  obtain ⟨t, ht, hc, -⟩ := h.isOut job hj
  exact ⟨t, ht, hc⟩

/-- A tile that is in computation after a request was so before, or has just been handed out. -/
theorem computing_of_acquire (hw : c.WellFormed) {generation : Nat} {cell : Rect}
    {acquired : Acquired} (ha : c.acquire generation cell = (d, acquired)) {t : Tile}
    (ht : d.tiles[id]? = some t) (hc : t.state = .computing) :
    (∃ s, c.tiles[id]? = some s ∧ s.state = .computing) ∨
      ∃ job, acquired = .compute job ∧ job.tile = id := by
  have hd : d = (c.acquire generation cell).1 := by rw [ha]
  rcases getElem?_acquire hw generation cell id with ⟨s, n, hs, hn⟩ | ⟨-, hn⟩ | ⟨d₀, tile, hp, hd₀⟩
  · rw [hd, hn] at ht
    obtain rfl := Option.some.inj ht
    exact .inl ⟨s, hs, hc⟩
  · rw [hd, hn] at ht
    cases ht
  · obtain ⟨region, hreg⟩ := hp.exists_region hw
    rw [start_eq hp.stands hreg, ha] at hd₀
    exact .inr ⟨_, (Prod.mk.inj hd₀).2, rfl⟩

theorem Accounts.acquire (hw : c.WellFormed) (h : c.Accounts jobs) {generation : Nat} {cell : Rect}
    {acquired : Acquired} (ha : c.acquire generation cell = (d, acquired))
    (hn : ∀ job, acquired ≠ .compute job) : d.Accounts jobs := by
  refine ⟨?_, fun id t ht hc => ?_⟩
  · have hl := h.toLends.acquire hw generation cell
    rwa [ha] at hl
  · rcases computing_of_acquire hw ha ht hc with ⟨s, hs, hsc⟩ | ⟨job, hj, -⟩
    · exact h.covers id s hs hsc
    · exact absurd hj (hn job)

theorem Accounts.acquire_compute (hw : c.WellFormed) (h : c.Accounts jobs) {generation : Nat}
    {cell : Rect} (hcell : c.size.IsCell cell)
    (ha : c.acquire generation cell = (d, .compute job)) : d.Accounts (job :: jobs) := by
  refine ⟨h.toLends.acquire_compute hw hcell ha, fun id t ht hc => ?_⟩
  rcases computing_of_acquire hw ha ht hc with ⟨s, hs, hsc⟩ | ⟨job', hj, rfl⟩
  · exact List.mem_cons_of_mem _ (h.covers id s hs hsc)
  · obtain rfl := Acquired.compute.inj hj
    exact List.mem_cons_self

/-- A job has come back: its tile waits no longer, and no other tile has changed. -/
theorem Accounts.of_tiles_ne (h : c.Accounts (job :: jobs))
    (hd : ∀ j, j ≠ job.tile → d.tiles[j]? = c.tiles[j]?)
    (hfree : ∀ t, d.tiles[job.tile]? = some t → t.state ≠ .computing) : d.Accounts jobs := by
  refine ⟨h.toLends.of_tiles_ne hd, fun id t ht hc => ?_⟩
  have hid : id ≠ job.tile := by
    rintro rfl
    exact hfree t ht hc
  rw [hd id hid] at ht
  exact (List.mem_cons.1 (h.covers id t ht hc)).resolve_left hid

theorem free_checkin_self {region : Region} {painted : Bool} {t : Tile}
    (ht : (c.checkin id region painted).tiles[id]? = some t) : t.state ≠ .computing := by
  cases hs : c.tiles[id]? with
  | none =>
    rw [checkin, hs, hs] at ht
    cases ht
  | some s =>
    rw [checkin, hs, getElem?_setTile_self (lt_size hs)] at ht
    obtain rfl := Option.some.inj ht
    intro hc
    cases painted <;> cases hc

theorem free_complete_self (ho : c.isOpen = true) {region : Region} {succeeded : Bool} {t : Tile}
    (ht : (c.complete id region succeeded).tiles[id]? = some t) : t.state ≠ .computing := by
  rw [complete, ho] at ht
  cases succeeded with
  | true =>
    change ((c.checkin id region true).touch id).tiles[id]? = some t at ht
    cases hs : (c.checkin id region true).tiles[id]? with
    | none =>
      rw [touch_eq_self hs, hs] at ht
      cases ht
    | some s =>
      rw [getElem?_touch_self hs] at ht
      obtain rfl := Option.some.inj ht
      exact (free_checkin_self hs : s.state ≠ .computing)
  | false => exact free_checkin_self (c := c.noteComputeFailure) ht

theorem free_abandon_self (ho : c.isOpen = true) {region : Region} {t : Tile}
    (ht : (c.abandon id region).tiles[id]? = some t) : t.state ≠ .computing := by
  rw [abandon, ho] at ht
  exact free_checkin_self ht

end TileCache.Cache
