import TileCache.Proofs.Cache.Strict
import TileCache.Proofs.Sink.Carries

/-!
# The structure of an open cache

`Structured` spells out, for a sink made with a given configuration, what can be relied on about
its tiles, its index and its outstanding jobs in every state that a run leads to: index and tiles
are in bijection, the budget is respected, tiles stand on different cells of the grid, exactly the
tiles in computation are without a buffer, and every number of a tile that is stored anywhere is
the number of a tile.  Hence none of the places where an operation could come upon something
unexpected is ever reached: the strict operations agree with the total ones.

That the buffers also fit their tiles needs sources that leave the frame of a buffer alone.
-/

set_option autoImplicit false

namespace TileCache.Engine

/-- What an accepted configuration says about the tile size and the budget. -/
theorem validate_eq_ok {config : Config} {size : TileSize} {budget : Budget}
    (h : config.validate = .ok (size, budget)) :
    size.width = config.tileWidth ∧ size.height = config.tileHeight ∧
      (config.maxTiles ≠ -1 →
        ∃ limit, budget.limit? = some limit ∧ (limit : Int) = max 1 config.maxTiles) := by
  rw [Config.validate, TileSize.of?] at h
  split at h
  · cases h
  · rename_i size' hs
    split at hs
    · obtain rfl := Option.some.inj hs
      rw [Budget.ofCount] at h
      split at h
      · rename_i hm
        obtain ⟨rfl, rfl⟩ := Prod.mk.inj (Except.ok.inj h)
        exact ⟨rfl, rfl, fun hne => absurd hm hne⟩
      · split at h
        · cases h
        · obtain ⟨rfl, rfl⟩ := Prod.mk.inj (Except.ok.inj h)
          refine ⟨rfl, rfl, fun _ => ⟨_, rfl, ?_⟩⟩
          omega
    · cases hs

/-- What can be relied on in an open cache of a sink that was made with `config`. -/
structure Structured (config : Config) (e : Engine) : Prop where
  /-- There is one entry in the index for each tile. -/
  size_index : e.sink.cache.index.size = e.sink.cache.tiles.size
  /-- The index leads from the cell of a tile to the tile, -/
  find?_origin : ∀ (id : Nat) (t : Tile), e.sink.cache.tiles[id]? = some t →
    e.sink.cache.index.find? t.area.origin = some id
  /-- and from nowhere else. -/
  exists_tile : ∀ (cell : Origin) (id : Nat), e.sink.cache.index.find? cell = some id →
    ∃ t, e.sink.cache.tiles[id]? = some t ∧ t.area.origin = cell
  /-- The budget is respected, and counts as one at least. -/
  size_le : config.maxTiles ≠ -1 → (e.sink.cache.tiles.size : Int) ≤ max 1 config.maxTiles
  /-- Tiles have the size that was asked for and stand on the grid. -/
  onGrid : ∀ (id : Nat) (t : Tile), e.sink.cache.tiles[id]? = some t →
    t.area.width = config.tileWidth ∧ t.area.height = config.tileHeight ∧
      config.tileWidth.val ∣ t.area.left.val ∧ config.tileHeight.val ∣ t.area.top.val
  /-- No two tiles share a cell. -/
  area_inj : ∀ (i j : Nat) (s t : Tile), e.sink.cache.tiles[i]? = some s →
    e.sink.cache.tiles[j]? = some t → s.area = t.area → i = j
  /-- Exactly the tiles in computation are without a buffer. -/
  region?_eq_none_iff : ∀ (id : Nat) (t : Tile), e.sink.cache.tiles[id]? = some t →
    (t.region? = none ↔ t.state = .computing)
  /-- The numbers in the index and in the jobs are numbers of tiles. -/
  lt_of_mem_ids : ∀ id ∈ e.sink.cache.index.ids, id < e.sink.cache.tiles.size
  lt_of_mem_jobs : ∀ job ∈ e.jobs, job.tile < e.sink.cache.tiles.size
  /-- No request fails an assertion, and neither does the return of a job. -/
  acquireStrict : ∀ (generation : Nat) (cell : Rect),
    e.sink.cache.acquireStrict generation cell = some (e.sink.cache.acquire generation cell)
  completeStrict : ∀ job ∈ e.jobs, ∀ (region : Region) (succeeded : Bool),
    e.sink.cache.completeStrict job.tile region succeeded =
      some (e.sink.cache.complete job.tile region succeeded)
  abandonStrict : ∀ job ∈ e.jobs, ∀ region : Region,
    e.sink.cache.abandonStrict job.tile region = some (e.sink.cache.abandon job.tile region)

theorem Sound.structured {e : Engine} (h : e.Sound) (ho : e.sink.cache.isOpen = true)
    {config : Config} {size : TileSize} {budget : Budget}
    (hv : config.validate = .ok (size, budget)) (hsize : e.sink.cache.size = size)
    (hbudget : e.sink.cache.budget = budget) : Structured config e := by
  obtain ⟨hwidth, hheight, hlimit⟩ := validate_eq_ok hv
  have hout := (h.lends ho).isOut
  exact {
    size_index := h.cache.size_index
    find?_origin := fun id t ht => h.cache.find? ht
    exists_tile := fun cell id hf => h.cache.exists_tile hf
    size_le := by
      intro hne
      obtain ⟨limit, hl, he⟩ := hlimit hne
      rw [← he]
      exact Int.ofNat_le.2 (h.cache.withinBudget limit (by rw [hbudget, hl]))
    onGrid := by
      intro id t ht
      have hcell := h.cache.onGrid id t ht
      rw [hsize] at hcell
      rw [← hwidth, ← hheight]
      exact ⟨hcell.width, hcell.height, hcell.left, hcell.top⟩
    area_inj := fun i j s t hs ht ha => h.cache.id_eq hs ht (congrArg Rect.origin ha)
    region?_eq_none_iff := h.cache.buffered
    lt_of_mem_ids := fun id hid => h.cache.mem_ids_iff.1 hid
    lt_of_mem_jobs := by
      intro job hj
      obtain ⟨t, ht, -, -⟩ := hout job hj
      exact Cache.lt_size ht
    acquireStrict := fun generation cell => h.cache.acquireStrict generation cell
    completeStrict := by
      intro job hj region succeeded
      obtain ⟨t, ht, hs, -⟩ := hout job hj
      exact Cache.completeStrict_eq ht hs region succeeded
    abandonStrict := by
      intro job hj region
      obtain ⟨t, ht, hs, -⟩ := hout job hj
      exact Cache.abandonStrict_eq ht hs region }

/-- **The structure of a cache.**  In every state that a run of a new sink leads to, an open cache
is structured as it should be, and if the sources of the run leave frames alone, the buffer of each
tile holds the part of its cell that lies in the image, which is not empty. -/
theorem structured_run {info : ImageInfo} {config : Config} {hasRuntime withMask : Bool} {s : Sink}
    (hs : Sink.create info config hasRuntime withMask = .ok s) (moves : List Move)
    (ho : ((ofSink s hasRuntime).run moves).sink.cache.isOpen = true) :
    let e := (ofSink s hasRuntime).run moves
    Structured config e ∧
      (KeepFrames moves → ∀ (id : Nat) (t : Tile) (r : Region),
        e.sink.cache.tiles[id]? = some t → t.region? = some r →
        r.valid = t.area.intersect info.bounds ∧ r.valid.isEmpty = false) := by
  intro e
  obtain ⟨hsound, hbase⟩ := sound_run hs moves
  obtain ⟨size, budget, hv, -, -, hc⟩ := create_eq_ok hs
  refine ⟨hsound.structured ho hv ?_ ?_, fun hk id t r ht hr => ?_⟩
  · rw [hbase.size]
    exact congrArg Cache.size hc
  · rw [hbase.budget]
    exact congrArg Cache.budget hc
  · have hframe := (framed_run hs hk).tiles id t ht r hr
    exact ⟨hframe.valid, hframe.nonempty⟩

/-- Two cells and one tile, which is painted for the first and then moves to the second. -/
theorem structured_run_narrow :
    ∃ s, Sink.create ⟨2, 1, 1, .uchar⟩ { Config.ofTileSize 1 1 with maxTiles := 0 } false false =
        .ok s ∧
      let e := (ofSink s false).run
        [.openPull ⟨0, 0, 2, 1⟩ (.empty ⟨2, 1, 1, .uchar⟩) ⟨_, rfl, rfl⟩, .advance 0 0, .begin 1,
          .finish 1 .pattern, .advance 0 0, .advance 0 0, .begin 2, .drop 2]
      Structured { Config.ofTileSize 1 1 with maxTiles := 0 } e ∧
        ∀ (id : Nat) (t : Tile) (r : Region), e.sink.cache.tiles[id]? = some t →
          t.region? = some r →
          r.valid = t.area.intersect ⟨0, 0, 2, 1⟩ ∧ r.valid.isEmpty = false := by
  refine ⟨_, rfl, ?_⟩
  have h := @structured_run ⟨2, 1, 1, .uchar⟩ { Config.ofTileSize 1 1 with maxTiles := 0 }
    false false _ rfl
    [.openPull ⟨0, 0, 2, 1⟩ (.empty ⟨2, 1, 1, .uchar⟩) ⟨_, rfl, rfl⟩, .advance 0 0, .begin 1,
      .finish 1 .pattern, .advance 0 0, .advance 0 0, .begin 2, .drop 2] rfl
  refine ⟨h.1, h.2 fun n source hm => ?_⟩
  have hs : n = 1 ∧ source = .pattern := by simpa using hm
  exact hs.2 ▸ keepsFrame_pattern

end TileCache.Engine
