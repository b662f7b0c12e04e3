import TileCache.Proofs.Cache.Decision
import TileCache.Proofs.Sink.Allocation

/-!
# What requests decide along a run

`Cache.Decides` is shown of every request to every cache that a run can lead to
(`decided_run`).  Which tile is taken over does not matter for whether a tile can be had, as long as
all buffers are for one image: they are then refused for the same cells (`Cache.provides_iff`).
-/

set_option autoImplicit false

namespace TileCache

/-! ## Any tile that nobody computes -/

/-- Whether a tile can be moved to a cell is a matter of the cell alone. -/
theorem allocatable_of_moveTo {info : ImageInfo} {cell : Rect} {t moved : Tile} {r : Region}
    (hsuited : Suited info t) (hr : t.region? = some r) (h : t.moveTo cell = .ok moved) :
    Allocatable info cell = true := by
  rcases Cache.moveTo_cases h with ⟨hn, -⟩ | ⟨before, region, hb, hbuffer, -⟩
  · rw [hr] at hn
    cases hn
  · exact (suited_of_buffer (hsuited before hb).1 hbuffer).2

theorem exists_create_of_allocatable {info : ImageInfo} {cell : Rect}
    (h : Allocatable info cell = true) : ∃ t, Tile.create info cell = .ok t := by
  cases ht : Tile.create info cell with
  | ok t => exact ⟨t, rfl⟩
  | error error =>
    rw [allocatable_of_buffer_error (buffer_of_create_error ht)] at h
    cases h

namespace Cache

variable {c : Cache} {info : ImageInfo} {cell : Rect}

/-- **If all buffers are for one image, a tile can be had for a cell whenever any tile that nobody
computes can be given a buffer for it.** -/
theorem provides_iff (hw : c.WellFormed) (hinfo : c.info = info) (hsuited : c.All (Suited info)) :
    c.Provides cell ↔ c.index.find? cell.origin ≠ none ∨
      (c.budget.allows c.tiles.size = true ∧ ∃ t, Tile.create c.info cell = .ok t) ∨
      ∃ (id : Nat) (old moved : Tile), c.tiles[id]? = some old ∧ old.state ≠ .computing ∧
        old.moveTo cell = .ok moved := by
  constructor
  · rintro (hf | hnew | ⟨-, id, old, moved, hv, hs, hm⟩)
    · exact .inl hf
    · exact .inr (.inl hnew)
    · obtain ⟨t, ht, hfree⟩ := hw.toIndexed.exists_victim hv
      obtain rfl := Option.some.inj (hs.symm.trans ht)
      exact .inr (.inr ⟨id, old, moved, hs, hfree, hm⟩)
  · rintro (hf | hnew | ⟨id, old, moved, hs, hfree, hm⟩)
    · exact .inl hf
    · exact .inr (.inl hnew)
    · obtain ⟨r, hr⟩ := Option.ne_none_iff_exists'.1 fun hn => hfree ((hw.buffered _ _ hs).1 hn)
      have hok := allocatable_of_moveTo (hsuited _ _ hs) hr hm
      cases hroom : c.budget.allows c.tiles.size with
      | true => exact .inr (.inl ⟨hroom, hinfo ▸ exists_create_of_allocatable hok⟩)
      | false =>
        obtain ⟨victim, hv⟩ := Option.ne_none_iff_exists'.1 (hw.toIndexed.victim?_ne_none hs hfree)
        obtain ⟨t, ht, -⟩ := hw.toIndexed.exists_victim hv
        cases hmove : t.moveTo cell with
        | ok u => exact .inr (.inr ⟨hroom, victim, t, u, hv, ht, hmove⟩)
        | error error =>
          rw [allocatable_of_buffer_error (buffer_of_moveTo_error (hsuited _ _ ht) hmove)] at hok
          cases hok

end Cache

/-! ## Runs -/

namespace Engine

/-- **What a request decides along a run.**  In every state that a run of a new sink leads to, as
long as the cache is open, and for every cell of the grid: a request starts a computation, finds all
tiles in use, leaves other tiles and the order of their entries alone, and changes but one count if
it comes to nothing, or nothing if it breaks off, all as `Decides` says.  If the sources keep
regions for their image, it starts a computation if and only if no tile of the cell is being
computed or has valid pixels, and the cell has a tile, or the budget allows one for which there is a
buffer, or some tile that nobody computes can be given a buffer for the cell. -/
theorem decided_run {info : ImageInfo} {config : Config} {hasRuntime withMask : Bool} {s : Sink}
    (hs : Sink.create info config hasRuntime withMask = .ok s) (moves : List Move) :
    let c := ((ofSink s hasRuntime).run moves).sink.cache
    c.isOpen = true → ∀ (generation : Nat) (cell : Rect), c.size.IsCell cell →
      c.Decides generation cell (c.acquire generation cell).1 (c.acquire generation cell).2 ∧
        (KeepImages moves →
          ((∃ job, (c.acquire generation cell).2 = .compute job) ↔
            (¬ ∃ (id : Nat) (t : Tile), c.tiles[id]? = some t ∧ t.area = cell ∧
              (t.state = .computing ∨ t.isValid generation = true)) ∧
            (c.index.find? cell.origin ≠ none ∨
              (c.budget.allows c.tiles.size = true ∧ ∃ t, Tile.create c.info cell = .ok t) ∨
              ∃ (id : Nat) (old moved : Tile), c.tiles[id]? = some old ∧ old.state ≠ .computing ∧
                old.moveTo cell = .ok moved))) := by
  intro c ho generation cell hcell
  have hw : c.WellFormed := (sound_run hs moves).1.cache
  have hd := Cache.decides hw ho hcell generation
  refine ⟨hd, fun hk => hd.starts.trans (and_congr_right' ?_)⟩
  exact Cache.provides_iff hw (info_run hs moves) (suited_run hs hk).tiles

/-- Two cells and one tile: it has the pixels of the first cell, and is taken over for the
second. -/
theorem decided_run_narrow :
    ∃ s, Sink.create ⟨2, 1, 1, .uchar⟩ { Config.ofTileSize 1 1 with maxTiles := 1 } false false =
        .ok s ∧
      let c := ((ofSink s false).run [.openPull ⟨0, 0, 1, 1⟩ (.empty ⟨2, 1, 1, .uchar⟩)
        ⟨_, rfl, rfl⟩, .advance 0 0, .begin 1, .finish 1 .pattern]).sink.cache
      c.isOpen = true ∧ c.size.IsCell ⟨1, 0, 1, 1⟩ ∧
        ∃ job, (c.acquire 0 ⟨1, 0, 1, 1⟩).2 = .compute job ∧ job.area = ⟨1, 0, 1, 1⟩ := by
  refine ⟨_, rfl, rfl, ⟨rfl, rfl, by decide, by decide⟩, ?_⟩
  have hk : KeepImages [.openPull ⟨0, 0, 1, 1⟩ (.empty ⟨2, 1, 1, .uchar⟩) ⟨_, rfl, rfl⟩,
      .advance 0 0, .begin 1, .finish 1 .pattern] := by
    intro n source hm
    obtain ⟨-, rfl⟩ : n = 1 ∧ source = .pattern := by simpa using hm
    exact keepsFrame_pattern.keepsImage
  obtain ⟨hdecides, hliteral⟩ := @decided_run ⟨2, 1, 1, .uchar⟩
    { Config.ofTileSize 1 1 with maxTiles := 1 } false false _ rfl
    [.openPull ⟨0, 0, 1, 1⟩ (.empty ⟨2, 1, 1, .uchar⟩) ⟨_, rfl, rfl⟩, .advance 0 0, .begin 1,
      .finish 1 .pattern] rfl 0 ⟨1, 0, 1, 1⟩ ⟨rfl, rfl, by decide, by decide⟩
  obtain ⟨job, hjob⟩ := (hliteral hk).2 <| by
    constructor
    · rintro ⟨_ | id, t, ht, ha, -⟩
      · obtain rfl := Option.some.inj ht
        exact absurd ha (by decide)
      · cases ht
    · exact .inr (.inr ⟨0, _, _, rfl, by decide, rfl⟩)
  exact ⟨job, hjob, (hdecides.job job hjob).1⟩

end Engine

end TileCache
