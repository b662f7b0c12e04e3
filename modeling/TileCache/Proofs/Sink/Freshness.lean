import TileCache.Proofs.Sink.Calls

/-!
# Nothing stale is ever given out

A tile is fresh at a generation when its pixels are what a completed call left that began at that
generation.  The generation rises with every invalidation, so there has been none since the call
began, and none while it ran.

What a step of a pull copies comes from a tile that is fresh at the moment of copying, and where a
mask says that pixels are at hand the tile of the cell is fresh at the moment of looking.  This
hangs on `traced_run`, which knows the generation of every stamp.
-/

set_option autoImplicit false

namespace TileCache.Engine

variable {e : Engine} {moves : List Move}

/-- The pixels of the tile are what a call for its cell left that began at `generation`, and the
image has not been invalidated since. -/
def IsFresh (e : Engine) (moves : List Move) (generation : Nat) (t : Tile) : Prop :=
  ∃ call : CompletedCall e moves, call.job.area = t.area ∧
    t.region? = some { call.left with stamp := some call.generation } ∧
    call.generation = generation ∧ Move.invalidate ∉ call.between ∧ Move.invalidate ∉ call.after

/-- A tile that passes for valid is fresh. -/
theorem TracedTo.isFresh {t : Tile} {generation : Nat} (h : TracedTo e moves t)
    (hg : (e.run moves).sink.generation ≤ generation) (hv : t.isValid generation = true) :
    IsFresh e moves generation t := by
  obtain ⟨hp, hstale⟩ := Sink.isValid_iff.1 hv
  obtain ⟨call, ha, hr⟩ := h hp
  have hnow : call.generation = generation := by
    rw [Tile.isStale, hr] at hstale
    simpa [Region.isStale] using hstale
  have hlast : ¬ call.generation < (e.run moves).sink.generation := by omega
  exact ⟨call, ha, hr, hnow, fun hb => hlast (call.generation_lt (.inl hb)),
    fun hb => hlast (call.generation_lt (.inr hb))⟩

/-- What a step of a pull writes, with `Q` for the tile whose pixels it copies. -/
inductive Writes (s : Sink) (pull : Pull) (s' : Sink) (next : Pull) (Q : Tile → Prop) : Prop
  | nothing (same : next.out = pull.out) (zeroFilled : s'.zeroFilled = s.zeroFilled)
  | zeros (rect : Rect) (painted : pull.out.paint rect 0 = .ok next.out)
      (zeroFilled : s'.zeroFilled = s.zeroFilled + 1)
  | pixels (id : Nat) (t : Tile) (region : Region) (due : Sink.IsDue pull t.area)
      (found : s'.cache.tiles[id]? = some t) (held : t.region? = some region)
      (copied : pull.out.copyFrom region (t.area.intersect pull.out.valid) = .ok next.out)
      (zeroFilled : s'.zeroFilled = s.zeroFilled) (source : Q t)

variable {info : ImageInfo} {config : Config} {hasRuntime withMask : Bool} {s : Sink}

/-- What is known of all valid tiles that a step of a pull leaves in the cache is known of the tile
that the step copies from. -/
theorem writes_of_serving {s' : Sink} {pull next : Pull} {amid : Nat} {job? : Option Job}
    {Q : Tile → Prop} (hw : s.cache.WellFormed)
    (hg : ∀ cell, Sink.IsDue pull cell → s.cache.size.IsCell cell)
    (serving : s.Serving amid pull (s', .went next, job?))
    (hQ : ∀ (id : Nat) (t : Tile), s'.cache.tiles[id]? = some t →
      t.isValid s'.generation = true → Q t) : Writes s pull s' next Q := by
  cases serving with
  | idle _ => exact .nothing rfl rfl
  | waits _ _ => exact .nothing rfl rfl
  | zeroed due painted => exact .zeros _ painted (congrArg (· + 1) due.zeroFilled)
  | @copied _ _ t region _ _ _ _ due held valid copy =>
    obtain ⟨⟨id, ht⟩, harea⟩ := due.tile_area hw hg rfl
    exact .pixels id t region (due.isDue_iff.2 (.inl harea)) ht held copy due.zeroFilled
      (hQ id t ht valid)

theorem writes_fresh (hs : Sink.create info config hasRuntime withMask = .ok s) {pull : Pull}
    (hg : ∀ cell, Sink.IsDue pull cell →
      ((ofSink s hasRuntime).run moves).sink.cache.size.IsCell cell) {amid : Nat}
    {s' : Sink} {next : Pull} {job? : Option Job}
    (serving : ((ofSink s hasRuntime).run moves).sink.Serving amid pull (s', .went next, job?)) :
    Writes ((ofSink s hasRuntime).run moves).sink pull s' next
      (IsFresh (ofSink s hasRuntime) moves s'.generation) := by
  have hsound := (sound_run hs moves).1
  refine writes_of_serving hsound.cache hg serving fun id t ht hv => ?_
  have htraced := (hsound.all_of_asks (durable_tracedTo _ _ _) (traced_run hs moves).tiles
    serving.asks).1 id t ht
  exact htraced.isFresh serving.generation_le hv

/-- The mask only shows a cell that has a tile with valid pixels. -/
theorem exists_tile_of_maskByte (hw : s.cache.WellFormed) {amid : Nat} {cell : Rect}
    (hcell : s.cache.size.IsCell cell) (h : s.maskByte amid cell = 255) :
    ∃ (id : Nat) (t : Tile), s.cache.tiles[id]? = some t ∧ t.area = cell ∧
      t.isValid (s.generation + amid) = true := by
  have hc : s.cache.isCached (s.generation + amid) cell.origin = true := by
    rw [Sink.maskByte] at h
    split at h
    · assumption
    · exact absurd h (by decide)
  exact (hw.isCached_iff hcell).1 hc

/-- **Nothing stale is given out.**  In every state that a run of a new sink leads to, whatever
happened in it, a step of a pull that goes on has written nothing, or zeros, or pixels of a tile
that is fresh at the generation at which the step ends; and where a mask shows a cell, however
often the image is invalidated while it is made, the tile of the cell is fresh at that moment. -/
theorem fresh_run (hs : Sink.create info config hasRuntime withMask = .ok s)
    (moves : List Move) :
    let e := (ofSink s hasRuntime).run moves
    (∀ np ∈ e.pulls, ∀ (amid : Nat) (next : Pull), (e.sink.serve np.2 amid).2.1 = .went next →
      Writes e.sink np.2 (e.sink.serve np.2 amid).1 next
        (IsFresh (ofSink s hasRuntime) moves (e.sink.serve np.2 amid).1.generation)) ∧
    ∀ (amid : Nat) (cell : Rect), e.sink.size.IsCell cell → e.sink.maskByte amid cell = 255 →
      ∃ (id : Nat) (t : Tile), e.sink.cache.tiles[id]? = some t ∧ t.area = cell ∧
        IsFresh (ofSink s hasRuntime) moves (e.sink.generation + amid) t := by
  intro e
  have hsound : e.Sound := (sound_run hs moves).1
  refine ⟨fun np hnp amid next hwent => ?_, fun amid cell hcell hmask => ?_⟩
  · have serving := Sink.serving e.sink np.2 amid
    generalize e.sink.serve np.2 amid = r at serving hwent
    obtain ⟨s', served, job?⟩ := r
    obtain rfl : served = .went next := hwent
    exact writes_fresh hs (hsound.onGrid np hnp) serving
  · obtain ⟨id, t, ht, ha, hv⟩ := exists_tile_of_maskByte hsound.cache hcell hmask
    exact ⟨id, t, ht, ha, ((traced_run hs moves).tiles id t ht).isFresh (Nat.le_add_right _ _) hv⟩

/-- One cell, which the image is invalidated under while it is computed.  It is computed again, and
then the mask shows it. -/
theorem fresh_run_narrow :
    ∃ s, Sink.create ⟨1, 1, 1, .uchar⟩ (.ofTileSize 1 1) false false = .ok s ∧
      let moves := [.openPull ⟨0, 0, 1, 1⟩ (.empty ⟨1, 1, 1, .uchar⟩) ⟨_, rfl, rfl⟩, .advance 0 0,
        .begin 1, .invalidate, .finish 1 .pattern, .advance 0 0,
        .openPull ⟨0, 0, 1, 1⟩ (.empty ⟨1, 1, 1, .uchar⟩) ⟨_, rfl, rfl⟩, .advance 2 0, .begin 3,
        .finish 3 .pattern]
      ∃ (id : Nat) (t : Tile), ((ofSink s false).run moves).sink.cache.tiles[id]? = some t ∧
        t.area = ⟨0, 0, 1, 1⟩ ∧ IsFresh (ofSink s false) moves 1 t := by
  refine ⟨_, rfl, ?_⟩
  exact (@fresh_run ⟨1, 1, 1, .uchar⟩ (.ofTileSize 1 1) false false _ rfl _).2 0 ⟨0, 0, 1, 1⟩
    ⟨rfl, rfl, ⟨0, rfl⟩, ⟨0, rfl⟩⟩ rfl

end TileCache.Engine
