import TileCache.Proofs.Sink.Sound

/-!
# Which tile moves to another cell

In every state that a run can lead to, the list of tiles is in the order of their last use, and the
tile that a new cell would take over is the oldest of those that nobody computes.  A tile changes
its cell in no other way: `oldest_of_area_ne` goes through all that can happen and finds a single
thing that brings a tile to another cell, the step of a pull that misses a cell while the budget is
used up.
-/

set_option autoImplicit false

namespace TileCache.Engine

variable {e d f : Engine} {move : Move} {id : Nat}

/-- Tiles may be gone, but those that are left stand on the cells on which they stood. -/
def SameCells (e d : Engine) : Prop :=
  ∀ j : Nat, (d.sink.cache.tiles[j]?).map Tile.area = none ∨
    (d.sink.cache.tiles[j]?).map Tile.area = (e.sink.cache.tiles[j]?).map Tile.area

theorem SameCells.refl (e : Engine) : SameCells e e := fun _ => .inr rfl

theorem SameCells.trans (h : SameCells e d) (h' : SameCells d f) : SameCells e f := by
  intro j
  rcases h' j with hn | hs
  · exact .inl hn
  · rw [hs]
    exact h j

theorem SameCells.area_eq (h : SameCells e d) {t t' : Tile} (ht : e.sink.cache.tiles[id]? = some t)
    (ht' : d.sink.cache.tiles[id]? = some t') : t'.area = t.area := by
  have hj := h id
  rw [ht, ht', Option.map_some, Option.map_some] at hj
  rcases hj with hn | hs
  · cases hn
  · exact Option.some.inj hs

/-- Only the step of a pull brings tiles to other cells. -/
theorem sameCells_or_served (hc : Change move e d) : SameCells e d ∨
    ∃ pull amid p r, move = .advance pull amid ∧ e.pulls.lookup pull = some p ∧
      e.sink.Serving amid p r ∧ d.sink = r.1 := by
  have hsink := hc.sinkChange
  rw [SameCells]
  generalize d.sink = s at hsink ⊢
  cases hsink with
  | served isMove found serving => exact .inr ⟨_, _, _, _, isMove, found, serving, rfl⟩
  | completed _ _ _ => exact .inl fun j => .inr (Cache.map_area_complete _ _ _ _ _)
  | abandoned _ _ => exact .inl fun j => .inr (Cache.map_area_abandon _ _ _ _)
  | closed => exact .inl fun j => .inl rfl
  | same => exact .inl fun j => .inr rfl
  | invalidated _ => exact .inl fun j => .inr rfl
  | detached _ => exact .inl fun j => .inr rfl

/-- Pull `id` is about to ask for a cell without a tile while the budget is used up. -/
def Misses (e : Engine) (id : Nat) : Prop :=
  ∃ pull cell, e.pulls.lookup id = some pull ∧ cell ∈ pull.cells ∧
    e.sink.cache.index.find? cell.origin = none ∧
    e.sink.cache.budget.allows e.sink.cache.tiles.size = false

/-- A step of a pull moves no tile but the one that the cache gives up for a cell that it misses. -/
theorem victim_of_asks (h : e.Sound) {pull : Pull} (found : e.pulls.lookup id = some pull)
    {c : Cache} {job? : Option Job} (ha : e.sink.Asks pull c job?) {j : Nat} {t t' : Tile}
    (ht : e.sink.cache.tiles[j]? = some t) (ht' : c.tiles[j]? = some t') (hne : t'.area ≠ t.area) :
    e.Misses id ∧ e.sink.cache.victim? = some j := by
  rcases ha with ⟨-, rfl, -⟩ | ⟨cell, acquired, hnext, hacq, -⟩
  · rw [ht] at ht'
    exact absurd (congrArg Tile.area (Option.some.inj ht').symm) hne
  · have hc : c = (e.sink.cache.acquire e.sink.generation cell).1 := by rw [hacq]
    rw [hc] at ht'
    obtain ⟨hn, hfull, hv⟩ := Cache.victim_of_area_ne h.cache ht ht' hne
    exact ⟨⟨pull, cell, found, Pull.mem_of_next? hnext, hn, hfull⟩, hv⟩

/-- **Only a miss with the budget used up moves a tile, and it moves the oldest one that nobody
computes.** -/
theorem oldest_of_area_ne (h : e.Sound) {j : Nat} {t t' : Tile}
    (ht : e.sink.cache.tiles[j]? = some t)
    (ht' : (e.step move).sink.cache.tiles[j]? = some t') (hne : t'.area ≠ t.area) :
    (∃ pull amid, move = .advance pull amid ∧ e.Misses pull) ∧ e.sink.cache.IsOldestFree j := by
  by_cases hm : ∃ pull amid, move = .advance pull amid
  · obtain ⟨pull, amid, rfl⟩ := hm
    change (e.advance pull amid).1.sink.cache.tiles[j]? = some t' at ht'
    rcases advance_change e pull amid with hsame | hc
    · rw [hsame] at ht'
      exact absurd ((SameCells.refl e).area_eq ht ht') hne
    · rcases sameCells_or_served hc with hs | ⟨_, _, p, r, isMove, found, serving, hr⟩
      · exact absurd (hs.area_eq ht ht') hne
      · rw [hr] at ht'
        obtain ⟨hmiss, hv⟩ := victim_of_asks h found serving.asks ht ht' hne
        exact ⟨⟨_, _, isMove, hmiss⟩, (Cache.victim?_eq_some_iff h.cache.toIndexed h.ordered).1 hv⟩
  · have hs : SameCells e (e.step move) := by
      refine step_induction (I := SameCells e) (fun hc hd => ?_) (SameCells.refl e)
      rcases sameCells_or_served hc with hs | ⟨_, _, _, _, isMove, -⟩
      · exact hd.trans hs
      · exact absurd ⟨_, _, isMove⟩ hm
    exact absurd (hs.area_eq ht ht') hne

/-- **Recency is the order of ticks.**  In every state that a run of a new sink leads to, the list
of tiles has strictly falling ticks, all of them before the present one; the tile that would be
taken over next is the one with the smallest tick of those that nobody computes; and whatever
happens next, no tile goes to another cell but this one, for a cell that is missed with the budget
used up. -/
theorem tiles_in_order_of_use {info : ImageInfo} {config : Config} {hasRuntime withMask : Bool}
    {s : Sink} (hs : Sink.create info config hasRuntime withMask = .ok s) (moves : List Move) :
    let e := (ofSink s hasRuntime).run moves
    (e.sink.tiles.Pairwise fun p q => q.lastUsed < p.lastUsed) ∧
      (∀ p ∈ e.sink.tiles, p.lastUsed < e.sink.cache.clock) ∧
      (∀ id, e.sink.cache.victim? = some id ↔ e.sink.cache.IsOldestFree id) ∧
      ∀ (move : Move) (id : Nat) (t t' : Tile), e.sink.cache.tiles[id]? = some t →
        (e.step move).sink.cache.tiles[id]? = some t' → t'.area ≠ t.area →
        (∃ pull amid, move = .advance pull amid ∧ e.Misses pull) ∧
          e.sink.cache.IsOldestFree id := by
  intro e
  have h : e.Sound := (sound_run hs moves).1
  refine ⟨?_, ?_, ?_, ?_⟩
  · rw [Sink.tiles, List.pairwise_map]
    exact h.ordered.listTiles
  · intro p hp
    obtain ⟨t, ht, rfl⟩ := List.mem_map.1 hp
    obtain ⟨id, -, hid⟩ := List.mem_filterMap.1 ht
    exact h.ordered.past id t hid
  · exact fun id => Cache.victim?_eq_some_iff h.cache.toIndexed h.ordered
  · exact fun move id t t' ht ht' ha => oldest_of_area_ne h ht ht' ha

/-- Two cells and one tile: the pull of both cells takes the tile of the first for the second. -/
theorem tiles_in_order_of_use_narrow :
    ∃ s, Sink.create ⟨2, 1, 1, .uchar⟩ { Config.ofTileSize 1 1 with maxTiles := 1 } false false =
        .ok s ∧
      ((ofSink s false).run [.openPull ⟨0, 0, 2, 1⟩ (.empty ⟨2, 1, 1, .uchar⟩) ⟨_, rfl, rfl⟩,
        .advance 0 0, .begin 1, .finish 1 .pattern, .advance 0 0]).sink.cache.IsOldestFree 0 := by
  refine ⟨_, rfl, ?_⟩
  have h := @tiles_in_order_of_use ⟨2, 1, 1, .uchar⟩ { Config.ofTileSize 1 1 with maxTiles := 1 }
    false false _ rfl [.openPull ⟨0, 0, 2, 1⟩ (.empty ⟨2, 1, 1, .uchar⟩) ⟨_, rfl, rfl⟩,
      .advance 0 0, .begin 1, .finish 1 .pattern, .advance 0 0]
  exact (h.2.2.2 (.advance 0 0) 0 _ _ rfl rfl (by decide)).2

end TileCache.Engine
