import TileCache.Proofs.Sink.OneByOne
import TileCache.Proofs.Sink.Eviction
import TileCache.Proofs.Sink.Mask

/-!
# Valid tiles are stable

A tile with valid pixels does not lose them in passing.  Whatever happens to the engine, as long as
the image is not invalidated and the sink stays open, the tile afterwards is the same but for the
tick of its last use.  There is a single exception (`Displaces`): a pull asks for a cell that the
cache misses, the budget is used up, the tile is the oldest one that nobody computes, and there is
a buffer for the new cell, so the tile goes over to it.

* `getElem?_acquire_of_valid`: what a request does to a valid tile.
* `tile_eq_or_served`: nothing but the step of a pull touches a tile that nobody computes.
* `stable_step`: both together, for one move.
* `stable_run`: every move of every run; and in a sink without a bound, where there is no exception,
  a mask never takes back what it has shown.
-/

set_option autoImplicit false

namespace TileCache

/-- Does the move declare the pixels stale that were computed so far? -/
def Move.Invalidates : Move → Prop
  | .invalidate => True
  | .advance _ amid => 0 < amid
  | .openPull _ _ _ | .dropPull _ | .begin _ | .finish _ _ | .drop _ | .detach | .shutdown => False

/-- A request leaves a valid tile as it is, unless it takes the tile for a new cell. -/
theorem Cache.getElem?_acquire_of_valid {c : Cache} (hw : c.WellFormed) {j : Nat} {t : Tile}
    (ht : c.tiles[j]? = some t) {generation : Nat} (hv : t.isValid generation = true)
    (cell : Rect) :
    (∃ n, (c.acquire generation cell).1.tiles[j]? = some { t with lastUsed := n }) ∨
      (c.index.find? cell.origin = none ∧ c.budget.allows c.tiles.size = false ∧
        c.victim? = some j ∧ ∃ moved, t.moveTo cell = .ok moved) := by
  rcases getElem?_acquire hw generation cell j with ⟨s, n, hs, hn⟩ | ⟨hn, -⟩ | ⟨d, tile, hp, -⟩
  · rw [ht] at hs
    obtain rfl := Option.some.inj hs
    exact .inl ⟨n, hn⟩
  · rw [ht] at hn
    cases hn
  · cases hp with
    | inPlace _ hs _ invalid =>
      rw [ht] at hs
      obtain rfl := Option.some.inj hs
      rw [hv] at invalid
      cases invalid
    | added _ _ _ => exact absurd (lt_size ht) (Nat.lt_irrefl _)
    | moved hn hfull hv hs _ made =>
      rw [ht] at hs
      obtain rfl := Option.some.inj hs
      exact .inr ⟨hn, hfull, hv, _, made⟩

namespace Engine

variable {e d : Engine} {move : Move} {id : Nat} {t : Tile}

/-! ## One change -/

/-- A sink that is open has been open before. -/
theorem SinkChange.isOpen (hs : e.Sound) {s : Sink} (hc : SinkChange move e s)
    (ho : s.cache.isOpen = true) : e.sink.cache.isOpen = true := by
  have of_same : ∀ {c : Cache}, e.sink.cache.SameSetting c → c.isOpen = true →
      e.sink.cache.isOpen = true := fun hset ho => hset.isOpen ▸ ho
  cases hc with
  | served _ found serving =>
    exact of_same (hs.asks (hs.onGrid _ (mem_of_lookup found)) serving.asks).2.2.1 ho
  | completed _ _ _ => exact of_same (Cache.sameSetting_complete _ _ _ _) ho
  | abandoned _ _ => exact of_same (Cache.sameSetting_abandon _ _ _) ho
  | closed => cases ho
  | same => exact ho
  | invalidated _ => exact ho
  | detached _ => exact ho

/-- A buffer that comes back goes to a tile that was being computed; so it is the step of a pull,
or nothing, that touches any other tile. -/
theorem tile_eq_or_served (hs : e.Sound) {s : Sink} (hc : SinkChange move e s)
    (ho : s.cache.isOpen = true) (ht : e.sink.cache.tiles[id]? = some t)
    (hfree : t.state ≠ .computing) :
    s.cache.tiles[id]? = some t ∨ ∃ n amid pull r, move = .advance n amid ∧
      e.pulls.lookup n = some pull ∧ e.sink.Serving amid pull r ∧ s = r.1 := by
  have hopen := hc.isOpen hs ho
  have hne : ∀ {n : Nat} {c : Computation}, e.computations.lookup n = some c →
      id ≠ c.job.tile := by
    rintro n c hf rfl
    obtain ⟨t', ht', hcomputing, -⟩ := hs.exists_tile hopen hf
    rw [ht] at ht'
    exact hfree (Option.some.inj ht' ▸ hcomputing)
  cases hc with
  | served isMove found serving => exact .inr ⟨_, _, _, _, isMove, found, serving, rfl⟩
  | completed found region succeeded =>
    exact .inl ((Cache.getElem?_complete_ne (hne found) region succeeded).trans ht)
  | abandoned found region =>
    exact .inl ((Cache.getElem?_abandon_ne (hne found) region).trans ht)
  | closed => cases ho
  | same => exact .inl ht
  | invalidated _ => exact .inl ht
  | detached _ => exact .inl ht

/-! ## One move -/

/-- The move takes tile `id` for a cell that the cache misses: the budget is used up, the tile is
the oldest one that nobody computes, and its buffer can be made one for that cell. -/
structure Displaces (e : Engine) (move : Move) (id : Nat) : Prop where
  asks : ∃ cell ∈ e.requestedBy move, e.sink.cache.index.find? cell.origin = none ∧
    ∀ t, e.sink.cache.tiles[id]? = some t → ∃ moved, t.moveTo cell = .ok moved
  full : e.sink.cache.budget.limit? = some e.sink.cache.tiles.size
  oldest : e.sink.cache.IsOldestFree id

/-- A step of a pull leaves a valid tile as it is, or displaces it. -/
theorem stable_served (hs : e.Sound) {n amid : Nat} {pull : Pull} {r : Sink × Served × Option Job}
    (found : e.pulls.lookup n = some pull) (serving : e.sink.Serving amid pull r)
    (ht : e.sink.cache.tiles[id]? = some t) (hv : t.isValid e.sink.generation = true) :
    (∃ k, r.1.cache.tiles[id]? = some { t with lastUsed := k }) ∨
      e.Displaces (.advance n amid) id := by
  rcases serving.asks with ⟨-, hcache, -⟩ | ⟨cell, acquired, hnext, hacq, -⟩
  · rw [hcache]
    exact .inl ⟨t.lastUsed, ht⟩
  · have hcache : r.1.cache = (e.sink.cache.acquire e.sink.generation cell).1 := by rw [hacq]
    rw [hcache]
    refine (Cache.getElem?_acquire_of_valid hs.cache ht hv cell).imp_right ?_
    rintro ⟨hmissing, hfull, hvictim, hmoved⟩
    obtain ⟨limit, hlimit, hle⟩ := Cache.exists_limit_of_full hfull
    obtain rfl := Nat.le_antisymm hle (hs.cache.withinBudget limit hlimit)
    refine ⟨⟨cell, ?_, hmissing, fun t' ht' => ?_⟩, hlimit,
      (Cache.victim?_eq_some_iff hs.cache.toIndexed hs.ordered).1 hvictim⟩
    · rw [requestedBy, found, Option.bind_some, hnext]
      exact List.mem_singleton_self cell
    · rw [ht] at ht'
      exact Option.some.inj ht' ▸ hmoved

/-- The image is at the same generation after a move that does not invalidate it. -/
theorem generation_step (h : ¬ move.Invalidates) :
    (e.step move).sink.generation = e.sink.generation := by
  refine step_induction (I := fun d => d.sink.generation = e.sink.generation)
    (fun {d f} hc hd => ?_) rfl
  have hsink := hc.sinkChange
  rw [← hd]
  generalize f.sink = s at hsink ⊢
  cases hsink with
  | served isMove _ serving =>
    subst isMove
    have hzero := Nat.eq_zero_of_not_pos h
    subst hzero
    exact Nat.le_antisymm serving.generation_le_add serving.generation_le
  | invalidated isMove =>
    subst isMove
    exact absurd trivial h
  | same => rfl
  | completed _ _ _ => rfl
  | abandoned _ _ => rfl
  | detached _ => rfl
  | closed => rfl

theorem isOpen_of_step (hs : e.Sound) (ho : (e.step move).sink.cache.isOpen = true) :
    e.sink.cache.isOpen = true :=
  (step_induction (I := fun d => d.Sound ∧
    (d.sink.cache.isOpen = true → e.sink.cache.isOpen = true))
    (fun hc hd => ⟨hd.1.change hc, fun ho => hd.2 (hc.sinkChange.isOpen hd.1 ho)⟩)
    ⟨hs, fun ho => ho⟩).2 ho

/-- A run that ends with an open sink has begun with one. -/
theorem isOpen_of_run {moves : List Move} (hs : e.Sound)
    (ho : (e.run moves).sink.cache.isOpen = true) : e.sink.cache.isOpen = true := by
  induction moves generalizing e with
  | nil => exact ho
  | cons move moves ih => exact isOpen_of_step hs (ih (hs.step move) ho)

/-- Without an invalidation the generation stays the same. -/
theorem generation_run {moves : List Move} (h : ∀ move ∈ moves, ¬ move.Invalidates) :
    (e.run moves).sink.generation = e.sink.generation := by
  induction moves generalizing e with
  | nil => rfl
  | cons move moves ih =>
    exact (ih fun other ho => h other (List.mem_cons_of_mem _ ho)).trans
      (generation_step (h move List.mem_cons_self))

/-- **A move leaves a valid tile as it is, or displaces it.** -/
theorem stable_step (hs : e.Sound) (ho : (e.step move).sink.cache.isOpen = true)
    (ht : e.sink.cache.tiles[id]? = some t) (hv : t.isValid e.sink.generation = true) :
    (∃ n, (e.step move).sink.cache.tiles[id]? = some { t with lastUsed := n }) ∨
      e.Displaces move id := by
  have hfree : t.state ≠ .computing := by
    rw [(Sink.isValid_iff.1 hv).1]
    exact nofun
  by_cases hm : ∃ n amid, move = .advance n amid
  · obtain ⟨n, amid, rfl⟩ := hm
    change (e.advance n amid).1.sink.cache.isOpen = true at ho
    show (∃ k, (e.advance n amid).1.sink.cache.tiles[id]? = some { t with lastUsed := k }) ∨ _
    rcases advance_change e n amid with hsame | hc
    · rw [hsame]
      exact .inl ⟨t.lastUsed, ht⟩
    · rcases tile_eq_or_served hs hc.sinkChange ho ht hfree with
        h | ⟨n', amid', pull, r, isMove, found, serving, hr⟩
      · exact .inl ⟨t.lastUsed, h⟩
      · obtain ⟨rfl, rfl⟩ := Move.advance.inj isMove
        rw [hr]
        exact stable_served hs found serving ht hv
  · -- any other move may make several changes, but no pull takes a step in them
    have hsame : (e.step move).Sound ∧ ((e.step move).sink.cache.isOpen = true →
        (e.step move).sink.cache.tiles[id]? = some t) :=
      step_induction (I := fun d => d.Sound ∧
          (d.sink.cache.isOpen = true → d.sink.cache.tiles[id]? = some t))
        (fun hc hd => ⟨hd.1.change hc, fun ho =>
          (tile_eq_or_served hd.1 hc.sinkChange ho (hd.2 (hc.sinkChange.isOpen hd.1 ho))
            hfree).resolve_right fun ⟨n, amid, _, _, isMove, _⟩ => hm ⟨n, amid, isMove⟩⟩)
        ⟨hs, fun _ => ht⟩
    exact .inl ⟨t.lastUsed, hsame.2 ho⟩

/-! ## Runs of a sink without a bound -/

/-- Without a bound nothing is displaced, so a valid tile stays valid throughout. -/
theorem stable_moves (hs : e.Sound) (hbound : e.sink.cache.budget.limit? = none)
    {more : List Move} (hm : ∀ move ∈ more, ¬ move.Invalidates)
    (ho : (e.run more).sink.cache.isOpen = true) (ht : e.sink.cache.tiles[id]? = some t)
    (hv : t.isValid e.sink.generation = true) :
    ∃ n, (e.run more).sink.cache.tiles[id]? = some { t with lastUsed := n } ∧
      t.isValid (e.run more).sink.generation = true := by
  induction more generalizing e t with
  | nil => exact ⟨t.lastUsed, ht, hv⟩
  | cons move more ih =>
    have hnext := hs.step move
    rcases stable_step hs (isOpen_of_run hnext ho) ht hv with ⟨n, hn⟩ | hdisplaces
    · have hgeneration := generation_step (e := e) (hm move List.mem_cons_self)
      obtain ⟨k, hk, hvalid⟩ := ih hnext
        ((congrArg Budget.limit? (SameBase.step hs move).budget).trans hbound)
        (fun other hother => hm other (List.mem_cons_of_mem _ hother)) ho hn (hgeneration ▸ hv)
      exact ⟨k, hk, hvalid⟩
    · have hfull := hdisplaces.full
      rw [hbound] at hfull
      cases hfull

/-- A mask that is pulled later shows no less. -/
theorem mask_grows {s s' : Sink} {info : ImageInfo} (hw : s.cache.WellFormed)
    (hw' : s'.cache.WellFormed) (hsize : s'.cache.size = s.cache.size)
    (hstable : ∀ (id : Nat) (t : Tile), s.cache.tiles[id]? = some t →
      t.isValid s.generation = true → ∃ n, s'.cache.tiles[id]? = some { t with lastUsed := n } ∧
        t.isValid s'.generation = true)
    {rect : Rect} {out before : Region} (hout : out.IsFor info.mask)
    (hbefore : s.pullMask rect out (fun _ => 0) = .filled before) :
    ∃ after, s'.pullMask rect out (fun _ => 0) = .filled after ∧ after.valid = before.valid ∧
      ∀ x y, before.valid.contains x y = true → before.pixel x y = .ok (Bytes.replicate 1 255) →
        after.pixel x y = .ok (Bytes.replicate 1 255) := by
  obtain ⟨blank, hb⟩ := Sink.exists_buffer_of_filled hbefore
  obtain ⟨m, hm, hmvalid, hmpixels⟩ := s.pullMask_eq (fun _ => 0) hout hb
  obtain ⟨after, hafter, hvalid, hpixels⟩ := s'.pullMask_eq (fun _ => 0) hout hb
  obtain rfl := Delivery.filled.inj (hm.symm.trans hbefore)
  refine ⟨after, hafter, hvalid.trans hmvalid.symm, fun x y hxy h => ?_⟩
  obtain ⟨hcell, hpixel⟩ := hmpixels x y hxy
  have hsame : s'.size.cellAt x y = s.size.cellAt x y := by rw [Sink.size, hsize]; rfl
  rw [(hpixels x y (hvalid.trans hmvalid.symm ▸ hxy)).2, hsame]
  rw [hpixel] at h
  have hbyte : s.maskByte 0 (s.size.cellAt x y) = 255 := by
    have h0 := congrArg (fun bytes : ByteArray => bytes[0]!) (Except.ok.inj h)
    simpa only [Bytes.getElem!_replicate _ Nat.one_pos] using h0
  obtain ⟨id, t, ht, ha, hv⟩ := exists_tile_of_maskByte hw hcell hbyte
  obtain ⟨n, hn, hv'⟩ := hstable id t ht hv
  have hbyte' : s'.maskByte 0 t.area = 255 := Sink.maskByte_of_tile hw' hn hv'
  rw [← ha]
  exact congrArg (fun value => Except.ok (Bytes.replicate 1 value)) hbyte'

/-- **Valid tiles are stable.**  In every state that a run of a new sink leads to, a move that does
not invalidate the image and does not end the sink leaves each valid tile on its cell, with its
buffer and its state, and valid; unless it takes the tile for another cell, which it does only for a
request that misses with the budget used up, only with the oldest tile that nobody computes, and
only if there is a buffer for that cell.  So in a sink without a bound a mask that is pulled again
before the next invalidation shows every pixel that it has shown before. -/
theorem stable_run {info : ImageInfo} {config : Config} {hasRuntime withMask : Bool} {s : Sink}
    (hs : Sink.create info config hasRuntime withMask = .ok s) (moves : List Move) :
    let e := (ofSink s hasRuntime).run moves
    (∀ (move : Move) (id : Nat) (t : Tile), ¬ move.Invalidates →
      (e.step move).sink.cache.isOpen = true → e.sink.cache.tiles[id]? = some t →
      t.isValid e.sink.generation = true →
      (∃ n, (e.step move).sink.cache.tiles[id]? = some { t with lastUsed := n } ∧
        t.isValid (e.step move).sink.generation = true) ∨ e.Displaces move id) ∧
    (config.maxTiles = -1 → ∀ more : List Move, (∀ move ∈ more, ¬ move.Invalidates) →
      (e.run more).sink.cache.isOpen = true → ∀ (rect : Rect) (out before : Region),
      out.IsFor info.mask → e.sink.pullMask rect out (fun _ => 0) = .filled before →
      ∃ after, (e.run more).sink.pullMask rect out (fun _ => 0) = .filled after ∧
        after.valid = before.valid ∧ ∀ x y, before.valid.contains x y = true →
          before.pixel x y = .ok (Bytes.replicate 1 255) →
          after.pixel x y = .ok (Bytes.replicate 1 255)) := by
  intro e
  obtain ⟨hsound, hbase⟩ : e.Sound ∧ SameBase (ofSink s hasRuntime) e := sound_run hs moves
  refine ⟨fun move id t hm ho ht hv => (stable_step hsound ho ht hv).imp_left ?_,
    fun hmax more hm ho rect out before hout hbefore => ?_⟩
  · rintro ⟨n, hn⟩
    exact ⟨n, hn, by rwa [generation_step hm]⟩
  · obtain ⟨size, budget, hvalidate, -, -, hcache⟩ := create_eq_ok hs
    have hbound : e.sink.cache.budget.limit? = none := by
      rw [hbase.budget]
      show s.cache.budget.limit? = none
      rw [hcache]
      exact (limit?_of_validate hvalidate).trans (if_pos hmax)
    exact mask_grows hsound.cache (hsound.run more).cache (SameBase.run hsound more).size
      (fun id t ht hv => stable_moves hsound hbound hm ho ht hv) hout hbefore

/-- Two cells.  With one tile, painted for the first cell, another pull of that cell leaves it
alone.  Without a bound, the mask shows the first cell still when both have been asked for. -/
theorem stable_run_narrow :
    (∃ s, Sink.create ⟨2, 1, 1, .uchar⟩ { Config.ofTileSize 1 1 with maxTiles := 1 } false false =
        .ok s ∧
      let e := (ofSink s false).run
        [.openPull ⟨0, 0, 1, 1⟩ (.empty ⟨2, 1, 1, .uchar⟩) ⟨_, rfl, rfl⟩, .advance 0 0, .begin 1,
          .finish 1 .pattern,
          .openPull ⟨0, 0, 1, 1⟩ (.empty ⟨2, 1, 1, .uchar⟩) ⟨_, rfl, rfl⟩]
      ∃ t n, e.sink.cache.tiles[0]? = some t ∧ t.state = .painted ∧
        (e.step (.advance 2 0)).sink.cache.tiles[0]? = some { t with lastUsed := n }) ∧
    ∃ s, Sink.create ⟨2, 1, 1, .uchar⟩ (.ofTileSize 1 1) false true = .ok s ∧
      let e := (ofSink s false).run
        [.openPull ⟨0, 0, 1, 1⟩ (.empty ⟨2, 1, 1, .uchar⟩) ⟨_, rfl, rfl⟩, .advance 0 0, .begin 1,
          .finish 1 .pattern]
      ∃ m, (e.run [.openPull ⟨0, 0, 2, 1⟩ (.empty ⟨2, 1, 1, .uchar⟩) ⟨_, rfl, rfl⟩, .advance 2 0,
          .advance 2 0]).sink.pullMask ⟨0, 0, 2, 1⟩ (.empty ⟨2, 1, 1, .uchar⟩) (fun _ => 0) =
          .filled m ∧ m.pixel 0 0 = .ok (Bytes.replicate 1 255) := by
  refine ⟨⟨_, rfl, ?_⟩, ⟨_, rfl, ?_⟩⟩
  · have h := (@stable_run ⟨2, 1, 1, .uchar⟩ { Config.ofTileSize 1 1 with maxTiles := 1 } false
      false _ rfl [.openPull ⟨0, 0, 1, 1⟩ (.empty ⟨2, 1, 1, .uchar⟩) ⟨_, rfl, rfl⟩, .advance 0 0,
        .begin 1, .finish 1 .pattern,
        .openPull ⟨0, 0, 1, 1⟩ (.empty ⟨2, 1, 1, .uchar⟩) ⟨_, rfl, rfl⟩]).1 (.advance 2 0) 0 _
      (Nat.lt_irrefl 0) rfl rfl rfl
    rcases h with ⟨n, hn, -⟩ | hdisplaces
    · exact ⟨_, n, rfl, rfl, hn⟩
    · obtain ⟨cell, hcell, hmissing, -⟩ := hdisplaces.asks
      obtain rfl : cell = ⟨0, 0, 1, 1⟩ := List.mem_singleton.1 hcell
      cases hmissing
  · obtain ⟨m, hm, -, hgrows⟩ := (@stable_run ⟨2, 1, 1, .uchar⟩ (.ofTileSize 1 1) false true _ rfl
      [.openPull ⟨0, 0, 1, 1⟩ (.empty ⟨2, 1, 1, .uchar⟩) ⟨_, rfl, rfl⟩, .advance 0 0, .begin 1,
        .finish 1 .pattern]).2 rfl
      [.openPull ⟨0, 0, 2, 1⟩ (.empty ⟨2, 1, 1, .uchar⟩) ⟨_, rfl, rfl⟩, .advance 2 0, .advance 2 0]
      (by simp [Move.Invalidates]) rfl ⟨0, 0, 2, 1⟩ (.empty ⟨2, 1, 1, .uchar⟩) _ ⟨rfl, rfl⟩ rfl
    exact ⟨m, hm, hgrows 0 0 rfl rfl⟩

end Engine

end TileCache
