import TileCache.Proofs.Cache.Decision
import TileCache.Proofs.Geometry.Cover
import TileCache.Proofs.Sink.Structure
import TileCache.Proofs.Sink.Zeros

/-!
# Looking at a point

`Sink.probe` rounds a point down to the origin of a cell by itself, and looks it up in the index,
which knows cells by their origins only.  A pull has its cells from `Rect.cells`.  Both come to the
same cell because all tiles stand on one grid.

* `probe_eq_some_iff`: a probe finds the tile that covers the point, in whole numbers.  There is one
  at most, and `filter_tiles` says that it is the only entry for its area in the list of tiles.
* `asksBy` is a log of what a pull asks for, with the tiles that it is answered with.  Right after a
  request its tile stands on the cell (`stands_of_asked`), and a probe there finds a tile as long as
  it stands on the cell (`probe_eq_iff_area`).
* `Booked` is the invariant of such logs: what a pull has asked for and what it has not asked for
  yet are, in this order, the cells of its region.  So at its end it has asked for the cell of each
  pixel once (`filter_asked`).

What probes find is in `Sink.Finds`, and how pulls and probes go together in `Engine.LooksAlike`.
`probe_run` has both, for every state that a run leads to.
-/

set_option autoImplicit false

namespace TileCache

/-! ## Tiles and their list -/

namespace Cache

variable {c : Cache} {id : Nat} {tile : Tile}

/-- A tile is found under the origin of its cell, and no other tile is. -/
theorem Indexed.tileAt?_eq_some_iff (h : c.Indexed) {origin : Origin} :
    c.tileAt? origin = some tile ↔
      ∃ id : Nat, c.tiles[id]? = some tile ∧ tile.area.origin = origin := by
  constructor
  · intro ht
    obtain ⟨id, hf, hid⟩ := Option.bind_eq_some_iff.1 ht
    obtain ⟨t, ht', ho⟩ := h.exists_tile hf
    rw [hid] at ht'
    obtain rfl := Option.some.inj ht'
    exact ⟨id, hid, ho⟩
  · rintro ⟨id, hid, rfl⟩
    rw [tileAt?, h.find? hid]
    exact hid

/-- All tiles are listed. -/
theorem Indexed.mem_listTiles (h : c.Indexed) (ht : c.tiles[id]? = some tile) :
    tile ∈ c.listTiles :=
  List.mem_filterMap.2 ⟨id, h.mem_ids_iff.2 (lt_size ht), ht⟩

/-- A tile is the only one that is listed for its area. -/
theorem filter_listTiles (h : c.Indexed) (ho : c.Ordered) (ht : c.tiles[id]? = some tile) :
    c.listTiles.filter (fun t => t.area = tile.area) = [tile] := by
  have hnodup : c.listTiles.Nodup := ho.listTiles.imp fun {s t} hlt he => by
    rw [he] at hlt
    exact Nat.lt_irrefl _ hlt
  refine eq_singleton_of_nodup (hnodup.filter _)
    (List.mem_filter.2 ⟨h.mem_listTiles ht, decide_eq_true rfl⟩) fun t hmem => ?_
  obtain ⟨hlisted, harea⟩ := List.mem_filter.1 hmem
  obtain ⟨j, -, hj⟩ := List.mem_filterMap.1 hlisted
  obtain rfl := h.id_eq hj ht (congrArg Rect.origin (of_decide_eq_true harea))
  exact Option.some.inj (hj.symm.trans ht)

end Cache

/-! ## Probes -/

namespace Sink

variable {s : Sink} {x y : Coord} {id : Nat} {t : Tile}

/-- **A probe finds the tile that covers the point.** -/
theorem probe_eq_some_iff (hw : s.cache.WellFormed) (hx : TileSize.Rounds s.size.width x)
    (hy : TileSize.Rounds s.size.height y) {p : Probe} :
    s.probe x y = some p ↔ ∃ (id : Nat) (t : Tile), s.cache.tiles[id]? = some t ∧
      s.size.Covers t.area x y ∧ s.probeOf t = p := by
  obtain ⟨hcell, hcovers⟩ := TileSize.isCell_cellAt hx hy
  rw [probe, Option.map_eq_some_iff]
  constructor
  · rintro ⟨t, ht, hp⟩
    obtain ⟨id, hid, ho⟩ := hw.tileAt?_eq_some_iff.1 ht
    have harea := (hw.onGrid id t hid).eq_of_origin hcell ho
    exact ⟨id, t, hid, harea ▸ hcovers, hp⟩
  · rintro ⟨id, t, hid, hc, hp⟩
    have harea := (hw.onGrid id t hid).eq_cellAt_of_covers hc
    exact ⟨t, hw.tileAt?_eq_some_iff.2 ⟨id, hid, congrArg Rect.origin harea⟩, hp⟩

/-- No two tiles cover a point. -/
theorem id_eq_of_covers (hw : s.cache.WellFormed) {i j : Nat} {t u : Tile}
    (ht : s.cache.tiles[i]? = some t) (hu : s.cache.tiles[j]? = some u)
    (hc : s.size.Covers t.area x y) (hc' : s.size.Covers u.area x y) : i = j := by
  have harea : t.area = u.area :=
    ((hw.onGrid i t ht).eq_cellAt_of_covers hc).trans
      ((hw.onGrid j u hu).eq_cellAt_of_covers hc').symm
  exact hw.id_eq ht hu (congrArg Rect.origin harea)

/-- A tile is the only entry for its area in the list of tiles. -/
theorem filter_tiles (hw : s.cache.WellFormed) (ho : s.cache.Ordered)
    (ht : s.cache.tiles[id]? = some t) :
    s.tiles.filter (fun p => p.area = t.area) = [s.probeOf t] := by
  rw [tiles, List.filter_map]
  exact congrArg (List.map s.probeOf) (Cache.filter_listTiles hw.toIndexed ho ht)

/-- A tile is seen at a point of a cell just if it stands on this cell. -/
theorem probe_eq_iff_area (hw : s.cache.WellFormed) {cell : Rect} (hcell : s.size.IsCell cell)
    (hxy : cell.contains x y = true) (ht : s.cache.tiles[id]? = some t) :
    s.probe x y = some (s.probeOf t) ↔ t.area = cell := by
  have hcovers := hcell.covers_of_contains hxy
  obtain ⟨hx, hy⟩ := hcell.rounds_of_covers hcovers
  rw [probe_eq_some_iff hw hx hy]
  constructor
  · rintro ⟨j, u, hu, hc, hp⟩
    have harea : u.area = t.area := congrArg Probe.area hp
    exact harea.symm.trans (((hw.onGrid j u hu).eq_cellAt_of_covers hc).trans
      (hcell.eq_cellAt_of_covers hcovers).symm)
  · rintro rfl
    exact ⟨id, t, ht, hcovers, rfl⟩

/-- What a probe at a point finds. -/
structure Finds (s : Sink) (x y : Coord) : Prop where
  /-- It finds a tile just if there is one that covers the point, counted in whole numbers, and
  describes this tile. -/
  covering : ∀ p, s.probe x y = some p ↔ ∃ (id : Nat) (t : Tile), s.cache.tiles[id]? = some t ∧
    s.size.Covers t.area x y ∧ s.probeOf t = p
  /-- There is one such tile at most. -/
  unique : ∀ (i j : Nat) (t u : Tile), s.cache.tiles[i]? = some t → s.cache.tiles[j]? = some u →
    s.size.Covers t.area x y → s.size.Covers u.area x y → i = j
  /-- The tile is the only entry for its area in the list of tiles. -/
  listed : ∀ p, s.probe x y = some p → s.tiles.filter (fun q => q.area = p.area) = [p]

theorem finds (hw : s.cache.WellFormed) (ho : s.cache.Ordered)
    (hx : TileSize.Rounds s.size.width x) (hy : TileSize.Rounds s.size.height y) :
    s.Finds x y := by
  refine ⟨fun p => probe_eq_some_iff hw hx hy, fun i j t u => id_eq_of_covers hw, fun p hp => ?_⟩
  obtain ⟨id, t, ht, -, rfl⟩ := (probe_eq_some_iff hw hx hy).1 hp
  exact filter_tiles hw ho ht

end Sink

namespace Engine

variable {e d : Engine} {move : Move} {n id amid : Nat} {cell : Rect} {size : TileSize}
  {asked : Nat → List Rect}

/-! ## What pulls ask for -/

/-- The cell that a move asks for on behalf of pull `n`, with the tile that the cache answers with,
if it does. -/
def asksBy (n : Nat) (e : Engine) : Move → List (Rect × Option Nat)
  | .advance id _ =>
    if id = n then
      ((e.pulls.lookup id).bind Pull.next?).toList.map fun cell =>
        (cell, (e.sink.cache.acquire e.sink.generation cell).2.tile?)
    else []
  | .openPull _ _ _ | .dropPull _ | .begin _ | .finish _ _ | .drop _ | .invalidate | .detach
  | .shutdown => []

/-- The cells that a pull asks for are those that its steps take from it. -/
theorem map_asksBy (n : Nat) (e : Engine) (id amid : Nat) :
    (e.asksBy n (.advance id amid)).map (·.1) =
      if id = n then ((e.pulls.lookup id).bind Pull.next?).toList else [] := by
  rw [asksBy]
  split
  · rw [List.map_map]
    exact List.map_id _
  · rfl

/-- Right after a request its tile stands on the cell. -/
theorem Sound.stands_of_asked (h : e.Sound) (ha : (cell, some id) ∈ e.asksBy n move) :
    e.sink.size.IsCell cell ∧
      ∃ t, (e.step move).sink.cache.tiles[id]? = some t ∧ t.area = cell := by
  cases move with
  | advance k amid =>
    rw [asksBy] at ha
    split at ha
    · obtain ⟨cell', hmem, hpair⟩ := List.mem_map.1 ha
      obtain ⟨rfl, htile⟩ := Prod.mk.inj hpair
      obtain ⟨pull, hf, hnext⟩ := Option.bind_eq_some_iff.1 (Option.mem_toList.1 hmem)
      have hdone : pull.isDone = false := Bool.eq_false_iff.2 fun hd => by
        rw [Pull.next?_of_isDone hd] at hnext
        cases hnext
      have hcell : e.sink.cache.size.IsCell cell' :=
        h.onGrid _ (mem_of_lookup hf) _ (.inl (Pull.mem_of_next? hnext))
      -- the step leaves the cache as the request does
      have hstep : e.step (.advance k amid) = _ :=
        congrArg Prod.fst (advance_of_lookup hf hdone amid)
      rw [hstep, sink_carryOn]
      refine ⟨hcell, ?_⟩
      rcases (Sink.serving e.sink pull amid).asks with ⟨hnone, -⟩ | ⟨asked, acquired, hask, hacq, -⟩
      · rw [hnext] at hnone
        cases hnone
      · obtain rfl := Option.some.inj (hnext.symm.trans hask)
        rw [hacq] at htile
        cases acquired with
        | ready i =>
          obtain rfl := Option.some.inj htile
          obtain ⟨t, ht, harea, -⟩ := Cache.exists_of_ready h.cache hcell hacq
          exact ⟨t, ht, harea⟩
        | compute job =>
          obtain rfl := Option.some.inj htile
          obtain ⟨hjob, ⟨t, ht, -, harea⟩, -⟩ := Cache.computing_of_compute h.cache hcell hacq
          exact ⟨t, ht, harea.trans hjob⟩
        | unavailable => cases htile
        | broke _ => cases htile
    · cases ha
  | openPull _ _ _ => cases ha
  | dropPull _ => cases ha
  | begin _ => cases ha
  | finish _ _ => cases ha
  | drop _ => cases ha
  | invalidate => cases ha
  | detach => cases ha
  | shutdown => cases ha

/-! ## The cells of a pull -/

/-- What is known of the pulls under way if `asked n` is what pull `n` has asked for.  Numbers are
given once, so pulls have different ones, and nothing was asked for under a number to come. -/
structure Booked (size : TileSize) (asked : Nat → List Rect) (e : Engine) : Prop where
  distinct : (e.pulls.map (·.1)).Nodup
  lt : ∀ np ∈ e.pulls, np.1 < e.nextId
  fresh : ∀ n, e.nextId ≤ n → asked n = []
  cells : ∀ np ∈ e.pulls, asked np.1 ++ np.2.cells = np.2.out.valid.cells size

theorem booked_ofSink (s : Sink) (hasRuntime : Bool) :
    (ofSink s hasRuntime).Booked size fun _ => [] :=
  ⟨List.nodup_nil, fun _ h => absurd h List.not_mem_nil, fun _ _ => rfl,
    fun _ h => absurd h List.not_mem_nil⟩

/-- The invariant goes along with pulls that keep their numbers, their regions and their cells. -/
theorem Booked.of_pulls (h : e.Booked size asked) (hn : e.nextId ≤ d.nextId)
    (hids : (d.pulls.map (·.1)).Sublist (e.pulls.map (·.1)))
    (hsame : ∀ np ∈ d.pulls, ∃ mp ∈ e.pulls, np.1 = mp.1 ∧ np.2.cells = mp.2.cells ∧
      np.2.out.valid = mp.2.out.valid) : d.Booked size asked := by
  refine ⟨h.distinct.sublist hids, fun np hnp => ?_, fun n hle => h.fresh n (Nat.le_trans hn hle),
    fun np hnp => ?_⟩
  · obtain ⟨mp, hmp, hid, -⟩ := hsame np hnp
    rw [hid]
    exact Nat.lt_of_lt_of_le (h.lt mp hmp) hn
  · obtain ⟨mp, hmp, hid, hcells, hvalid⟩ := hsame np hnp
    rw [hid, hcells, hvalid]
    exact h.cells mp hmp

theorem Booked.of_same (h : e.Booked size asked) (hn : e.nextId ≤ d.nextId)
    (hp : d.pulls = e.pulls) : d.Booked size asked :=
  h.of_pulls hn (hp ▸ List.Sublist.refl _) fun np hnp => ⟨np, hp ▸ hnp, rfl, rfl, rfl⟩

theorem Booked.dropPull (h : e.Booked size asked) (id : Nat) : (e.dropPull id).Booked size asked :=
  h.of_pulls (Nat.le_refl _) (List.eraseP_sublist.map _)
    fun np hnp => ⟨np, mem_pulls_dropPull hnp, rfl, rfl, rfl⟩

theorem Booked.wake (h : e.Booked size asked) (client : Client) (painted : Bool) :
    (e.wake client painted).Booked size asked := by
  cases client with
  | nobody => exact h
  | pull k =>
    have hids : (e.wake (.pull k) painted).pulls.map (·.1) = e.pulls.map (·.1) := by
      rw [Engine.wake, List.map_map]
      refine List.map_congr_left fun np _ => ?_
      dsimp only [Function.comp]
      split <;> rfl
    refine h.of_pulls (Nat.le_refl _) (hids ▸ List.Sublist.refl _) fun np hnp => ?_
    obtain ⟨mp, hmp, rfl⟩ := List.mem_map.1 hnp
    refine ⟨mp, hmp, ?_⟩
    dsimp only
    split
    · exact ⟨rfl, Pull.cells_wake _ _, by rw [out_wake]⟩
    · exact ⟨rfl, rfl, rfl⟩

/-- A pull comes to the others, with a number of its own. -/
theorem Booked.cons (h : e.Booked size asked) {p : Pull} (hp : d.pulls = (id, p) :: e.pulls)
    (hn : e.nextId ≤ d.nextId) (hnew : id ∉ e.pulls.map (·.1)) (hlt : id < d.nextId)
    (hcells : asked id ++ p.cells = p.out.valid.cells size) : d.Booked size asked := by
  refine ⟨?_, ?_, fun n hle => h.fresh n (Nat.le_trans hn hle), ?_⟩ <;> rw [hp]
  · exact List.nodup_cons.2 ⟨hnew, h.distinct⟩
  · exact List.forall_mem_cons.2 ⟨hlt, fun np hnp => Nat.lt_of_lt_of_le (h.lt np hnp) hn⟩
  · exact List.forall_mem_cons.2 ⟨hcells, h.cells⟩

/-- Something is asked for on behalf of a pull that is not among the others. -/
theorem Booked.ask (h : e.Booked size asked) (hnew : id ∉ e.pulls.map (·.1)) (hlt : id < e.nextId)
    (cells : List Rect) : e.Booked size fun n => asked n ++ if id = n then cells else [] where
  distinct := h.distinct
  lt := h.lt
  fresh n hle := by
    rw [h.fresh n hle, if_neg (Nat.ne_of_lt (Nat.lt_of_lt_of_le hlt hle))]
    rfl
  cells np hnp := by
    have hne : id ≠ np.1 := fun he => hnew (List.mem_map.2 ⟨np, hnp, he.symm⟩)
    rw [if_neg hne, List.append_nil]
    exact h.cells np hnp

/-- The number of a pull that is taken out is not among those of the others. -/
theorem Booked.not_mem_dropPull (h : e.Booked size asked) {pull : Pull}
    (hf : e.pulls.lookup id = some pull) : id ∉ (e.dropPull id).pulls.map (·.1) := by
  have hdistinct := (((perm_of_lookup hf).map (·.1)).nodup_iff).1 h.distinct
  exact (List.nodup_cons.1 hdistinct).1

/-! ### Moves -/

/-- What is no step of a pull asks for nothing, and changes nothing about the cells of pulls. -/
theorem Booked.change (h : e.Booked size asked) (hsize : e.sink.size = size)
    (hm : ∀ id amid, move ≠ .advance id amid) (hc : Change move e d) : d.Booked size asked := by
  have forgotten : ∀ {f : Engine} (client : Client) (painted : Bool), f.nextId = e.nextId →
      f.pulls = e.pulls → (f.wake client painted).Booked size asked := fun client painted hn hp =>
    (h.of_same (Nat.le_of_eq hn.symm) hp).wake client painted
  cases hc with
  | opened isRegion buffered =>
    refine h.cons rfl (Nat.le_succ _) (fun hmem => ?_) (Nat.lt_succ_self _) ?_
    · obtain ⟨np, hnp, hid⟩ := List.mem_map.1 hmem
      exact Nat.lt_irrefl _ (hid ▸ h.lt np hnp)
    · rw [h.fresh _ (Nat.le_refl _), hsize]
      rfl
  | left id => exact h.dropPull id
  | served isMove _ _ => exact absurd isMove (hm _ _)
  | finished _ _ _ => exact forgotten _ _ rfl rfl
  | lost _ _ => exact forgotten _ _ rfl rfl
  | abandoned _ _ => exact forgotten _ _ rfl rfl
  | began _ => exact h.of_same (Nat.le_refl _) rfl
  | invalidated _ => exact h.of_same (Nat.le_refl _) rfl
  | detached _ _ => exact h.of_same (Nat.le_refl _) rfl
  | closed _ => exact h.of_same (Nat.le_refl _) rfl
  | ended => exact h.of_same (Nat.le_refl _) rfl

/-- A step of a pull takes the cell that it asks for from those of the pull. -/
theorem Booked.served (h : e.Booked size asked) {pull : Pull}
    (hf : e.pulls.lookup id = some pull) (client : Client) {r : Sink × Served × Option Job}
    (serving : e.sink.Serving amid pull r) :
    ((e.dropPull id).carryOn id client r).1.Booked size fun n =>
      asked n ++ if id = n then pull.next?.toList else [] := by
  have hmem := mem_of_lookup hf
  have hnew := h.not_mem_dropPull hf
  have hasked := (h.dropPull id).ask hnew (h.lt _ hmem) pull.next?.toList
  have hnext : e.nextId ≤ ((e.dropPull id).carryOn id client r).1.nextId := by
    rcases numbers_carryOn (e.dropPull id) id client r with ⟨-, hn⟩ | ⟨-, -, hn⟩
    · exact Nat.le_of_eq hn.symm
    · exact hn ▸ Nat.le_succ _
  obtain ⟨computations, nextId, hcarry, -⟩ := carryOn_eq (e.dropPull id) id client r
  obtain ⟨s', served, job?⟩ := r
  cases served with
  | broke fault => exact hasked.of_same hnext (by rw [hcarry])
  | went next =>
    refine hasked.cons (by rw [hcarry]) hnext hnew (Nat.lt_of_lt_of_le (h.lt _ hmem) hnext) ?_
    rw [if_pos rfl, out_of_serving serving, List.append_assoc, ← serving.cells_eq]
    exact h.cells _ hmem

theorem Booked.advance (h : e.Booked size asked) (id amid : Nat) :
    (e.step (.advance id amid)).Booked size fun n =>
      asked n ++ (e.asksBy n (.advance id amid)).map (·.1) := by
  simp only [map_asksBy]
  cases hf : e.pulls.lookup id with
  | none =>
    have hadvance : (e.advance id amid).1 = e := by rw [Engine.advance, hf]
    simp only [Option.bind_none, Option.toList_none, ite_self, List.append_nil]
    exact h.of_same (Nat.le_of_eq (congrArg Engine.nextId hadvance.symm))
      (congrArg Engine.pulls hadvance)
  | some pull =>
    rw [Option.bind_some]
    cases hdone : pull.isDone with
    | true =>
      simp only [Pull.next?_of_isDone hdone, Option.toList_none, ite_self, List.append_nil]
      rw [(delivered_of_done hf hdone amid).1]
      exact h.dropPull id
    | false =>
      rw [show e.step (.advance id amid) = _ from
        congrArg Prod.fst (advance_of_lookup hf hdone amid)]
      exact h.served hf _ (Sink.serving e.sink pull amid)

theorem Booked.step (hs : e.Sound) (h : e.Booked size asked) (hsize : e.sink.size = size)
    (move : Move) :
    (e.step move).Booked size fun n => asked n ++ (e.asksBy n move).map (·.1) := by
  by_cases hm : ∃ id amid, move = .advance id amid
  · obtain ⟨id, amid, rfl⟩ := hm
    exact h.advance id amid
  · have hno : ∀ id amid, move ≠ .advance id amid := fun id amid he => hm ⟨id, amid, he⟩
    have hlog : (fun n => asked n ++ (e.asksBy n move).map (·.1)) = asked := by
      funext n
      cases move with
      | advance id amid => exact absurd rfl (hno id amid)
      | openPull _ _ _ => exact List.append_nil _
      | dropPull _ => exact List.append_nil _
      | begin _ => exact List.append_nil _
      | finish _ _ => exact List.append_nil _
      | drop _ => exact List.append_nil _
      | invalidate => exact List.append_nil _
      | detach => exact List.append_nil _
      | shutdown => exact List.append_nil _
    rw [hlog]
    refine (step_induction (I := fun d => d.Sound ∧ SameBase e d ∧ d.Booked size asked)
      (fun hc hd => ?_) ⟨hs, ⟨rfl, rfl, rfl, rfl⟩, h⟩).2.2
    obtain ⟨hsound, hbase, hbooked⟩ := hd
    exact ⟨hsound.change hc, hbase.trans (SameBase.change hsound hc),
      hbooked.change (hbase.size.trans hsize) hno hc⟩

section

variable {info : ImageInfo} {config : Config} {hasRuntime withMask : Bool} {s : Sink}
  {moves : List Move}

theorem booked_run (hs : Sink.create info config hasRuntime withMask = .ok s) (moves : List Move) :
    ((ofSink s hasRuntime).run moves).Booked s.size fun n =>
      (collect (asksBy n) (ofSink s hasRuntime) moves).map (·.1) := by
  induction moves using List.reverseRecOn with
  | nil => exact booked_ofSink s hasRuntime
  | append_singleton moves move ih =>
    obtain ⟨hsound, hbase⟩ := sound_run hs moves
    have hstep := ih.step hsound hbase.size move
    simp only [collect_concat, List.map_append, run_concat]
    exact hstep

/-- **A pull that ends has asked for the cell of each of its pixels once**, and for no other cell
that contains it. -/
theorem filter_asked (hs : Sink.create info config hasRuntime withMask = .ok s)
    {out : Region} (hf : (((ofSink s hasRuntime).run moves).advance n amid).2.1 =
      some (.finished out)) {x y : Coord} (hxy : out.valid.contains x y = true) :
    ∃ cell tile?, s.size.IsCell cell ∧ cell.contains x y = true ∧
      (collect (asksBy n) (ofSink s hasRuntime) moves).filter (fun a => a.1.contains x y) =
        [(cell, tile?)] := by
  obtain ⟨p, hmem, hdone, rfl⟩ := exists_pull_of_finished hf
  have hlaid := (tidy_run hs moves _ hmem).laidOut
  have hcells := (booked_run hs moves).cells _ hmem
  have hnone : p.cells = [] := List.eq_nil_iff_forall_not_mem.2 fun cell hcell =>
    not_isDue_of_isDone hdone cell (.inl hcell)
  rw [hnone, List.append_nil] at hcells
  -- of the cells that it has asked for those that contain the pixel are the ones in the list
  have honly := congrArg (List.filter fun cell : Rect => cell.contains x y) hcells
  rw [List.filter_map, Rect.filter_cells hlaid.column hlaid.row hxy] at honly
  obtain ⟨⟨cell, tile?⟩, hsingle, hcell⟩ := List.map_eq_singleton_iff.1 honly
  obtain rfl : cell = s.size.cellAt x y := hcell
  obtain ⟨other, hother, hin⟩ := Rect.exists_mem_cells hlaid.column hlaid.row hxy
  have hgrid := hlaid.isCell hother
  have hsame := hgrid.eq_cellAt hin
  rw [hsame] at hgrid hin
  exact ⟨_, tile?, hgrid, hin, hsingle⟩

/-- Pulls and probes look at the same tile, after these moves and later. -/
structure LooksAlike (start : Engine) (moves : List Move) : Prop where
  /-- Right after a request that was answered with a tile, a probe at any point of the cell finds
  this tile. -/
  request : ∀ n move cell id, (cell, some id) ∈ (start.run moves).asksBy n move →
    ∀ x y, cell.contains x y = true →
      let f := (start.run moves).step move
      ∃ t, f.sink.cache.tiles[id]? = some t ∧ t.area = cell ∧
        f.sink.probe x y = some (f.sink.probeOf t)
  /-- A pull that comes to its end has asked for one cell for each pixel of its region.  Then and at
  any later time a probe at this pixel looks up just this cell, and finds the tile with which the
  request was answered, unless that one has gone to another cell. -/
  pixel : ∀ n amid out, ((start.run moves).advance n amid).2.1 = some (.finished out) →
    ∀ x y, out.valid.contains x y = true → ∃ cell tile?, cell.contains x y = true ∧
      (collect (asksBy n) start moves).filter (fun a => a.1.contains x y) = [(cell, tile?)] ∧
      ∀ later, let f := (start.run moves).run later
        f.sink.probe x y = (f.sink.cache.tileAt? cell.origin).map f.sink.probeOf ∧
        ∀ (id : Nat) (t : Tile), tile? = some id → f.sink.cache.tiles[id]? = some t →
          (f.sink.probe x y = some (f.sink.probeOf t) ↔ t.area = cell)

theorem looksAlike_run (hs : Sink.create info config hasRuntime withMask = .ok s)
    (moves : List Move) : LooksAlike (ofSink s hasRuntime) moves := by
  have sound : ∀ later, (((ofSink s hasRuntime).run moves).run later).Sound ∧
      (((ofSink s hasRuntime).run moves).run later).sink.size = s.size := fun later => by
    obtain ⟨hsound, hbase⟩ := sound_run hs (moves ++ later)
    rw [run_append] at hsound hbase
    exact ⟨hsound, hbase.size⟩
  constructor
  · intro n move cell id ha x y hxy
    obtain ⟨hsound, hsize⟩ := sound []
    obtain ⟨hcell, t, ht, harea⟩ := hsound.stands_of_asked ha
    obtain ⟨hafter, hsize'⟩ := sound [move]
    rw [hsize, ← hsize'] at hcell
    exact ⟨t, ht, harea, (Sink.probe_eq_iff_area hafter.cache hcell hxy ht).2 harea⟩
  · intro n amid out hf x y hxy
    obtain ⟨cell, tile?, hcell, hin, honly⟩ := filter_asked hs hf hxy
    refine ⟨cell, tile?, hin, honly, fun later => ?_⟩
    obtain ⟨hlater, hsize⟩ := sound later
    rw [← hsize] at hcell
    refine ⟨?_, fun id t _ ht => Sink.probe_eq_iff_area hlater.cache hcell hin ht⟩
    rw [hcell.eq_cellAt hin]
    rfl

/-- **A probe finds the tile that covers the point.**  In every state that a run of a new sink leads
to, and for every point that can be rounded down to the grid of the tiles, a probe finds the tile
that covers the point, and pulls look at the same tile. -/
theorem probe_run (hs : Sink.create info config hasRuntime withMask = .ok s) (moves : List Move) :
    (s.size.width = config.tileWidth ∧ s.size.height = config.tileHeight) ∧
      (∀ x y, TileSize.Rounds s.size.width x → TileSize.Rounds s.size.height y →
        ((ofSink s hasRuntime).run moves).sink.Finds x y) ∧
      LooksAlike (ofSink s hasRuntime) moves := by
  obtain ⟨hsound, hbase⟩ := sound_run hs moves
  obtain ⟨size, budget, hvalidate, -, -, hcache⟩ := create_eq_ok hs
  obtain ⟨hwidth, hheight, -⟩ := validate_eq_ok hvalidate
  have hgiven : s.size = size := congrArg Cache.size hcache
  refine ⟨⟨hgiven ▸ hwidth, hgiven ▸ hheight⟩, fun x y hx hy => ?_, looksAlike_run hs moves⟩
  have hsize : ((ofSink s hasRuntime).run moves).sink.size = s.size := hbase.size
  rw [← hsize] at hx hy
  exact Sink.finds hsound.cache hsound.ordered hx hy

end

/-- Two cells and one tile, which goes from the first to the second.  A probe finds it on the second
one only, though both were asked for. -/
theorem probe_run_narrow :
    ∃ s out,
      Sink.create ⟨2, 1, 1, .uchar⟩ { Config.ofTileSize 1 1 with maxTiles := 1 } false false =
        .ok s ∧
      let moves := [.openPull ⟨0, 0, 2, 1⟩ (.empty ⟨2, 1, 1, .uchar⟩) ⟨_, rfl, rfl⟩, .advance 0 0,
        .begin 1, .finish 1 .pattern, .advance 0 0, .advance 0 0, .begin 2, .finish 2 .pattern,
        .advance 0 0]
      let e := (ofSink s false).run moves
      (e.advance 0 0).2.1 = some (.finished out) ∧
        (e.sink.probe 1 0).isSome = true ∧ (e.sink.probe 0 0).isSome = false ∧
        (∀ p, e.sink.probe 1 0 = some p → e.sink.tiles.filter (fun q => q.area = p.area) = [p]) ∧
        ∃ cell tile?, cell.contains 0 0 = true ∧
          (collect (asksBy 0) (ofSink s false) moves).filter (fun a => a.1.contains 0 0) =
            [(cell, tile?)] ∧
          ∀ t, tile? = some 0 → e.sink.cache.tiles[0]? = some t →
            (e.sink.probe 0 0 = some (e.sink.probeOf t) ↔ t.area = cell) := by
  have hrounds : ∀ v : Coord, 0 ≤ v.val → TileSize.Rounds 1 v := fun v hv =>
    TileSize.rounds_of_nonneg (by decide) hv
  obtain ⟨-, hprobe, halike⟩ :=
    @probe_run ⟨2, 1, 1, .uchar⟩ { Config.ofTileSize 1 1 with maxTiles := 1 } false false _ rfl
      [.openPull ⟨0, 0, 2, 1⟩ (.empty ⟨2, 1, 1, .uchar⟩) ⟨_, rfl, rfl⟩, .advance 0 0, .begin 1,
        .finish 1 .pattern, .advance 0 0, .advance 0 0, .begin 2, .finish 2 .pattern, .advance 0 0]
  have hlisted := (hprobe 1 0 (hrounds 1 (by decide)) (hrounds 0 (by decide))).listed
  obtain ⟨cell, tile?, hin, honly, hlater⟩ := halike.pixel 0 0 _ rfl 0 0 rfl
  obtain ⟨-, hfound⟩ := hlater []
  rw [run_nil] at hfound
  exact ⟨_, _, rfl, rfl, rfl, rfl, hlisted, cell, tile?, hin, honly, hfound 0⟩

end Engine

end TileCache
