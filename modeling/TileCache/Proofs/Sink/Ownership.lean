import TileCache.Proofs.Sink.Eviction
import TileCache.Proofs.Sink.Freshness

/-!
# One computation for one cell

The invariant of an engine (`Sound`) says that the jobs that are out and the tiles in computation
agree.  Here it is spelled out what that is good for.  As long as a job is out, nobody else has to
do with its tile: no request hands out a second job for the tile or for its cell, no pull copies
from it, and nothing that can happen brings it to another cell.  So there are never two calls of
the source for one cell at once.

All this is about open sinks but the last: the jobs of a sink that was closed go on, and they too
are for different cells.  For that one has to look at the jobs by themselves, since a closed cache
has no tiles left that could tell them apart; but it hands out no jobs either
(`jobs_sublist_of_closed`).
-/

set_option autoImplicit false

namespace TileCache

/-- Two jobs that are out are never for one cell. -/
theorem Cache.Lends.areas_nodup {c : Cache} {jobs : List Job} (hi : c.Indexed)
    (h : c.Lends jobs) : (jobs.map (·.area)).Nodup := by
  refine List.Nodup.map_on (fun i hiJ j hj ha => ?_) (List.Nodup.of_map _ h.apart)
  obtain ⟨s, hs, -, hsa⟩ := h.isOut i hiJ
  obtain ⟨t, ht, -, hta⟩ := h.isOut j hj
  refine List.inj_on_of_nodup_map h.apart hiJ hj ?_
  exact hi.id_eq hs ht (congrArg Rect.origin (hsa.trans (ha.trans hta.symm)))

namespace Engine

variable {e d : Engine} {move : Move}

/-! ## Closed sinks -/

/-- A request that hands out a job finds the cache open and leaves it open. -/
theorem isOpen_of_asks (hw : e.sink.cache.WellFormed) {pull : Pull} {c : Cache} {job : Job}
    (ha : e.sink.Asks pull c (some job)) : c.isOpen = true := by
  rcases ha with ⟨-, -, hj⟩ | ⟨cell, acquired, -, hacq, hj⟩
  · cases hj
  · have hset := Cache.sameSetting_acquire hw e.sink.generation cell
    rw [hacq] at hset
    rw [hset.isOpen]
    by_contra ho
    rw [Cache.acquire_of_closed (by simpa using ho)] at hacq
    obtain rfl := (Prod.mk.inj hacq).2
    cases hj

/-- The jobs of a closed sink only become fewer. -/
theorem jobs_sublist_of_closed (hs : e.Sound) (hc : Change move e d)
    (ho : d.sink.cache.isOpen = false) : d.jobs.Sublist e.jobs := by
  have hforget : ∀ id, (e.forget id).jobs.Sublist e.jobs := fun id =>
    List.eraseP_sublist.map fun nc : Nat × Computation => nc.2.job
  cases hc with
  | @served id _ pull r _ _ serving =>
    rcases computations_carryOn (e.dropPull id) id (e.clientOf id) r with h | ⟨job, hj, -⟩
    · rw [jobs, h]
      exact List.Sublist.refl e.jobs
    · -- a cache that has handed out a job is open
      rw [sink_carryOn] at ho
      have hopen := isOpen_of_asks hs.cache (hj ▸ serving.asks)
      rw [ho] at hopen
      cases hopen
  | began _ => exact jobs_begin e _ ▸ List.Sublist.refl _
  | finished _ _ _ => rw [wake_eq]; exact hforget _
  | lost _ _ => rw [wake_eq]; exact hforget _
  | abandoned _ _ => rw [wake_eq]; exact hforget _
  | opened _ _ => exact List.Sublist.refl _
  | left _ => exact List.Sublist.refl _
  | invalidated _ => exact List.Sublist.refl _
  | detached _ => exact List.Sublist.refl _
  | closed => exact List.Sublist.refl _
  | ended => exact List.Sublist.refl _

/-- The jobs that are out are for different cells, whether the sink is open or not. -/
theorem areas_nodup_change (hs : e.Sound) (h : (e.jobs.map (·.area)).Nodup)
    (hc : Change move e d) : (d.jobs.map (·.area)).Nodup := by
  have hd := hs.change hc
  by_cases ho : d.sink.cache.isOpen = true
  · exact (hd.lends ho).areas_nodup hd.cache.toIndexed
  · exact h.sublist ((jobs_sublist_of_closed hs hc (by simpa using ho)).map _)

theorem areas_nodup_step (hs : e.Sound) (h : (e.jobs.map (·.area)).Nodup) (move : Move) :
    ((e.step move).jobs.map (·.area)).Nodup :=
  (step_induction (I := fun d => d.Sound ∧ (d.jobs.map (·.area)).Nodup)
    (fun hc hd => ⟨hd.1.change hc, areas_nodup_change hd.1 hd.2 hc⟩) ⟨hs, h⟩).2

theorem areas_nodup_run (hs : e.Sound) (h : (e.jobs.map (·.area)).Nodup) (moves : List Move) :
    ((e.run moves).jobs.map (·.area)).Nodup := by
  induction moves generalizing e with
  | nil => exact h
  | cons move moves ih => exact ih (hs.step move) (areas_nodup_step hs h move)

/-! ## Open sinks -/

/-- What can be relied on about the jobs that are out, as long as the sink is open. -/
structure Exclusive (e : Engine) : Prop where
  /-- The tile of a job is being computed, is without a buffer, and stands on the job's cell. -/
  isOut : ∀ job ∈ e.jobs, ∃ t, e.sink.cache.tiles[job.tile]? = some t ∧ t.state = .computing ∧
    t.region? = none ∧ t.area = job.area
  /-- No two jobs have one tile, -/
  tiles_nodup : (e.jobs.map (·.tile)).Nodup
  /-- and no two have one cell. -/
  cells_nodup : (e.jobs.map (·.area)).Nodup
  /-- A step of a pull hands out no job for the tile or the cell of one that is out, -/
  notRestarted : ∀ np ∈ e.pulls, ∀ (amid : Nat) (job : Job),
    (e.sink.serve np.2 amid).2.2 = some job →
    ∀ other ∈ e.jobs, job.tile ≠ other.tile ∧ job.area ≠ other.area
  /-- and what it writes is not the buffer of such a tile. -/
  notCopied : ∀ np ∈ e.pulls, ∀ (amid : Nat) (next : Pull),
    (e.sink.serve np.2 amid).2.1 = .went next →
    Writes e.sink np.2 (e.sink.serve np.2 amid).1 next fun t => ∀ job ∈ e.jobs, t.area ≠ job.area
  /-- Whatever happens next leaves the tile of a job on its cell. -/
  notMoved : ∀ (move : Move), ∀ job ∈ e.jobs, ∀ t : Tile,
    (e.step move).sink.cache.tiles[job.tile]? = some t → t.area = job.area

/-- A step of a pull hands out a job that has nothing in common with those that are out. -/
theorem Sound.notRestarted (h : e.Sound) {pull : Pull}
    (hg : ∀ cell, Sink.IsDue pull cell → e.sink.cache.size.IsCell cell) {c : Cache} {job : Job}
    (ha : e.sink.Asks pull c (some job)) {other : Job} (ho : other ∈ e.jobs) :
    job.tile ≠ other.tile ∧ job.area ≠ other.area := by
  obtain ⟨hw, -, -, hl⟩ := h.asks hg ha
  have hlends : c.Lends (job :: e.jobs) := hl (isOpen_of_asks h.cache ha)
  have hareas := hlends.areas_nodup hw.toIndexed
  rw [List.map_cons, List.nodup_cons] at hareas
  exact ⟨(hlends.tile_ne ho).symm, fun he => hareas.1 (List.mem_map.2 ⟨other, ho, he.symm⟩)⟩

/-- A tile with valid pixels is not the tile of a job. -/
theorem Sound.area_ne_of_isValid (h : e.Sound) {pull : Pull}
    (hg : ∀ cell, Sink.IsDue pull cell → e.sink.cache.size.IsCell cell) {c : Cache}
    {job? : Option Job} (ha : e.sink.Asks pull c job?) (hopen : c.isOpen = true) {id : Nat}
    {t : Tile} {generation : Nat} (ht : c.tiles[id]? = some t)
    (hv : t.isValid generation = true) {job : Job} (hj : job ∈ e.jobs) : t.area ≠ job.area := by
  intro he
  obtain ⟨hw, -, -, hl⟩ := h.asks hg ha
  obtain ⟨s, hs, hcomputing, hsa⟩ := (hl hopen).isOut job (List.mem_append_right _ hj)
  have hid : job.tile = id := hw.id_eq hs ht (congrArg Rect.origin (hsa.trans he.symm))
  rw [hid, ht] at hs
  obtain rfl := Option.some.inj hs
  rw [(Sink.isValid_iff.1 hv).1] at hcomputing
  cases hcomputing

theorem Sound.exclusive (h : e.Sound) (ho : e.sink.cache.isOpen = true) : e.Exclusive where
  isOut := fun job hj => by
    obtain ⟨t, ht, hc, ha⟩ := (h.lends ho).isOut job hj
    exact ⟨t, ht, hc, (h.cache.buffered _ t ht).2 hc, ha⟩
  tiles_nodup := (h.lends ho).apart
  cells_nodup := (h.lends ho).areas_nodup h.cache.toIndexed
  notRestarted := fun np hnp amid job hjob other hother => by
    have hasks := (Sink.serving e.sink np.2 amid).asks
    rw [hjob] at hasks
    exact h.notRestarted (h.onGrid np hnp) hasks hother
  notCopied := fun np hnp amid next hwent => by
    have serving := Sink.serving e.sink np.2 amid
    generalize e.sink.serve np.2 amid = r at serving hwent
    obtain ⟨s', served, job?⟩ := r
    obtain rfl : served = .went next := hwent
    have hopen : s'.cache.isOpen = true := by
      rw [(h.asks (h.onGrid np hnp) serving.asks).2.2.1.isOpen]
      exact ho
    exact writes_of_serving h.cache (h.onGrid np hnp) serving fun id t ht hv job hj =>
      h.area_ne_of_isValid (h.onGrid np hnp) serving.asks hopen ht hv hj
  notMoved := fun move job hj t ht => by
    obtain ⟨s, hs, hc, ha⟩ := (h.lends ho).isOut job hj
    by_contra hne
    -- only a tile that nobody computes can go to another cell
    obtain ⟨-, s', hs', hfree, -⟩ := oldest_of_area_ne h hs ht fun he => hne (he.trans ha)
    rw [hs] at hs'
    obtain rfl := Option.some.inj hs'
    exact hfree hc

/-! ## Runs -/

/-- Two calls that are in progress for one cell are one and the same. -/
def CallsApart (e : Engine) : Prop :=
  ∀ m ∈ e.computations, ∀ n ∈ e.computations, m.2.beganAt? ≠ none → n.2.beganAt? ≠ none →
    m.2.job.area = n.2.job.area → m = n

/-- **One computation for one cell.**  In every state that a run of a new sink leads to, no two
calls are in progress for one cell; and while the sink is open, the tile of each job that is out is
in computation for the very cell of the job, no two jobs have one tile or one cell, and nobody moves
such a tile, copies from it or starts on it again. -/
theorem exclusive_run {info : ImageInfo} {config : Config} {hasRuntime withMask : Bool} {s : Sink}
    (hs : Sink.create info config hasRuntime withMask = .ok s) (moves : List Move) :
    let e := (ofSink s hasRuntime).run moves
    e.CallsApart ∧ (e.sink.cache.isOpen = true → e.Exclusive) := by
  intro e
  have hareas : (e.jobs.map (·.area)).Nodup :=
    areas_nodup_run (sound_ofSink hs) List.nodup_nil moves
  rw [jobs, List.map_map] at hareas
  exact ⟨fun m hm n hn _ _ ha => List.inj_on_of_nodup_map hareas hm hn ha,
    fun ho => (sound_run hs moves).1.exclusive ho⟩

/-- Three cells and two tiles, which are computed for the first two in the background.  One of the
calls is in progress, and there is no tile for the third cell. -/
theorem exclusive_run_narrow :
    ∃ s, Sink.create ⟨3, 1, 1, .uchar⟩
        { Config.ofTileSize 1 1 with maxTiles := 2, mode := .background } true false = .ok s ∧
      let e := (ofSink s true).run
        [.openPull ⟨0, 0, 3, 1⟩ (.empty ⟨3, 1, 1, .uchar⟩) ⟨_, rfl, rfl⟩, .advance 0 0, .begin 1,
          .advance 0 0, .advance 0 0]
      e.jobs.map (·.area) = [⟨1, 0, 1, 1⟩, ⟨0, 0, 1, 1⟩] ∧ e.CallsApart ∧ e.Exclusive := by
  refine ⟨_, rfl, rfl, ?_⟩
  have h := @exclusive_run ⟨3, 1, 1, .uchar⟩
    { Config.ofTileSize 1 1 with maxTiles := 2, mode := .background } true false _ rfl
    [.openPull ⟨0, 0, 3, 1⟩ (.empty ⟨3, 1, 1, .uchar⟩) ⟨_, rfl, rfl⟩, .advance 0 0, .begin 1,
      .advance 0 0, .advance 0 0]
  exact ⟨h.1, h.2 rfl⟩

end Engine

end TileCache
