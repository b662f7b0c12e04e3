import TileCache.Proofs.Sink.Answers
import TileCache.Proofs.Sink.Slots
import TileCache.Sink.Alone

/-!
# The cache is transparent

A synchronous sink over a source that draws a picture delivers that picture, whatever the size and
the number of its tiles, whatever was asked for before, and however the cache changes under the
pull: with fewer tiles than cells, a pull gives up the tiles of its own first cells on the way.

* `Ready` is what such a sink looks like between pulls.
* `Reaches` is one cell of a pull, from the request to the copy, and `exists_reaches` shows that
  every cell that touches the image comes to that.  It takes one or two steps and leaves the sink
  ready, so nothing is left of what the cache went through.
* `runPull_cells` goes through all cells.  What it carries along is that each pixel of the region
  shows the picture already or lies in a cell that is still to come.
* `pull_eq_direct` compares with a call of the source for the whole rectangle.
-/

set_option autoImplicit false

namespace TileCache

theorem allocatable_of_fits {info : ImageInfo} {cell : Rect}
    (hne : (cell.intersect info.bounds).isEmpty = false) (hfits : Fits info cell) :
    Allocatable info cell = true := by
  obtain ⟨r, hr, -⟩ := Region.exists_buffer hne hfits
  rw [Allocatable, hr]
  rfl

namespace Sink

variable {info : ImageInfo} {picture : Picture} {source : Source} {s s' : Sink} {cell : Rect}

/-- An open synchronous sink in which nobody computes, and whose tiles show the picture. -/
structure Ready (info : ImageInfo) (picture : Picture) (s : Sink) : Prop where
  mode : s.config.mode = .synchronous
  isOpen : s.cache.isOpen = true
  wellFormed : s.cache.WellFormed
  isInfo : s.cache.info = info
  idle : s.cache.IsIdle
  displays : s.cache.All (Engine.Displays info picture)
  fits : ∀ cell, s.cache.size.IsCell cell → Fits info cell

/-- What a pull that goes well does not change. -/
structure Keeps (s s' : Sink) : Prop where
  size : s'.cache.size = s.cache.size
  zeroFilled : s'.zeroFilled = s.zeroFilled
  allocationFailures :
    s'.cache.counters.allocationFailures = s.cache.counters.allocationFailures

theorem Keeps.refl (s : Sink) : s.Keeps s := ⟨rfl, rfl, rfl⟩

theorem Keeps.trans {s'' : Sink} (h : s.Keeps s') (h' : s'.Keeps s'') : s.Keeps s'' :=
  ⟨h'.size.trans h.size, h'.zeroFilled.trans h.zeroFilled,
    h'.allocationFailures.trans h.allocationFailures⟩

namespace Ready

/-- Invalidating the image makes tiles stale, but what they show is still the picture. -/
theorem invalidate (h : s.Ready info picture) : s.invalidate.Ready info picture :=
  ⟨h.mode, h.isOpen, h.wellFormed, h.isInfo, h.idle, h.displays, h.fits⟩

/-- The sink with another cache, which has the same setting. -/
theorem withCache (h : s.Ready info picture) {c : Cache} (hset : s.cache.SameSetting c)
    (hw : c.WellFormed) (hidle : c.IsIdle) (hd : c.All (Engine.Displays info picture)) :
    Ready info picture { s with cache := c } where
  mode := h.mode
  isOpen := hset.isOpen.trans h.isOpen
  wellFormed := hw
  isInfo := hset.info.trans h.isInfo
  idle := hidle
  displays := hd
  fits := fun cell hcell => h.fits cell (hset.size ▸ hcell)

theorem depicts (h : s.Ready info picture) : s.cache.Depicts info picture :=
  ⟨h.isOpen, h.wellFormed, h.isInfo, h.displays, h.fits⟩

/-- Every cell that touches the image is served. -/
theorem gives (h : s.Ready info picture) (hcell : s.cache.size.IsCell cell)
    (hne : (cell.intersect info.bounds).isEmpty = false) (generation : Nat) :
    s.cache.Gives generation cell (s.cache.acquire generation cell) := by
  rcases Cache.acquire_of_isIdle h.wellFormed h.isOpen h.idle h.isInfo h.depicts.suited hcell
    generation with
    ⟨-, hgives⟩ | ⟨setback, hno, -⟩
  · exact hgives
  · have hyes := allocatable_of_fits hne (h.fits cell hcell)
    rw [allocatable_of_buffer_error hno] at hyes
    cases hyes

/-- What a request leaves of the cache. -/
theorem request (h : s.Ready info picture) (hcell : s.cache.size.IsCell cell) {d : Cache}
    {acquired : Acquired} (ha : s.cache.acquire s.generation cell = (d, acquired)) :
    s.cache.SameSetting d ∧ d.WellFormed ∧ d.All (Engine.Displays info picture) := by
  have hset := Cache.sameSetting_acquire h.wellFormed s.generation cell
  have hw := h.wellFormed.acquire s.generation hcell
  have hd := h.displays.acquire (h.isInfo ▸ Engine.durable_displays _ _) h.wellFormed s.generation
    cell
  rw [ha] at hset hw hd
  exact ⟨hset, hw, hd⟩

/-- A buffer that goes out comes from a tile that is in order. -/
theorem isWhole_job (h : s.Ready info picture) (hcell : s.cache.size.IsCell cell) {d : Cache}
    {job : Job} (ha : s.cache.acquire s.generation cell = (d, .compute job)) :
    Engine.Travels info job ∧ job.region.IsWhole := by
  obtain ⟨hjob, -, -⟩ := Cache.computing_of_compute h.wellFormed hcell ha
  have htravels := h.depicts.travels ha
  exact ⟨htravels, htravels.isWhole (hjob ▸ h.fits cell hcell)⟩

end Ready

/-! ## One cell -/

/-- A pull that has come to copy goes on with what came of it. -/
def goOn (s : Sink) (source : Source) (fuel : Nat) (cells : List Rect) (jobs : List Job) :
    Except Fault Region → Sink × Finished × List Job
  | .ok out => s.runPull source fuel ⟨out, cells, .nothing⟩ jobs
  | .error fault => (s, .broke fault, jobs)

/-- A step that comes to write from a valid tile. -/
theorem runPull_of_answer {pull : Pull} (hdone : pull.isDone = false) {t : Tile} {cells : List Rect}
    (hserve : s.serve pull 0 = ((s'.answer (some t) cell pull.out cells).1,
      (s'.answer (some t) cell pull.out cells).2, none))
    {region : Region} (hr : t.region? = some region) (hv : t.isValid s'.generation = true)
    (fuel : Nat) (jobs : List Job) :
    s.runPull source (fuel + 1) pull jobs =
      s'.goOn source fuel cells jobs
        (pull.out.copyFrom region (t.area.intersect pull.out.valid)) := by
  rw [answer_of_valid hr hv] at hserve
  rw [runPull, hdone, if_neg Bool.false_ne_true, hserve]
  cases pull.out.copyFrom region (t.area.intersect pull.out.valid) <;> rfl

/-- A step that has to wait has its computation done at once, and is woken. -/
theorem runPull_of_compute {d : Cache} {job : Job}
    (ha : s.cache.acquire s.generation cell = (d, .compute job))
    (hmode : s.config.mode = .synchronous) (out : Region) (cells : List Rect) (fuel : Nat)
    (jobs : List Job) :
    s.runPull source (fuel + 1) ⟨out, cell :: cells, .nothing⟩ jobs =
      let (after, painted) := (s.after d 0).settle job s.generation (source job.region)
      after.runPull source fuel ⟨out, cells, .computed job.tile cell painted⟩ jobs := by
  have hserve : s.serve ⟨out, cell :: cells, .nothing⟩ 0 =
      (s.after d 0, .went ⟨out, cells, .computing job.tile cell⟩, some job) := by
    rw [serve, ha]
    dsimp only
    rw [hmode]
    rfl
  rw [runPull, hserve]
  rfl

/-- A pull for `cell` comes to copy from tile `t`.  That takes it `steps` steps, in which the sink
becomes `s'`. -/
structure Reaches (info : ImageInfo) (picture : Picture) (source : Source) (s : Sink) (cell : Rect)
    (s' : Sink) (t : Tile) (steps : Nat) : Prop where
  ready : s'.Ready info picture
  keeps : s.Keeps s'
  stands : ∃ id : Nat, s'.cache.tiles[id]? = some t
  area : t.area = cell
  valid : t.isValid s'.generation = true
  atMostTwo : steps ≤ 2
  runs : ∀ (fuel : Nat) (out : Region) (cells : List Rect) (jobs : List Job) (region : Region),
    t.region? = some region →
      s.runPull source (fuel + steps) ⟨out, cell :: cells, .nothing⟩ jobs =
        s'.goOn source fuel cells jobs (out.copyFrom region (t.area.intersect out.valid))

/-- The tile of the cell has valid pixels. -/
theorem reaches_of_ready (h : s.Ready info picture) (hcell : s.cache.size.IsCell cell) {d : Cache}
    {id : Nat} {t : Tile} (ha : s.cache.acquire s.generation cell = (d, .ready id))
    (ht : d.tiles[id]? = some t) (harea : t.area = cell) (hv : t.isValid s.generation = true) :
    Reaches info picture source s cell (s.after d 0) t 1 := by
  obtain ⟨hset, hw, hd⟩ := h.request hcell ha
  have hv : t.isValid (s.after d 0).generation = true := hv
  have hfailures := Cache.allocationFailures_acquire h.wellFormed h.isOpen ha nofun
  refine ⟨h.withCache hset hw (h.idle.acquire_ready h.wellFormed ha) hd,
    ⟨hset.size, rfl, hfailures⟩, ⟨id, ht⟩, harea, hv, by omega,
    fun fuel out cells jobs region hr => ?_⟩
  have hserve : s.serve ⟨out, cell :: cells, .nothing⟩ 0 =
      (((s.after d 0).answer (some t) cell out cells).1,
        ((s.after d 0).answer (some t) cell out cells).2, none) := by
    rw [serve, ha, ← ht]
    rfl
  exact runPull_of_answer rfl hserve hr hv fuel jobs

/-- The sink after a job was handed out and done at once. -/
def done (s : Sink) (source : Source) (d : Cache) (job : Job) : Sink :=
  { s with cache := d.complete job.tile ((source job.region).stamped s.generation) true }

theorem ready_done (h : s.Ready info picture) (hdraws : source.Draws picture)
    (hcell : s.cache.size.IsCell cell) {d : Cache} {job : Job}
    (ha : s.cache.acquire s.generation cell = (d, .compute job)) :
    (s.done source d job).Ready info picture ∧ s.Keeps (s.done source d job) := by
  obtain ⟨hset, hw, hd⟩ := h.request hcell ha
  obtain ⟨htravels, -⟩ := h.isWhole_job hcell ha
  obtain ⟨-, ⟨t, ht, -, harea⟩, -⟩ := Cache.computing_of_compute h.wellFormed hcell ha
  have hset' :=
    Cache.sameSetting_complete d job.tile ((source job.region).stamped s.generation) true
  refine ⟨h.withCache (hset.trans hset') (hw.complete _ _ _) (h.idle.acquire_complete h.wellFormed
    hcell ha (hset.isOpen.trans h.isOpen) _ _) ?_, ⟨hset'.size.trans hset.size, rfl, ?_⟩⟩
  · refine hd.complete (fun n => (Engine.durable_displays info picture).used n) fun _ t' ht' => ?_
    obtain rfl := Option.some.inj (ht.symm.trans ht')
    exact Engine.displays_checkin hdraws htravels harea s.generation true
  · exact (congrArg Counters.allocationFailures (Cache.counters_complete _ _ _)).trans
      (Cache.allocationFailures_acquire h.wellFormed h.isOpen ha nofun)

/-- The tile that was computed is painted, and valid. -/
theorem exists_tile_done (h : s.Ready info picture) (hdraws : source.Draws picture)
    (hcell : s.cache.size.IsCell cell) {d : Cache} {job : Job}
    (ha : s.cache.acquire s.generation cell = (d, .compute job)) :
    ∃ t, (s.done source d job).cache.tiles[job.tile]? = some t ∧ t.area = cell ∧
      t.isValid s.generation = true := by
  obtain ⟨hset, -, -⟩ := h.request hcell ha
  obtain ⟨-, hwhole⟩ := h.isWhole_job hcell ha
  obtain ⟨hjob, ⟨t, ht, -, harea⟩, -⟩ := Cache.computing_of_compute h.wellFormed hcell ha
  exact ⟨_, Cache.getElem?_complete_self (hset.isOpen.trans h.isOpen) ht _, harea.trans hjob,
    isValid_iff.2 ⟨rfl, hdraws.isStale_stamped hwhole s.generation⟩⟩

theorem settle_eq_done (h : s.Ready info picture) (hdraws : source.Draws picture)
    (hcell : s.cache.size.IsCell cell) {d : Cache} {job : Job}
    (ha : s.cache.acquire s.generation cell = (d, .compute job)) :
    (s.after d 0).settle job s.generation (source job.region) = (s.done source d job, true) := by
  obtain ⟨hready, -⟩ := ready_done h hdraws hcell ha
  obtain ⟨t, ht, -, hv⟩ := exists_tile_done h hdraws hcell ha
  obtain ⟨-, hwhole⟩ := h.isWhole_job hcell ha
  have hpainted : (s.done source d job).cache.hasPainted job.tile = true := by
    rw [Cache.hasPainted, hready.isOpen, ht]
    exact decide_eq_true (isValid_iff.1 hv).1
  rw [settle, hdraws.completes _ hwhole]
  exact Prod.ext rfl hpainted

/-- The cell has to be computed. -/
theorem reaches_of_compute (h : s.Ready info picture) (hdraws : source.Draws picture)
    (hcell : s.cache.size.IsCell cell) {d : Cache} {job : Job}
    (ha : s.cache.acquire s.generation cell = (d, .compute job)) :
    ∃ t, Reaches info picture source s cell (s.done source d job) t 2 := by
  obtain ⟨hready, hkeeps⟩ := ready_done h hdraws hcell ha
  obtain ⟨t, ht, harea, hv⟩ := exists_tile_done h hdraws hcell ha
  have hv' : t.isValid (s.done source d job).generation = true := hv
  refine ⟨t, hready, hkeeps, ⟨job.tile, ht⟩, harea, hv', Nat.le_refl 2,
    fun fuel out cells jobs region hr => ?_⟩
  have hserve : (s.done source d job).serve ⟨out, cells, .computed job.tile cell true⟩ 0 =
      (((s.done source d job).answer (some t) cell out cells).1,
        ((s.done source d job).answer (some t) cell out cells).2, none) := by
    rw [serve, ht, Option.filter_some, Bool.true_and, if_pos (beq_iff_eq.2 harea)]
  rw [runPull_of_compute ha h.mode, settle_eq_done h hdraws hcell ha]
  refine runPull_of_answer ?_ hserve hr hv' fuel jobs
  cases cells <;> rfl

/-- **A pull comes to copy from a valid tile for every cell that touches the image.** -/
theorem exists_reaches (h : s.Ready info picture) (hdraws : source.Draws picture)
    (hcell : s.cache.size.IsCell cell) (hne : (cell.intersect info.bounds).isEmpty = false) :
    ∃ s' t steps, Reaches info picture source s cell s' t steps := by
  have hgives := h.gives hcell hne s.generation
  cases ha : s.cache.acquire s.generation cell with
  | mk d acquired =>
    rw [ha] at hgives
    rcases hgives.cases h.wellFormed hcell with ⟨id, t, hready, ht, harea, hv⟩ | ⟨job, hjob⟩
    · obtain rfl : acquired = .ready id := hready
      exact ⟨_, t, 1, reaches_of_ready h hcell ha ht harea hv⟩
    · obtain rfl : acquired = .compute job := hjob
      obtain ⟨t, ht⟩ := reaches_of_compute h hdraws hcell ha
      exact ⟨_, t, 2, ht⟩

/-! ## All cells -/

/-- A region for `valid` that shows the picture in all its pixels, but for those of cells that are
still to come. -/
structure Filling (info : ImageInfo) (picture : Picture) (valid : Rect) (cells : List Rect)
    (out : Region) : Prop where
  isFor : out.IsFor info
  isWhole : out.IsWhole
  valid_eq : out.valid = valid
  shown : ∀ x y, valid.contains x y = true →
    (∃ cell ∈ cells, cell.contains x y = true) ∨ out.ShowsAt picture x y

variable {valid : Rect} {cells : List Rect} {out out' region : Region} {t : Tile}

theorem Filling.shows (h : Filling info picture valid [] out) : out.Shows picture := by
  intro x y hxy
  refine (h.shown x y (h.valid_eq ▸ hxy)).resolve_left ?_
  rintro ⟨cell, hm, -⟩
  cases hm

/-- Two regions that are filled for the same rectangle have the same bytes. -/
theorem Filling.bytes_eq (h : Filling info picture valid [] out)
    (h' : Filling info picture valid [] out') : out'.bytes = out.bytes :=
  Region.bytes_eq_of_shows h.isWhole h'.isWhole (h'.valid_eq.trans h.valid_eq.symm)
    (h'.isFor.2.trans h.isFor.2.symm) h.shows h'.shows

/-- Once a cell shows the picture, its pixels are settled. -/
theorem Filling.write (h : Filling info picture valid (cell :: cells) out)
    (hw : out.WrittenIn cell out') (hshows : out'.ShowsIn picture cell) :
    Filling info picture valid cells out' where
  isFor := hw.isFor h.isFor
  isWhole := hw.isWhole
  valid_eq := hw.valid.trans h.valid_eq
  shown := by
    intro x y hxy
    have hin : out.valid.contains x y = true := h.valid_eq ▸ hxy
    cases hc : cell.contains x y with
    | true => exact .inr (hshows x y hc (hw.valid ▸ hin))
    | false =>
      rcases h.shown x y hxy with ⟨other, hm, hother⟩ | hshown
      · rcases List.mem_cons.1 hm with rfl | hm
        · rw [hc] at hother
          cases hother
        · exact .inl ⟨other, hm, hother⟩
      · exact .inr (hw.showsAt hc hin hshown)

/-- The pixels of a cell are copied from the tile of the cell. -/
theorem Filling.exists_copied (h : Filling info picture valid (t.area :: cells) out)
    (hframes : Engine.Frames info t.area region) (hwhole : region.IsWhole)
    (hshows : region.Shows picture) :
    ∃ out', out.copyFrom region (t.area.intersect out.valid) = .ok out' ∧
      Filling info picture valid cells out' := by
  obtain ⟨out', hcopy, hw, hin⟩ :=
    Region.exists_copied h.isWhole h.isFor hframes hwhole hshows
  exact ⟨out', hcopy, h.write hw hin⟩

/-- **A pull copies the picture, cell by cell.**  It leaves the sink ready, and the region shows the
picture afterwards. -/
theorem runPull_cells (hdraws : source.Draws picture) (cells : List Rect) (out : Region)
    {fuel : Nat} (h : s.Ready info picture)
    (hcells : ∀ cell ∈ cells, s.cache.size.IsCell cell ∧
      (cell.intersect info.bounds).isEmpty = false)
    (hfilling : Filling info picture valid cells out) (hfuel : 2 * cells.length < fuel)
    (jobs : List Job) :
    ∃ s' filled,
      s.runPull source fuel ⟨out, cells, .nothing⟩ jobs = (s', .filled filled, jobs) ∧
      s'.Ready info picture ∧ s.Keeps s' ∧ Filling info picture valid [] filled := by
  induction cells generalizing s out fuel with
  | nil =>
    obtain ⟨fuel, rfl⟩ : ∃ n, fuel = n + 1 := ⟨fuel - 1, by omega⟩
    exact ⟨s, out, rfl, h, Keeps.refl s, hfilling⟩
  | cons cell cells ih =>
    obtain ⟨hcell, hne⟩ := hcells cell List.mem_cons_self
    obtain ⟨s', t, steps, hr⟩ := exists_reaches h hdraws hcell hne
    obtain ⟨id, ht⟩ := hr.stands
    obtain ⟨region, hregion, hframes, hwhole, hshows⟩ := hr.ready.depicts.exists_region ht hr.valid
    have htwo := hr.atMostTwo
    rw [List.length_cons] at hfuel
    obtain ⟨rest, rfl⟩ : ∃ rest, fuel = rest + steps := ⟨fuel - steps, by omega⟩
    rw [← hr.area] at hfilling
    obtain ⟨next, hcopy, hrest⟩ := hfilling.exists_copied hframes hwhole hshows
    obtain ⟨after, filled, hrun, hready, hkeeps, hfilled⟩ := @ih s' next rest hr.ready
      (fun c hc => hr.keeps.size ▸ hcells c (List.mem_cons_of_mem _ hc)) hrest (by omega)
    refine ⟨after, filled, ?_, hready, hr.keeps.trans hkeeps, hfilled⟩
    rw [hr.runs rest out cells jobs region hregion, hcopy]
    exact hrun

/-! ## Pulls -/

/-- The cells of a pull into a region for the image are cells of the grid that touch the image. -/
theorem touches_of_buffer {rect : Rect} (hout : out.IsFor info)
    (hb : out.buffer rect = .ok out') {size : TileSize} (hcell : cell ∈ out'.valid.cells size) :
    size.IsCell cell ∧ (cell.intersect info.bounds).isEmpty = false := by
  refine ⟨Engine.isCell_of_buffer ⟨info, hout⟩ hb hcell, ?_⟩
  obtain ⟨hl, ht⟩ := Engine.rounds_of_buffer ⟨info, hout⟩ hb size
  obtain ⟨hne, -, rfl⟩ := Region.buffer_eq_ok_iff.1 hb
  have hin := Rect.intersect_inside_right hne
  obtain ⟨x, y, hcxy, hxy⟩ :=
    Rect.exists_common_point hl ht (hin.self.contains_origin hne) hcell
  refine Rect.isEmpty_of_contains (x := x) (y := y) ?_
  rw [Rect.contains_intersect, hcxy, ← hout.1, hin.contains hxy]
  rfl

/-- A pull begins with all its cells to come. -/
theorem filling_of_buffer {rect : Rect} (hout : out.IsFor info) (hb : out.buffer rect = .ok out')
    (size : TileSize) : Filling info picture out'.valid (out'.valid.cells size) out' := by
  obtain ⟨hl, ht⟩ := Engine.rounds_of_buffer ⟨info, hout⟩ hb size
  refine ⟨?_, Region.isWhole_of_buffer hb, rfl,
    fun x y hxy => .inl (Rect.exists_mem_cells hl ht hxy)⟩
  obtain ⟨-, -, rfl⟩ := Region.buffer_eq_ok_iff.1 hb
  exact ⟨hout.1, hout.2⟩

/-- The cells of a rectangle that fits and touches the image. -/
theorem touches_of_mem {rect : Rect} (htouches : (rect.intersect info.bounds).isEmpty = false)
    (hrect : Fits info rect) {size : TileSize}
    (hm : cell ∈ (rect.intersect info.bounds).cells size) :
    size.IsCell cell ∧ (cell.intersect info.bounds).isEmpty = false := by
  have hout : (Region.empty info).IsFor info := ⟨rfl, rfl⟩
  obtain ⟨buffer, hb, -, -, hvalid⟩ := hout.exists_buffer htouches hrect
  exact touches_of_buffer hout hb (hvalid ▸ hm)

/-- A pull that gets a buffer has all of its cells to write. -/
theorem openPull_of_buffer (s : Sink) {rect : Rect} (hb : out.buffer rect = .ok out') :
    s.openPull rect out = .ok ⟨out', out'.valid.cells s.size, .nothing⟩ := by
  rw [openPull, hb]
  rfl

/-- A pull of such a rectangle begins with a whole buffer. -/
theorem exists_openPull (s : Sink) (picture : Picture) {rect : Rect} (hout : out.IsFor info)
    (htouches : (rect.intersect info.bounds).isEmpty = false) (hrect : Fits info rect) :
    ∃ buffer, s.openPull rect out =
        .ok ⟨buffer, (rect.intersect info.bounds).cells s.size, .nothing⟩ ∧
      Filling info picture (rect.intersect info.bounds)
        ((rect.intersect info.bounds).cells s.size) buffer := by
  obtain ⟨buffer, hb, -, -, hvalid⟩ := hout.exists_buffer htouches hrect
  exact ⟨buffer, hvalid ▸ s.openPull_of_buffer hb, hvalid ▸ filling_of_buffer hout hb s.size⟩

theorem pull_of_openPull {source : Source} {rect : Rect} {pull : Pull}
    (h : s.openPull rect out = .ok pull) (jobs : List Job) :
    s.pull source rect out jobs =
      .ok (s.runPull source (2 * pull.cells.length + 1) pull jobs) := by
  rw [Sink.pull, h]
  rfl

theorem pull_of_buffer_error {source : Source} {rect : Rect} {setback : Setback}
    (hb : out.buffer rect = .error setback) (jobs : List Job) :
    s.pull source rect out jobs = .error setback := by
  rw [Sink.pull, openPull, hb]
  rfl

/-- What a pull into a region for the image does, if there is a buffer for it at all. -/
theorem Ready.pull (h : s.Ready info picture) (hdraws : source.Draws picture) {rect : Rect}
    (hout : out.IsFor info) (hb : out.buffer rect = .ok out') (jobs : List Job) :
    ∃ after filled, s.pull source rect out jobs = .ok (after, .filled filled, jobs) ∧
      after.Ready info picture ∧ s.Keeps after ∧
      Filling info picture out'.valid [] filled := by
  obtain ⟨after, filled, hrun, hready, hkeeps, hfilled⟩ :=
    runPull_cells hdraws (out'.valid.cells s.size) out' h
      (fun cell hcell => touches_of_buffer hout hb hcell) (filling_of_buffer hout hb s.size)
      (Nat.lt_succ_self _) jobs
  refine ⟨after, filled, ?_, hready, hkeeps, hfilled⟩
  rw [pull_of_openPull (s.openPull_of_buffer hb)]
  exact congrArg Except.ok hrun

/-! ## One pull after the other -/

/-- What may come between two pulls: other pulls into regions for the image, and invalidations. -/
inductive Errand (info : ImageInfo)
  | pull (rect : Rect) (out : Region) (isFor : out.IsFor info)
  | invalidate

/-- The sink after an errand. -/
def attend (source : Source) (s : Sink) : Errand info → Sink
  | .invalidate => s.invalidate
  | .pull rect out _ =>
    match s.pull source rect out [] with
    | .error _ => s
    | .ok (after, _, _) => after

theorem Ready.attend (h : s.Ready info picture) (hdraws : source.Draws picture)
    (errand : Errand info) :
    (s.attend source errand).Ready info picture ∧ s.Keeps (s.attend source errand) := by
  cases errand with
  | invalidate => exact ⟨h.invalidate, ⟨rfl, rfl, rfl⟩⟩
  | pull rect out isFor =>
    delta Sink.attend
    dsimp only
    cases hb : out.buffer rect with
    | error setback =>
      rw [pull_of_buffer_error hb]
      exact ⟨h, Keeps.refl s⟩
    | ok out' =>
      obtain ⟨after, filled, hpull, hready, hkeeps, -⟩ := h.pull hdraws isFor hb []
      rw [hpull]
      exact ⟨hready, hkeeps⟩

theorem Ready.attend_all (h : s.Ready info picture) (hdraws : source.Draws picture)
    (errands : List (Errand info)) : (errands.foldl (Sink.attend source) s).Ready info picture := by
  induction errands generalizing s with
  | nil => exact h
  | cons errand errands ih => exact ih (h.attend hdraws errand).1

end Sink

/-! ## Runs -/

namespace Engine

variable {info : ImageInfo} {config : Config} {hasRuntime withMask : Bool} {s : Sink}
  {picture : Picture} {source : Source}

theorem ready_run (hs : Sink.create info config hasRuntime withMask = .ok s)
    (hmode : config.mode = .synchronous) (hfits : ∀ cell, s.size.IsCell cell → Fits info cell)
    {moves : List Move} (hpast : AllDraw picture moves)
    (hopen : ((ofSink s hasRuntime).run moves).sink.cache.isOpen = true)
    (hidle : ((ofSink s hasRuntime).run moves).sink.cache.IsIdle) :
    ((ofSink s hasRuntime).run moves).sink.Ready info picture := by
  obtain ⟨hsound, hbase⟩ := sound_run hs moves
  obtain ⟨size, budget, -, hconfig, -, -⟩ := create_eq_ok hs
  refine ⟨?_, hopen, hsound.cache, info_run hs moves, hidle, (displayed_run hs hpast).tiles,
    fun cell hcell => hfits cell ?_⟩
  · rw [hbase.config]
    exact (congrArg Config.mode hconfig).trans hmode
  · rw [hbase.size] at hcell
    exact hcell

/-- **The cache is transparent.**  Take a synchronous sink over a source that draws a picture, at
any point of any run where it is open and nobody computes, and let there be any number of pulls and
invalidations, one after the other.  Then a pull of any rectangle that touches the image and fits
delivers, byte for byte, what the source leaves in one region with a buffer for the whole rectangle,
and answers no cell with zeros.  The tile size and the number of tiles do not matter, as long as
each cell fits. -/
theorem pull_eq_direct (hs : Sink.create info config hasRuntime withMask = .ok s)
    (hmode : config.mode = .synchronous) (hfits : ∀ cell, s.size.IsCell cell → Fits info cell)
    {moves : List Move} (hpast : AllDraw picture moves)
    (hopen : ((ofSink s hasRuntime).run moves).sink.cache.isOpen = true)
    (hidle : ((ofSink s hasRuntime).run moves).sink.cache.IsIdle)
    (hdraws : source.Draws picture) (errands : List (Sink.Errand info)) {rect : Rect}
    (htouches : (rect.intersect info.bounds).isEmpty = false) (hrect : Fits info rect)
    {out : Region} (hout : out.IsFor info) (jobs : List Job) :
    let before := errands.foldl (Sink.attend source) ((ofSink s hasRuntime).run moves).sink
    ∃ after filled direct, before.pull source rect out jobs = .ok (after, .filled filled, jobs) ∧
      (Region.empty info).buffer rect = .ok direct ∧ (source direct).ending = .completed ∧
      filled.valid = direct.valid ∧
      filled.bytes = ((source direct).stamped before.generation).bytes ∧
      after.zeroFilled = before.zeroFilled := by
  intro before
  have hready : before.Ready info picture :=
    (ready_run hs hmode hfits hpast hopen hidle).attend_all hdraws errands
  obtain ⟨direct, hdirect, hwhole⟩ := Region.exists_buffer htouches hrect
  obtain ⟨after, filled, hpull, -, hkeeps, hfilled⟩ :=
    hready.pull hdraws hout ((hout.buffer_eq rect).trans hdirect) jobs
  refine ⟨after, filled, direct, hpull, hdirect, hdraws.completes direct hwhole, hfilled.valid_eq,
    ?_, hkeeps.zeroFilled⟩
  have hsize : filled.pixelSize = direct.pixelSize := by
    obtain ⟨-, -, rfl⟩ := Region.buffer_eq_ok_iff.1 hdirect
    exact hfilled.isFor.2
  obtain ⟨-, hp, hv⟩ := hdraws.keepsFrame direct
  refine Region.bytes_eq_of_shows (hdraws.isWhole_stamped hwhole _) hfilled.isWhole ?_ ?_
    (hdraws.shows_stamped hwhole _) hfilled.shows
  · rw [hdraws.stamped_eq hwhole]
    exact hfilled.valid_eq.trans hv.symm
  · rw [hdraws.stamped_eq hwhole]
    exact hsize.trans hp.symm

/-- Two cells and one tile.  The sink has served a pull, then comes another, and the image is
invalidated; the pull of the whole image has to give up the tile of its own first cell. -/
theorem pull_eq_direct_narrow :
    ∃ s after filled direct,
      Sink.create ⟨3, 2, 1, .uchar⟩ { Config.ofTileSize 2 2 with maxTiles := 0 } false false =
        .ok s ∧
      let moves := [.openPull ⟨2, 1, 1, 1⟩ (.empty ⟨3, 2, 1, .uchar⟩) ⟨_, rfl, rfl⟩, .advance 0 0,
        .begin 1, .finish 1 .pattern, .advance 0 0]
      let errands : List (Sink.Errand ⟨3, 2, 1, .uchar⟩) :=
        [.pull ⟨0, 0, 1, 1⟩ (.empty ⟨3, 2, 1, .uchar⟩) ⟨rfl, rfl⟩, .invalidate]
      (errands.foldl (Sink.attend .pattern) ((ofSink s false).run moves).sink).pull .pattern
          ⟨0, 0, 9, 9⟩ (.empty ⟨3, 2, 1, .uchar⟩) [] = .ok (after, .filled filled, []) ∧
        (Region.empty ⟨3, 2, 1, .uchar⟩).buffer ⟨0, 0, 9, 9⟩ = .ok direct ∧
        filled.bytes = ((Source.pattern direct).stamped 1).bytes := by
  have hfits : ∀ cell, Fits ⟨3, 2, 1, .uchar⟩ cell := fits_of_bounds (by decide)
  have hpast : AllDraw Pattern.picture
      [.openPull ⟨2, 1, 1, 1⟩ (.empty ⟨3, 2, 1, .uchar⟩) ⟨_, rfl, rfl⟩, .advance 0 0, .begin 1,
        .finish 1 .pattern, .advance 0 0] := by
    intro n source hm
    have hs : n = 1 ∧ source = .pattern := by simpa using hm
    exact hs.2 ▸ draws_pattern
  -- no job is out or lost, so nobody computes
  have hidle := Cache.isIdle_iff_accounts.2 (@accounted_run ⟨3, 2, 1, .uchar⟩
    { Config.ofTileSize 2 2 with maxTiles := 0 } false false _ rfl
    [.openPull ⟨2, 1, 1, 1⟩ (.empty ⟨3, 2, 1, .uchar⟩) ⟨_, rfl, rfl⟩, .advance 0 0, .begin 1,
      .finish 1 .pattern, .advance 0 0] rfl)
  obtain ⟨after, filled, direct, hpull, hdirect, -, -, hbytes, -⟩ := @pull_eq_direct
    ⟨3, 2, 1, .uchar⟩ { Config.ofTileSize 2 2 with maxTiles := 0 } false false _ Pattern.picture
    .pattern rfl rfl (fun cell _ => hfits cell) _ hpast rfl hidle draws_pattern
    [.pull ⟨0, 0, 1, 1⟩ (.empty ⟨3, 2, 1, .uchar⟩) ⟨rfl, rfl⟩, .invalidate] ⟨0, 0, 9, 9⟩ rfl
    (hfits _) (.empty ⟨3, 2, 1, .uchar⟩) ⟨rfl, rfl⟩ []
  exact ⟨_, after, filled, direct, rfl, hpull, hdirect, hbytes⟩

end Engine

end TileCache
