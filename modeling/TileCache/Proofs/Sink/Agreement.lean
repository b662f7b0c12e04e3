import TileCache.Proofs.Cache.Requests
import TileCache.Proofs.Sink.Mask
import TileCache.Proofs.Sink.Repull

/-!
# The mask and the data channel agree

Two functions decide for themselves whether valid pixels of a cell are at hand: `Sink.maskByte`,
which looks the cell up, and `Cache.acquire` together with `Tile.copyTo`, which a pull goes through.
Here they are compared.

* `Sink.exists_masks`: a mask shows 255 in a cell that has a painted tile that is not stale, and
  zero in every other.
* `Sink.exists_pull_of_isCached`: a pull of such a cell counts one hit, and copies the buffer of the
  tile.  That the copy comes out whole hangs on the sources, which have to write into buffers and
  not to replace them (`Source.KeepsBuffer`).
* `Sink.hits_pull`: a pull of any other cell counts no hit, whatever comes of it.
* `agreement_run` puts these together in the states of a run.
-/

set_option autoImplicit false

namespace TileCache

variable {info : ImageInfo} {s : Sink} {cell rect : Rect} {out data : Region} {source : Source}
  {moves : List Move}

/-! ## Sources that write into buffers -/

/-- Does the source write into the buffer that it is given, and leave its frame and its size
alone? -/
structure Source.KeepsBuffer (source : Source) : Prop where
  keepsFrame : source.KeepsFrame
  size : ∀ r : Region, (source r).region.bytes.size = r.bytes.size

/-- The test pattern writes into buffers. -/
theorem keepsBuffer_pattern : Source.pattern.KeepsBuffer := by
  refine ⟨Engine.keepsFrame_pattern, fun r => ?_⟩
  rw [Source.pattern, Pattern.paint]
  split
  · rfl
  · split
    · exact Region.size_bytes_setBlock r _ _
    · rfl

/-- A whole region stays whole. -/
theorem Source.KeepsBuffer.isWhole_stamped {r : Region} (hk : source.KeepsBuffer) (h : r.IsWhole)
    (beganAt : Nat) : ((source r).stamped beganAt).IsWhole := by
  obtain ⟨hb, hp, hv⟩ := hk.keepsFrame r
  have hwhole := h.congr hb hp hv (hk.size r)
  rw [Answer.stamped]
  split
  · exact hwhole.congr rfl rfl rfl rfl
  · exact hwhole

namespace Engine

theorem houses_stamped {r : Region} (h : Houses info cell r) (hk : source.KeepsBuffer)
    (beganAt : Nat) : Houses info cell ((source r).stamped beganAt) :=
  ⟨frames_stamped h.frames hk.keepsFrame beganAt, fun hfits =>
    hk.isWhole_stamped (h.isWhole hfits) beganAt⟩

/-- Do all sources that the moves make calls of write into buffers? -/
def KeepBuffers (moves : List Move) : Prop :=
  ∀ n source, Move.finish n source ∈ moves → Source.KeepsBuffer source

theorem KeepBuffers.keepImages (h : KeepBuffers moves) : KeepImages moves :=
  fun n source hm => (h n source hm).keepsFrame.keepsImage

/-- In every run whose sources write into buffers, the buffers of tiles stay whole. -/
theorem housed_run {config : Config} {hasRuntime withMask : Bool}
    (hs : Sink.create info config hasRuntime withMask = .ok s) (hk : KeepBuffers moves) :
    ((ofSink s hasRuntime).run moves).Carries (Buffered (Houses info))
      (fun _ c => Houses info c.job.area c.job.region) :=
  buffered_run hs (inborn_houses info) fun n source hm _ _ beganAt h =>
    houses_stamped h (hk n source hm) beganAt

end Engine

/-! ## What a mask shows -/

/-- The cell has a painted tile that is not stale at `generation`. -/
def Cache.Paints (c : Cache) (generation : Nat) (cell : Rect) : Prop :=
  ∃ (id : Nat) (t : Tile), c.tiles[id]? = some t ∧ t.area = cell ∧ t.state = .painted ∧
    t.isStale generation = false

theorem Cache.WellFormed.isCached_iff_paints {c : Cache} (hw : c.WellFormed)
    (hcell : c.size.IsCell cell) {generation : Nat} :
    c.isCached generation cell.origin = true ↔ c.Paints generation cell := by
  rw [hw.isCached_iff hcell]
  exact exists₂_congr fun _ _ => and_congr_right fun _ => and_congr_right fun _ => Sink.isValid_iff

namespace Sink

/-- Does every pixel of the mask tell whether its cell has a painted tile that is not stale?  By the
time that a cell is looked at the image was invalidated `amid cell` times. -/
def Masks (s : Sink) (amid : Rect → Nat) (m : Region) : Prop :=
  ∀ x y, m.valid.contains x y = true → ∃ cell, s.size.IsCell cell ∧ cell.contains x y = true ∧
    (s.cache.Paints (s.generation + amid cell) cell → m.pixel x y = .ok (Bytes.replicate 1 255)) ∧
      (¬ s.cache.Paints (s.generation + amid cell) cell →
        m.pixel x y = .ok (Bytes.replicate 1 0))

/-- **A mask shows which cells have painted tiles that are not stale.** -/
theorem exists_masks (hw : s.cache.WellFormed) (hout : out.IsFor info.mask)
    (hok : Allocatable info.mask rect = true) (amid : Rect → Nat) :
    ∃ m, s.pullMask rect out amid = .filled m ∧ m.valid = rect.intersect info.bounds ∧
      s.Masks amid m := by
  obtain ⟨blank, hb⟩ := hout.exists_buffer_of_allocatable hok
  obtain ⟨m, hm, hvalid, hpixels⟩ := s.pullMask_eq amid hout hb
  refine ⟨m, hm, ?_, fun x y hxy => ?_⟩
  · obtain ⟨-, -, rfl⟩ := Region.buffer_eq_ok_iff.1 hb
    exact hvalid.trans (congrArg rect.intersect hout.1)
  · obtain ⟨hl, ht⟩ := Engine.rounds_of_buffer ⟨_, hout⟩ hb s.size
    obtain ⟨cell, hmem, hc⟩ := Rect.exists_mem_cells hl ht (hvalid ▸ hxy)
    have hcell := Rect.isCell_of_mem_cells hl ht hmem
    obtain ⟨-, hpixel⟩ := hpixels x y hxy
    rw [← hcell.eq_cellAt hc, maskByte] at hpixel
    have hpaints : s.cache.isCached (s.generation + amid cell) cell.origin = true ↔
        s.cache.Paints (s.generation + amid cell) cell := hw.isCached_iff_paints hcell
    refine ⟨cell, hcell, hc, fun h => ?_, fun h => ?_⟩
    · rwa [if_pos (hpaints.2 h)] at hpixel
    · rwa [if_neg fun hcached => h (hpaints.1 hcached)] at hpixel

/-- The pixel of a mask that was filled, in the cell that it lies in. -/
theorem pixel_eq_iff_isCached (hw : s.cache.WellFormed) (hout : out.IsFor info.mask) {m : Region}
    (hm : s.pullMask rect out (fun _ => 0) = .filled m) (hcell : s.size.IsCell cell) {x y : Coord}
    (hc : cell.contains x y = true) (hxy : m.valid.contains x y = true) :
    m.pixel x y = .ok (Bytes.replicate 1 255) ↔
      s.cache.isCached s.generation cell.origin = true := by
  obtain ⟨blank, hb⟩ := exists_buffer_of_filled hm
  have hok : Allocatable info.mask rect = true := by
    rw [← hout.isOk_buffer, hb]
    rfl
  obtain ⟨m', hm', -, hmasks⟩ := exists_masks hw hout hok fun _ => 0
  obtain rfl := Delivery.filled.inj (hm'.symm.trans hm)
  obtain ⟨other, hother, ho, hpaints, hblank⟩ := hmasks x y hxy
  obtain rfl := hother.eq_of_contains hcell ho hc
  rw [hw.isCached_iff_paints hcell]
  refine ⟨fun h => ?_, hpaints⟩
  by_contra hnone
  have hbytes := congrArg (fun bytes : ByteArray => bytes[0]!)
    (Except.ok.inj (h.symm.trans (hblank hnone)))
  rw [Bytes.getElem!_replicate _ Nat.one_pos, Bytes.getElem!_replicate _ Nat.one_pos] at hbytes
  exact absurd hbytes (by decide)

/-! ## A pull of one cell -/

/-- A pull of a cell that gets a buffer has that cell to write, and no other. -/
theorem openPull_of_isCell (hcell : s.size.IsCell cell) (hdata : data.IsFor info) {buffer : Region}
    (hb : data.buffer cell = .ok buffer) :
    s.openPull cell data = .ok ⟨buffer, [cell], .nothing⟩ := by
  obtain ⟨hl, ht⟩ := Engine.rounds_of_buffer ⟨info, hdata⟩ hb s.size
  have hsingle : buffer.valid.cells s.size = [cell] := by
    obtain ⟨hne, -, rfl⟩ := Region.buffer_eq_ok_iff.1 hb
    have horigin := (Rect.intersect_inside_left hne).self.contains_origin hne
    exact Rect.cells_eq_singleton hl ht horigin hcell fun x y =>
      (Rect.intersect_inside_left hne).contains
  exact hsingle ▸ s.openPull_of_buffer hb

/-- How a pull ends that has copied its last cell. -/
def ended : Except Fault Region → Finished
  | .ok out => .filled out
  | .error fault => .broke fault

/-- **A pull of a cell whose pixels are at hand counts one hit**, and copies the tile of the
cell. -/
theorem exists_pull_of_isCached (hw : s.cache.WellFormed) (ho : s.cache.isOpen = true)
    (hsuited : s.cache.All (Suited info)) (hcell : s.size.IsCell cell)
    (hc : s.cache.isCached s.generation cell.origin = true) (hdata : data.IsFor info)
    (source : Source) (jobs : List Job) :
    ∃ (id : Nat) (t : Tile) (region buffer : Region), s.cache.tiles[id]? = some t ∧
      t.area = cell ∧ t.region? = some region ∧ data.buffer cell = .ok buffer ∧
      s.pull source cell data jobs = .ok ({ s with cache := s.cache.hit id },
        ended (buffer.copyFrom region (cell.intersect buffer.valid)), jobs) := by
  obtain ⟨id, t, ht, rfl, hv, ha⟩ := Cache.acquire_of_isCached hw ho hcell hc
  obtain ⟨region, hr⟩ := hw.exists_region_of_valid ht hv
  obtain ⟨buffer, hb⟩ := hdata.exists_buffer_of_allocatable (hsuited id t ht region hr).2
  refine ⟨id, t, region, buffer, ht, rfl, hr, hb, ?_⟩
  have hserve : s.serve ⟨buffer, [t.area], .nothing⟩ 0 =
      (((s.after (s.cache.hit id) 0).answer (some { t with lastUsed := s.cache.clock }) t.area
          buffer []).1,
        ((s.after (s.cache.hit id) 0).answer (some { t with lastUsed := s.cache.clock }) t.area
          buffer []).2, none) := by
    rw [serve, ha, ← Cache.getElem?_hit_self ht]
    rfl
  rw [pull_of_openPull (openPull_of_isCell hcell hdata hb), runPull_of_answer rfl hserve hr hv]
  cases buffer.copyFrom region (t.area.intersect buffer.valid) <;> rfl

/-- What a whole buffer holds is copied byte for byte. -/
theorem exists_copied_of_houses {region buffer : Region} (hhouses : Engine.Houses info cell region)
    (hdata : data.IsFor info) (hb : data.buffer cell = .ok buffer) :
    ∃ filled, buffer.copyFrom region (cell.intersect buffer.valid) = .ok filled ∧
      filled.valid = cell.intersect info.bounds ∧ filled.bytes = region.bytes := by
  have hwhole := hhouses.isWhole (Region.fits_of_buffer hdata hb)
  have hbuffer := Region.isWhole_of_buffer hb
  have hframes := Engine.frames_of_buffer hdata hb
  have hshows := (Region.shows_iff (f := fun x y k => region.bytes[region.place x y + k]!)
    hwhole).2 fun _ _ _ _ _ => rfl
  obtain ⟨filled, hcopy, hwritten, hin⟩ :=
    Region.exists_copied hbuffer hframes.isFor hhouses.frames hwhole hshows
  have hvalid := hwritten.valid.trans hframes.valid
  refine ⟨filled, hcopy, hvalid, ?_⟩
  refine Region.bytes_eq_of_shows hwhole hwritten.isWhole (hvalid.trans hhouses.frames.valid.symm)
    ((hwritten.isFor hframes.isFor).2.trans hhouses.frames.isFor.2.symm) hshows
    fun x y hxy => hin x y ?_ hxy
  rw [hvalid, Rect.contains_intersect, Bool.and_eq_true] at hxy
  exact hxy.1

/-! ## Pulls that do not hit -/

theorem hits_settle (s : Sink) (job : Job) (beganAt : Nat) (answer : Answer) :
    (s.settle job beganAt answer).1.cache.counters.hits = s.cache.counters.hits := by
  rcases Engine.settle_eq s job beganAt answer with ⟨succeeded, -, hset⟩ | ⟨-, hset⟩
  · rw [hset, Cache.hits_complete]
  · rw [hset, Cache.counters_abandon]

/-- A step of a pull that runs to its end asks for a cell or for none.  Then it breaks off, or the
pull goes on with its other cells, and no hit is counted before it takes its next step. -/
theorem runPull_step (source : Source) (pull : Pull) (hdone : pull.isDone = false) (fuel : Nat)
    (jobs : List Job) :
    ∃ d job?, s.Asks pull d job? ∧
      ((∃ s' fault left, s'.cache = d ∧
          s.runPull source (fuel + 1) pull jobs = (s', .broke fault, left)) ∨
        ∃ (s' : Sink) (next : Pull) (left : List Job), s'.cache.counters.hits = d.counters.hits ∧
          pull.cells = pull.next?.toList ++ next.cells ∧
          s.runPull source (fuel + 1) pull jobs = s'.runPull source fuel next left) := by
  have serving := s.serving pull 0
  rw [runPull, hdone, if_neg Bool.false_ne_true]
  generalize s.serve pull 0 = r at serving ⊢
  obtain ⟨s', served, job?⟩ := r
  refine ⟨s'.cache, job?, serving.asks, ?_⟩
  cases served with
  | broke fault =>
    cases job? with
    | none => exact .inl ⟨s', fault, jobs, rfl, rfl⟩
    | some job => exact .inl ⟨s', fault, job :: jobs, rfl, rfl⟩
  | went next =>
    have hcells := serving.cells_eq
    cases job? with
    | none => exact .inr ⟨s', next, jobs, rfl, hcells, rfl⟩
    | some job =>
      dsimp only
      split
      · refine .inr ⟨_, next.wake _, jobs, hits_settle s' job s'.generation _, ?_, rfl⟩
        rwa [next.cells_wake]
      · exact .inr ⟨s', next, job :: jobs, rfl, hcells, rfl⟩

/-- A pull that has asked for all its cells counts no more hits. -/
theorem hits_runPull_of_nil (source : Source) (fuel : Nat) {pull : Pull} (hcells : pull.cells = [])
    (jobs : List Job) :
    (s.runPull source fuel pull jobs).1.cache.counters.hits = s.cache.counters.hits := by
  induction fuel generalizing s pull jobs with
  | zero => rfl
  | succ fuel ih =>
    cases hdone : pull.isDone with
    | true => rw [runPull, if_pos hdone]
    | false =>
      obtain ⟨d, job?, hasks, hrest⟩ := s.runPull_step source pull hdone fuel jobs
      have hsame : d = s.cache := by
        rcases hasks with ⟨-, hsame, -⟩ | ⟨cell, acquired, hnext, -, -⟩
        · exact hsame
        · have hmem := Pull.mem_of_next? hnext
          rw [hcells] at hmem
          cases hmem
      rcases hrest with ⟨s', fault, left, hd, hrun⟩ | ⟨s', next, left, hd, hrest, hrun⟩
      · rw [hrun, hd, hsame]
      · rw [hcells] at hrest
        rw [hrun, ih (List.append_eq_nil_iff.1 hrest.symm).2, hd, hsame]

/-- **A pull of a cell whose pixels are not at hand counts no hit**, whatever comes of it. -/
theorem hits_pull (hw : s.cache.WellFormed) (hcell : s.size.IsCell cell)
    (hc : s.cache.isCached s.generation cell.origin = false) (hdata : data.IsFor info)
    {jobs left : List Job} {after : Sink} {finished : Finished}
    (h : s.pull source cell data jobs = .ok (after, finished, left)) :
    after.cache.counters.hits = s.cache.counters.hits := by
  cases hb : data.buffer cell with
  | error error =>
    rw [pull_of_buffer_error hb] at h
    cases h
  | ok buffer =>
    rw [pull_of_openPull (openPull_of_isCell hcell hdata hb)] at h
    obtain ⟨d, job?, hasks, hrest⟩ :=
      s.runPull_step source ⟨buffer, [cell], .nothing⟩ rfl 2 jobs
    have hhits : d.counters.hits = s.cache.counters.hits := by
      rcases hasks with ⟨hnone, -, -⟩ | ⟨other, acquired, hnext, hacq, -⟩
      · cases hnone
      · obtain rfl := Option.some.inj hnext
        rw [← Cache.hits_acquire hw hc, hacq]
    have hafter : after = (s.runPull source (2 + 1) ⟨buffer, [cell], .nothing⟩ jobs).1 :=
      (congrArg Prod.fst (Except.ok.inj h)).symm
    rw [← hhits, hafter]
    rcases hrest with ⟨s', fault, left, hd, hrun⟩ | ⟨s', next, left, hd, hcells, hrun⟩
    · rw [hrun, hd]
    · have hnil : next.cells = [] := (List.cons.inj hcells).2.symm
      rw [hrun, hits_runPull_of_nil source 2 hnil left, hd]

end Sink

namespace Engine

variable {config : Config} {hasRuntime withMask : Bool}

/-- **The mask and the data channel agree.**  In every state that a run of a new sink leads to,
whatever happened in it, a mask of a rectangle that can have one tells of each pixel whether the
cell in which the pixel lies has a painted tile that is not stale.  Where a mask shows a cell, a
pull of that cell from the same state counts one hit, and otherwise changes the order of use alone:
it begins no computation, takes no tile from another cell and answers nothing with zeros.  What it
delivers are the bytes that the tile of the cell holds, if the sources of the run write into their
buffers.  Where a mask does not show a cell, a pull of that cell counts no hit. -/
theorem agreement_run (hs : Sink.create info config hasRuntime withMask = .ok s)
    (moves : List Move) :
    let now := ((ofSink s hasRuntime).run moves).sink
    (∀ (rect : Rect) (out : Region) (amid : Rect → Nat), out.IsFor info.mask →
      Allocatable info.mask rect = true → ∃ m, now.pullMask rect out amid = .filled m ∧
        m.valid = rect.intersect info.bounds ∧ now.Masks amid m) ∧
    ∀ (rect : Rect) (out m : Region), out.IsFor info.mask →
      now.pullMask rect out (fun _ => 0) = .filled m → ∀ (cell : Rect) (x y : Coord),
      now.size.IsCell cell → cell.contains x y = true → m.valid.contains x y = true →
      ∀ (source : Source) (data : Region), data.IsFor info → ∀ jobs : List Job,
        (m.pixel x y = .ok (Bytes.replicate 1 255) → now.cache.isOpen = true →
          KeepImages moves → ∃ (after : Sink) (finished : Finished),
            now.pull source cell data jobs = .ok (after, finished, jobs) ∧ now.Hits 1 after ∧
            (KeepBuffers moves →
              ∃ (id : Nat) (t : Tile) (region filled : Region), now.cache.tiles[id]? = some t ∧
                t.area = cell ∧ t.region? = some region ∧ finished = .filled filled ∧
                filled.valid = cell.intersect info.bounds ∧ filled.bytes = region.bytes)) ∧
        (m.pixel x y ≠ .ok (Bytes.replicate 1 255) →
          ∀ (after : Sink) (finished : Finished) (left : List Job),
            now.pull source cell data jobs = .ok (after, finished, left) →
            after.cache.counters.hits = now.cache.counters.hits) := by
  intro now
  have hw : now.cache.WellFormed := (sound_run hs moves).1.cache
  refine ⟨fun rect out amid hout hok => Sink.exists_masks hw hout hok amid,
    fun rect out m hout hm cell x y hcell hc hxy source data hdata jobs => ?_⟩
  have hshown := Sink.pixel_eq_iff_isCached hw hout hm hcell hc hxy
  refine ⟨fun hpixel ho hk => ?_, fun hpixel after finished left hpull => ?_⟩
  · obtain ⟨id, t, region, buffer, ht, rfl, hr, hb, hpull⟩ := Sink.exists_pull_of_isCached hw ho
      (suited_run hs hk).tiles hcell (hshown.1 hpixel) hdata source jobs
    refine ⟨_, _, hpull, now.hits_one id, fun hkeep => ?_⟩
    obtain ⟨filled, hcopy, hvalid, hbytes⟩ :=
      Sink.exists_copied_of_houses ((housed_run hs hkeep).tiles id t ht region hr) hdata hb
    refine ⟨id, t, region, filled, ht, rfl, hr, ?_, hvalid, hbytes⟩
    rw [hcopy]
    rfl
  · have hcached := Bool.eq_false_iff.2 fun hcached => hpixel (hshown.2 hcached)
    exact Sink.hits_pull hw hcell hcached hdata hpull

/-- Two cells, of which the first has been computed.  The mask shows the first and not the second; a
pull of the first is a hit that delivers the bytes of its tile, and a pull of the second is none. -/
theorem agreement_run_narrow :
    ∃ s, Sink.create ⟨2, 1, 1, .uchar⟩ (.ofTileSize 1 1) false true = .ok s ∧
      let now := ((ofSink s false).run [.openPull ⟨0, 0, 1, 1⟩ (.empty ⟨2, 1, 1, .uchar⟩)
        ⟨_, rfl, rfl⟩, .advance 0 0, .begin 1, .finish 1 .pattern]).sink
      ∃ (m : Region) (after : Sink) (id : Nat) (t : Tile) (region filled : Region),
        now.pullMask ⟨0, 0, 2, 1⟩ (.empty ⟨2, 1, 1, .uchar⟩) (fun _ => 0) = .filled m ∧
        m.pixel 0 0 = .ok (Bytes.replicate 1 255) ∧ m.pixel 1 0 = .ok (Bytes.replicate 1 0) ∧
        now.pull .pattern ⟨0, 0, 1, 1⟩ (.empty ⟨2, 1, 1, .uchar⟩) [] =
          .ok (after, .filled filled, []) ∧ now.Hits 1 after ∧
        now.cache.tiles[id]? = some t ∧ t.region? = some region ∧ filled.bytes = region.bytes ∧
        ∀ (after : Sink) (finished : Finished) (left : List Job),
          now.pull .pattern ⟨1, 0, 1, 1⟩ (.empty ⟨2, 1, 1, .uchar⟩) [] =
            .ok (after, finished, left) → after.cache.counters.hits = now.cache.counters.hits := by
  refine ⟨_, rfl, ?_⟩
  intro now
  obtain ⟨hmask, hpull⟩ := @agreement_run ⟨2, 1, 1, .uchar⟩ _ (.ofTileSize 1 1) false true rfl
    [.openPull ⟨0, 0, 1, 1⟩ (.empty ⟨2, 1, 1, .uchar⟩) ⟨_, rfl, rfl⟩, .advance 0 0, .begin 1,
      .finish 1 .pattern]
  have hk : KeepBuffers [.openPull ⟨0, 0, 1, 1⟩ (.empty ⟨2, 1, 1, .uchar⟩) ⟨_, rfl, rfl⟩,
      .advance 0 0, .begin 1, .finish 1 .pattern] := by
    intro n source hm
    have hsource : n = 1 ∧ source = .pattern := by simpa using hm
    exact hsource.2 ▸ keepsBuffer_pattern
  have hfirst : now.size.IsCell ⟨0, 0, 1, 1⟩ := ⟨rfl, rfl, ⟨0, rfl⟩, ⟨0, rfl⟩⟩
  have hsecond : now.size.IsCell ⟨1, 0, 1, 1⟩ := ⟨rfl, rfl, ⟨1, rfl⟩, ⟨0, rfl⟩⟩
  obtain ⟨m, hm, hvalid, hmasks⟩ := hmask ⟨0, 0, 2, 1⟩ (.empty ⟨2, 1, 1, .uchar⟩) (fun _ => 0)
    ⟨rfl, rfl⟩ rfl
  have hin : ∀ x y, m.valid.contains x y =
      (Rect.intersect ⟨0, 0, 2, 1⟩ (ImageInfo.bounds ⟨2, 1, 1, .uchar⟩)).contains x y := fun x y =>
    congrArg (fun r => Rect.contains r x y) hvalid
  have hshown : m.pixel 0 0 = .ok (Bytes.replicate 1 255) := by
    obtain ⟨cell, hcell, hc, hpaints, -⟩ := hmasks 0 0 (hin 0 0)
    obtain rfl := hcell.eq_of_contains hfirst hc rfl
    exact hpaints ⟨0, _, rfl, rfl, rfl, rfl⟩
  have hhidden : m.pixel 1 0 = .ok (Bytes.replicate 1 0) := by
    obtain ⟨cell, hcell, hc, -, hblank⟩ := hmasks 1 0 (hin 1 0)
    obtain rfl := hcell.eq_of_contains hsecond hc rfl
    refine hblank ?_
    rintro ⟨id, t, ht, harea, -⟩
    cases id with
    | zero =>
      obtain rfl := Option.some.inj ht
      exact absurd (congrArg Rect.left harea) (by decide)
    | succ id => cases ht
  obtain ⟨after, finished, hafter, hhits, hbytes⟩ := (hpull _ _ m ⟨rfl, rfl⟩ hm ⟨0, 0, 1, 1⟩ 0 0
    hfirst rfl (hin 0 0) .pattern (.empty ⟨2, 1, 1, .uchar⟩) ⟨rfl, rfl⟩ []).1 hshown rfl
    hk.keepImages
  obtain ⟨id, t, region, filled, ht, -, hr, rfl, -, hbytes⟩ := hbytes hk
  refine ⟨m, after, id, t, region, filled, hm, hshown, hhidden, hafter, hhits, ht, hr, hbytes, ?_⟩
  refine (hpull _ _ m ⟨rfl, rfl⟩ hm ⟨1, 0, 1, 1⟩ 1 0 hsecond rfl (hin 1 0) .pattern
    (.empty ⟨2, 1, 1, .uchar⟩) ⟨rfl, rfl⟩ []).2 fun hno => ?_
  exact absurd (Except.ok.inj (hno.symm.trans hhidden)) (by decide)

end Engine

end TileCache
