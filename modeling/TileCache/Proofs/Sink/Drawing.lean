import TileCache.Proofs.Pixels.Whole
import TileCache.Proofs.Sink.Carries

/-!
# Sources that draw one picture

A picture tells each byte of a pixel by the position of the pixel alone.  A source draws a picture
if each of its calls completes and leaves the region full of that picture.

If in a run all sources draw the same picture, then every painted tile shows it (`displayed_run`),
whatever else went on: dropped computations leave a tile without pixels, never with wrong ones.
There is one proviso.  A cell that would need more bytes than a region may have can end up with a
buffer that is too short, and a source promises nothing for that; so all this is said of cells that
fit (`Fits`).

* `Source.Draws`, and `draws_pattern`: the test pattern is a picture.
* `Displays`, `flow_displays`, `displayed_run`: painted tiles show the picture.
* `Cache.Depicts`, `depicts_run`: the same of an open cache as a whole.
-/

set_option autoImplicit false

namespace TileCache

/-- Every byte of every pixel: byte `k` of the pixel at `(x, y)`. -/
abbrev Picture := Coord → Coord → Nat → UInt8

/-- The test pattern, byte by byte. -/
def Pattern.picture : Picture := fun x y k => Pattern.value x.val y.val k

/-- Are the bytes for this part of the image within the limit? -/
def Fits (info : ImageInfo) (rect : Rect) : Prop :=
  (rect.intersect info.bounds).area * info.bytesPerPixel ≤ maxRegionBytes

/-- Does every call of the source complete, with the picture in all pixels of the region? -/
structure Source.Draws (source : Source) (picture : Picture) : Prop where
  keepsFrame : source.KeepsFrame
  completes : ∀ r : Region, r.IsWhole → (source r).ending = .completed
  size : ∀ r : Region, r.IsWhole → (source r).region.bytes.size = r.bytes.size
  shows : ∀ r : Region, r.IsWhole → (source r).region.Shows picture

variable {info : ImageInfo} {picture : Picture} {rect : Rect}

/-- If the whole image is within the limit, every part of it is. -/
theorem fits_of_bounds (h : info.bounds.area * info.bytesPerPixel ≤ maxRegionBytes) (rect : Rect) :
    Fits info rect :=
  Nat.le_trans (Nat.mul_le_mul_right _ (Rect.area_intersect_le rect info.bounds)) h

namespace Region

variable {r s : Region}

/-- For what fits and touches the image there is a buffer. -/
theorem exists_buffer (htouches : (rect.intersect info.bounds).isEmpty = false)
    (hfits : Fits info rect) : ∃ s, (Region.empty info).buffer rect = .ok s ∧ s.IsWhole := by
  have hbuffer := Region.buffer_eq_ok_iff (r := .empty info).2 ⟨htouches, hfits, rfl⟩
  exact ⟨_, hbuffer, isWhole_of_buffer hbuffer⟩

/-- What has got a buffer fits. -/
theorem fits_of_buffer (hfor : r.IsFor info) (hb : r.buffer rect = .ok s) : Fits info rect := by
  obtain ⟨-, hfits, -⟩ := buffer_eq_ok_iff.1 hb
  rwa [hfor.1, hfor.2] at hfits

/-- What fits can be counted. -/
theorem buffer_ne_faulted (hfits : Fits info rect) (fault : Fault) :
    (Region.empty info).buffer rect ≠ .error (.faulted fault) := by
  intro h
  obtain ⟨-, hcount, -⟩ := buffer_eq_faulted_iff.1 h
  exact absurd (Nat.le_trans hcount hfits) (by decide)

theorem Shows.stamped (h : r.Shows picture) (stamp : Option Nat) :
    ({ r with stamp } : Region).Shows picture := h

end Region

namespace Source.Draws

variable {source : Source} {r : Region}

/-- What a call leaves, with its stamp. -/
theorem stamped_eq (h : source.Draws picture) (hr : r.IsWhole) (generation : Nat) :
    (source r).stamped generation = { (source r).region with stamp := some generation } := by
  rw [Answer.stamped, h.completes r hr]

/-- It is fresh as long as the image has not been invalidated. -/
theorem isStale_stamped (h : source.Draws picture) (hr : r.IsWhole) (generation : Nat) :
    ((source r).stamped generation).isStale generation = false := by
  rw [h.stamped_eq hr]
  exact bne_self_eq_false generation

theorem isWhole_stamped (h : source.Draws picture) (hr : r.IsWhole) (generation : Nat) :
    ((source r).stamped generation).IsWhole := by
  obtain ⟨hb, hp, hv⟩ := h.keepsFrame r
  rw [h.stamped_eq hr]
  exact hr.congr hb hp hv (h.size r hr)

theorem shows_stamped (h : source.Draws picture) (hr : r.IsWhole) (generation : Nat) :
    ((source r).stamped generation).Shows picture := by
  rw [h.stamped_eq hr]
  exact (h.shows r hr).stamped _

end Source.Draws

/-! ## The test pattern -/

namespace Pattern

/-- Words of 32 bits are counted modulo `2 ^ 32`, from whatever side one comes. -/
theorem ofInt_natCast (n : Nat) : UInt32.ofInt n = UInt32.ofNat n := by
  have hmod : ((n : Int) % 2 ^ 32).toNat = n % 2 ^ 32 := by omega
  rw [UInt32.ofInt, hmod, UInt32.ofNat_mod_size]

/-- The coordinate that lies `n` after `first`, as a word. -/
theorem ofInt_add_toNat {first v : Coord} (h : first.val ≤ v.val) :
    UInt32.ofInt first.val + .ofNat (v.val - first.val).toNat = .ofInt v.val := by
  rw [← ofInt_natCast, ← UInt32.ofInt_add, Int.toNat_of_nonneg (by omega)]
  exact congrArg UInt32.ofInt (by omega)

/-- What painting the pattern comes to, if there is anything to paint. -/
theorem paint_eq_ok_iff {r s : Region} (hne : r.valid.isEmpty = false) :
    paint r = .ok s ↔ r.holds r.valid = true ∧ s = r.setBlock r.valid fun j k =>
      wordValue (UInt32.ofInt r.valid.left.val + .ofNat (k / r.pixelSize))
        (UInt32.ofInt r.valid.top.val + .ofNat j) (k % r.pixelSize) := by
  rw [paint, hne, if_neg Bool.false_ne_true]
  split
  · rename_i hh
    rw [Except.ok.injEq, eq_comm]
    exact ⟨fun hs => ⟨hh, hs⟩, fun hs => hs.2⟩
  · rename_i hh
    exact ⟨fun hs => (by cases hs), fun hs => absurd hs.1 hh⟩

/-- **What was painted shows the pattern**, whatever the length of the buffer. -/
theorem shows_of_paint {r s : Region} (hin : r.valid.Inside r.valid)
    (hne : r.valid.isEmpty = false) (h : paint r = .ok s) : s.Shows Pattern.picture := by
  obtain ⟨hh, rfl⟩ := (paint_eq_ok_iff hne).1 h
  have hholds : (r.setBlock r.valid fun j k =>
      wordValue (UInt32.ofInt r.valid.left.val + .ofNat (k / r.pixelSize))
        (UInt32.ofInt r.valid.top.val + .ofNat j) (k % r.pixelSize)).holds r.valid = true := by
    rw [Region.holds, Region.size_bytes_setBlock]
    exact hh
  refine (Region.shows_iff_of_holds (r := r.setBlock r.valid _) hin hholds).2 fun x y hxy k hk => ?_
  refine (Region.getElem!_setBlock _ hin hh hxy hk).trans ?_
  change r.valid.contains x y = true at hxy
  change k < r.pixelSize at hk
  rw [Rect.contains_iff] at hxy
  have hcolumn : ((x.val - r.valid.left.val).toNat * r.pixelSize + k) / r.pixelSize =
      (x.val - r.valid.left.val).toNat := by
    rw [Nat.mul_comm, Nat.mul_add_div (by omega), Nat.div_eq_of_lt hk, Nat.add_zero]
  have hbyte : ((x.val - r.valid.left.val).toNat * r.pixelSize + k) % r.pixelSize = k := by
    rw [Nat.mul_comm, Nat.mul_add_mod, Nat.mod_eq_of_lt hk]
  rw [hcolumn, hbyte, ofInt_add_toNat hxy.1, ofInt_add_toNat hxy.2.2.1]
  rfl

/-- In a whole region there is room for the pattern. -/
theorem exists_paint {r : Region} (h : r.IsWhole) :
    ∃ s, paint r = .ok s ∧ s.bytes.size = r.bytes.size :=
  ⟨_, (paint_eq_ok_iff h.nonempty).2
    ⟨Region.holds_of_inside h h.inside.self h.nonempty, rfl⟩, Region.size_bytes_setBlock r _ _⟩

end Pattern

/-- **The test pattern is a picture.** -/
theorem draws_pattern : Source.pattern.Draws Pattern.picture where
  keepsFrame := Engine.keepsFrame_pattern
  completes := by
    intro r hr
    obtain ⟨s, hs, -⟩ := Pattern.exists_paint hr
    rw [Source.pattern, hs]
    rfl
  size := by
    intro r hr
    obtain ⟨s, hs, hsize⟩ := Pattern.exists_paint hr
    rw [Source.pattern, hs]
    exact hsize
  shows := by
    intro r hr
    obtain ⟨s, hs, -⟩ := Pattern.exists_paint hr
    rw [Source.pattern, hs]
    exact Pattern.shows_of_paint hr.inside.self hr.nonempty hs

namespace Engine

/-! ## Tiles that show the picture -/

/-- The buffer of the tile fits it, is whole if that is possible at all, and shows the picture if
the tile is painted. -/
structure Displays (info : ImageInfo) (picture : Picture) (t : Tile) : Prop where
  framed : Framed info t
  isWhole : ∀ r, t.region? = some r → Fits info t.area → r.IsWhole
  shows : ∀ r, t.region? = some r → Fits info t.area → t.state = .painted → r.Shows picture

/-- What is known of a buffer on its way. -/
structure Travels (info : ImageInfo) (job : Job) : Prop where
  frames : Frames info job.area job.region
  isWhole : Fits info job.area → job.region.IsWhole

/-- The buffer fits the cell, and is whole if that is possible at all. -/
structure Houses (info : ImageInfo) (cell : Rect) (r : Region) : Prop where
  frames : Frames info cell r
  isWhole : Fits info cell → r.IsWhole

theorem houses_of_buffer {cell : Rect} {r r' : Region} (h : r.IsFor info)
    (hb : r.buffer cell = .ok r') : Houses info cell r' :=
  ⟨frames_of_buffer h hb, fun _ => Region.isWhole_of_buffer hb⟩

theorem inborn_houses (info : ImageInfo) : Inborn info (Houses info) :=
  ⟨fun hb => houses_of_buffer ⟨rfl, rfl⟩ hb, fun h hb => houses_of_buffer h.frames.isFor hb⟩

theorem displays_blank {t : Tile} (h : Buffered (Houses info) t) (hs : t.state ≠ .painted) :
    Displays info picture t :=
  ⟨fun r hr => (h r hr).frames, fun r hr => (h r hr).isWhole, fun _ _ _ hp => absurd hp hs⟩

theorem durable_displays (info : ImageInfo) (picture : Picture) :
    Cache.Durable info (Displays info picture) where
  created := by
    intro cell t ht
    refine displays_blank ((durable_buffered (inborn_houses info)).created ht) ?_
    obtain ⟨region, -, rfl⟩ := Cache.create_eq_ok ht
    exact nofun
  used := fun _ h => ⟨h.framed, h.isWhole, h.shows⟩
  moved := by
    intro cell t t' h hm
    refine displays_blank ((durable_buffered (inborn_houses info)).moved
      (fun r hr => ⟨h.framed r hr, h.isWhole r hr⟩) hm) ?_
    rcases Cache.moveTo_cases hm with ⟨-, rfl⟩ | ⟨old, region, -, -, rfl⟩
    · exact nofun
    · exact nofun
  emptied := fun _ => displays_blank (fun _ hr => nomatch hr) nofun

/-- A call that draws leaves a tile that shows. -/
theorem displays_checkin {source : Source} {t : Tile} {job : Job} (hs : source.Draws picture)
    (hj : Travels info job) (ha : t.area = job.area) (generation : Nat) (painted : Bool) :
    Displays info picture (t.checkin ((source job.region).stamped generation) painted) where
  framed := by
    intro r hr
    obtain rfl := Option.some.inj hr
    show Frames info t.area _
    rw [ha]
    exact frames_stamped hj.frames hs.keepsFrame generation
  isWhole := by
    intro r hr hfits
    obtain rfl := Option.some.inj hr
    exact hs.isWhole_stamped (hj.isWhole (ha ▸ hfits)) generation
  shows := by
    intro r hr hfits _
    obtain rfl := Option.some.inj hr
    exact hs.shows_stamped (hj.isWhole (ha ▸ hfits)) generation

/-- A buffer that comes back as it went out. -/
theorem displays_returned {t : Tile} {job : Job} (hj : Travels info job) (ha : t.area = job.area) :
    Displays info picture (t.checkin job.region false) := by
  refine displays_blank (fun r hr => ?_) nofun
  obtain rfl := Option.some.inj hr
  show Houses info t.area _
  rw [ha]
  exact ⟨hj.frames, hj.isWhole⟩

end Engine

/-! ## Caches -/

namespace Cache

variable {c d : Cache} {cell : Rect} {generation : Nat}

/-- An open cache whose painted tiles show the picture, whatever is being computed.  All its cells
fit. -/
structure Depicts (info : ImageInfo) (picture : Picture) (c : Cache) : Prop where
  isOpen : c.isOpen = true
  wellFormed : c.WellFormed
  isInfo : c.info = info
  displays : c.All (Engine.Displays info picture)
  fits : ∀ cell, c.size.IsCell cell → Fits info cell

namespace Depicts

/-- A valid tile has the picture in the whole part of its cell that lies in the image. -/
theorem exists_region (h : c.Depicts info picture) {id : Nat} {t : Tile}
    (ht : c.tiles[id]? = some t) (hv : t.isValid generation = true) :
    ∃ region, t.region? = some region ∧ Engine.Frames info t.area region ∧ region.IsWhole ∧
      region.Shows picture := by
  have hpainted := (Sink.isValid_iff.1 hv).1
  obtain ⟨region, hr⟩ := h.wellFormed.exists_region_of_valid ht hv
  have hd := h.displays id t ht
  have hfits := h.fits _ (h.wellFormed.onGrid id t ht)
  exact ⟨region, hr, hd.framed region hr, hd.isWhole region hr hfits,
    hd.shows region hr hfits hpainted⟩

/-- A cache with the same setting that is in order still depicts the picture. -/
theorem congr (h : c.Depicts info picture) (hset : c.SameSetting d) (hw : d.WellFormed)
    (hd : d.All (Engine.Displays info picture)) : d.Depicts info picture where
  isOpen := hset.isOpen.trans h.isOpen
  wellFormed := hw
  isInfo := hset.info.trans h.isInfo
  displays := hd
  fits := fun cell hcell => h.fits cell (hset.size ▸ hcell)

theorem acquire (h : c.Depicts info picture) (generation : Nat) (hcell : c.size.IsCell cell) :
    (c.acquire generation cell).1.Depicts info picture :=
  h.congr (sameSetting_acquire h.wellFormed generation cell)
    (h.wellFormed.acquire generation hcell)
    (h.displays.acquire (h.isInfo ▸ Engine.durable_displays _ _) h.wellFormed generation cell)

theorem hit (h : c.Depicts info picture) (id : Nat) : (c.hit id).Depicts info picture :=
  h.congr (sameSetting_hit c id) (h.wellFormed.hit id)
    (All.touch (c := c.count fun k => { k with hits := k.hits + 1 }) h.displays
      (fun _ n => (Engine.durable_displays info picture).used n) id)

/-- A job that goes out comes from a tile that is in order. -/
theorem travels (h : c.Depicts info picture) {job : Job}
    (ha : c.acquire generation cell = (d, .compute job)) : Engine.Travels info job := by
  obtain ⟨d₀, tile, hp, -, hr, harea⟩ := prepared_of_compute h.wellFormed ha
  have hd := hp.durable (h.isInfo ▸ Engine.durable_displays info picture) h.displays
  exact ⟨harea ▸ hd.framed _ hr, fun hfits => hd.isWhole _ hr (harea ▸ hfits)⟩

/-- A job comes back from a source that draws. -/
theorem complete (h : c.Depicts info picture) {source : Source} (hdraws : source.Draws picture)
    {job : Job} (hj : Engine.Travels info job) {t : Tile} (ht : c.tiles[job.tile]? = some t)
    (harea : t.area = job.area) (generation : Nat) :
    (c.complete job.tile ((source job.region).stamped generation) true).Depicts info picture := by
  refine h.congr (sameSetting_complete _ _ _ _) (h.wellFormed.complete _ _ _)
    (h.displays.complete (Engine.durable_displays info picture).used fun _ t' ht' => ?_)
  obtain rfl := Option.some.inj (ht.symm.trans ht')
  exact Engine.displays_checkin hdraws hj harea generation true

end Depicts

end Cache

namespace Engine

variable {e : Engine}

/-! ## Ends of calls -/

/-- The buffer that a computation has is whole. -/
theorem Sound.isWhole_job (hs : e.Sound) (hd : e.sink.cache.Depicts info picture) {id : Nat}
    {c : Computation} (hf : e.computations.lookup id = some c) (hj : Travels info c.job) :
    c.job.region.IsWhole := by
  obtain ⟨t, ht, -, ha⟩ := hs.exists_tile hd.isOpen hf
  exact hj.isWhole (ha ▸ hd.fits _ (hs.cache.onGrid _ t ht))

/-- The call of a source that draws comes to its end. -/
theorem step_finish_of_draws {source : Source} (hdraws : source.Draws picture) {id beganAt : Nat}
    {c : Computation} (hf : e.computations.lookup id = some c) (hb : c.beganAt? = some beganAt)
    (hwhole : c.job.region.IsWhole) :
    ∃ notified painted, e.step (.finish id source) = wake { e.forget id with
      notified, sink := { e.sink with
        cache := e.sink.cache.complete c.job.tile ((source c.job.region).stamped beganAt) true } }
      c.client painted := by
  rw [step_finish_of_some source hf, finish, hf]
  simp only [hb]
  rw [Sink.settle, hdraws.completes _ hwhole]
  dsimp only
  split
  · exact ⟨_, _, rfl⟩
  · exact ⟨_, _, rfl⟩

/-! ## Runs -/

/-- Do all sources that the moves make calls of draw the picture? -/
def AllDraw (picture : Picture) (moves : List Move) : Prop :=
  ∀ n source, Move.finish n source ∈ moves → Source.Draws source picture

@[simp]
theorem allDraw_nil : AllDraw picture [] := fun _ _ hm => absurd hm List.not_mem_nil

@[simp]
theorem allDraw_cons {move : Move} {moves : List Move} :
    AllDraw picture (move :: moves) ↔
      (∀ n source, move = .finish n source → source.Draws picture) ∧ AllDraw picture moves := by
  refine ⟨fun h => ⟨?_, fun n source hm => h n source (List.mem_cons_of_mem _ hm)⟩, ?_⟩
  · rintro n source rfl
    exact h n source List.mem_cons_self
  · rintro ⟨hmove, hmoves⟩ n source hm
    rcases List.mem_cons.1 hm with heq | hm
    · exact hmove n source heq.symm
    · exact hmoves n source hm

theorem AllDraw.of_append {before after : List Move} (h : AllDraw picture (before ++ after)) :
    AllDraw picture before :=
  fun n source hm => h n source (List.mem_append_left _ hm)

theorem AllDraw.append {before after : List Move} (h : AllDraw picture before)
    (h' : AllDraw picture after) : AllDraw picture (before ++ after) :=
  fun n source hm => (List.mem_append.1 hm).elim (h n source) (h' n source)

theorem flow_displays {move : Move}
    (hd : ∀ n source, move = .finish n source → Source.Draws source picture) :
    e.Flow move (Displays e.sink.cache.info picture) (Displays e.sink.cache.info picture)
      (fun _ c => Travels e.sink.cache.info c.job)
      (fun _ c => Travels e.sink.cache.info c.job) where
  tiles := fun _ h => h
  computations := fun _ _ h => h
  durable := durable_displays _ _
  handedOut := fun _ _ _ h hr => ⟨h.framed _ hr, h.isWhole _ hr⟩
  begun := fun _ _ hj _ => hj
  returned := fun hm _ hj _ ha => displays_checkin (hd _ _ hm) hj ha _ _
  dropped := fun hj ha => displays_returned hj ha

/-- **In every run whose sources draw one picture, painted tiles show it.** -/
theorem displayed_run {config : Config} {hasRuntime withMask : Bool} {s : Sink}
    (hs : Sink.create info config hasRuntime withMask = .ok s) {moves : List Move}
    (hd : AllDraw picture moves) :
    ((ofSink s hasRuntime).run moves).Carries (Displays info picture)
      (fun _ c => Travels info c.job) := by
  refine carries_run hs fun e he move hm => ?_
  subst he
  exact flow_displays fun n source hfinish => hd n source (hfinish ▸ hm)

/-- The cache of a run whose sources draw one picture, while it is open. -/
theorem depicts_run {config : Config} {hasRuntime withMask : Bool} {s : Sink}
    (hs : Sink.create info config hasRuntime withMask = .ok s)
    (hfits : ∀ cell, s.size.IsCell cell → Fits info cell) {moves : List Move}
    (hd : AllDraw picture moves)
    (hopen : ((ofSink s hasRuntime).run moves).sink.cache.isOpen = true) :
    ((ofSink s hasRuntime).run moves).sink.cache.Depicts info picture := by
  obtain ⟨hsound, hbase⟩ := sound_run hs moves
  refine ⟨hopen, hsound.cache, info_run hs moves, (displayed_run hs hd).tiles, fun cell hcell =>
    hfits cell ?_⟩
  rw [hbase.size] at hcell
  exact hcell

end Engine

end TileCache
