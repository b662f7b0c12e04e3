import TileCache.Proofs.Cache.Decision
import TileCache.Proofs.Sink.Allocation
import TileCache.Proofs.Sink.Drawing

/-!
# How a cell is answered

When the tiles of a cache show a picture, a pull into a whole region never breaks off, and each
cell of it is answered in one of two ways: with the picture (`Region.ShowsIn`) where valid pixels
are at hand, and with zeros (`Region.BlankIn`) where they are not.  In background mode this is all
that a step does (`serve_of_not_isCached`), and the cache is left as by a bare request.  With valid
pixels at hand the mode does not matter (`serve_of_isCached`).
-/

set_option autoImplicit false

namespace TileCache

namespace Region

/-- In the part of the region in `cell` all pixels are those that `f` tells. -/
def ShowsIn (r : Region) (f : Coord → Coord → Nat → UInt8) (cell : Rect) : Prop :=
  ∀ x y, cell.contains x y = true → r.valid.contains x y = true → r.ShowsAt f x y

/-- The part of the region in `cell` is zero throughout. -/
def BlankIn (r : Region) (cell : Rect) : Prop :=
  ∀ x y, cell.contains x y = true → r.valid.contains x y = true →
    r.pixel x y = .ok (Bytes.replicate r.pixelSize 0)

/-- What is left of a whole region after something was written into `cell`. -/
structure WrittenIn (r : Region) (cell : Rect) (s : Region) : Prop where
  same : s = { r with bytes := s.bytes }
  isWhole : s.IsWhole
  others : ∀ x y, cell.contains x y = false → r.valid.contains x y = true →
    s.pixel x y = r.pixel x y

variable {r s : Region} {cell other : Rect} {picture : Picture} {info : ImageInfo}

/-- A region for the image gets a whole buffer for what fits and touches the image. -/
theorem IsFor.exists_buffer (h : r.IsFor info) {rect : Rect}
    (htouches : (rect.intersect info.bounds).isEmpty = false) (hfits : Fits info rect) :
    ∃ s, r.buffer rect = .ok s ∧ s.IsWhole ∧ s.IsFor info ∧
      s.valid = rect.intersect info.bounds := by
  obtain ⟨s, hs, hwhole⟩ := Region.exists_buffer htouches hfits
  refine ⟨s, (h.buffer_eq rect).trans hs, hwhole, ?_⟩
  obtain ⟨-, -, rfl⟩ := Region.buffer_eq_ok_iff.1 hs
  exact ⟨⟨rfl, rfl⟩, rfl⟩

theorem WrittenIn.valid (h : r.WrittenIn cell s) : s.valid = r.valid := by rw [h.same]

theorem WrittenIn.pixelSize (h : r.WrittenIn cell s) : s.pixelSize = r.pixelSize := by rw [h.same]

theorem WrittenIn.isFor (h : r.WrittenIn cell s) (hr : r.IsFor info) : s.IsFor info := by
  rw [h.same]
  exact ⟨hr.1, hr.2⟩

/-- A pixel elsewhere shows what it has shown. -/
theorem WrittenIn.showsAt (h : r.WrittenIn cell s) {x y : Coord} (hc : cell.contains x y = false)
    (hv : r.valid.contains x y = true) (hs : r.ShowsAt picture x y) : s.ShowsAt picture x y := by
  rw [ShowsAt, h.others x y hc hv, h.pixelSize]
  exact hs

/-- What another cell shows is not changed. -/
theorem WrittenIn.showsIn (h : r.WrittenIn cell s)
    (hapart : ∀ x y, other.contains x y = true → cell.contains x y = false)
    (hs : r.ShowsIn picture other) : s.ShowsIn picture other := by
  intro x y hxy hv
  rw [h.valid] at hv
  exact h.showsAt (hapart x y hxy) hv (hs x y hxy hv)

theorem WrittenIn.blankIn (h : r.WrittenIn cell s)
    (hapart : ∀ x y, other.contains x y = true → cell.contains x y = false)
    (hs : r.BlankIn other) : s.BlankIn other := by
  intro x y hxy hv
  rw [h.valid] at hv
  rw [h.others x y (hapart x y hxy) hv, h.pixelSize]
  exact hs x y hxy hv

/-- Painting zeros writes into one cell. -/
theorem exists_blank (hr : r.IsWhole) {area : Rect}
    (harea : ∀ x y, r.valid.contains x y = true → area.contains x y = cell.contains x y) :
    ∃ s, r.paint area 0 = .ok s ∧ r.WrittenIn cell s ∧ s.BlankIn cell := by
  obtain ⟨s, hs⟩ := exists_paint hr area 0
  have hsame := eq_of_paint hs
  have hv : s.valid = r.valid := by rw [hsame]
  have hp : s.pixelSize = r.pixelSize := by rw [hsame]
  refine ⟨s, hs, ⟨hsame, hr.paint hs, fun x y hc hxy => ?_⟩, fun x y hc hxy => ?_⟩
  · rw [pixel_paint hs hxy, harea x y hxy, hc]
    exact if_neg Bool.false_ne_true
  · rw [hv] at hxy
    rw [pixel_paint hs hxy, harea x y hxy, hc, hp]
    exact if_pos rfl

/-- Copying from the buffer of a tile writes into the part of its cell that lies in the image. -/
theorem exists_copied_within (hr : r.IsWhole) (hsize : r.pixelSize = info.bytesPerPixel)
    {source : Region} (hframes : Engine.Frames info cell source) (hwhole : source.IsWhole)
    (hshows : source.Shows picture) :
    ∃ s, r.copyFrom source (cell.intersect r.valid) = .ok s ∧
      r.WrittenIn (cell.intersect info.bounds) s ∧
      s.ShowsIn picture (cell.intersect info.bounds) := by
  have hsizes : r.pixelSize = source.pixelSize := hsize.trans hframes.isFor.2.symm
  obtain ⟨s, hs⟩ := exists_copyFrom hr hwhole hsizes (cell.intersect r.valid)
  have hsame := eq_of_copyFrom hs
  refine ⟨s, hs, ⟨hsame, hr.copyFrom hs, fun x y hc hxy => ?_⟩, fun x y hc hxy => ?_⟩
  · rw [pixel_copyFrom hs hxy, hframes.valid, hc]
    exact if_neg fun h => Bool.false_ne_true h.2
  · have hin : r.valid.contains x y = true := by rwa [hsame] at hxy
    refine showsAt_copyFrom hs hsizes.symm hshows hin (.inl ⟨?_, hframes.valid ▸ hc⟩)
    rw [Rect.contains_intersect, Bool.and_eq_true] at hc
    rw [Rect.contains_intersect, hc.1, hin]
    rfl

/-- In a region for the image that is all of the cell that the region has. -/
theorem exists_copied (hr : r.IsWhole) (hfor : r.IsFor info) {source : Region}
    (hframes : Engine.Frames info cell source) (hwhole : source.IsWhole)
    (hshows : source.Shows picture) :
    ∃ s, r.copyFrom source (cell.intersect r.valid) = .ok s ∧ r.WrittenIn cell s ∧
      s.ShowsIn picture cell := by
  obtain ⟨s, hs, hw, hin⟩ := exists_copied_within hr hfor.2 hframes hwhole hshows
  refine ⟨s, hs, ⟨hw.same, hw.isWhole, fun x y hc hxy => hw.others x y ?_ hxy⟩,
    fun x y hc hxy => hin x y ?_ hxy⟩
  · rw [Rect.contains_intersect, hc]
    rfl
  · have himage : info.bounds.contains x y = true :=
      hfor.1 ▸ hr.inside.contains (hw.valid ▸ hxy)
    rw [Rect.contains_intersect, hc, himage]
    rfl

end Region

namespace Cache.Depicts

variable {c : Cache} {info : ImageInfo} {picture : Picture}

/-- For a cell that can have a buffer the tiles have buffers of the image. -/
theorem suited (h : c.Depicts info picture) : c.All (Suited info) := by
  intro id t ht r hr
  have hframes := (h.displays id t ht).framed r hr
  obtain ⟨r', hr', -⟩ := Region.exists_buffer (hframes.valid ▸ hframes.nonempty)
    (h.fits _ (h.wellFormed.onGrid id t ht))
  refine ⟨hframes.isFor, ?_⟩
  rw [Allocatable, hr']
  rfl

/-- No request breaks off, for all cells fit. -/
theorem acquire_ne_broke (h : c.Depicts info picture) {cell : Rect} (hcell : c.size.IsCell cell)
    (generation : Nat) (fault : Fault) : (c.acquire generation cell).2 ≠ .broke fault := by
  intro hbroke
  exact Region.buffer_ne_faulted (h.fits cell hcell) fault
    ((Cache.lacksBuffer_of_broke hbroke).buffer_eq h.isInfo h.suited)

end Cache.Depicts

namespace Sink

variable {s : Sink} {info : ImageInfo} {picture : Picture} {cell : Rect} {cells : List Rect}
  {out : Region}

/-- A valid tile answers with the picture. -/
theorem answer_of_shown (h : s.cache.Depicts info picture) (hwhole : out.IsWhole)
    (hfor : out.IsFor info) {id : Nat} {t : Tile} (ht : s.cache.tiles[id]? = some t)
    (harea : t.area = cell) (hv : t.isValid s.generation = true) (cells : List Rect) :
    ∃ next, s.answer (some t) cell out cells = (s, .went ⟨next, cells, .nothing⟩) ∧
      out.WrittenIn cell next ∧ next.ShowsIn picture cell := by
  obtain ⟨region, hr, hframes, hregion, hshows⟩ := h.exists_region ht hv
  rw [harea] at hframes
  obtain ⟨next, hcopy, hwritten, hin⟩ := Region.exists_copied hwhole hfor hframes hregion hshows
  refine ⟨next, ?_, hwritten, hin⟩
  rw [answer_of_valid hr hv, harea, hcopy]
  rfl

/-- Without a valid tile the answer is zeros. -/
theorem answer_of_blank (hwhole : out.IsWhole) {tile? : Option Tile}
    (ht : ∀ t, tile? = some t → t.area = cell ∧ t.state = .computing) :
    ∃ next, s.answer tile? cell out cells =
        ({ s with zeroFilled := s.zeroFilled + 1 }, .went ⟨next, cells, .nothing⟩) ∧
      out.WrittenIn cell next ∧ next.BlankIn cell := by
  obtain ⟨next, hpaint, hwritten, hblank⟩ := Region.exists_blank hwhole fun x y hxy =>
    contains_blankArea (fun t (h : tile? = some t) => (ht t h).1) hxy
  refine ⟨next, ?_, hwritten, hblank⟩
  rw [answer_of_not_valid, hpaint]
  · rfl
  · intro t h
    refine .inr ?_
    rw [Tile.isValid, Tile.isPainted, (ht t h).2]
    rfl

/-- **A cell with valid pixels at hand is answered with the picture**, and only its use is noted. -/
theorem serve_of_isCached (h : s.cache.Depicts info picture) (hcell : s.cache.size.IsCell cell)
    (hc : s.cache.isCached s.generation cell.origin = true) (hwhole : out.IsWhole)
    (hfor : out.IsFor info) (cells : List Rect) :
    ∃ (id : Nat) (next : Region), s.cache.acquire s.generation cell = (s.cache.hit id, .ready id) ∧
      s.serve ⟨out, cell :: cells, .nothing⟩ 0 =
        ({ s with cache := s.cache.hit id }, .went ⟨next, cells, .nothing⟩, none) ∧
      out.WrittenIn cell next ∧ next.ShowsIn picture cell := by
  have hdepicts := h.acquire s.generation hcell
  obtain ⟨id, t, ht, harea, hv, ha⟩ :=
    Cache.acquire_of_isCached h.wellFormed h.isOpen hcell hc
  rw [ha] at hdepicts
  have hs := Cache.getElem?_hit_self ht
  obtain ⟨next, hanswer, hwritten, hshows⟩ := answer_of_shown
    (s := s.after (s.cache.hit id) 0) hdepicts hwhole hfor hs harea hv cells
  refine ⟨id, next, ha, ?_, hwritten, hshows⟩
  rw [serve, ha]
  dsimp only
  rw [← after, hs, hanswer]
  rfl

/-- **In the background a cell without valid pixels is answered with zeros**, after a bare
request. -/
theorem serve_of_not_isCached (hmode : s.config.mode = .background)
    (hw : s.cache.WellFormed) (hcell : s.cache.size.IsCell cell)
    (hc : s.cache.isCached s.generation cell.origin = false)
    (hgoes : ∀ fault, (s.cache.acquire s.generation cell).2 ≠ .broke fault) (hwhole : out.IsWhole)
    (cells : List Rect) :
    ∃ next, s.serve ⟨out, cell :: cells, .nothing⟩ 0 =
        ({ s with cache := (s.cache.acquire s.generation cell).1, zeroFilled := s.zeroFilled + 1 },
          .went ⟨next, cells, .nothing⟩, handedOut (s.cache.acquire s.generation cell).2) ∧
      out.WrittenIn cell next ∧ next.BlankIn cell := by
  cases ha : s.cache.acquire s.generation cell with
  | mk d acquired =>
    have blank : ∀ tile? : Option Tile,
        (∀ t, tile? = some t → t.area = cell ∧ t.state = .computing) →
        ∃ next, (s.after d 0).answer tile? cell out cells =
            ({ s with cache := d, zeroFilled := s.zeroFilled + 1 },
              .went ⟨next, cells, .nothing⟩) ∧
          out.WrittenIn cell next ∧ next.BlankIn cell := fun _ ht => answer_of_blank hwhole ht
    rw [serve, ha]
    dsimp only
    rw [← after]
    cases acquired with
    | ready id =>
      obtain ⟨t, hs, harea, hstate⟩ := Cache.exists_of_ready hw hcell ha
      have hcomputing := hstate.resolve_right (by rw [hc]; exact Bool.false_ne_true)
      obtain ⟨next, hanswer, hrest⟩ := blank (some t)
        fun u hu => Option.some.inj hu ▸ ⟨harea, hcomputing⟩
      refine ⟨next, ?_, hrest⟩
      dsimp only
      rw [hs, hanswer]
      rfl
    | unavailable =>
      obtain ⟨next, hanswer, hrest⟩ := blank none fun _ hu => by cases hu
      refine ⟨next, ?_, hrest⟩
      dsimp only
      rw [hanswer]
      rfl
    | broke fault => exact absurd (congrArg Prod.snd ha) (hgoes fault)
    | compute job =>
      obtain ⟨hjob, ⟨t, hs, hcomputing, harea⟩, -⟩ := Cache.computing_of_compute hw hcell ha
      obtain ⟨next, hanswer, hrest⟩ := blank (some t)
        fun u hu => Option.some.inj hu ▸ ⟨harea.trans hjob, hcomputing⟩
      refine ⟨next, ?_, hrest⟩
      dsimp only
      rw [hmode]
      dsimp only
      rw [hs, hanswer]
      rfl

/-- **In the background a step asks for one cell and answers it**, with the picture or with zeros,
whatever the request comes to. -/
theorem serve_in_background (hmode : s.config.mode = .background)
    (h : s.cache.Depicts info picture) (hcell : s.cache.size.IsCell cell) (hwhole : out.IsWhole)
    (hfor : out.IsFor info) (cells : List Rect) :
    ∃ next zeroFilled, s.serve ⟨out, cell :: cells, .nothing⟩ 0 =
        ({ s with cache := (s.cache.acquire s.generation cell).1, zeroFilled },
          .went ⟨next, cells, .nothing⟩, handedOut (s.cache.acquire s.generation cell).2) ∧
      out.WrittenIn cell next ∧
      (s.cache.isCached s.generation cell.origin = true ∧ zeroFilled = s.zeroFilled ∧
          next.ShowsIn picture cell ∨
        s.cache.isCached s.generation cell.origin = false ∧ zeroFilled = s.zeroFilled + 1 ∧
          next.BlankIn cell) := by
  cases hc : s.cache.isCached s.generation cell.origin with
  | true =>
    obtain ⟨id, next, ha, hserve, hwritten, hshows⟩ :=
      serve_of_isCached h hcell hc hwhole hfor cells
    refine ⟨next, s.zeroFilled, ?_, hwritten, .inl ⟨rfl, rfl, hshows⟩⟩
    rw [hserve, ha]
    rfl
  | false =>
    obtain ⟨next, hserve, hwritten, hblank⟩ :=
      serve_of_not_isCached hmode h.wellFormed hcell hc (h.acquire_ne_broke hcell _) hwhole cells
    exact ⟨next, s.zeroFilled + 1, hserve, hwritten, .inr ⟨rfl, rfl, hblank⟩⟩

end Sink

end TileCache
