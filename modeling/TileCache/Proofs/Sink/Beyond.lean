import TileCache.Proofs.Sink.Transparent

/-!
# Pulling more than there is

A pull may go into a region for another image, one with pixels of the same size that reaches beyond
the image.  Then the cells of the pull are of three sorts: those in the image, those that straddle
its edge, of which a tile has a part only, and those beyond it, for which no tile can have a buffer.

* `Rect.isBeyond`, `not_allocatable`: a cell beyond the image is refused, whether a new tile would
  have to be made for it or an old one moved to it.
* `serve_of_isBeyond` is the step for such a cell.  It counts a failed allocation and a cell that
  was answered with zeros; the rest of the sink, and the region, are as they were.
* `Picture.upTo` is the picture that the region shows on the way: the pixels of the image, but for
  cells that are still to come, and zeros everywhere else.  That the region was blank at the
  beginning is what cells at the edge rely on.
* `Crosses` says that a pull gets over a list of cells, and `exists_crosses` that it does.
* `pull_beyond_image` puts it together.
-/

set_option autoImplicit false

namespace TileCache

variable {info : ImageInfo} {picture : Picture} {source : Source} {cell rect : Rect}
  {cells rest : List Rect}

/-! ## Cells beyond the image -/

/-- Has the rectangle nothing of the image? -/
def Rect.isBeyond (rect : Rect) (info : ImageInfo) : Bool := (rect.intersect info.bounds).isEmpty

/-- The image has no point of the rectangle. -/
theorem Rect.isBeyond_iff :
    rect.isBeyond info = true ↔
      ∀ x y, rect.contains x y = true → info.bounds.contains x y = false := by
  refine ⟨fun h x y hxy => Bool.eq_false_iff.2 fun himage => ?_, fun h => ?_⟩
  · have hc : (rect.intersect info.bounds).contains x y = true := by
      rw [contains_intersect, hxy, himage]
      rfl
    rw [isBeyond, isEmpty_of_contains hc] at h
    cases h
  · refine Bool.of_not_eq_false fun hne => ?_
    have hc := (intersect_inside_right hne).self.contains_origin hne
    rw [contains_intersect, Bool.and_eq_true] at hc
    rw [h _ _ hc.1] at hc
    cases hc.2

/-- No point lies in both. -/
def Rect.IsApart (a b : Rect) : Prop := ∀ x y, a.contains x y = true → b.contains x y = false

/-- There is no buffer for a cell beyond the image. -/
theorem buffer_of_isBeyond (h : cell.isBeyond info = true) :
    (Region.empty info).buffer cell = .error (.refused (.outsideImage cell info.bounds)) :=
  Region.buffer_eq_refused_iff.2 (.inl ⟨h, rfl⟩)

/-! ## What the region shows on the way -/

/-- The pixels of the image, but for `cells`, and zeros everywhere else. -/
def Picture.upTo (picture : Picture) (info : ImageInfo) (cells : List Rect) : Picture :=
  fun x y => if info.bounds.contains x y = true ∧ ∀ cell ∈ cells, cell.contains x y = false then
    picture x y else fun _ => 0

namespace Picture

theorem upTo_of_done {x y : Coord} (himage : info.bounds.contains x y = true)
    (hdone : ∀ cell ∈ cells, cell.contains x y = false) :
    picture.upTo info cells x y = picture x y :=
  if_pos ⟨himage, hdone⟩

theorem upTo_of_outside {x y : Coord} (houtside : info.bounds.contains x y = false) :
    picture.upTo info cells x y = fun _ => 0 :=
  if_neg fun h => Bool.false_ne_true (houtside.symm.trans h.1)

theorem upTo_of_mem {x y : Coord} (hm : cell ∈ cells) (hc : cell.contains x y = true) :
    picture.upTo info cells x y = fun _ => 0 :=
  if_neg fun h => Bool.false_ne_true ((h.2 cell hm).symm.trans hc)

/-- A cell matters at its own pixels of the image only. -/
theorem upTo_cons {x y : Coord} (h : (cell.intersect info.bounds).contains x y = false) :
    picture.upTo info (cell :: cells) x y = picture.upTo info cells x y := by
  rw [Rect.contains_intersect, Bool.and_eq_false_iff] at h
  rcases h with h | h
  · simp only [upTo, List.forall_mem_cons, h, true_and]
  · rw [upTo_of_outside h, upTo_of_outside h]

/-- A cell beyond the image does not matter. -/
theorem upTo_of_isBeyond (h : cell.isBeyond info = true) :
    picture.upTo info (cell :: cells) = picture.upTo info cells := by
  funext x y
  refine upTo_cons (Bool.eq_false_iff.2 fun hc => ?_)
  rw [Rect.isBeyond, Rect.isEmpty_of_contains hc] at h
  cases h

end Picture

namespace Region

variable {r out out' : Region}

/-- A region whose pixels at a cell are zero is not changed by painting zeros there. -/
theorem paint_of_blankIn (h : r.IsWhole) (hb : r.BlankIn cell) : r.paint cell 0 = .ok r := by
  obtain ⟨s, hs, hw, hblank⟩ := exists_blank h fun x y _ => rfl
  have hpixel : ∀ x y, r.valid.contains x y = true → s.pixel x y = r.pixel x y := by
    intro x y hxy
    cases hc : cell.contains x y with
    | true => rw [hb x y hc hxy, hblank x y hc (hw.valid ▸ hxy), hw.pixelSize]
    | false => exact hw.others x y hc hxy
  rw [hs, hw.same, bytes_eq_of_pixel h hw.isWhole hw.valid hw.pixelSize hpixel]

theorem Shows.blankIn (h : r.Shows (picture.upTo info cells))
    (hbeyond : cell.isBeyond info = true) : r.BlankIn cell := by
  intro x y hc hxy
  rw [h x y hxy, Picture.upTo_of_outside (Rect.isBeyond_iff.1 hbeyond x y hc), Bytes.ofFn_const]

/-- The region of a pull that has `cells` still to come.  It is for `valid`, and its pixels have the
size of those of the image. -/
structure Extends (out : Region) (info : ImageInfo) (picture : Picture) (valid : Rect)
    (cells : List Rect) : Prop where
  pixelSize : out.pixelSize = info.bytesPerPixel
  isWhole : out.IsWhole
  valid_eq : out.valid = valid
  shows : out.Shows (picture.upTo info cells)

/-- The part of a cell in the image was written. -/
theorem Extends.write {valid : Rect} (h : out.Extends info picture valid (cell :: cells))
    (hw : out.WrittenIn (cell.intersect info.bounds) out')
    (hin : out'.ShowsIn picture (cell.intersect info.bounds))
    (hapart : ∀ other ∈ cells, cell.IsApart other) : out'.Extends info picture valid cells where
  pixelSize := hw.pixelSize.trans h.pixelSize
  isWhole := hw.isWhole
  valid_eq := hw.valid.trans h.valid_eq
  shows := by
    intro x y hxy
    have hbefore : out.valid.contains x y = true := hw.valid ▸ hxy
    cases hc : (cell.intersect info.bounds).contains x y with
    | false =>
      rw [ShowsAt, ← Picture.upTo_cons hc]
      exact hw.showsAt hc hbefore (h.shows x y hbefore)
    | true =>
      have hshown := hin x y hc hxy
      rw [Rect.contains_intersect, Bool.and_eq_true] at hc
      rw [ShowsAt, Picture.upTo_of_done hc.2 fun other ho => hapart other ho x y hc.1]
      exact hshown

/-- A cell beyond the image needs nothing to be written. -/
theorem Extends.skip {valid : Rect} (h : out.Extends info picture valid (cell :: cells))
    (hbeyond : cell.isBeyond info = true) : out.Extends info picture valid cells :=
  ⟨h.pixelSize, h.isWhole, h.valid_eq, Picture.upTo_of_isBeyond hbeyond ▸ h.shows⟩

end Region

namespace Sink

variable {s s' s'' : Sink} {out out' out'' : Region} {valid : Rect}

/-! ## One cell -/

/-- The sink after a cell for which there is no buffer. -/
def noteBeyond (s : Sink) : Sink :=
  { s with cache := s.cache.noteAllocationFailure, zeroFilled := s.zeroFilled + 1 }

/-- **A cell beyond the image is counted, and nothing else changes**, whether or not the cache has
room for another tile. -/
theorem serve_of_isBeyond (h : s.Ready info picture) (hcell : s.cache.size.IsCell cell)
    (hbeyond : cell.isBeyond info = true) (hwhole : out.IsWhole) (hblank : out.BlankIn cell)
    (rest : List Rect) :
    s.serve ⟨out, cell :: rest, .nothing⟩ 0 =
      (s.noteBeyond, .went ⟨out, rest, .nothing⟩, none) := by
  have hno := buffer_of_isBeyond hbeyond
  have ha : s.cache.acquire s.generation cell = (s.cache.noteAllocationFailure, .unavailable) := by
    rcases Cache.acquire_of_isIdle h.wellFormed h.isOpen h.idle h.isInfo h.depicts.suited hcell
      s.generation with ⟨hok, -⟩ | ⟨setback, hbuffer, hwithout⟩
    · rw [allocatable_of_buffer_error hno] at hok
      cases hok
    · obtain rfl := Except.error.inj (hbuffer.symm.trans hno)
      exact hwithout
  have hanswer : (s.after s.cache.noteAllocationFailure 0).answer none cell out rest =
      (s.noteBeyond, .went ⟨out, rest, .nothing⟩) := by
    rw [answer_of_none, Region.paint_of_blankIn hwhole hblank]
    rfl
  rw [serve, ha]
  dsimp only
  rw [← after, hanswer]

/-- `n` cells were answered with zeros, all of them for want of a buffer. -/
structure Denied (s : Sink) (n : Nat) (s' : Sink) : Prop where
  size : s'.cache.size = s.cache.size
  zeroFilled : s'.zeroFilled = s.zeroFilled + n
  allocationFailures :
    s'.cache.counters.allocationFailures = s.cache.counters.allocationFailures + n

theorem Denied.refl (s : Sink) : s.Denied 0 s := ⟨rfl, rfl, rfl⟩

theorem Denied.trans {m n : Nat} (h : s.Denied m s') (h' : s'.Denied n s'') :
    s.Denied (m + n) s'' where
  size := h'.size.trans h.size
  zeroFilled := by rw [h'.zeroFilled, h.zeroFilled, Nat.add_assoc]
  allocationFailures := by rw [h'.allocationFailures, h.allocationFailures, Nat.add_assoc]

theorem Keeps.denied (h : s.Keeps s') : s.Denied 0 s' :=
  ⟨h.size, h.zeroFilled, h.allocationFailures⟩

theorem denied_noteBeyond (s : Sink) : s.Denied 1 s.noteBeyond := ⟨rfl, rfl, rfl⟩

theorem Ready.noteBeyond (h : s.Ready info picture) : s.noteBeyond.Ready info picture :=
  ⟨h.mode, h.isOpen, h.wellFormed.noteAllocationFailure, h.isInfo, h.idle, h.displays, h.fits⟩

/-! ## All cells -/

/-- A pull gets over `cells`, whatever is left of it then: sink and region become `s'` and
`out'`. -/
def Crosses (source : Source) (s : Sink) (out : Region) (cells : List Rect) (s' : Sink)
    (out' : Region) : Prop :=
  ∃ steps ≤ 2 * cells.length, ∀ (fuel : Nat) (rest : List Rect) (jobs : List Job),
    s.runPull source (fuel + steps) ⟨out, cells ++ rest, .nothing⟩ jobs =
      s'.runPull source fuel ⟨out', rest, .nothing⟩ jobs

theorem Crosses.refl (source : Source) (s : Sink) (out : Region) : Crosses source s out [] s out :=
  ⟨0, Nat.le_refl 0, fun _ _ _ => rfl⟩

theorem Crosses.append (h : Crosses source s out cells s' out')
    (h' : Crosses source s' out' rest s'' out'') :
    Crosses source s out (cells ++ rest) s'' out'' := by
  obtain ⟨first, hfirst, hruns⟩ := h
  obtain ⟨second, hsecond, hruns'⟩ := h'
  refine ⟨second + first, ?_, fun fuel left jobs => ?_⟩
  · rw [List.length_append]
    omega
  · rw [List.append_assoc, ← Nat.add_assoc, hruns, hruns']

/-- A pull that has no other cells has then come to its end. -/
theorem Crosses.runPull (h : Crosses source s out cells s' out') (jobs : List Job) :
    s.runPull source (2 * cells.length + 1) ⟨out, cells, .nothing⟩ jobs =
      (s', .filled out', jobs) := by
  obtain ⟨steps, hsteps, hruns⟩ := h
  obtain ⟨fuel, hfuel⟩ : ∃ fuel, 2 * cells.length + 1 = fuel + 1 + steps :=
    ⟨2 * cells.length - steps, by omega⟩
  have hrun := hruns (fuel + 1) [] jobs
  rw [List.append_nil] at hrun
  rw [hfuel, hrun]
  rfl

/-- A cell beyond the image takes one step. -/
theorem crosses_of_isBeyond (source : Source) (h : s.Ready info picture)
    (hcell : s.cache.size.IsCell cell) (hbeyond : cell.isBeyond info = true)
    (hout : out.Extends info picture valid cells) :
    Crosses source s out [cell] s.noteBeyond out := by
  refine ⟨1, by rw [List.length_singleton]; omega, fun fuel left jobs => ?_⟩
  rw [List.singleton_append, Sink.runPull, serve_of_isBeyond h hcell hbeyond hout.isWhole
    (hout.shows.blankIn hbeyond)]
  rfl

/-- **A pull gets over a cell that touches the image**, and has its part of the image then. -/
theorem exists_crosses_of_touches (hdraws : source.Draws picture) (h : s.Ready info picture)
    (hcell : s.cache.size.IsCell cell) (htouches : cell.isBeyond info = false)
    (hout : out.Extends info picture valid (cell :: cells))
    (hapart : ∀ other ∈ cells, cell.IsApart other) :
    ∃ s' out', Crosses source s out [cell] s' out' ∧ s'.Ready info picture ∧ s.Denied 0 s' ∧
      out'.Extends info picture valid cells := by
  obtain ⟨s', t, steps, hr⟩ := exists_reaches h hdraws hcell htouches
  obtain ⟨id, ht⟩ := hr.stands
  obtain ⟨region, hregion, hframes, hwhole, hshows⟩ := hr.ready.depicts.exists_region ht hr.valid
  obtain ⟨out', hcopy, hw, hin⟩ :=
    Region.exists_copied_within hout.isWhole hout.pixelSize hframes hwhole hshows
  rw [hr.area] at hw hin
  refine ⟨s', out', ⟨steps, hr.atMostTwo, fun fuel left jobs => ?_⟩, hr.ready, hr.keeps.denied,
    hout.write hw hin hapart⟩
  rw [List.singleton_append, hr.runs fuel out left jobs region hregion, hcopy]
  rfl

/-- **A pull gets over all cells.** -/
theorem exists_crosses (hdraws : source.Draws picture) (cells rest : List Rect)
    (h : s.Ready info picture) (hcells : ∀ cell ∈ cells, s.cache.size.IsCell cell)
    (hapart : (cells ++ rest).Pairwise Rect.IsApart)
    (hout : out.Extends info picture valid (cells ++ rest)) :
    ∃ s' out', Crosses source s out cells s' out' ∧ s'.Ready info picture ∧
      s.Denied (cells.countP (·.isBeyond info)) s' ∧ out'.Extends info picture valid rest := by
  induction cells generalizing s out with
  | nil => exact ⟨s, out, .refl source s out, h, .refl s, hout⟩
  | cons cell cells ih =>
    obtain ⟨hfirst, hothers⟩ := List.pairwise_cons.1 hapart
    have hcell := hcells cell List.mem_cons_self
    obtain ⟨next, left, hone, hready, hdenied, hleft⟩ : ∃ next left,
        Crosses source s out [cell] next left ∧ next.Ready info picture ∧
          s.Denied (if cell.isBeyond info then 1 else 0) next ∧
          left.Extends info picture valid (cells ++ rest) := by
      cases hbeyond : cell.isBeyond info with
      | true =>
        exact ⟨s.noteBeyond, out, crosses_of_isBeyond source h hcell hbeyond hout, h.noteBeyond,
          denied_noteBeyond s, hout.skip hbeyond⟩
      | false => exact exists_crosses_of_touches hdraws h hcell hbeyond hout hfirst
    obtain ⟨s', out', hcrosses, hready', hdenied', hout'⟩ := ih hready
      (fun other ho => hdenied.size ▸ hcells other (List.mem_cons_of_mem _ ho)) hothers hleft
    refine ⟨s', out', hone.append hcrosses, hready', ?_, hout'⟩
    rw [List.countP_cons, Nat.add_comm]
    exact hdenied.trans hdenied'

/-- **When a pull comes to a cell beyond the image**, the cell is counted, and the pull goes on with
the others. -/
theorem exists_passed (hdraws : source.Draws picture) {done : List Rect} (h : s.Ready info picture)
    (hcells : ∀ c ∈ done ++ cell :: rest, s.cache.size.IsCell c)
    (hapart : (done ++ cell :: rest).Pairwise Rect.IsApart)
    (hout : out.Extends info picture valid (done ++ cell :: rest))
    (hbeyond : cell.isBeyond info = true) (jobs : List Job) :
    ∃ sink region after filled,
      s.runPull source (2 * done.length + 1) ⟨out, done, .nothing⟩ jobs =
        (sink, .filled region, jobs) ∧
      sink.serve ⟨region, cell :: rest, .nothing⟩ 0 =
        (sink.noteBeyond, .went ⟨region, rest, .nothing⟩, none) ∧
      sink.noteBeyond.runPull source (2 * rest.length + 1) ⟨region, rest, .nothing⟩ jobs =
        (after, .filled filled, jobs) ∧
      s.runPull source (2 * (done ++ cell :: rest).length + 1)
          ⟨out, done ++ cell :: rest, .nothing⟩ jobs = (after, .filled filled, jobs) := by
  obtain ⟨sink, region, hfirst, hready, hdenied, hregion⟩ := exists_crosses hdraws done
    (cell :: rest) h (fun c hc => hcells c (List.mem_append_left _ hc)) hapart hout
  have hlater : ∀ c ∈ cell :: rest, sink.cache.size.IsCell c :=
    fun c hc => hdenied.size ▸ hcells c (List.mem_append_right _ hc)
  have hcell := hlater cell List.mem_cons_self
  have hone := crosses_of_isBeyond source hready hcell hbeyond hregion
  obtain ⟨after, filled, hlast, -, -, -⟩ := exists_crosses hdraws rest [] hready.noteBeyond
    (fun c hc => hlater c (List.mem_cons_of_mem _ hc))
    (by rw [List.append_nil]; exact (List.pairwise_append.1 hapart).2.1.of_cons)
    (by rw [List.append_nil]; exact hregion.skip hbeyond)
  exact ⟨sink, region, after, filled, hfirst.runPull jobs, serve_of_isBeyond hready hcell hbeyond
    hregion.isWhole (hregion.shows.blankIn hbeyond) rest, hlast.runPull jobs,
    (hfirst.append (hone.append hlast)).runPull jobs⟩

/-- The cells of a pull have no point in common. -/
theorem pairwise_isApart {size : TileSize} (hcells : ∀ cell ∈ cells, size.IsCell cell)
    (hnodup : cells.Nodup) : cells.Pairwise Rect.IsApart := by
  refine hnodup.imp_of_mem fun {a b} ha hb hne x y hax => Bool.eq_false_iff.2 fun hbx => hne ?_
  exact (hcells a ha).eq_of_contains (hcells b hb) hax hbx

/-- A new buffer is zero throughout. -/
theorem getElem!_of_buffer {buffer : Region} (hb : out.buffer rect = .ok buffer) {i : Nat}
    (hi : i < buffer.bytes.size) : buffer.bytes[i]! = 0 := by
  obtain ⟨-, -, rfl⟩ := Region.buffer_eq_ok_iff.1 hb
  rw [Bytes.size_zeros] at hi
  exact Bytes.getElem!_zeros hi

/-- A pull begins with zeros. -/
theorem extends_of_buffer {other : ImageInfo} {buffer : Region} (hout : out.IsFor other)
    (hsize : other.bytesPerPixel = info.bytesPerPixel) (hb : out.buffer rect = .ok buffer)
    (size : TileSize) :
    buffer.Extends info picture buffer.valid (buffer.valid.cells size) := by
  have hwhole := Region.isWhole_of_buffer hb
  refine ⟨?_, hwhole, rfl, fun x y hxy => ?_⟩
  · obtain ⟨-, -, rfl⟩ := Region.buffer_eq_ok_iff.1 hb
    exact hout.2.trans hsize
  · obtain ⟨hl, ht⟩ := Engine.rounds_of_buffer ⟨other, hout⟩ hb size
    obtain ⟨cell, hm, hc⟩ := Rect.exists_mem_cells hl ht hxy
    rw [Region.ShowsAt, Picture.upTo_of_mem hm hc]
    refine (Region.shows_iff hwhole (f := fun _ _ _ => 0)).2 (fun x y hxy k hk => ?_) x y hxy
    have hle := Region.place_add_le_of_holds hwhole.inside.self
      (Region.holds_of_inside hwhole hwhole.inside.self hwhole.nonempty) hxy
    exact getElem!_of_buffer hb (by omega)

end Sink

namespace Engine

variable {config : Config} {hasRuntime withMask : Bool} {s : Sink}

/-- **A pull may reach beyond the image.**  Take a synchronous sink over a source that draws a
picture, at any point of any run where it is open and nobody computes, and pull into a region for an
image of any size, with pixels of the same size, that gets a buffer.

* The pull delivers the picture in the image, and zeros beyond it.
* It counts a failed allocation and a cell answered with zeros for each cell beyond the image, and
  none for other cells.
* When the pull comes to a cell beyond the image, after the cells `done`, then these two counts are
  all that the step changes of the sink, and it leaves the region as it is.

This is so whether or not the cache has room for another tile. -/
theorem pull_beyond_image (hs : Sink.create info config hasRuntime withMask = .ok s)
    (hmode : config.mode = .synchronous) (hfits : ∀ cell, s.size.IsCell cell → Fits info cell)
    {moves : List Move} (hpast : AllDraw picture moves)
    (hopen : ((ofSink s hasRuntime).run moves).sink.cache.isOpen = true)
    (hidle : ((ofSink s hasRuntime).run moves).sink.cache.IsIdle)
    (hdraws : source.Draws picture) {other : ImageInfo} {out buffer : Region}
    (hout : out.IsFor other) (hsize : other.bytesPerPixel = info.bytesPerPixel)
    (hb : out.buffer rect = .ok buffer) (jobs : List Job) :
    let before := ((ofSink s hasRuntime).run moves).sink
    let cells := buffer.valid.cells before.size
    let n := cells.countP (·.isBeyond info)
    ∃ after filled, before.pull source rect out jobs = .ok (after, .filled filled, jobs) ∧
      filled.valid = rect.intersect other.bounds ∧
      (∀ x y, filled.valid.contains x y = true →
        (info.bounds.contains x y = true → filled.ShowsAt picture x y) ∧
        (info.bounds.contains x y = false →
          filled.pixel x y = .ok (Bytes.replicate info.bytesPerPixel 0))) ∧
      after.zeroFilled = before.zeroFilled + n ∧
      after.cache.counters.allocationFailures = before.cache.counters.allocationFailures + n ∧
      ∀ done cell rest, cells = done ++ cell :: rest → cell.isBeyond info = true →
        ∃ sink region,
          before.runPull source (2 * done.length + 1) ⟨buffer, done, .nothing⟩ jobs =
            (sink, .filled region, jobs) ∧
          sink.serve ⟨region, cell :: rest, .nothing⟩ 0 =
            (sink.noteBeyond, .went ⟨region, rest, .nothing⟩, none) ∧
          sink.noteBeyond.runPull source (2 * rest.length + 1) ⟨region, rest, .nothing⟩ jobs =
            (after, .filled filled, jobs) := by
  intro before cells n
  have hready : before.Ready info picture := ready_run hs hmode hfits hpast hopen hidle
  have hvalid : buffer.valid = rect.intersect other.bounds := by
    obtain ⟨-, -, rfl⟩ := Region.buffer_eq_ok_iff.1 hb
    exact congrArg rect.intersect hout.1
  have hcells : ∀ cell ∈ cells, before.cache.size.IsCell cell :=
    fun cell hm => isCell_of_buffer ⟨other, hout⟩ hb hm
  have hapart := Sink.pairwise_isApart hcells (Rect.nodup_cells _ _)
  have hbegun : buffer.Extends info picture buffer.valid cells :=
    Sink.extends_of_buffer hout hsize hb before.size
  obtain ⟨after, filled, hcrosses, -, hdenied, hfilled⟩ := Sink.exists_crosses hdraws cells []
    hready hcells (by rwa [List.append_nil]) (by rwa [List.append_nil])
  have hrun := hcrosses.runPull jobs
  refine ⟨after, filled, ?_, hfilled.valid_eq.trans hvalid, fun x y hxy => ⟨fun himage => ?_,
    fun houtside => ?_⟩, hdenied.zeroFilled, hdenied.allocationFailures,
    fun done cell rest hcut hbeyond => ?_⟩
  · rw [Sink.pull_of_openPull (before.openPull_of_buffer hb)]
    exact congrArg Except.ok hrun
  · have hshown := hfilled.shows x y hxy
    rwa [Region.ShowsAt, Picture.upTo_of_done himage (List.forall_mem_nil _)] at hshown
  · have hshown := hfilled.shows x y hxy
    rwa [Region.ShowsAt, Picture.upTo_of_outside houtside, Bytes.ofFn_const, hfilled.pixelSize]
      at hshown
  · rw [hcut] at hcells hapart hbegun hrun
    obtain ⟨sink, region, after', filled', hfirst, hserve, hlast, hall⟩ :=
      Sink.exists_passed hdraws hready hcells hapart hbegun hbeyond jobs
    obtain ⟨rfl, hrest⟩ := Prod.mk.inj (hall.symm.trans hrun)
    obtain rfl := Finished.filled.inj (Prod.mk.inj hrest).1
    exact ⟨sink, region, hfirst, hserve, hlast⟩

/-- One tile, which two cells of the image share, and four cells beyond it.  The first of these
comes when the tile has gone to the cell before it. -/
theorem pull_beyond_image_narrow :
    ∃ s after filled,
      Sink.create ⟨3, 2, 1, .uchar⟩ { Config.ofTileSize 2 2 with maxTiles := 1 } false false =
        .ok s ∧
      let moves := [.openPull ⟨2, 1, 1, 1⟩ (.empty ⟨3, 2, 1, .uchar⟩) ⟨_, rfl, rfl⟩, .advance 0 0,
        .begin 1, .finish 1 .pattern, .advance 0 0]
      let before := ((ofSink s false).run moves).sink
      before.pull .pattern ⟨0, 0, 9, 9⟩ (.empty ⟨5, 4, 1, .uchar⟩) [] =
          .ok (after, .filled filled, []) ∧
        filled.valid = ⟨0, 0, 5, 4⟩ ∧ filled.ShowsAt Pattern.picture 2 1 ∧
        filled.pixel 3 1 = .ok (Bytes.replicate 1 0) ∧
        after.zeroFilled = 4 ∧ after.cache.counters.allocationFailures = 4 ∧
        ∃ (sink : Sink) (region : Region),
          sink.serve ⟨region, [⟨4, 0, 2, 2⟩, ⟨0, 2, 2, 2⟩, ⟨2, 2, 2, 2⟩, ⟨4, 2, 2, 2⟩],
            .nothing⟩ 0 =
          (sink.noteBeyond,
            .went ⟨region, [⟨0, 2, 2, 2⟩, ⟨2, 2, 2, 2⟩, ⟨4, 2, 2, 2⟩], .nothing⟩, none) := by
  have hfits : ∀ cell, Fits ⟨3, 2, 1, .uchar⟩ cell := fits_of_bounds (by decide)
  have hpast : AllDraw Pattern.picture
      [.openPull ⟨2, 1, 1, 1⟩ (.empty ⟨3, 2, 1, .uchar⟩) ⟨_, rfl, rfl⟩, .advance 0 0, .begin 1,
        .finish 1 .pattern, .advance 0 0] := by
    intro n source hm
    have hs : n = 1 ∧ source = .pattern := by simpa using hm
    exact hs.2 ▸ draws_pattern
  have hidle := Cache.isIdle_iff_accounts.2 (@accounted_run ⟨3, 2, 1, .uchar⟩
    { Config.ofTileSize 2 2 with maxTiles := 1 } false false _ rfl
    [.openPull ⟨2, 1, 1, 1⟩ (.empty ⟨3, 2, 1, .uchar⟩) ⟨_, rfl, rfl⟩, .advance 0 0, .begin 1,
      .finish 1 .pattern, .advance 0 0] rfl)
  obtain ⟨after, filled, hpull, hvalid, hpixels, hzeros, hfailures, hsteps⟩ := @pull_beyond_image
    ⟨3, 2, 1, .uchar⟩ Pattern.picture .pattern ⟨0, 0, 9, 9⟩
    { Config.ofTileSize 2 2 with maxTiles := 1 } false false _ rfl rfl (fun cell _ => hfits cell) _
    hpast rfl hidle draws_pattern ⟨5, 4, 1, .uchar⟩ (.empty ⟨5, 4, 1, .uchar⟩) _ ⟨rfl, rfl⟩ rfl
    rfl []
  have hin : ∀ x y, filled.valid.contains x y = (⟨0, 0, 5, 4⟩ : Rect).contains x y :=
    fun x y => by rw [hvalid]; rfl
  obtain ⟨sink, region, -, hserve, -⟩ := hsteps [⟨0, 0, 2, 2⟩, ⟨2, 0, 2, 2⟩] ⟨4, 0, 2, 2⟩
    [⟨0, 2, 2, 2⟩, ⟨2, 2, 2, 2⟩, ⟨4, 2, 2, 2⟩] rfl rfl
  exact ⟨_, after, filled, rfl, hpull, hvalid, (hpixels 2 1 ((hin 2 1).trans rfl)).1 rfl,
    (hpixels 3 1 ((hin 3 1).trans rfl)).2 rfl, hzeros, hfailures, sink, region, hserve⟩

end Engine

end TileCache
