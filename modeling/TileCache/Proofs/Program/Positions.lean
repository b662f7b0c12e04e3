import TileCache.Proofs.Program.Walk

/-!
# Where the viewports of a walk are

`CommandLine.Pan.viewportAt` counts in words of 64 bits and then goes over to coordinates.
`InWords` says that none of the numbers on the way leaves its words; it is enough to look at the two
largest ones (`inWords_iff`).

In that case the origin of the viewport is not negative and is what plain numbers give, although it
is stored in fewer bits; the viewport ends in the image on each side on which there is room for it;
and what is seen of the image is always as large as there is room for.  So a pull of it can be
refused for its size only, and then all of them are (`pull_viewportAt_eq_error_iff`).  Walks go well
or break off at the very first pull accordingly (`walkAll_eq`).

`viewports_on_image` has all of it.  It does not ask for the viewport to be smaller than the image:
on a side that is shorter or just as long there is one place to be, the beginning.
-/

set_option autoImplicit false

namespace TileCache

open CommandLine

/-- What a word of 64 bits has room for. -/
theorem CommandLine.word64_eq_self_iff {v : Int} :
    word64 v = v ↔ -0x8000000000000000 ≤ v ∧ v < 0x8000000000000000 := by
  refine ⟨fun h => ?_, fun h => word64_of_mem h.1 h.2⟩
  rw [word64] at h
  omega

namespace CommandLine.Pan

variable {o : Pan} {worker step : Nat}

/-- None of the numbers with which a viewport is found is too large for a word of 64 bits. -/
structure InWords (o : Pan) (worker step : Nat) : Prop where
  viewer : word64 worker = worker
  move : word64 step = step
  start : word64 (worker * o.viewport.val) = worker * o.viewport.val
  moved : word64 (step * o.step.val) = step * o.step.val
  travel : word64 (o.travel worker step) = o.travel worker step
  lowered : word64 (o.travel worker step / o.reach o.image.width * o.step.val) =
    o.travel worker step / o.reach o.image.width * o.step.val
  depth : word64 (o.depth worker step) = o.depth worker step

/-- How far a viewer has come is in words if the two largest numbers are. -/
theorem inWords_iff (hviewport : 0 < o.viewport.val) (hstep : 0 < o.step.val) :
    o.InWords worker step ↔
      o.travel worker step < 0x8000000000000000 ∧ o.depth worker step < 0x8000000000000000 := by
  refine ⟨fun h => ⟨(word64_eq_self_iff.1 h.travel).2, (word64_eq_self_iff.1 h.depth).2⟩,
    fun ⟨htravel, hdepth⟩ => ?_⟩
  have hworker := Int.mul_le_mul_of_nonneg_left (show 1 ≤ o.viewport.val from hviewport)
    (Int.natCast_nonneg worker)
  have hmoved := Int.mul_le_mul_of_nonneg_left (show 1 ≤ o.step.val from hstep)
    (Int.natCast_nonneg step)
  have hreach : 0 ≤ o.reach o.image.width := by
    rw [reach]
    omega
  have htravel0 : 0 ≤ o.travel worker step := by
    rw [Pan.travel]
    omega
  have hlowered := Int.mul_nonneg (Int.ediv_nonneg htravel0 hreach) (Int.le_of_lt hstep)
  have hsum : o.travel worker step = worker * o.viewport.val + step * o.step.val := rfl
  have hsum' : o.depth worker step = worker * o.viewport.val +
      o.travel worker step / o.reach o.image.width * o.step.val := rfl
  constructor <;> rw [word64_eq_self_iff] <;> omega

/-- **The origin of a viewport is what plain numbers give.** -/
theorem origin_viewportAt (hv : o.validate = .ok ()) (h : o.InWords worker step) :
    (o.viewportAt worker step).left.val = o.travel worker step % o.reach o.image.width ∧
      (o.viewportAt worker step).top.val = o.depth worker step % o.reach o.image.height := by
  obtain ⟨-, -, -, hviewport, hstep⟩ := validate_eq_ok hv
  obtain ⟨htravel, hdepth⟩ := (inWords_iff hviewport hstep).1 h
  rw [viewportAt_eq hviewport hstep htravel hdepth]
  exact ⟨val_wrap_emod _ _, val_wrap_emod _ _⟩

/-- **A viewport ends in the image** on a side that has room for it. -/
theorem ends_viewportAt (hv : o.validate = .ok ()) (h : o.InWords worker step) :
    (o.viewport.val ≤ o.image.width.val →
      (o.viewportAt worker step).left.val + o.viewport.val ≤ o.image.width.val) ∧
    (o.viewport.val ≤ o.image.height.val →
      (o.viewportAt worker step).top.val + o.viewport.val ≤ o.image.height.val) := by
  obtain ⟨himage, -, -, hviewport, -⟩ := validate_eq_ok hv
  obtain ⟨hwidth, hheight, -⟩ := ImageOptions.validate_eq_ok_iff.1 himage
  obtain ⟨hleft, htop⟩ := origin_viewportAt hv h
  have hcolumn := emod_reach_mem hviewport hwidth (o.travel worker step)
  have hrow := emod_reach_mem hviewport hheight (o.depth worker step)
  omega

/-- **A viewport is refused for its size only**, and its size is that of all others. -/
theorem pull_viewportAt_eq_error_iff (hv : o.validate = .ok ()) (h : o.InWords worker step)
    (s : Sink) (source : Source) {out : Region} (hout : out.IsFor o.image.info) (jobs : List Job)
    (setback : Setback) :
    s.pull source (o.viewportAt worker step) out jobs = .error setback ↔
      maxRegionBytes < o.viewportBytes ∧
        setback = .refused (.tooLarge o.viewportBytes maxRegionBytes) := by
  obtain ⟨himage, -, -, hviewport, hstep⟩ := validate_eq_ok hv
  obtain ⟨hwidth, hheight, -⟩ := ImageOptions.validate_eq_ok_iff.1 himage
  obtain ⟨htravel, hdepth⟩ := (inWords_iff hviewport hstep).1 h
  obtain ⟨hw, hh⟩ := intersect_viewportAt hv htravel hdepth
  have htouches : ((o.viewportAt worker step).intersect o.image.info.bounds).isEmpty = false := by
    rw [← Bool.not_eq_true, Rect.isEmpty_iff]
    omega
  have hbytes : ((o.viewportAt worker step).intersect o.image.info.bounds).area *
      o.image.info.bytesPerPixel = o.viewportBytes := by
    rw [Rect.area_of_nonempty htouches, hw, hh, o.image.bytesPerPixel_info, viewportBytes]
  rw [Sink.pull_eq_error_iff,
    hout.buffer_eq_error_iff (ImageOptions.bytesPerPixel_le himage), Fits, hbytes, Nat.not_le]
  simp only [htouches, Bool.false_eq_true, false_and, true_and, false_or]

end CommandLine.Pan

namespace Program.Pan

variable {o : CommandLine.Pan} {start : Sink}

/-- A walk breaks off at a pull that is refused, and so do all walks. -/
theorem walkAll_of_error {worker steps : Nat} {s : Sink} {setback : Setback}
    (hsteps : o.steps = steps + 1)
    (h : s.pull .pattern (o.viewportAt worker 0) (.empty o.image.info) [] = .error setback)
    (left : Nat) : walkAll o (left + 1) worker s = .error setback := by
  rw [walkAll, hsteps, walk_succ, h]
  rfl

/-- **All the walks go well, or the first pull of all is refused**, as there is room for what one
viewer sees or not. -/
theorem walkAll_eq (hv : o.validate = .ok ())
    (hs : Sink.create o.image.info o.sink.config true true = .ok start)
    (hwords : ∀ worker < o.workers, ∀ step < o.steps, o.InWords worker step) :
    (o.viewportBytes ≤ maxRegionBytes → ∃ s, walkAll o o.workers 0 start = .ok s) ∧
      (maxRegionBytes < o.viewportBytes → 0 < o.steps → walkAll o o.workers 0 start =
        .error (.refused (.tooLarge o.viewportBytes maxRegionBytes))) := by
  obtain ⟨himage, -, hworkers, hviewport, hstep⟩ := CommandLine.Pan.validate_eq_ok hv
  refine ⟨fun hfits => ?_, fun hlarge hsome => ?_⟩
  · refine exists_walkAll hs (ImageOptions.bytesPerPixel_of_validate himage) o.workers
      (fun k hk step hm => ?_) .new
    rw [Nat.zero_add]
    obtain ⟨htravel, hdepth⟩ :=
      (CommandLine.Pan.inWords_iff hviewport hstep).1 (hwords k hk step hm)
    exact CommandLine.Pan.pullable_viewportAt hv hfits htravel hdepth
  · obtain ⟨left, hleft⟩ := Nat.exists_eq_succ_of_ne_zero hworkers
    obtain ⟨steps, hsteps⟩ := Nat.exists_eq_succ_of_ne_zero (Nat.ne_of_gt hsome)
    rw [hleft]
    refine walkAll_of_error hsteps ?_ left
    exact (CommandLine.Pan.pull_viewportAt_eq_error_iff hv
      (hwords 0 (Nat.pos_of_ne_zero hworkers) 0 hsome) start .pattern ⟨rfl, rfl⟩ [] _).2
        ⟨hlarge, rfl⟩

/-- **The viewports of a walk stay on the image.**  Take options of `pan` that were accepted.

For every viewer and every step for which nothing leaves words of 64 bits, the origin of the
viewport is not negative and is not changed by being stored in fewer bits; on each side of the image
that has room for the viewport it ends in the image; and the part of the image that is seen is as
large as there is room for.  In whatever state a sink is, a pull of the viewport into a region for
the image is refused only if this part has too many bytes.  How many these are has nothing to do
with viewer and step.

So if this holds for all viewers and all steps, none of the pulls is refused, or the very first one
is, as being too large. -/
theorem viewports_on_image (o : CommandLine.Pan) (hv : o.validate = .ok ()) :
    let info := o.image.info
    let tooLarge := RegionError.tooLarge o.viewportBytes maxRegionBytes
    (∀ worker step, o.InWords worker step →
      let viewport := o.viewportAt worker step
      let seen := viewport.intersect info.bounds
      (viewport.left.val = o.travel worker step % o.reach o.image.width ∧ 0 ≤ viewport.left.val ∧
        viewport.top.val = o.depth worker step % o.reach o.image.height ∧ 0 ≤ viewport.top.val ∧
        viewport.width = o.viewport ∧ viewport.height = o.viewport) ∧
      (o.viewport.val ≤ o.image.width.val →
        viewport.left.val + o.viewport.val ≤ o.image.width.val) ∧
      (o.viewport.val ≤ o.image.height.val →
        viewport.top.val + o.viewport.val ≤ o.image.height.val) ∧
      seen.width.val = min o.viewport.val o.image.width.val ∧
      seen.height.val = min o.viewport.val o.image.height.val ∧
      ∀ (s : Sink) source out jobs setback, out.IsFor info →
        (s.pull source viewport out jobs = .error setback ↔
          maxRegionBytes < o.viewportBytes ∧ setback = .refused tooLarge)) ∧
    ((∀ worker < o.workers, ∀ step < o.steps, o.InWords worker step) →
      ∃ start, Sink.create info o.sink.config true true = .ok start ∧
        (o.viewportBytes ≤ maxRegionBytes → ∃ s, walkAll o o.workers 0 start = .ok s) ∧
        (maxRegionBytes < o.viewportBytes → 0 < o.steps →
          walkAll o o.workers 0 start = .error (.refused tooLarge))) := by
  intro info tooLarge
  obtain ⟨himage, hsink, -, hviewport, hstep⟩ := CommandLine.Pan.validate_eq_ok hv
  obtain ⟨hwidth, hheight, -⟩ := ImageOptions.validate_eq_ok_iff.1 himage
  refine ⟨fun worker step hwords => ?_, fun hwords => ?_⟩
  · obtain ⟨htravel, hdepth⟩ := (CommandLine.Pan.inWords_iff hviewport hstep).1 hwords
    obtain ⟨hleft, htop⟩ := CommandLine.Pan.origin_viewportAt hv hwords
    obtain ⟨hright, hbottom⟩ := CommandLine.Pan.ends_viewportAt hv hwords
    obtain ⟨hw, hh⟩ := CommandLine.Pan.intersect_viewportAt hv htravel hdepth
    have hcolumn := (CommandLine.Pan.emod_reach_mem hviewport hwidth (o.travel worker step)).1
    have hrow := (CommandLine.Pan.emod_reach_mem hviewport hheight (o.depth worker step)).1
    exact ⟨⟨hleft, hleft ▸ hcolumn, htop, htop ▸ hrow, rfl, rfl⟩, hright, hbottom, hw, hh,
      fun s source out jobs setback hout =>
        CommandLine.Pan.pull_viewportAt_eq_error_iff hv hwords s source hout jobs setback⟩
  · obtain ⟨size, budget, hconfig⟩ := Render.exists_config hsink
    have hs := Sink.create_eq hconfig info true
    exact ⟨_, hs, walkAll_eq hv hs hwords⟩

/-- A viewer who has come a long way, where the viewport is wider than the picture and not as
high. -/
theorem viewports_on_image_narrow :
    let o : CommandLine.Pan :=
      { image := ⟨4, 9, 3, 0⟩, sink := ⟨2, 2, 1, 0, true⟩, workers := 2, steps := 5
        viewport := 6, step := 1, format := .text }
    let seen := (o.viewportAt 1 1000000000000000000).intersect o.image.info.bounds
    o.validate = .ok () ∧ seen.width.val = 4 ∧ seen.height.val = 6 := by
  have hwords : (⟨⟨4, 9, 3, 0⟩, ⟨2, 2, 1, 0, true⟩, 2, 5, 6, 1, .text⟩ : CommandLine.Pan).InWords 1
      1000000000000000000 :=
    (CommandLine.Pan.inWords_iff (by decide) (by decide)).2 (by decide)
  obtain ⟨hplaces, -⟩ := viewports_on_image
    ⟨⟨4, 9, 3, 0⟩, ⟨2, 2, 1, 0, true⟩, 2, 5, 6, 1, .text⟩ rfl
  obtain ⟨-, -, -, hwidth, hheight, -⟩ := hplaces 1 1000000000000000000 hwords
  exact ⟨rfl, hwidth, hheight⟩

end Program.Pan

end TileCache
