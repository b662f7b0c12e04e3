import TileCache.Program.Report
import TileCache.Proofs.Program.Viewport
import TileCache.Proofs.Sink.Progress

/-!
# Walks across the image

A viewer of `pan` goes on by a step, and at the right edge goes back to the left and down.  Where it
looks is found with words of 64 bits.  As long as the two largest numbers, `Pan.travel` and
`Pan.depth`, are below `2 ^ 63`, all of them are what they are meant to be, and the viewport lies in
the image as far as there is room for it (`intersect_viewportAt`).  So every pull needs the same
number of bytes, and with room for one there is room for all: no walk breaks off
(`exists_walkAll`).

That is about viewers one after the other.  Viewers who look at the same time get in each other's
way: they take tiles away from each other, and find tiles that somebody else computes.  All the same
no pull breaks off, and none waits for ever, in whatever order they go on (`Hosts`).

After the walks the whole mask is pulled, with one byte for each pixel of the image.  Nothing that
is checked before has to do with that number.  If it is above the limit for a region, the command
fails after all the walks have gone well.  This is `validated_walk`.
-/

set_option autoImplicit false

namespace TileCache

open CommandLine

/-! ## Where a viewer looks -/

namespace CommandLine.Pan

variable {o : Pan} {worker step : Nat}

/-- How far a viewer has come after `step` moves, if nothing were in its way. -/
def travel (o : Pan) (worker step : Nat) : Int :=
  worker * o.viewport.val + step * o.step.val

/-- How far down it has come, if nothing were in its way: a step for each time that it went back to
the left. -/
def depth (o : Pan) (worker step : Nat) : Int :=
  worker * o.viewport.val + o.travel worker step / o.reach o.image.width * o.step.val

/-- Do the numbers with which the viewports are found stay within words of 64 bits?  The others are
no larger than these two. -/
def StaysInRange (o : Pan) : Prop :=
  ∀ worker < o.workers, ∀ step < o.steps,
    o.travel worker step < 0x8000000000000000 ∧ o.depth worker step < 0x8000000000000000

instance (o : Pan) : Decidable o.StaysInRange :=
  inferInstanceAs (Decidable (∀ worker < o.workers, ∀ step < o.steps,
    o.travel worker step < 0x8000000000000000 ∧ o.depth worker step < 0x8000000000000000))

/-- The bytes that a viewer needs for what it sees, with as much of the image in view as there is
room for. -/
def viewportBytes (o : Pan) : Nat :=
  (min o.viewport.val o.image.width.val).toNat * (min o.viewport.val o.image.height.val).toNat *
    o.image.bands.toNat

/-- What is known of options that were accepted. -/
theorem validate_eq_ok (h : o.validate = .ok ()) :
    o.image.validate = .ok () ∧ o.sink.validate = .ok () ∧ o.workers ≠ 0 ∧
      0 < o.viewport.val ∧ 0 < o.step.val := by
  rw [validate] at h
  obtain ⟨himage, h⟩ := check_bind_eq_ok h
  obtain ⟨hsink, h⟩ := check_bind_eq_ok h
  dsimp only [bind, Except.bind] at h
  split at h
  · cases h
  · rename_i hworkers
    split at h
    · cases h
    · rename_i hviewport
      split at h
      · cases h
      · rename_i hstep
        exact ⟨himage, hsink, hworkers, by omega, by omega⟩

/-- The viewport can move as far as there is room for it. -/
theorem reach_eq (hviewport : 0 < o.viewport.val) {side : Coord} (hside : 0 < side.val) :
    o.reach side = max 1 (side.val - o.viewport.val) := by
  have := side.upper
  have := o.viewport.upper
  rw [reach, Coord.val_wrap_of_mem (by omega) (by omega)]

/-- Where the viewport is on a side of the image is not negative, and the viewport ends on this side
if there is room for it. -/
theorem emod_reach_mem (hviewport : 0 < o.viewport.val) {side : Coord} (hside : 0 < side.val)
    (v : Int) :
    0 ≤ v % o.reach side ∧ v % o.reach side < max 1 (side.val - o.viewport.val) := by
  rw [reach_eq hviewport hside]
  exact ⟨Int.emod_nonneg _ (by omega), Int.emod_lt_of_pos _ (by omega)⟩

/-- A place that the viewport can move to. -/
theorem val_wrap_emod (v : Int) (side : Coord) :
    (Coord.wrap (v % o.reach side)).val = v % o.reach side := by
  have hpos : 0 < o.reach side := by
    rw [reach]
    omega
  have hle : o.reach side ≤ 2147483647 := by
    have := (Coord.wrap (side.val - o.viewport.val)).upper
    rw [reach]
    omega
  have := Int.emod_nonneg v (Int.ne_of_gt hpos)
  have := Int.emod_lt_of_pos v hpos
  exact Coord.val_wrap_of_mem (by omega) (by omega)

/-- **Within words of 64 bits a viewer looks where it is meant to.** -/
theorem viewportAt_eq (hviewport : 0 < o.viewport.val) (hstep : 0 < o.step.val)
    (htravel : o.travel worker step < 0x8000000000000000)
    (hdepth : o.depth worker step < 0x8000000000000000) :
    o.viewportAt worker step =
      ⟨.wrap (o.travel worker step % o.reach o.image.width),
        .wrap (o.depth worker step % o.reach o.image.height), o.viewport, o.viewport⟩ := by
  have hreach : 0 < o.reach o.image.width := by
    rw [reach]
    omega
  -- each number on the way is at most one of the two
  have hgrows : ∀ (n : Nat) {v : Int}, 0 < v → (n : Int) ≤ n * v := by
    intro n v hv
    have := Int.mul_le_mul_of_nonneg_left hv (Int.natCast_nonneg n)
    omega
  have hworker := hgrows worker hviewport
  have hmoves := hgrows step hstep
  rw [travel] at htravel
  have hcross : word64 (word64 worker * o.viewport.val) = worker * o.viewport.val := by
    rw [word64_of_mem (v := (worker : Int)) (by omega) (by omega),
      word64_of_mem (by omega) (by omega)]
  have htravelled : word64 (worker * o.viewport.val + word64 (word64 step * o.step.val)) =
      o.travel worker step := by
    rw [word64_of_mem (v := (step : Int)) (by omega) (by omega),
      word64_of_mem (v := (step : Int) * o.step.val) (by omega) (by omega),
      word64_of_mem (by omega) (by omega), travel]
  have htravel0 : 0 ≤ o.travel worker step := by
    rw [travel]
    omega
  have hrounds := Int.ediv_nonneg htravel0 (Int.le_of_lt hreach)
  have hdown := Int.mul_nonneg hrounds (Int.le_of_lt hstep)
  rw [depth] at hdepth
  have hdeep : word64 (worker * o.viewport.val +
      word64 ((o.travel worker step).tdiv (o.reach o.image.width) * o.step.val)) =
        o.depth worker step := by
    rw [Int.tdiv_eq_ediv_of_nonneg htravel0,
      word64_of_mem (v := _ * o.step.val) (by omega) (by omega),
      word64_of_mem (by omega) (by omega), depth]
  have hdepth0 : 0 ≤ o.depth worker step := by
    rw [depth]
    omega
  simp only [viewportAt]
  rw [hcross, htravelled, hdeep, Int.tmod_eq_emod_of_nonneg htravel0,
    Int.tmod_eq_emod_of_nonneg hdepth0]

/-- On one side of the image, from a place that the viewport can move to, as much of it is seen as
there is room for. -/
theorem seen_eq (hviewport : 0 < o.viewport.val) {side : Coord} (hside : 0 < side.val) (v : Int) :
    max 0 (min (Coord.clamp ((Coord.wrap (v % o.reach side)).val + o.viewport.val)).val
        (Coord.clamp ((0 : Coord).val + side.val)).val
      - max (Coord.wrap (v % o.reach side)).val (0 : Coord).val) = min o.viewport.val side.val := by
  have hs := side.upper
  have hu := o.viewport.upper
  have hplace := emod_reach_mem hviewport hside v
  rw [Coord.val_clamp, Coord.val_clamp, val_wrap_emod, Coord.val_zero]
  omega

/-- **The part of the image that a viewer sees is as large as there is room for.** -/
theorem intersect_viewportAt (hv : o.validate = .ok ())
    (htravel : o.travel worker step < 0x8000000000000000)
    (hdepth : o.depth worker step < 0x8000000000000000) :
    ((o.viewportAt worker step).intersect o.image.info.bounds).width.val =
        min o.viewport.val o.image.width.val ∧
      ((o.viewportAt worker step).intersect o.image.info.bounds).height.val =
        min o.viewport.val o.image.height.val := by
  obtain ⟨himage, -, -, hviewport, hstep⟩ := validate_eq_ok hv
  obtain ⟨hwidth, hheight, -⟩ := ImageOptions.validate_eq_ok_iff.1 himage
  rw [Rect.val_width_intersect, Rect.val_height_intersect,
    viewportAt_eq hviewport hstep htravel hdepth]
  exact ⟨seen_eq hviewport hwidth _, seen_eq hviewport hheight _⟩

/-- **If there is room for what one viewer sees, there is for all of them.** -/
theorem pullable_viewportAt (hv : o.validate = .ok ()) (hfits : o.viewportBytes ≤ maxRegionBytes)
    (htravel : o.travel worker step < 0x8000000000000000)
    (hdepth : o.depth worker step < 0x8000000000000000) :
    ((o.viewportAt worker step).intersect o.image.info.bounds).isEmpty = false ∧
      Fits o.image.info (o.viewportAt worker step) := by
  obtain ⟨himage, -, -, hviewport, -⟩ := validate_eq_ok hv
  obtain ⟨hwidth, hheight, -⟩ := ImageOptions.validate_eq_ok_iff.1 himage
  obtain ⟨hw, hh⟩ := intersect_viewportAt hv htravel hdepth
  have htouches : ((o.viewportAt worker step).intersect o.image.info.bounds).isEmpty = false := by
    rw [← Bool.not_eq_true, Rect.isEmpty_iff]
    omega
  refine ⟨htouches, ?_⟩
  rw [Fits, Rect.area_of_nonempty htouches, hw, hh, o.image.bytesPerPixel_info]
  exact hfits

end CommandLine.Pan

/-! ## The mask of a whole image -/

/-- An image lies in its own bounds. -/
theorem ImageInfo.intersect_bounds {info : ImageInfo} (hw : 0 < info.width.val)
    (hh : 0 < info.height.val) : info.bounds.intersect info.bounds = info.bounds := by
  have hright : info.bounds.right = info.width :=
    (congrArg Coord.clamp (Int.zero_add _)).trans (Coord.clamp_val _)
  have hbottom : info.bounds.bottom = info.height :=
    (congrArg Coord.clamp (Int.zero_add _)).trans (Coord.clamp_val _)
  refine Rect.ext_val ?_ ?_ ?_ ?_
  · rw [Rect.val_left_intersect, Int.max_self]
  · rw [Rect.val_top_intersect, Int.max_self]
  · rw [Rect.val_width_intersect, hright, Int.min_self, Int.max_self]
    show max 0 (info.width.val - 0) = info.width.val
    omega
  · rw [Rect.val_height_intersect, hbottom, Int.min_self, Int.max_self]
    show max 0 (info.height.val - 0) = info.height.val
    omega

/-- **The mask of the whole image is filled if it has no more pixels than a region may have bytes**,
whatever the state of the sink. -/
theorem Sink.pullMask_bounds (s : Sink) {info : ImageInfo} (hw : 0 < info.width.val)
    (hh : 0 < info.height.val) {out : Region} (hout : out.IsFor info.mask) (amid : Rect → Nat) :
    let pixels := info.width.val.toNat * info.height.val.toNat
    (pixels ≤ maxRegionBytes → ∃ m, s.pullMask info.bounds out amid = .filled m) ∧
      (maxRegionBytes < pixels →
        s.pullMask info.bounds out amid = .refused (.tooLarge pixels maxRegionBytes)) := by
  intro pixels
  have hself : info.bounds.intersect info.mask.bounds = info.bounds :=
    ImageInfo.intersect_bounds hw hh
  have hsome : info.bounds.isEmpty = false := by
    rw [← Bool.not_eq_true, Rect.isEmpty_iff]
    show ¬ (info.width.val ≤ 0 ∨ info.height.val ≤ 0)
    omega
  have hcount : info.bounds.area * info.mask.bytesPerPixel = pixels :=
    (Nat.mul_one _).trans (Rect.area_of_nonempty hsome)
  refine ⟨fun hle => ?_, fun hlarge => ?_⟩
  · have htouches : (info.bounds.intersect info.mask.bounds).isEmpty = false := by rwa [hself]
    obtain ⟨blank, hb, -⟩ := hout.exists_buffer htouches (by rwa [Fits, hself, hcount])
    obtain ⟨m, hm, -⟩ := s.pullMask_eq amid hout hb
    exact ⟨m, hm⟩
  · have hb : out.buffer info.bounds = .error (.refused (.tooLarge pixels maxRegionBytes)) := by
      rw [hout.buffer_eq_error_iff (Nat.le_of_ble_eq_true rfl), Fits, hself, hcount, Nat.not_le]
      exact .inr ⟨hsome, hlarge, rfl⟩
    delta pullMask
    rw [hb]

namespace Program.Pan

variable {o : CommandLine.Pan} {start s s' : Sink} {out filled : Region} {jobs : List Job}
  {worker step : Nat}

/-! ## Walks -/

/-- A step of a walk.  (The equation lemma for `walk` would make Lean evaluate `Region.buffer`.) -/
theorem walk_succ (o : CommandLine.Pan) (worker left step : Nat) (s : Sink) (out : Region) :
    walk o worker (left + 1) step s out = (do
      let (sink, finished, jobs) ← s.pull .pattern (o.viewportAt worker step) out []
      walk o worker left (step + 1) (settle o jobs sink) (← finished.region)) := by
  rfl

/-- Waiting for computations, or not. -/
theorem visited_settle (h : start.Visited .pattern o.image.info s jobs) :
    start.Visited .pattern o.image.info (settle o jobs s) [] := by
  rw [settle]
  split
  · exact h.doneAll
  · exact h.left

section

variable {config : Config} {withMask : Bool}

/-- **A walk goes well** if every viewport on it touches the image and fits. -/
theorem exists_walk (hs : Sink.create o.image.info config true withMask = .ok start)
    (hbytes : o.image.info.bytesPerPixel = 1 ∨ o.image.info.bytesPerPixel = 3)
    (worker left step : Nat)
    (hpullable : ∀ k < left,
      ((o.viewportAt worker (step + k)).intersect o.image.info.bounds).isEmpty = false ∧
        Fits o.image.info (o.viewportAt worker (step + k)))
    (h : start.Visited .pattern o.image.info s []) (hout : out.IsFor o.image.info) :
    ∃ s', walk o worker left step s out = .ok s' ∧
      start.Visited .pattern o.image.info s' [] := by
  induction left generalizing step s out with
  | zero => exact ⟨s, rfl, h⟩
  | succ left ih =>
    obtain ⟨htouches, hfits⟩ := hpullable 0 (Nat.succ_pos left)
    rw [Nat.add_zero] at htouches hfits
    obtain ⟨s', filled, jobs, hpull, hencodable⟩ :=
      Render.exists_encodable hs hbytes h hout htouches hfits
    rw [walk_succ, hpull]
    refine ih (step + 1) (fun k hk => ?_) (visited_settle (h.pulled hout hpull)) hencodable.isFor
    rw [Nat.add_right_comm, Nat.add_assoc]
    exact hpullable (k + 1) (Nat.succ_lt_succ hk)

/-- **All walks go well**, however many viewers there are. -/
theorem exists_walkAll (hs : Sink.create o.image.info config true withMask = .ok start)
    (hbytes : o.image.info.bytesPerPixel = 1 ∨ o.image.info.bytesPerPixel = 3) (left : Nat)
    (hpullable : ∀ k < left, ∀ step < o.steps,
      ((o.viewportAt (worker + k) step).intersect o.image.info.bounds).isEmpty = false ∧
        Fits o.image.info (o.viewportAt (worker + k) step))
    (h : start.Visited .pattern o.image.info s []) :
    ∃ s', walkAll o left worker s = .ok s' := by
  induction left generalizing worker s with
  | zero => exact ⟨s, rfl⟩
  | succ left ih =>
    have hempty : (Region.empty o.image.info).IsFor o.image.info := ⟨rfl, rfl⟩
    obtain ⟨s', hwalk, hvisited⟩ := exists_walk hs hbytes worker o.steps 0
      (fun k hk => by rw [Nat.zero_add]; exact hpullable 0 (Nat.succ_pos left) k hk) h hempty
    rw [walkAll, hwalk]
    refine ih (fun k hk => ?_) hvisited
    rw [Nat.add_right_comm, Nat.add_assoc]
    exact hpullable (k + 1) (Nat.succ_lt_succ hk)

/-- Without steps nobody looks anywhere, and otherwise all walks go well. -/
theorem exists_walks (hs : Sink.create o.image.info config true withMask = .ok start)
    (hbytes : o.image.info.bytesPerPixel = 1 ∨ o.image.info.bytesPerPixel = 3)
    (hpullable : ∀ worker < o.workers, ∀ step < o.steps,
      ((o.viewportAt worker step).intersect o.image.info.bounds).isEmpty = false ∧
        Fits o.image.info (o.viewportAt worker step)) :
    ∃ s', (if o.steps = 0 then .ok start else walkAll o o.workers 0 start) = .ok s' := by
  split
  · exact ⟨start, rfl⟩
  · refine exists_walkAll hs hbytes o.workers (fun k hk => ?_) .new
    rw [Nat.zero_add]
    exact hpullable k hk

end

/-! ## The command -/

/-- Accepted options are carried out. -/
theorem run_eq (hv : o.validate = .ok ())
    (hs : Sink.create o.image.info o.sink.config true true = .ok s) :
    run o =
      if maxHandles < o.workers then .error ⟨[announcement o], .brokeOff⟩ else tour o s := by
  delta run
  rw [hv]
  dsimp only
  generalize Sink.create o.image.info o.sink.config true true = created at hs ⊢
  subst hs
  rfl

/-- After the walks, what the viewers have pulled is counted, and then all hangs on the mask. -/
theorem tour_eq (hwalks : (if o.steps = 0 then .ok s else walkAll o o.workers 0 s) = .ok s') :
    tour o s =
      match countInWord (o.workers * o.steps) with
      | .error _ => .error ⟨[announcement o], .brokeOff⟩
      | .ok pulled =>
        match s'.pullMask o.image.info.bounds (.empty o.image.info.mask) (fun _ => 0) with
        | .filled mask => .ok { sink := s', pulled, coverage := coverageOf mask.bytes }
        | .refused error =>
          .error ⟨[announcement o, .error s!"Mask pull failed: {error.message}"], .failed⟩
        | .faulted _ => .error ⟨[announcement o], .brokeOff⟩ := by
  delta tour
  generalize (if o.steps = 0 then Except.ok s else walkAll o o.workers 0 s) = walked at hwalks ⊢
  subst hwalks
  rfl

end Program.Pan

/-! ## What accepted options promise -/

/-- The pixels of the image, each of which has a byte in the mask. -/
def CommandLine.Pan.pixels (o : CommandLine.Pan) : Nat :=
  o.image.width.val.toNat * o.image.height.val.toNat

/-- Why the mask of an image with so many pixels is refused. -/
def CommandLine.Pan.maskTooLarge (o : CommandLine.Pan) : RegionError :=
  .tooLarge o.pixels maxRegionBytes

namespace Program.Pan

variable {o : CommandLine.Pan} {start s : Sink}

/-- The program can keep a list of its viewers, and count in a word of 64 bits what they pull. -/
structure Countable (o : CommandLine.Pan) : Prop where
  viewers : o.workers ≤ maxHandles
  pulls : o.workers * o.steps < 0x10000000000000000

/-- The sink has all that the viewers want, and the mask if it is not too large. -/
structure Accommodates (o : CommandLine.Pan) (s : Sink) : Prop where
  viewport : ∀ worker < o.workers, ∀ step < o.steps, ∀ out, out.IsFor o.image.info →
    ∃ pull, s.openPull (o.viewportAt worker step) out = .ok pull
  mask : o.pixels ≤ maxRegionBytes → ∀ out amid, out.IsFor o.image.info.mask →
    ∃ m, s.pullMask o.image.info.bounds out amid = .filled m
  largeMask : maxRegionBytes < o.pixels → ∀ out amid, out.IsFor o.image.info.mask →
    s.pullMask o.image.info.bounds out amid = .refused o.maskTooLarge

/-- How a sink treats all that use it, from where `moves` have led to. -/
structure Hosts (o : CommandLine.Pan) (start : Sink) (moves : List Move) : Prop where
  /-- No pull broke off. -/
  unbroken : Engine.collect Engine.faultsBy (Engine.ofSink start true) moves = []
  /-- Whatever a viewer wants next can be had. -/
  accommodates : Accommodates o ((Engine.ofSink start true).run moves).sink
  /-- Nobody waits for ever, however pulls and computations take turns. -/
  completes : Engine.Completes .pattern ((Engine.ofSink start true).run moves)
  /-- Those who wait get what they wait for. -/
  delivers : ∀ more, ((Engine.ofSink start true).run moves).Throughout Engine.Helps more →
    Engine.Uses .pattern more → (((Engine.ofSink start true).run moves).run more).Quiet →
      (Engine.collect Engine.deliveredBy ((Engine.ofSink start true).run moves) more).length =
        ((Engine.ofSink start true).run moves).pulls.length

/-- What comes of the command. -/
structure Obeys (o : CommandLine.Pan) : Prop where
  /-- It succeeds, having pulled whatever the viewers wanted, if the mask is not too large. -/
  succeeds : Countable o → o.pixels ≤ maxRegionBytes → ∃ p, run o = .ok p ∧
    p.pulled = o.workers * o.steps ∧ ∀ elapsed, (panReport o elapsed).exit = .succeeded
  /-- Otherwise it fails at the mask, after all the walks. -/
  fails : Countable o → maxRegionBytes < o.pixels → run o =
    .error ⟨[announcement o, .error s!"Mask pull failed: {o.maskTooLarge.message}"], .failed⟩
  breaksOff : ¬ Countable o → run o = .error ⟨[announcement o], .brokeOff⟩

/-- **All viewports can be pulled**, from a sink in whatever state. -/
theorem pullable_of_validate (hv : o.validate = .ok ()) (hrange : o.StaysInRange)
    (hfits : o.viewportBytes ≤ maxRegionBytes) :
    ∀ worker < o.workers, ∀ step < o.steps,
      ((o.viewportAt worker step).intersect o.image.info.bounds).isEmpty = false ∧
        Fits o.image.info (o.viewportAt worker step) := fun worker hw step hm =>
  CommandLine.Pan.pullable_viewportAt hv hfits (hrange worker hw step hm).1
    (hrange worker hw step hm).2

theorem accommodates_of_validate (hv : o.validate = .ok ()) (hrange : o.StaysInRange)
    (hfits : o.viewportBytes ≤ maxRegionBytes) (s : Sink) : Accommodates o s := by
  obtain ⟨himage, -⟩ := CommandLine.Pan.validate_eq_ok hv
  obtain ⟨hwidth, hheight, -⟩ := ImageOptions.validate_eq_ok_iff.1 himage
  refine ⟨fun worker hw step hm out hout => ?_, fun hle out amid hout => ?_,
    fun hlarge out amid hout => ?_⟩
  · obtain ⟨htouches, hroom⟩ := pullable_of_validate hv hrange hfits worker hw step hm
    obtain ⟨buffer, hb, -⟩ := hout.exists_buffer htouches hroom
    exact ⟨_, Sink.openPull_of_buffer _ hb⟩
  · exact (s.pullMask_bounds hwidth hheight hout amid).1 hle
  · exact (s.pullMask_bounds hwidth hheight hout amid).2 hlarge

/-- **In whatever order viewers, computations and others use the sink, every pull that is under way
is delivered in the end.** -/
theorem hosts_of_validate (hv : o.validate = .ok ()) (hrange : o.StaysInRange)
    (hfits : o.viewportBytes ≤ maxRegionBytes)
    (hs : Sink.create o.image.info o.sink.config true true = .ok start)
    {moves : List Move} (huses : Engine.Uses .pattern moves)
    (hinto : Engine.PullInto o.image.info moves) : Hosts o start moves := by
  obtain ⟨himage, -⟩ := CommandLine.Pan.validate_eq_ok hv
  have unbroken : ∀ {moves}, Engine.Uses .pattern moves → Engine.PullInto o.image.info moves →
      Engine.collect Engine.faultsBy (Engine.ofSink start true) moves = [] := fun huses hinto =>
    Engine.steady_run hs (ImageOptions.bytesPerPixel_le himage)
      (huses.keepBuffers keepsBuffer_pattern) hinto
  have completes := Engine.completes_run start true .pattern moves
  refine ⟨unbroken huses hinto, accommodates_of_validate hv hrange hfits _, completes,
    fun more hhelp hmore hquiet => ?_⟩
  -- the moves after which nothing is under way break no pull off, either
  have hall := unbroken (huses.append hmore) (hinto.append (Engine.pullInto_of_helps hhelp))
  rw [Engine.collect_append] at hall
  have hended := completes.ended more hhelp hquiet
  rwa [(List.append_eq_nil_iff.1 hall).2, List.length_nil, Nat.add_zero] at hended

/-- **The command fails only after all the walks**, unless it cannot count what they come to. -/
theorem obeys_of_validate (hv : o.validate = .ok ()) (hrange : o.StaysInRange)
    (hfits : o.viewportBytes ≤ maxRegionBytes)
    (hs : Sink.create o.image.info o.sink.config true true = .ok start) : Obeys o := by
  obtain ⟨himage, -⟩ := CommandLine.Pan.validate_eq_ok hv
  obtain ⟨s', hwalks⟩ := exists_walks hs (ImageOptions.bytesPerPixel_of_validate himage)
    (pullable_of_validate hv hrange hfits)
  have hmask := accommodates_of_validate hv hrange hfits s'
  have hrun := run_eq hv hs
  rw [tour_eq hwalks] at hrun
  have hcounted : Countable o → run o =
      match s'.pullMask o.image.info.bounds (.empty o.image.info.mask) (fun _ => 0) with
      | .filled mask =>
        .ok { sink := s', pulled := o.workers * o.steps, coverage := coverageOf mask.bytes }
      | .refused error =>
        .error ⟨[announcement o, .error s!"Mask pull failed: {error.message}"], .failed⟩
      | .faulted _ => .error ⟨[announcement o], .brokeOff⟩ := by
    intro h
    rw [hrun, if_neg (Nat.not_lt.2 h.viewers), countInWord_eq_ok_iff.2 ⟨h.pulls, rfl⟩]
  refine ⟨fun h hle => ?_, fun h hlarge => ?_, fun h => ?_⟩
  · obtain ⟨m, hm⟩ := hmask.mask hle (.empty o.image.info.mask) (fun _ => 0) ⟨rfl, rfl⟩
    have hsome := hcounted h
    rw [hm] at hsome
    refine ⟨_, hsome, rfl, fun elapsed => ?_⟩
    rw [panReport, hsome]
  · rw [hcounted h, hmask.largeMask hlarge _ _ ⟨rfl, rfl⟩]
  · rw [hrun]
    split
    · rfl
    · rename_i hfew
      rw [countInWord, if_neg fun hpulls => h ⟨Nat.not_lt.1 hfew, hpulls⟩]

/-- **What comes of walks with accepted options.**  Take options of `pan` that were accepted, with
room for what one viewer sees, and let the numbers with which the viewports are found stay within
words of 64 bits.

There is a sink.  In whatever order viewers, computations and others use it, no pull breaks off,
none waits for ever, and every viewport of every walk can be pulled; and the mask of the whole image
can be pulled, unless the image has more pixels than a region may have bytes.

So the command succeeds, however many steps there are, if the image has no more pixels than a region
may have bytes.  If it has more, the command fails at the mask, after all the walks.  It breaks off
only if there are too many viewers for a list, or more pulls than can be counted. -/
theorem validated_walk (o : CommandLine.Pan) (hv : o.validate = .ok ()) (hrange : o.StaysInRange)
    (hfits : o.viewportBytes ≤ maxRegionBytes) :
    Obeys o ∧ ∃ start, Sink.create o.image.info o.sink.config true true = .ok start ∧
      ∀ moves, Engine.Uses .pattern moves → Engine.PullInto o.image.info moves →
        Hosts o start moves := by
  obtain ⟨-, hsink, -⟩ := CommandLine.Pan.validate_eq_ok hv
  obtain ⟨size, budget, hconfig⟩ := Render.exists_config hsink
  have hs := Sink.create_eq hconfig o.image.info true
  exact ⟨obeys_of_validate hv hrange hfits hs, _, hs, fun moves huses hinto =>
    hosts_of_validate hv hrange hfits hs huses hinto⟩

/-- Two viewers who come to the right edge of a picture and go back.  When both look at once, the
one waits for a tile and the other has got none. -/
theorem validated_walk_narrow :
    let o : CommandLine.Pan :=
      { image := ⟨4, 3, 3, 0⟩, sink := ⟨2, 2, 1, 0, false⟩, workers := 2, steps := 5
        viewport := 2, step := 1, format := .text }
    let moves : List Move :=
      [.openPull (o.viewportAt 0 0) (.empty o.image.info) ⟨_, rfl, rfl⟩, .advance 0 0,
        .openPull (o.viewportAt 1 0) (.empty o.image.info) ⟨_, rfl, rfl⟩]
    o.validate = .ok () ∧ o.StaysInRange ∧ o.viewportBytes ≤ maxRegionBytes ∧
      (∃ p, run o = .ok p ∧ p.pulled = 10) ∧
      Engine.Uses .pattern moves ∧ Engine.PullInto o.image.info moves ∧
      ∃ start, Hosts o start moves ∧ ((Engine.ofSink start true).run moves).pulls.length = 2 := by
  intro o moves
  have hrange : o.StaysInRange := by decide
  have hfits : o.viewportBytes ≤ maxRegionBytes := by decide
  have huses : Engine.Uses .pattern moves := fun n other hm => by simp [moves] at hm
  have hinto : Engine.PullInto o.image.info moves := fun rect out isRegion hm => by
    simp only [moves, List.mem_cons, Move.openPull.injEq, reduceCtorEq, List.not_mem_nil] at hm
    rcases hm with ⟨-, rfl⟩ | h | ⟨-, rfl⟩ | h
    exacts [⟨rfl, rfl⟩, h.elim, ⟨rfl, rfl⟩, h.elim]
  obtain ⟨hobeys, start, hs, hhosts⟩ := validated_walk o rfl hrange hfits
  obtain ⟨p, hp, hpulled, -⟩ := hobeys.succeeds ⟨by decide, by decide⟩ (by decide)
  refine ⟨rfl, hrange, hfits, ⟨p, hp, hpulled⟩, huses, hinto, start, hhosts moves huses hinto, ?_⟩
  obtain rfl := Except.ok.inj (hs.symm.trans rfl)
  subst moves o
  decide +kernel

/-- **Accepted walks that do not succeed**: one pixel of a picture is looked at, but there is no
room for the mask of the whole of it; a list of all viewers cannot be kept, though none of them
makes a step; and four viewers pull more viewports than can be counted. -/
theorem fails_after_validate :
    let o : CommandLine.Pan :=
      { image := ⟨40000, 40000, 1, 0⟩, sink := ⟨1, 1, 256, 0, false⟩, workers := 1, steps := 1
        viewport := 1, step := 1, format := .text }
    let crowd : CommandLine.Pan :=
      { image := ⟨20, 15, 1, 0⟩, sink := ⟨8, 8, 256, 0, false⟩, workers := 0x1000000000000000
        steps := 0, viewport := 1, step := 1, format := .text }
    let long : CommandLine.Pan := { crowd with workers := 4, steps := 0x4000000000000000 }
    (o.validate = .ok () ∧ o.StaysInRange ∧ o.viewportBytes ≤ maxRegionBytes ∧
      ∃ r, run o = .error r ∧ r.exit = .failed) ∧
    (crowd.validate = .ok () ∧ crowd.StaysInRange ∧ crowd.viewportBytes ≤ maxRegionBytes ∧
      ∃ r, run crowd = .error r ∧ r.exit = .brokeOff) ∧
    long.validate = .ok () ∧ long.StaysInRange ∧ long.viewportBytes ≤ maxRegionBytes ∧
      ∃ r, run long = .error r ∧ r.exit = .brokeOff := by
  refine ⟨⟨rfl, by decide, by decide, _, rfl, rfl⟩, ⟨rfl, ?_, by decide, _, rfl, rfl⟩, rfl, ?_⟩
  · exact fun worker _ step h => absurd h (Nat.not_lt_zero step)
  · have hrange : CommandLine.Pan.StaysInRange
        ⟨⟨20, 15, 1, 0⟩, ⟨8, 8, 256, 0, false⟩, 4, 0x4000000000000000, 1, 1, .text⟩ := by
      intro worker hworker step hstep
      dsimp only at hworker hstep
      show (worker * 1 + step * 1 : Int) < 0x8000000000000000 ∧
        (worker * 1 + (worker * 1 + step * 1) / 19 * 1 : Int) < 0x8000000000000000
      omega
    refine ⟨hrange, by decide, _,
      (obeys_of_validate rfl hrange (by decide) rfl).breaksOff fun h => ?_, rfl⟩
    exact absurd h.pulls (by decide)

end Program.Pan

end TileCache
