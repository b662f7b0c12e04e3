import TileCache.Proofs.Program.Viewport
import TileCache.Proofs.Sink.Zeros

/-!
# When a rendering is complete

A pass counts the cells that it could not get pixels for, and a rendering says so if its last pass
missed any.  No byte of the test pattern is zero, so this can also be seen in the picture: a pass
has missed nothing if and only if no byte of its region is zero, and then the region shows the
pattern in the whole viewport as far as it lies in the image (`complete_pass`, `complete_passes`).

`zeros_mark_missing` states this for the sink, with any number of pulls at once, and for the
command.
-/

set_option autoImplicit false

namespace TileCache.Program.Render

open CommandLine

variable {info : ImageInfo} {viewport : Rect} {start s s' : Sink} {out filled : Region}
  {jobs jobs' : List Job} {p : Pass} {r : Rendered}

/-- The region is for the viewport, as far as it lies in the image.  There is nothing to be said
against it if and only if no byte of it is zero, and if and only if it shows the pattern. -/
structure Tells (info : ImageInfo) (viewport : Rect) (out : Region) (nothing : Prop) : Prop where
  isFor : out.IsFor info
  valid : out.valid = viewport.intersect info.bounds
  nonzero : nothing ↔ ∀ i < out.bytes.size, out.bytes[i]! ≠ 0
  shows : nothing ↔ out.Shows Pattern.picture

theorem Tells.congr {nothing other : Prop} (h : Tells info viewport out nothing)
    (hother : other ↔ nothing) : Tells info viewport out other :=
  ⟨h.isFor, h.valid, hother.trans h.nonzero, hother.trans h.shows⟩

section

variable {config : Config} {withMask : Bool}

/-- **A pull on its own counts nothing if and only if it leaves no zero.** -/
theorem tells_pull (hs : Sink.create info config true withMask = .ok start)
    (hpixel : 0 < info.bytesPerPixel) (h : start.Visited .pattern info s jobs)
    (hout : out.IsFor info)
    (hpull : s.pull .pattern viewport out jobs = .ok (s', .filled filled, jobs')) :
    Tells info viewport filled (s'.zeroFilled - s.zeroFilled = 0) := by
  obtain ⟨before, huses, hinto, hstages⟩ := Sink.exists_run_of_visited h
  obtain ⟨moves, hmoves, hended, hdelivered, hleft⟩ := hstages.pulled ⟨info, hout⟩ hpull
  obtain ⟨huses', hinto'⟩ := Engine.uses_of_serves viewport ⟨info, hout⟩ hout hmoves
  rw [← Engine.run_append] at hended
  obtain ⟨hnonzero, hshows⟩ := Engine.complete_iff hs hpixel (huses.append huses')
    (hinto.append hinto') hstages.pulls hended.pulls hleft hdelivered
  rw [hended.sink, hstages.sink] at hnonzero
  obtain ⟨hfor, hvalid⟩ := Sink.valid_of_pull hout hpull
  exact ⟨hfor, hvalid, hnonzero, hnonzero.trans hshows⟩

/-- A pass is a pull. -/
theorem exists_pull_of_pass (h : pass viewport s out = .ok p) :
    s.pull .pattern viewport out [] = .ok (p.sink, .filled p.out, p.jobs) ∧
      p.missing = p.sink.zeroFilled - s.zeroFilled := by
  cases hpull : s.pull .pattern viewport out [] with
  | error error =>
    rw [pass_of_error hpull] at h
    cases h
  | ok result =>
    obtain ⟨s', finished, jobs⟩ := result
    cases finished with
    | broke _ | unfinished =>
      delta pass at h
      rw [hpull] at h
      cases h
    | filled filled =>
      rw [pass_eq hpull] at h
      obtain rfl := Except.ok.inj h
      exact ⟨rfl, rfl⟩

/-- **A pass has missed nothing if and only if it leaves no zero.** -/
theorem complete_pass (hs : Sink.create info config true withMask = .ok start)
    (hpixel : 0 < info.bytesPerPixel) (h : start.Visited .pattern info s []) (hout : out.IsFor info)
    (hpass : pass viewport s out = .ok p) :
    start.Visited .pattern info p.settled [] ∧ Tells info viewport p.out (p.missing = 0) := by
  obtain ⟨hpull, hmissing⟩ := exists_pull_of_pass hpass
  rw [hmissing]
  exact ⟨(h.pulled hout hpull).doneAll, tells_pull hs hpixel h hout hpull⟩

/-- What is missed is warned of, in whatever words. -/
theorem warnings_eq_nil_iff {missing : Nat} {warning : Line} :
    (if missing = 0 then [] else [warning]) = [] ↔ missing = 0 := by
  simp

/-- **A rendering that has come to an end warns if and only if a zero is left.** -/
theorem complete_passes (hs : Sink.create info config true withMask = .ok start)
    (hpixel : 0 < info.bytesPerPixel) (waits count : Nat) (h : start.Visited .pattern info s [])
    (hout : out.IsFor info) (hr : passes viewport waits count s out = .ok r) :
    Tells info viewport r.out (r.warnings = []) := by
  induction waits generalizing s out count with
  | zero =>
    cases hpass : pass viewport s out with
    | error message =>
      rw [passes_of_error hpass] at hr
      cases hr
    | ok p =>
      rw [passes_zero hpass] at hr
      obtain rfl := Except.ok.inj hr
      exact (complete_pass hs hpixel h hout hpass).2.congr warnings_eq_nil_iff
  | succ waits ih =>
    cases hpass : pass viewport s out with
    | error message =>
      rw [passes_of_error hpass] at hr
      cases hr
    | ok p =>
      obtain ⟨hvisited, htells⟩ := complete_pass hs hpixel h hout hpass
      rw [passes_succ hpass] at hr
      split at hr
      · obtain rfl := Except.ok.inj hr
        exact htells.congr warnings_eq_nil_iff
      · exact ih (count + 1) hvisited htells.isFor hr

theorem complete_onePass (hs : Sink.create info config true withMask = .ok start)
    (hpixel : 0 < info.bytesPerPixel) (h : start.Visited .pattern info s [])
    (hout : out.IsFor info) (hr : onePass viewport s out = .ok r) :
    Tells info viewport r.out (r.warnings = []) := by
  cases hpass : pass viewport s out with
  | error message =>
    rw [onePass_of_error hpass] at hr
    cases hr
  | ok p =>
    rw [onePass, hpass] at hr
    obtain rfl := Except.ok.inj hr
    exact (complete_pass hs hpixel h hout hpass).2.congr warnings_eq_nil_iff

end

/-! ## The command -/

variable {o : CommandLine.Render}

/-- A command that has come to an end had its options accepted. -/
theorem exists_of_run {canTell : Nat → Bool} (h : run canTell o = .ok r) :
    o.validate = .ok () ∧ ∃ start, Sink.create o.image.info o.sink.config true false = .ok start ∧
      rendering o start = .ok r := by
  have hv : o.validate = .ok () := by
    cases hv : o.validate with
    | ok _ => rfl
    | error error =>
      delta run at h
      dsimp only at h
      rw [hv] at h
      cases h
  obtain ⟨⟨size, budget, hconfig⟩, -⟩ := validate_eq_ok hv
  have hs := Sink.create_eq hconfig o.image.info false
  refine ⟨hv, _, hs, ?_⟩
  cases htell : canTell o.timeoutSecs with
  | true =>
    rw [run_eq hv hs htell] at h
    split at h
    · rename_i hrendering
      obtain rfl := Except.ok.inj h
      exact hrendering
    · cases h
    · cases h
  | false =>
    delta run at h
    dsimp only at h
    rw [hv] at h
    dsimp only at h
    rw [hs] at h
    dsimp only at h
    rw [htell] at h
    cases h

theorem complete_run {canTell : Nat → Bool} (h : run canTell o = .ok r) :
    Tells o.image.info o.viewport r.out (r.warnings = []) := by
  obtain ⟨hv, start, hs, hr⟩ := exists_of_run h
  have hpixel : 0 < o.image.info.bytesPerPixel := by
    have := ImageOptions.bytesPerPixel_of_validate (image_of_validate hv)
    omega
  rw [rendering] at hr
  split at hr
  · exact complete_passes hs hpixel _ _ .new ⟨rfl, rfl⟩ hr
  · exact complete_onePass hs hpixel .new ⟨rfl, rfl⟩ hr

/-! ## All runs -/

/-- A sink that needs no runtime is the same with one. -/
theorem create_with_runtime {config : Config} {hasRuntime withMask : Bool}
    (hs : Sink.create info config hasRuntime withMask = .ok start) :
    Sink.create info config true withMask = .ok start := by
  obtain ⟨size, budget, hconfig, rfl⟩ := Engine.eq_of_create hs
  exact Sink.create_eq hconfig info withMask

/-- In the run, just what is missing is zero. -/
structure MarksMissing (e : Engine) (moves : List Move) : Prop where
  /-- In each region that is delivered, a cell shows the pattern, and then no byte of it is zero, or
  it is zero throughout. -/
  cell : ∀ out ∈ Engine.collect Engine.deliveredBy e moves, ∀ cell ∈ out.valid.cells e.sink.size,
    (out.ShowsIn Pattern.picture cell ∧ out.NonzeroIn cell ∧ ¬ out.BlankIn cell) ∨ out.BlankIn cell
  /-- If all pulls have come to their end, the number of cells that are zero throughout is what the
  sink has counted. -/
  counted : Engine.collect Engine.leftBy e moves = [] → (e.run moves).pulls = [] →
    (e.run moves).sink.zeroFilled =
      ((Engine.collect Engine.deliveredBy e moves).map fun out => out.blanks e.sink.size).sum
  /-- Where a single pull goes on, nothing is counted in the meantime if and only if no byte of its
  region is zero, and if and only if the region shows the pattern. -/
  alone : ∀ before during out, moves = before ++ during → (e.run before).pulls = [] →
    (e.run moves).pulls = [] → Engine.collect Engine.leftBy (e.run before) during = [] →
    Engine.collect Engine.deliveredBy (e.run before) during = [out] →
      ((e.run moves).sink.zeroFilled - (e.run before).sink.zeroFilled = 0 ↔
        ∀ i < out.bytes.size, out.bytes[i]! ≠ 0) ∧
      ((∀ i < out.bytes.size, out.bytes[i]! ≠ 0) ↔ out.Shows Pattern.picture)

/-- **A zero marks what was not computed.**  Take any run of a new sink over the test pattern, in
either mode, with at least one byte for each pixel and with pulls into regions for the image.  What
is missing of the regions that are delivered is zero, and nothing else is.

In particular this is how a pass of a program that has the sink to itself finds out whether anything
is missing, and how the command decides whether to warn. -/
theorem zeros_mark_missing {config : Config} {hasRuntime withMask : Bool}
    (hs : Sink.create info config hasRuntime withMask = .ok start)
    (hpixel : 0 < info.bytesPerPixel) {moves : List Move} (huses : Engine.Uses .pattern moves)
    (hinto : Engine.PullInto info moves) :
    MarksMissing (.ofSink start hasRuntime) moves ∧
      (∀ viewport s out p, start.Visited .pattern info s [] → out.IsFor info →
        pass viewport s out = .ok p → Tells info viewport p.out (p.missing = 0)) ∧
      ∀ canTell o r, run canTell o = .ok r →
        Tells o.image.info o.viewport r.out (r.warnings = []) := by
  refine ⟨⟨fun out hout cell hcell => ?_, fun hleft hidle => ?_, ?_⟩, ?_,
    fun canTell o r => complete_run⟩
  · obtain ⟨hfor, hlaid, hcells⟩ := Engine.answered_of_delivered hs huses hinto hout
    refine (hcells cell (hlaid.isCell hcell)).imp_left fun hshows => ⟨hshows, hshows.nonzeroIn, ?_⟩
    exact hlaid.not_blankIn (hfor.2 ▸ hpixel) hcell hshows
  · rw [(Engine.tally_run hs hpixel huses hinto).of_idle hidle, hleft]
    rfl
  · rintro before during out rfl hidle hidle' hleft hout
    exact Engine.complete_iff hs hpixel huses hinto hidle hidle' hleft hout
  · intro viewport s out p h hout hpass
    exact (complete_pass (create_with_runtime hs) hpixel h hout hpass).2

/-- Two cells, and the computation of the second is dropped. -/
theorem zeros_mark_missing_narrow :
    ∃ s out,
      Sink.create ⟨2, 1, 1, .uchar⟩ { Config.ofTileSize 1 1 with maxTiles := 1 } false false =
        .ok s ∧
      let moves := [.openPull ⟨0, 0, 2, 1⟩ (.empty ⟨2, 1, 1, .uchar⟩) ⟨_, rfl, rfl⟩, .advance 0 0,
        .begin 1, .finish 1 .pattern, .advance 0 0, .advance 0 0, .begin 2, .drop 2, .advance 0 0,
        .advance 0 0]
      Engine.collect Engine.deliveredBy (.ofSink s false) moves = [out] ∧
        ((Engine.ofSink s false).run moves).sink.zeroFilled = 1 ∧ out.blanks s.size = 1 ∧
        ¬ out.Shows Pattern.picture := by
  have told : ∀ {s : Sink} {moves : List Move} {out : Region},
      Sink.create ⟨2, 1, 1, .uchar⟩ { Config.ofTileSize 1 1 with maxTiles := 1 } false false =
        .ok s →
      (∀ n source, Move.finish n source ∈ moves → n = 1 ∧ source = .pattern) →
      (∀ rect out isRegion, Move.openPull rect out isRegion ∈ moves →
        rect = ⟨0, 0, 2, 1⟩ ∧ out = .empty ⟨2, 1, 1, .uchar⟩) →
      Engine.collect Engine.deliveredBy (.ofSink s false) moves = [out] →
      Engine.collect Engine.leftBy (.ofSink s false) moves = [] →
      ((Engine.ofSink s false).run moves).pulls = [] → s.zeroFilled = 0 →
      ((Engine.ofSink s false).run moves).sink.zeroFilled = 1 →
      Engine.collect Engine.deliveredBy (.ofSink s false) moves = [out] ∧
        ((Engine.ofSink s false).run moves).sink.zeroFilled = 1 ∧ out.blanks s.size = 1 ∧
        ¬ out.Shows Pattern.picture := by
    intro s moves out hs huses hinto hout hleft hidle hzero hone
    obtain ⟨hmarks, -⟩ := zeros_mark_missing hs (by decide)
      (fun n source hm => (huses n source hm).2)
      (fun rect out isRegion hm => (hinto rect out isRegion hm).2 ▸ ⟨rfl, rfl⟩)
    have hblanks := hmarks.counted hleft hidle
    obtain ⟨hnonzero, hshows⟩ := hmarks.alone [] moves out rfl rfl hidle hleft hout
    change _ - s.zeroFilled = 0 ↔ _ at hnonzero
    rw [hone, hzero] at hnonzero
    rw [hone, hout, List.map_singleton, List.sum_singleton] at hblanks
    exact ⟨hout, hone, hblanks.symm, fun h => Nat.one_ne_zero (hnonzero.2 (hshows.2 h))⟩
  exact ⟨_, _, rfl, told rfl (by simp) (by simp) rfl rfl rfl rfl rfl⟩

end TileCache.Program.Render
