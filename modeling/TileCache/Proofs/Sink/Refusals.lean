import TileCache.Proofs.Sink.Alone
import TileCache.Sink.Session

/-!
# Buffers that are had and buffers that are refused

`Region.buffer` gives a new region or a setback, so it cannot even be said of it that it leaves a
region half changed.  What is done to a region in place is `Region.bufferInPlace`: first all checks,
then one field after the other.  It comes to the same (`run_bufferInPlace`), and so a region that
gets no buffer is as it was, in every field.

A region that gets a buffer is blank: it has the rectangle cut to the image, zeros for all its
bytes, and no stamp (`IsFor.isBlank_of_buffer`).  Whether it gets one is decided by the number of
bytes.  If these cannot be counted in a word of 64 bits the call breaks off
(`buffer_of_count_overflow`).  With up to four bytes a pixel they always can, whatever the image and
the rectangle.

A pull gets its buffer before it does anything else.  It is refused for no other reason, and without
a buffer neither its region nor anything of the session was touched (`pullInto_of_buffer_error`,
`pullMask_of_buffer_error`).
-/

set_option autoImplicit false

namespace TileCache

variable {info : ImageInfo} {r s : Region} {rect : Rect} {error : RegionError} {setback : Setback}

namespace Region

/-! ## In place -/

/-- Gives a region a buffer in place.  The old bytes are given up before the new ones are there. -/
def bufferInPlace (rect : Rect) : ExceptT Setback (StateM Region) Unit := do
  let r ← get
  let clipped := rect.intersect r.bounds
  if clipped.isEmpty then
    throw (.refused (.outsideImage rect r.bounds))
  else
    match r.byteCount clipped with
    | .error fault => throw (.faulted fault)
    | .ok requested =>
      if maxRegionBytes < requested then
        throw (.refused (.tooLarge requested maxRegionBytes))
      else
        modify fun r => { r with bytes := .empty }
        modify fun r => { r with bytes := Bytes.zeros requested }
        modify fun r => { r with valid := clipped }
        modify fun r => { r with stamp := none }

/-- **In place or not, it comes to the same.** -/
theorem run_bufferInPlace (r : Region) (rect : Rect) :
    (bufferInPlace rect).run.run r =
      match r.buffer rect with
      | .ok s => (.ok (), s)
      | .error setback => (.error setback, r) := by
  delta bufferInPlace buffer
  dsimp only
  rw [ExceptT.run_bind, StateT.run_bind]
  -- reading the region changes nothing, and then both sides make the same checks
  change StateT.run (ExceptT.run (ite _ _ _)) r = _
  split
  · rfl
  · cases r.byteCount (rect.intersect r.bounds) with
    | error fault => rfl
    | ok requested =>
      change StateT.run (ExceptT.run (ite _ _ _)) r = _
      dsimp only
      split <;> rfl

/-! ## What a buffer is -/

/-- The region has a new buffer of `count` bytes for `rect` cut to the image. -/
structure IsBlank (info : ImageInfo) (rect : Rect) (count : Nat) (s : Region) : Prop where
  isFor : s.IsFor info
  valid : s.valid = rect.intersect info.bounds
  nonempty : s.valid.isEmpty = false
  inside : s.valid.Inside info.bounds
  size : s.bytes.size = count
  zero : ∀ i, i < count → s.bytes[i]! = 0
  fresh : ∀ generation, s.isStale generation = false

/-- **A region that got a buffer is blank**, whatever it held and however it was stamped. -/
theorem IsFor.isBlank_of_buffer (h : r.IsFor info) (hb : r.buffer rect = .ok s) :
    IsBlank info rect ((rect.intersect info.bounds).area * info.bytesPerPixel) s := by
  obtain ⟨hne, -, rfl⟩ := buffer_eq_ok_iff.1 hb
  rw [h.1] at hne ⊢
  rw [h.2]
  exact {
    isFor := ⟨rfl, rfl⟩
    valid := rfl
    nonempty := hne
    inside := Rect.intersect_inside_right hne
    size := Bytes.size_zeros _
    zero := fun _ hi => Bytes.getElem!_zeros hi
    fresh := fun _ => rfl }

/-- What getting a buffer for `rect` may come to, for a region for images like `info` that was `r`
before, if `count` bytes are needed: an answer, and the region as it is then. -/
inductive Buffering (info : ImageInfo) (r : Region) (rect : Rect) (count : Nat) :
    Except Setback Unit × Region → Prop
  | outsideImage (h : (rect.intersect info.bounds).isEmpty = true) :
    Buffering info r rect count (.error (.refused (.outsideImage rect info.bounds)), r)
  | tooLarge (h : (rect.intersect info.bounds).isEmpty = false) (large : maxRegionBytes < count)
      (countable : count < 0x10000000000000000) :
    Buffering info r rect count (.error (.refused (.tooLarge count maxRegionBytes)), r)
  /-- The bytes cannot be counted. -/
  | broke (h : (rect.intersect info.bounds).isEmpty = false)
      (overflow : 0x10000000000000000 ≤ count) :
    Buffering info r rect count (.error (.faulted .countOverflow), r)
  | had (s : Region) (fits : count ≤ maxRegionBytes) (blank : IsBlank info rect count s) :
    Buffering info r rect count (.ok (), s)

/-- **All checks are made before anything is changed.** -/
theorem IsFor.buffering (h : r.IsFor info) (rect : Rect) :
    Buffering info r rect ((rect.intersect info.bounds).area * info.bytesPerPixel)
      ((bufferInPlace rect).run.run r) := by
  rw [run_bufferInPlace]
  cases hb : r.buffer rect with
  | ok s => exact .had s (fits_of_buffer h hb) (h.isBlank_of_buffer hb)
  | error setback =>
    cases setback with
    | refused error =>
      rw [buffer_eq_refused_iff, h.1, h.2] at hb
      rcases hb with ⟨hempty, rfl⟩ | ⟨hne, hlarge, hcount, rfl⟩
      · exact .outsideImage hempty
      · exact .tooLarge hne hlarge hcount
    | faulted fault =>
      rw [buffer_eq_faulted_iff, h.1, h.2] at hb
      obtain ⟨hne, hcount, rfl⟩ := hb
      exact .broke hne hcount

end Region

/-! ## Pulls without a buffer -/

/-- A pull cannot begin if there is no buffer for it. -/
theorem Engine.buffer_of_openPull_error {e : Engine} {out : Region}
    (h : e.openPull rect out = .error setback) : out.buffer rect = .error setback := by
  delta openPull Sink.openPull at h
  cases hb : out.buffer rect with
  | ok blank =>
    rw [hb] at h
    cases h
  | error other =>
    rw [hb] at h
    cases h
    rfl

/-- A mask cannot be refused if there is a buffer for it. -/
theorem Sink.buffer_of_refused {s : Sink} {out : Region} {amid : Rect → Nat}
    (h : s.pullMask rect out amid = .refused error) :
    out.buffer rect = .error (.refused error) := by
  delta pullMask at h
  cases hb : out.buffer rect with
  | ok blank =>
    rw [hb] at h
    dsimp only at h
    split at h <;> cases h
  | error other =>
    rw [hb] at h
    cases other with
    | refused other =>
      cases h
      rfl
    | faulted fault => cases h

namespace SessionOver

variable {σ κ : Type}

/-- **A mask without a buffer has changed nothing.** -/
theorem pullMask_of_buffer_error {s : SessionOver σ κ}
    (hb : s.maskOut.buffer rect = .error setback) :
    s.pullMask rect none = (s, .withoutBuffer s.maskOut setback) := by
  delta pullMask pullMaskInto Sink.pullMask
  dsimp only
  rw [hb]
  cases setback <;> rfl

/-- A mask that is refused has no buffer. -/
theorem buffer_of_pullMask_refused {s : SessionOver σ κ}
    (h : (s.pullMask rect none).2.outcome = .refused error) :
    s.maskOut.buffer rect = .error (.refused error) := by
  delta pullMask pullMaskInto at h
  dsimp only at h
  cases hm : s.sink.pullMask rect s.maskOut (fun _ => 0) with
  | filled out =>
    rw [hm] at h
    cases h
  | faulted fault =>
    rw [hm] at h
    cases h
  | refused other =>
    rw [hm] at h
    cases h
    exact Sink.buffer_of_refused hm

variable [Studio σ κ]

/-- A pull that has begun is not refused any more. -/
theorem outcome_drive (fuel : Nat) (s : SessionOver σ κ) (pull : Nat) (error : RegionError) :
    (drive fuel s pull).2.outcome ≠ .refused error := by
  induction fuel generalizing s with
  | zero => exact nofun
  | succ fuel ih =>
    rw [drive]
    dsimp only
    split
    · exact nofun
    · exact nofun
    · split
      · split
        · split
          · exact nofun
          · exact ih _
        · exact nofun
      · split
        · exact nofun
        · split
          · exact nofun
          · exact nofun
          · exact ih _

/-- **A pull without a buffer has changed nothing.** -/
theorem pullInto_of_buffer_error {out : Region} (hb : out.buffer rect = .error setback)
    (s : SessionOver σ κ) : s.pullInto rect out = (s, .withoutBuffer out setback) := by
  delta pullInto
  rw [Engine.openPull_of_buffer_error hb]

/-- A pull that is refused has no buffer. -/
theorem buffer_of_pullInto_refused {s : SessionOver σ κ} {out : Region}
    (h : (s.pullInto rect out).2.outcome = .refused error) :
    out.buffer rect = .error (.refused error) := by
  delta pullInto at h
  dsimp only at h
  cases ho : s.engine.openPull rect out with
  | ok opened =>
    rw [ho] at h
    exact absurd h (outcome_drive _ _ _ error)
  | error other =>
    rw [ho] at h
    cases other with
    | refused other =>
      cases h
      exact Engine.buffer_of_openPull_error ho
    | faulted fault => cases h

end SessionOver

/-! ## All together -/

/-- **Getting a buffer.**  For every image, every region for it in any state, and every rectangle:

* A region is refused a buffer where the rectangle has nothing of the image, and where more bytes
  are needed than a region may have, with their number in the answer.  The call breaks off if that
  number does not fit into a word of 64 bits.  In each of these cases the region is as it was.
  Otherwise it gets a blank buffer, for the rectangle cut to the image.
* With up to four bytes for each pixel the number always fits.
* A pull or a mask of any session is refused only if its region is.  If its region gets no buffer,
  for whatever reason, then the region and the session are as they were. -/
theorem Region.buffer_exact_or_untouched {σ κ : Type} [Studio σ κ] (h : r.IsFor info) (rect : Rect)
    (s : SessionOver σ κ) :
    let count := (rect.intersect info.bounds).area * info.bytesPerPixel
    Buffering info r rect count ((bufferInPlace rect).run.run r) ∧
      (info.bytesPerPixel ≤ 4 → count < 0x10000000000000000) ∧
      (∀ setback, ((bufferInPlace rect).run.run r).1 = .error setback →
        s.pullInto rect r = (s, .withoutBuffer r setback)) ∧
      (∀ error, (s.pullInto rect r).2.outcome = .refused error →
        ((bufferInPlace rect).run.run r).1 = .error (.refused error)) ∧
      (∀ setback, ((bufferInPlace rect).run.run s.maskOut).1 = .error setback →
        s.pullMask rect none = (s, .withoutBuffer s.maskOut setback)) ∧
      ∀ error, (s.pullMask rect none).2.outcome = .refused error →
        ((bufferInPlace rect).run.run s.maskOut).1 = .error (.refused error) := by
  have lacks : ∀ {out : Region} {setback : Setback},
      ((bufferInPlace rect).run.run out).1 = .error setback ↔ out.buffer rect = .error setback := by
    intro out setback
    rw [run_bufferInPlace]
    cases out.buffer rect <;> simp
  intro count
  refine ⟨h.buffering rect, fun hfour => ?_, fun setback hno => ?_, fun error hrefused => ?_,
    fun setback hno => ?_, fun error hrefused => ?_⟩
  · have hcount := h.count_lt hfour (rect.intersect info.bounds)
    rwa [h.2] at hcount
  · exact SessionOver.pullInto_of_buffer_error (lacks.1 hno) s
  · exact lacks.2 (SessionOver.buffer_of_pullInto_refused hrefused)
  · exact SessionOver.pullMask_of_buffer_error (lacks.1 hno)
  · exact lacks.2 (SessionOver.buffer_of_pullMask_refused hrefused)

/-- A region that has a pixel and a stamp is asked for one to the right of the image. -/
theorem Region.buffer_exact_or_untouched_narrow :
    ∃ s : Session, Session.start ⟨2, 1, 1, .uchar⟩ (Config.ofTileSize 1 1) ⟨.constant 1, [], 0⟩
        false true = .ok s ∧
      let r : Region := ⟨⟨0, 0, 2, 1⟩, 1, ⟨0, 0, 1, 1⟩, .mk #[5], some 0⟩
      let error : RegionError := .outsideImage ⟨2, 0, 1, 1⟩ ⟨0, 0, 2, 1⟩
      Buffering ⟨2, 1, 1, .uchar⟩ r ⟨2, 0, 1, 1⟩ 0 ((bufferInPlace ⟨2, 0, 1, 1⟩).run.run r) ∧
        s.pullInto ⟨2, 0, 1, 1⟩ r = (s, ⟨.refused error, r⟩) ∧
        s.pullMask ⟨2, 0, 1, 1⟩ none = (s, ⟨.refused error, s.maskOut⟩) := by
  refine ⟨_, rfl, ?_⟩
  dsimp only
  obtain ⟨hbuffering, -, hpull, -, hmask, -⟩ := @buffer_exact_or_untouched ⟨2, 1, 1, .uchar⟩
    ⟨⟨0, 0, 2, 1⟩, 1, ⟨0, 0, 1, 1⟩, .mk #[5], some 0⟩ Script Call _ ⟨rfl, rfl⟩ ⟨2, 0, 1, 1⟩ _
  exact ⟨hbuffering, hpull _ rfl, hmask _ rfl⟩

/-- **A call that should be refused breaks off.**  The pixels of this image need `2 ^ 64` bytes,
which is more than a region may have. -/
theorem Region.buffer_of_count_overflow :
    let info : ImageInfo := ⟨1073741824, 1073741824, 4, .float⟩
    (info.bounds.intersect info.bounds).isEmpty = false ∧
      maxRegionBytes < (info.bounds.intersect info.bounds).area * info.bytesPerPixel ∧
      (bufferInPlace info.bounds).run.run (.empty info) =
        (.error (.faulted .countOverflow), .empty info) :=
  ⟨rfl, by decide, rfl⟩

end TileCache
