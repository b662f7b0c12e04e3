import TileCache.Pixels.Bytes
import TileCache.Pixels.Error
import TileCache.Pixels.Format

/-!
# Regions of pixels

A region is a buffer for a part of an image.  `Region.buffer` gives it a rectangle, cut to the
image, and as many zero bytes as the pixels of that rectangle need; the rectangle is then `valid`.
Pixels are packed row by row, without a gap between rows.

The bytes are counted in a word of 64 bits.  For images of absurd size the count does not fit, and
then it is a `Fault` to ask for the buffer, though a smaller count above `maxRegionBytes` is
answered with an error.  The rows that a caller asks for are the caller's promise: every access
states that they end inside the buffer and is a `Fault` where they do not.

A region whose pixels were computed carries a `stamp`, the generation of the image at which the
computation began.  It is stale once the image has moved on to another generation.
-/

set_option autoImplicit false

namespace TileCache

/-- The most bytes that one region may have. -/
def maxRegionBytes : Nat := 1024 * 1024 * 1024

/-- A buffer for the pixels of `valid`, a part of the image that covers `bounds`. -/
structure Region where
  bounds : Rect
  pixelSize : Nat
  valid : Rect
  bytes : ByteArray
  stamp : Option Nat
deriving Inhabited

namespace Region

/-- A region for images like `info` that holds no pixel yet. -/
def empty (info : ImageInfo) : Region :=
  { bounds := info.bounds, pixelSize := info.bytesPerPixel
    valid := ⟨0, 0, 0, 0⟩, bytes := .empty, stamp := none }

/-- The bytes that the pixels of `rect` need. -/
def byteCount (r : Region) (rect : Rect) : Except Fault Nat := countInWord (rect.area * r.pixelSize)

/-- The region with a buffer of zeros for `rect` cut to the image.  What it held before is
discarded, and so is the stamp. -/
def buffer (r : Region) (rect : Rect) : Except Setback Region :=
  let clipped := rect.intersect r.bounds
  if clipped.isEmpty then .error (.refused (.outsideImage rect r.bounds))
  else
    match r.byteCount clipped with
    | .error fault => .error (.faulted fault)
    | .ok requested =>
      if maxRegionBytes < requested then .error (.refused (.tooLarge requested maxRegionBytes))
      else .ok { r with valid := clipped, bytes := Bytes.zeros requested, stamp := none }

/-! ## Where pixels lie -/

/-- The bytes between the beginnings of neighbouring rows. -/
def stride (r : Region) : Nat := r.valid.width.val.toNat * r.pixelSize

/-- The place of the first byte of pixel `(x, y)`, for a pixel of `valid`. -/
def place (r : Region) (x y : Coord) : Nat :=
  (y.val - r.valid.top.val).toNat * r.stride + (x.val - r.valid.left.val).toNat * r.pixelSize

def offset (r : Region) (x y : Coord) : Except Fault Nat :=
  if r.valid.contains x y then .ok (r.place x y) else .error (.pixelOutside x y r.valid)

/-- Where `width` pixels of row `y` from column `x` on begin and how many bytes they are.  Only
the buffer bounds them, not the row: pixels past the end of the row are those of the next one. -/
def run (r : Region) (x y width : Coord) : Except Fault (Nat × Nat) := do
  let start ← r.offset x y
  let length := width.val * r.pixelSize
  if 0 ≤ length ∧ start + length ≤ r.bytes.size then .ok (start, length.toNat)
  else .error .rowOutside

/-- The bytes of `width` pixels of row `y` from column `x` on. -/
def row (r : Region) (x y width : Coord) : Except Fault ByteArray := do
  let (start, length) ← r.run x y width
  .ok (r.bytes.extract start (start + length))

/-- The bytes of pixel `(x, y)`. -/
def pixel (r : Region) (x y : Coord) : Except Fault ByteArray := r.row x y 1

/-- The region with byte `k` of `width` pixels of row `y` from column `x` on replaced by `f k`. -/
@[inline]
def setRow (r : Region) (x y width : Coord) (f : Nat → UInt8) : Except Fault Region := do
  let (start, length) ← r.run x y width
  .ok { r with bytes := Bytes.writeFrom f start length 0 r.bytes }

/-! ## Writing blocks -/

/-- Does every row of `area`, a part of `valid` with at least one pixel, end inside the buffer? -/
def holds (r : Region) (area : Rect) : Bool :=
  r.place area.left area.top + (area.height.val.toNat - 1) * r.stride
    + area.width.val.toNat * r.pixelSize ≤ r.bytes.size

/-- The region with byte `k` of row `j` of `area` replaced by `f j k`, for an `area` that it
holds. -/
@[inline]
def setBlock (r : Region) (area : Rect) (f : Nat → Nat → UInt8) : Region :=
  { r with
    bytes := Bytes.writeRows f (r.place area.left area.top) r.stride
      (area.width.val.toNat * r.pixelSize) area.height.val.toNat 0 r.bytes }

/-- Sets every byte of the pixels of `rect` that are held to `value`. -/
def paint (r : Region) (rect : Rect) (value : UInt8) : Except Fault Region :=
  let area := rect.intersect r.valid
  if area.isEmpty then .ok r
  else if r.holds area then .ok (r.setBlock area fun _ _ => value)
  else .error .rowOutside

/-- Replaces the pixels of `rect` that both regions hold by those of `source`. -/
def copyFrom (r source : Region) (rect : Rect) : Except Fault Region :=
  let area := (rect.intersect r.valid).intersect source.valid
  if area.isEmpty then .ok r
  else if r.pixelSize ≠ source.pixelSize then .error .pixelSizes
  else if r.holds area && source.holds area then
    let start := source.place area.left area.top
    .ok (r.setBlock area fun j k => source.bytes.get! (start + j * source.stride + k))
  else .error .rowOutside

/-! ## Freshness -/

/-- Were the pixels computed at another generation than `generation`?  Pixels that were never
computed are not stale. -/
def isStale (r : Region) (generation : Nat) : Bool :=
  match r.stamp with
  | none => false
  | some computedAt => computedAt != generation

/-! ## What writing leaves alone -/

/-- All that asking for a buffer can come to. -/
theorem buffer_eq (r : Region) (rect : Rect) :
    r.buffer rect =
      let clipped := rect.intersect r.bounds
      let count := clipped.area * r.pixelSize
      if clipped.isEmpty then .error (.refused (.outsideImage rect r.bounds))
      else if 0x10000000000000000 ≤ count then .error (.faulted .countOverflow)
      else if maxRegionBytes < count then .error (.refused (.tooLarge count maxRegionBytes))
      else .ok { r with valid := clipped, bytes := Bytes.zeros count, stamp := none } := by
  dsimp only [buffer, byteCount, countInWord]
  split
  · rfl
  · by_cases hcount : (rect.intersect r.bounds).area * r.pixelSize < 0x10000000000000000
    · rw [if_pos hcount, if_neg (Nat.not_le.2 hcount)]
    · rw [if_neg hcount, if_pos (Nat.not_lt.1 hcount)]

theorem buffer_eq_ok_iff {r s : Region} {rect : Rect} :
    r.buffer rect = .ok s ↔
      (rect.intersect r.bounds).isEmpty = false ∧
      (rect.intersect r.bounds).area * r.pixelSize ≤ maxRegionBytes ∧
      s = { r with
            valid := rect.intersect r.bounds
            bytes := Bytes.zeros ((rect.intersect r.bounds).area * r.pixelSize)
            stamp := none } := by
  have hmax : maxRegionBytes < 0x10000000000000000 := by decide
  rw [buffer_eq]
  dsimp only
  cases hempty : (rect.intersect r.bounds).isEmpty with
  | true => simp
  | false =>
    generalize (rect.intersect r.bounds).area * r.pixelSize = count
    rw [if_neg Bool.false_ne_true, and_iff_right rfl]
    by_cases hcount : count ≤ maxRegionBytes
    · rw [if_neg (by omega), if_neg (by omega), and_iff_right hcount, Except.ok.injEq, eq_comm]
    · rw [iff_false_right fun h => hcount h.1]
      split
      · exact nofun
      · rw [if_pos (by omega)]
        exact nofun

/-- A buffer is refused outside of the image, and when it would be too large. -/
theorem buffer_eq_refused_iff {r : Region} {rect : Rect} {error : RegionError} :
    r.buffer rect = .error (.refused error) ↔
      ((rect.intersect r.bounds).isEmpty = true ∧ error = .outsideImage rect r.bounds) ∨
        (rect.intersect r.bounds).isEmpty = false ∧
          maxRegionBytes < (rect.intersect r.bounds).area * r.pixelSize ∧
          (rect.intersect r.bounds).area * r.pixelSize < 0x10000000000000000 ∧
          error = .tooLarge ((rect.intersect r.bounds).area * r.pixelSize) maxRegionBytes := by
  rw [buffer_eq]
  dsimp only
  cases hempty : (rect.intersect r.bounds).isEmpty with
  | true => simp [eq_comm]
  | false =>
    by_cases hcount : 0x10000000000000000 ≤ (rect.intersect r.bounds).area * r.pixelSize
    · simp [hcount, Nat.not_lt.2 hcount]
    · by_cases hlarge : maxRegionBytes < (rect.intersect r.bounds).area * r.pixelSize
      · simp [hcount, hlarge, Nat.not_le.1 hcount, eq_comm]
      · simp [hcount, hlarge]

/-- Asking for a buffer breaks off when its bytes cannot be counted, and only then. -/
theorem buffer_eq_faulted_iff {r : Region} {rect : Rect} {fault : Fault} :
    r.buffer rect = .error (.faulted fault) ↔
      (rect.intersect r.bounds).isEmpty = false ∧
        0x10000000000000000 ≤ (rect.intersect r.bounds).area * r.pixelSize ∧
        fault = .countOverflow := by
  rw [buffer_eq]
  dsimp only
  cases hempty : (rect.intersect r.bounds).isEmpty with
  | true => simp
  | false =>
    by_cases hcount : 0x10000000000000000 ≤ (rect.intersect r.bounds).area * r.pixelSize
    · simp [hcount, eq_comm]
    · by_cases hlarge : maxRegionBytes < (rect.intersect r.bounds).area * r.pixelSize
      · simp [hcount, hlarge]
      · simp [hcount, hlarge]

theorem setBlock_eq (r : Region) (area : Rect) (f : Nat → Nat → UInt8) :
    r.setBlock area f = { r with bytes := (r.setBlock area f).bytes } := rfl

@[simp]
theorem size_bytes_setBlock (r : Region) (area : Rect) (f : Nat → Nat → UInt8) :
    (r.setBlock area f).bytes.size = r.bytes.size := by
  simp [setBlock]

theorem valid_paint {r s : Region} {rect : Rect} {value : UInt8} (h : r.paint rect value = .ok s) :
    s.valid = r.valid := by
  simp only [paint] at h
  split at h
  · cases h; rfl
  · split at h
    · cases h; rfl
    · cases h

theorem valid_copyFrom {r s source : Region} {rect : Rect}
    (h : r.copyFrom source rect = .ok s) : s.valid = r.valid := by
  simp only [copyFrom] at h
  split at h
  · cases h; rfl
  · split at h
    · cases h
    · split at h
      · cases h; rfl
      · cases h

end Region

end TileCache
