import TileCache.Geometry.Rect

/-!
# Image formats

What is known of an image before any of its pixels: how large it is and how a pixel is stored.
-/

set_option autoImplicit false

namespace TileCache

/-- How one sample of a pixel is stored. -/
inductive SampleFormat
  | uchar
  | ushort
  | float
deriving DecidableEq, Inhabited

namespace SampleFormat

/-- The bytes of one sample. -/
def size : SampleFormat → Nat
  | uchar => 1
  | ushort => 2
  | float => 4

def name : SampleFormat → String
  | uchar => "UChar"
  | ushort => "UShort"
  | float => "Float"

end SampleFormat

/-- The size of an image and the format of its pixels: `bands` samples each. -/
structure ImageInfo where
  width : Coord
  height : Coord
  bands : UInt8
  format : SampleFormat
deriving DecidableEq, Inhabited

namespace ImageInfo

/-- The rectangle of the whole image, whose origin is zero. -/
def bounds (info : ImageInfo) : Rect := ⟨0, 0, info.width, info.height⟩

def bytesPerPixel (info : ImageInfo) : Nat := info.bands.toNat * info.format.size

/-- An image of the same size with one byte for each pixel. -/
def mask (info : ImageInfo) : ImageInfo :=
  { info with bands := 1, format := .uchar }

/-- The fields in order, as a diagnostic shows them. -/
def describe (info : ImageInfo) : String :=
  s!"ImageInfo \x7b width: {info.width}, height: {info.height}, bands: {info.bands}, " ++
    s!"format: {info.format.name} \x7d"

@[simp]
theorem bytesPerPixel_mask (info : ImageInfo) : info.mask.bytesPerPixel = 1 := rfl

@[simp]
theorem bounds_mask (info : ImageInfo) : info.mask.bounds = info.bounds := rfl

end ImageInfo

end TileCache
