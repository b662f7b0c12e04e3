import TileCache.Pixels.Region

/-!
# The test pattern

A picture that can be computed at every point on its own.  None of its bytes is zero, so a zero
byte in the output of a sink always means a pixel that was not computed.
-/

set_option autoImplicit false

namespace TileCache.Pattern

/-- Byte number `byte` of the pixel whose coordinates are `x` and `y` modulo `2 ^ 32`, between 1 and
255.  The arithmetic is that of words of 32 bits. -/
def wordValue (x y : UInt32) (byte : Nat) : UInt8 :=
  let mixed := (x * 3 ^^^ y * 5) + UInt32.ofNat byte * 85
  (1 + mixed % 255).toUInt8

/-- Byte number `byte` of the pixel at `(x, y)`. -/
def value (x y : Int) (byte : Nat) : UInt8 := wordValue (.ofInt x) (.ofInt y) byte

/-- The region with the pattern in all its pixels. -/
def paint (r : Region) : Except Fault Region :=
  let area := r.valid
  let pixelSize := r.pixelSize
  let left := UInt32.ofInt area.left.val
  let top := UInt32.ofInt area.top.val
  if area.isEmpty then .ok r
  else if r.holds area then
    .ok (r.setBlock area fun j k =>
      wordValue (left + .ofNat (k / pixelSize)) (top + .ofNat j) (k % pixelSize))
  else .error .rowOutside

theorem wordValue_ne_zero (x y : UInt32) (byte : Nat) : wordValue x y byte ≠ 0 := by
  intro h
  have h' := congrArg UInt8.toNat h
  simp only [wordValue, UInt32.toNat_toUInt8, UInt32.toNat_add, UInt32.toNat_mod,
    UInt8.toNat_zero, UInt32.toNat_one] at h'
  have := Nat.mod_lt ((x * 3 ^^^ y * 5) + UInt32.ofNat byte * 85).toNat
    (show 0 < (255 : UInt32).toNat by decide)
  have h255 : (255 : UInt32).toNat = 255 := rfl
  simp only [UInt32.toNat_add, h255] at this
  simp only [h255] at h'
  omega

theorem value_ne_zero (x y : Int) (byte : Nat) : value x y byte ≠ 0 :=
  wordValue_ne_zero _ _ _

end TileCache.Pattern
