import TileCache.Geometry.Rect

/-!
# What can go wrong with pixels

Three kinds of trouble are told apart.  A `RegionError` is an answer: a buffer cannot be had for a
rectangle.  A `SourceError` is how a computation of pixels reports that it failed.  A `Fault` is a
broken promise of the caller, such as asking for a pixel that is not there; it ends the activity
in which it happens.

What asks for a buffer can get an error for an answer, and can break off: a `Setback` is either.
-/

set_option autoImplicit false

namespace TileCache

/-- Why a buffer cannot be had. -/
inductive RegionError
  /-- The rectangle has no pixel in common with the image. -/
  | outsideImage (rect bounds : Rect)
  /-- The buffer would need more bytes than one region may have. -/
  | tooLarge (requested limit : Nat)
deriving DecidableEq

def RegionError.message : RegionError → String
  | outsideImage rect bounds => s!"Region {rect} does not intersect image bounds {bounds}"
  | tooLarge requested limit =>
    s!"Region buffer too large: {requested} bytes requested, limit is {limit} bytes"

/-- Why a computation of pixels failed. -/
inductive SourceError
  /-- It could not get the buffer it wanted. -/
  | region (error : RegionError)
  /-- The computation for `rect` itself failed. -/
  | compute (rect : Rect) (reason : String)
deriving DecidableEq

def SourceError.message : SourceError → String
  | region error => s!"Region error: {error.message}"
  | compute rect reason => s!"Computation failed for {rect}: {reason}"

/-- A broken promise. -/
inductive Fault
  /-- A pixel was asked for that the region does not hold. -/
  | pixelOutside (x y : Coord) (valid : Rect)
  /-- A row was asked for that does not end inside the buffer. -/
  | rowOutside
  /-- Pixels were to be copied between regions whose pixels differ in size. -/
  | pixelSizes
  /-- A computation of pixels broke off without an answer. -/
  | brokenSource
  /-- A number does not fit into a word of 64 bits. -/
  | countOverflow
  /-- A pull did not come to its end. -/
  | stalled
deriving DecidableEq

/-- The text of a fault, where it has one. -/
def Fault.message? : Fault → Option String
  | pixelOutside x y valid => some s!"pixel ({x}, {y}) outside region {valid}"
  | _ => none

/-- A number that has to fit into a word of 64 bits. -/
def countInWord (count : Nat) : Except Fault Nat :=
  if count < 0x10000000000000000 then .ok count else .error .countOverflow

theorem countInWord_eq_ok_iff {count n : Nat} :
    countInWord count = .ok n ↔ count < 0x10000000000000000 ∧ n = count := by
  rw [countInWord]
  split
  · rename_i h; simp [h, eq_comm]
  · rename_i h; simp [h]

/-- Why something that needs a buffer was not done. -/
inductive Setback
  /-- The buffer was refused. -/
  | refused (error : RegionError)
  /-- It broke off. -/
  | faulted (fault : Fault)
deriving DecidableEq

end TileCache
