import TileCache.Geometry.Coord

/-!
# Rectangles

A rectangle is given by its origin and its size, in coordinates of 32 bits.  Its far edges stop at
the largest coordinate, so a rectangle near the end of the plane is cut short instead of coming
back at the other end.  `contains` is the point set that a rectangle stands for; `intersect` and
`includes` are the computations on edges that go with it.
-/

set_option autoImplicit false

namespace TileCache

/-- An axis-aligned rectangle.  With a width or height that is not positive it is empty. -/
structure Rect where
  left : Coord
  top : Coord
  width : Coord
  height : Coord
deriving DecidableEq, Inhabited

namespace Rect

/-- One past the last column, at most the largest coordinate. -/
def right (r : Rect) : Coord := .clamp (r.left.val + r.width.val)

/-- One past the last row, at most the largest coordinate. -/
def bottom (r : Rect) : Coord := .clamp (r.top.val + r.height.val)

def isEmpty (r : Rect) : Bool := r.width.val ≤ 0 || r.height.val ≤ 0

/-- The number of pixels that the size announces, none for an empty rectangle. -/
def area (r : Rect) : Nat :=
  if r.isEmpty then 0 else r.width.val.toNat * r.height.val.toNat

def contains (r : Rect) (x y : Coord) : Bool :=
  r.left ≤ x && x < r.right && r.top ≤ y && y < r.bottom

/-- Does `other` lie inside `r`?  An empty rectangle lies inside every other. -/
def includes (r other : Rect) : Bool :=
  other.isEmpty ||
    (r.left ≤ other.left && r.top ≤ other.top &&
      other.right ≤ r.right && other.bottom ≤ r.bottom)

/-- The length from `first` up to `last`, zero when they are the wrong way round. -/
def span (first last : Coord) : Coord :=
  .clamp (max 0 (last.val - first.val))

/-- The overlap of two rectangles.  Where they are disjoint the result is empty, and its origin is
still the larger of both origins. -/
def intersect (a b : Rect) : Rect :=
  let left := max a.left b.left
  let top := max a.top b.top
  { left, top
    width := span left (min a.right b.right)
    height := span top (min a.bottom b.bottom) }

/-- The text of a rectangle: its size, then its origin. -/
instance : ToString Rect :=
  ⟨fun r => s!"{r.width}x{r.height}+{r.left}+{r.top}"⟩

theorem isEmpty_iff {r : Rect} : r.isEmpty = true ↔ r.width.val ≤ 0 ∨ r.height.val ≤ 0 := by
  simp [isEmpty]

theorem contains_iff {r : Rect} {x y : Coord} :
    r.contains x y = true ↔
      r.left.val ≤ x.val ∧ x.val < r.right.val ∧ r.top.val ≤ y.val ∧ y.val < r.bottom.val := by
  simp [contains, Coord.le_iff, Coord.lt_iff, and_assoc]

theorem intersect_comm (a b : Rect) : a.intersect b = b.intersect a := by
  have h₁ : max a.left b.left = max b.left a.left :=
    Coord.ext (by simp only [Coord.val_max]; omega)
  have h₂ : max a.top b.top = max b.top a.top :=
    Coord.ext (by simp only [Coord.val_max]; omega)
  have h₃ : min a.right b.right = min b.right a.right :=
    Coord.ext (by simp only [Coord.val_min]; omega)
  have h₄ : min a.bottom b.bottom = min b.bottom a.bottom :=
    Coord.ext (by simp only [Coord.val_min]; omega)
  simp only [intersect, h₁, h₂, h₃, h₄]

end Rect

end TileCache
