import TileCache.Geometry.Rect

/-!
# The tile grid

The plane is divided into cells of one size, with a corner at the origin.  A cell is known by its
origin, a multiple of the cell size.  `Rect.cover` is the block of cells that a rectangle touches:
its first cell and how many columns and rows there are.  Cells are numbered row by row, so that
the list of them, any first part of it and its length all follow from one formula.
-/

set_option autoImplicit false

namespace TileCache

/-- The size of a grid cell.  Both sides are positive. -/
structure TileSize where
  width : Coord
  height : Coord
  width_pos : 0 < width.val
  height_pos : 0 < height.val
deriving DecidableEq

/-- The origin of a grid cell, by which the cell is known. -/
structure Origin where
  left : Coord
  top : Coord
deriving DecidableEq, Inhabited

def Rect.origin (r : Rect) : Origin := ⟨r.left, r.top⟩

namespace TileSize

def of? (width height : Coord) : Option TileSize :=
  if h : 0 < width.val ∧ 0 < height.val then some ⟨width, height, h.1, h.2⟩ else none

/-- `v` rounded down to a multiple of `length`. -/
def roundDown (length v : Coord) : Coord := .wrap (v.val / length.val * length.val)

/-- The cell that holds the point `(x, y)`. -/
def cellAt (size : TileSize) (x y : Coord) : Rect :=
  ⟨roundDown size.width x, roundDown size.height y, size.width, size.height⟩

end TileSize

/-- A block of grid cells: the origin of the first one and the number of columns and rows. -/
structure Cover where
  size : TileSize
  first : Origin
  columns : Nat
  rows : Nat

/-- How many steps of `length` from `first` begin before `last`. -/
def stepsBefore (first last length : Coord) : Nat :=
  ((last.val - first.val + length.val - 1) / length.val).toNat

/-- The cells that `r` touches.  The first one holds the origin of `r`.  A row always has its
first cell, also when `r` begins at the last column of the plane and so has no point in it. -/
def Rect.cover (r : Rect) (size : TileSize) : Cover :=
  let first := (size.cellAt r.left r.top).origin
  { size, first
    columns := max 1 (stepsBefore first.left r.right size.width)
    rows := if r.isEmpty then 0 else stepsBefore first.top r.bottom size.height }

namespace Cover

def count (c : Cover) : Nat := c.rows * c.columns

/-- The cell with number `i`, counted row by row from zero. -/
def cell (c : Cover) (i : Nat) : Rect :=
  { left := .clamp (c.first.left.val + (i % c.columns : Nat) * c.size.width.val)
    top := .clamp (c.first.top.val + (i / c.columns : Nat) * c.size.height.val)
    width := c.size.width
    height := c.size.height }

/-- The first `n` cells, or all if there are fewer. -/
def take (c : Cover) (n : Nat) : List Rect := (List.range (min n c.count)).map c.cell

/-- All cells, row by row and from left to right. -/
def toList (c : Cover) : List Rect := (List.range c.count).map c.cell

theorem toList_eq_take (c : Cover) : c.toList = c.take c.count := by
  simp [toList, take]

@[simp]
theorem length_toList (c : Cover) : c.toList.length = c.count := by
  simp [toList]

end Cover

/-- The grid cells that `r` touches, row by row and from left to right. -/
def Rect.cells (r : Rect) (size : TileSize) : List Rect := (r.cover size).toList

theorem Rect.cells_of_isEmpty {r : Rect} (h : r.isEmpty = true) (size : TileSize) :
    r.cells size = [] := by
  simp [cells, cover, Cover.toList, Cover.count, h]

end TileCache
