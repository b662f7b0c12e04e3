import TileCache.Geometry.Grid
import TileCache.Pixels.Region

/-!
# Tiles

A tile stands for one cell of the grid and has a buffer for the pixels of that cell, except while
a computation fills the buffer: then the computation has it and the tile has none.  The state of a
tile says what its buffer is worth.  State and buffer are kept side by side and change together:
`checkout?` takes the buffer away, `checkin` gives it back.
-/

set_option autoImplicit false

namespace TileCache

/-- What the buffer of a tile is worth. -/
inductive TileState
  /-- It has no usable pixels: it is new, was moved to another cell, or was left by a failure. -/
  | blank
  /-- It is not here: a computation has it. -/
  | computing
  /-- It has the computed pixels of the cell. -/
  | painted
deriving DecidableEq

def TileState.name : TileState → String
  | blank => "Blank"
  | computing => "Computing"
  | painted => "Painted"

/-- A tile: its cell, its buffer, what that is worth, and the tick of the clock at its last use. -/
structure Tile where
  area : Rect
  region? : Option Region
  state : TileState
  lastUsed : Nat

namespace Tile

/-- A tile for `cell` that holds no pixels yet. -/
def create (info : ImageInfo) (cell : Rect) : Except Setback Tile := do
  let region ← (Region.empty info).buffer cell
  .ok { area := cell, region? := some region, state := .blank, lastUsed := 0 }

def isComputing (t : Tile) : Bool := t.state = .computing

def isPainted (t : Tile) : Bool := t.state = .painted

/-- Was the buffer filled at another generation than `generation`? -/
def isStale (t : Tile) (generation : Nat) : Bool := t.region?.any (·.isStale generation)

/-- Does the tile hold pixels that were computed at the current generation? -/
def isValid (t : Tile) (generation : Nat) : Bool := t.isPainted && !t.isStale generation

/-- The tile with its buffer made ready for another cell.  Its pixels are given up. -/
def moveTo (t : Tile) (cell : Rect) : Except Setback Tile :=
  match t.region? with
  | none => .ok { t with area := cell, state := .blank }
  | some old => do
    let region ← old.buffer cell
    .ok { t with area := cell, region? := some region, state := .blank }

/-- The buffer, for a computation, and the tile without it.  There is none if a computation has
it already. -/
def checkout? (t : Tile) : Option (Region × Tile) :=
  t.region?.map fun region => (region, { t with region? := none, state := .computing })

/-- The tile with the buffer that a computation gives back, `painted` or not. -/
def checkin (t : Tile) (region : Region) (painted : Bool) : Tile :=
  { t with region? := some region, state := if painted then .painted else .blank }

/-- Answers the part of `out` that lies in the cell: with the pixels of the tile if they are
valid, else with zeros.  Says which of both it was. -/
def copyTo (t : Tile) (generation : Nat) (out : Region) : Except Fault (Region × Bool) :=
  let overlap := t.area.intersect out.valid
  match t.region? with
  | some region =>
    if t.isValid generation then (out.copyFrom region overlap).map (·, true)
    else (out.paint overlap 0).map (·, false)
  | none => (out.paint overlap 0).map (·, false)

end Tile

end TileCache
