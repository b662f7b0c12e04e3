import TileCache.Geometry.Grid

/-!
# Configuration of a sink

What somebody asks for when a sink is made, and what of it is accepted.  Only an accepted
configuration gives a `TileSize` and a `Budget`, so nothing behind this point sees a tile without
width or a budget that does not allow a single tile.
-/

set_option autoImplicit false

namespace TileCache

/-- Who computes missing tiles. -/
inductive Mode
  /-- The pull that misses a tile waits for it. -/
  | synchronous
  /-- The pull goes on without the tile, which is computed meanwhile. -/
  | background
deriving DecidableEq, Inhabited

def Mode.name : Mode → String
  | synchronous => "Synchronous"
  | background => "Background"

/-- Why a sink cannot be made. -/
inductive ConfigError
  | invalidTileSize (width height : Coord)
  | invalidMaxTiles (count : Int)
  /-- There is nobody to compute tiles in the background. -/
  | noRuntime
deriving DecidableEq

def ConfigError.message : ConfigError → String
  | invalidTileSize width height =>
    s!"Invalid tile size {width}x{height}: tile dimensions must be positive"
  | invalidMaxTiles count =>
    s!"Invalid max_tiles {count}: expected -1 (unbounded) or a non-negative count"
  | noRuntime => "Background rendering requires a running Tokio runtime"

/-- How many tiles a cache may have.  One tile is always allowed. -/
inductive Budget
  | unbounded
  | bounded (limit : Nat) (pos : 0 < limit)
deriving DecidableEq, Inhabited

namespace Budget

/-- The budget that a count stands for: `-1` for no bound, and `0` still for one tile. -/
def ofCount (count : Int) : Except ConfigError Budget :=
  if count = -1 then .ok .unbounded
  else if count < 0 then .error (.invalidMaxTiles count)
  else .ok (.bounded (max 1 count.toNat) (by omega))

def limit? : Budget → Option Nat
  | unbounded => none
  | bounded limit _ => some limit

/-- May a cache that has `tiles` tiles get another one? -/
def allows (budget : Budget) (tiles : Nat) : Bool :=
  match budget with
  | unbounded => true
  | bounded limit _ => tiles < limit

/-- The text of the limit. -/
def describe (budget : Budget) : String :=
  match budget with
  | unbounded => "unbounded"
  | bounded limit _ => toString limit

theorem ofCount_eq_error_iff {count : Int} {e : ConfigError} :
    ofCount count = .error e ↔ count < -1 ∧ e = .invalidMaxTiles count := by
  unfold ofCount
  split
  · simp only [reduceCtorEq, false_iff]; omega
  · split
    · simp only [Except.error.injEq]
      exact ⟨fun h => ⟨by omega, h.symm⟩, fun h => h.2.symm⟩
    · simp only [reduceCtorEq, false_iff]; omega

end Budget

/-- What is asked for when a sink is made.  The priority is only reported, never acted on. -/
structure Config where
  tileWidth : Coord
  tileHeight : Coord
  maxTiles : Int
  priority : Coord
  mode : Mode
  notify : Bool
deriving DecidableEq

namespace Config

/-- A synchronous sink without a bound on its tiles. -/
def ofTileSize (width height : Coord) : Config :=
  { tileWidth := width, tileHeight := height, maxTiles := -1, priority := 0
    mode := .synchronous, notify := false }

/-- At most 256 tiles of 128 by 128 pixels. -/
def default : Config := { ofTileSize 128 128 with maxTiles := 256 }

instance : Inhabited Config := ⟨default⟩

/-- The tile size and the budget, if both make sense.  The tile size is looked at first. -/
def validate (config : Config) : Except ConfigError (TileSize × Budget) :=
  match TileSize.of? config.tileWidth config.tileHeight with
  | none => .error (.invalidTileSize config.tileWidth config.tileHeight)
  | some size => do
    let budget ← Budget.ofCount config.maxTiles
    .ok (size, budget)

/-- The fields in order, as a diagnostic shows them. -/
def describe (config : Config) : String :=
  s!"SinkConfig \x7b tile_width: {config.tileWidth}, tile_height: {config.tileHeight}, " ++
    s!"max_tiles: {config.maxTiles}, priority: {config.priority}, " ++
    s!"mode: {config.mode.name}, notify: {config.notify} \x7d"

end Config

end TileCache
