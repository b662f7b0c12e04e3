import TileCache.Cache.Basic

/-!
# Sinks

A sink stands between an image and those who look at it.  It has one or two channels: the data
channel gives pixels, the mask channel tells where pixels are at hand.  With its last channel the
sink closes.  Here is what of a sink needs no computation: how it is made, the mask, and the
reports on its state.
-/

set_option autoImplicit false

namespace TileCache

/-- A sink on an image that is at `generation`. -/
structure Sink where
  config : Config
  cache : Cache
  generation : Nat
  /-- The channels that have not been dropped. -/
  attached : Nat
  /-- The cells that were answered with zeros. -/
  zeroFilled : Nat

/-- A tile as others may see it. -/
structure Probe where
  area : Rect
  state : String
  valid : Bool
  lastUsed : Nat

/-- The state of a sink in numbers. -/
structure Stats where
  tileWidth : Coord
  tileHeight : Coord
  maxTiles : Option Nat
  priority : Coord
  mode : Mode
  tiles : Nat
  indexed : Nat
  painted : Nat
  attached : Nat
  counters : Counters
  zeroFilled : Nat
  closed : Bool

/-- What filling a region without waiting comes to. -/
inductive Delivery
  | filled (out : Region)
  | refused (error : RegionError)
  | faulted (fault : Fault)

namespace Sink

/-- A sink on an image like `info`, with a mask channel or without.  Background computations need
somebody to run them. -/
def create (info : ImageInfo) (config : Config) (hasRuntime withMask : Bool) :
    Except ConfigError Sink := do
  let (size, budget) ← config.validate
  if config.mode = .background ∧ !hasRuntime then .error .noRuntime
  else
    .ok { config, cache := .create info size budget
          generation := 0, attached := if withMask then 2 else 1, zeroFilled := 0 }

def info (s : Sink) : ImageInfo := s.cache.info

def size (s : Sink) : TileSize := s.cache.size

def isClosed (s : Sink) : Bool := s.attached = 0

/-- Makes everything computed so far stale. -/
def invalidate (s : Sink) : Sink := { s with generation := s.generation + 1 }

/-- Drops one channel, and closes the cache with the last one. -/
def detach (s : Sink) : Sink :=
  match s.attached with
  | 0 => s
  | 1 => { s with attached := 0, cache := s.cache.close }
  | n + 1 => { s with attached := n }

/-! ## The mask -/

/-- What the mask shows for a cell when the image has been invalidated `amid` times since the cache
was locked. -/
def maskByte (s : Sink) (amid : Nat) (cell : Rect) : UInt8 :=
  if s.cache.isCached (s.generation + amid) cell.origin then 255 else 0

/-- Fills `out` with the mask of `rect`.  This computes nothing and counts as no use.

The cache is locked all the while, but an invalidation does not wait for that: by the time that a
cell is looked at the image was invalidated `amid cell` times. -/
def pullMask (s : Sink) (rect : Rect) (out : Region) (amid : Rect → Nat) : Delivery :=
  match out.buffer rect with
  | .error (.refused error) => .refused error
  | .error (.faulted fault) => .faulted fault
  | .ok out =>
    match (out.valid.cells s.size).foldlM
        (fun out cell => out.paint cell (s.maskByte (amid cell) cell)) out with
    | .ok out => .filled out
    | .error fault => .faulted fault

/-! ## Reports -/

def probeOf (s : Sink) (tile : Tile) : Probe :=
  { area := tile.area, state := tile.state.name
    valid := tile.isValid s.generation, lastUsed := tile.lastUsed }

/-- The tile of the cell that holds the point `(x, y)`. -/
def probe (s : Sink) (x y : Coord) : Option Probe :=
  (s.cache.tileAt? (s.size.cellAt x y).origin).map s.probeOf

/-- Every tile, the most recently used first. -/
def tiles (s : Sink) : List Probe := s.cache.listTiles.map s.probeOf

def stats (s : Sink) : Stats :=
  { tileWidth := s.size.width
    tileHeight := s.size.height
    maxTiles := s.cache.budget.limit?
    priority := s.config.priority
    mode := s.config.mode
    tiles := s.cache.tiles.size
    indexed := s.cache.index.size
    painted := s.cache.tiles.countP fun tile => tile.isPainted
    attached := s.attached
    counters := s.cache.counters
    zeroFilled := s.zeroFilled
    closed := s.isClosed }

def describeData (s : Sink) : String :=
  s!"DataChannel \x7b info: {s.info.describe}, closed: {s.isClosed} \x7d"

def describeMask (s : Sink) : String :=
  s!"MaskChannel \x7b info: {s.info.mask.describe}, closed: {s.isClosed} \x7d"

def describeImage (s : Sink) : String :=
  s!"Image \x7b info: {s.info.describe}, generation: {s.generation}, .. \x7d"

end Sink

end TileCache
