import TileCache.Cache.Config
import TileCache.Cache.Recency
import TileCache.Cache.Tile
import TileCache.Pixels.Source

/-!
# The cache of tiles

A cache holds tiles for cells of the grid, at most as many as its budget allows.  `Cache.acquire`
is the one way to a tile for a cell:

* a cell whose tile is painted and not stale is a hit;
* a cell whose tile is being computed is answered with that tile as it is;
* any other cell of the cache is computed again in place;
* a cell without a tile gets a new one while the budget lasts, and afterwards the tile that was
  not used for longest among those that nobody is computing.

Whenever pixels have to be computed, the buffer leaves the tile as a `Job`.  A job comes back in
one of two ways, by `Cache.complete` with the end of a computation or by `Cache.abandon` after a
computation that broke off.  The image's generation is no part of the cache: it can change at any
moment, and every operation that looks at pixels is told the current one.
-/

set_option autoImplicit false

namespace TileCache

/-- What happened in a cache. -/
structure Counters where
  hits : Nat := 0
  computes : Nat := 0
  evictions : Nat := 0
  computeFailures : Nat := 0
  allocationFailures : Nat := 0
  exhausted : Nat := 0
deriving DecidableEq, Inhabited

/-- Tiles, the order of their use, and counts of what happened.  A closed cache has given up its
tiles and answers nothing any more. -/
structure Cache where
  info : ImageInfo
  size : TileSize
  budget : Budget
  isOpen : Bool
  tiles : Array Tile
  index : Recency
  clock : Nat
  counters : Counters

/-- A computation to be done: the number of the tile, its cell, and the tile's buffer. -/
structure Job where
  tile : Nat
  area : Rect
  region : Region

/-- What a request for a cell comes to. -/
inductive Acquired
  /-- There is a tile, painted or being computed by somebody else. -/
  | ready (tile : Nat)
  /-- The tile has to be computed, by whoever got this answer. -/
  | compute (job : Job)
  /-- There is no tile to be had. -/
  | unavailable
  /-- The request broke off. -/
  | broke (fault : Fault)

namespace Cache

/-- An open cache without tiles. -/
def create (info : ImageInfo) (size : TileSize) (budget : Budget) : Cache :=
  { info, size, budget
    isOpen := true, tiles := #[], index := .empty, clock := 0, counters := {} }

/-- Changes the counts. -/
def count (c : Cache) (f : Counters → Counters) : Cache := { c with counters := f c.counters }

/-- Replaces the tile with number `id`. -/
def setTile (c : Cache) (id : Nat) (tile : Tile) : Cache :=
  { c with tiles := c.tiles.setIfInBounds id tile }

/-- Makes the tile the most recently used and advances the clock. -/
def touch (c : Cache) (id : Nat) : Cache :=
  match c.tiles[id]? with
  | none => c
  | some tile =>
    { c.setTile id { tile with lastUsed := c.clock } with
      index := c.index.promote tile.area.origin
      clock := c.clock + 1 }

/-! ## Finding a tile for a cell -/

/-- Uses the tile and hands out its buffer for a computation. -/
def start (c : Cache) (id : Nat) : Cache × Acquired :=
  let c := c.touch id
  match c.tiles[id]? with
  | none => (c, .unavailable)
  | some tile =>
    match tile.checkout? with
    | none => (c, .ready id)
    | some (region, emptied) =>
      ((c.setTile id emptied).count fun k => { k with computes := k.computes + 1 },
        .compute ⟨id, tile.area, region⟩)

/-- A request for a cell that has the tile `id`. -/
def acquireIndexed (c : Cache) (generation id : Nat) : Cache × Acquired :=
  match c.tiles[id]? with
  | none => (c, .unavailable)
  | some tile =>
    match tile.state with
    | .computing => (c.touch id, .ready id)
    | .blank => c.start id
    | .painted =>
      if tile.isStale generation then c.start id
      else ((c.count fun k => { k with hits := k.hits + 1 }).touch id, .ready id)

/-- The cache after a buffer was refused. -/
def noteAllocationFailure (c : Cache) : Cache :=
  c.count fun k => { k with allocationFailures := k.allocationFailures + 1 }

/-- The end of a request that did not get a buffer for the cell.  Only a refusal is counted. -/
def withoutBuffer (c : Cache) : Setback → Cache × Acquired
  | .refused _ => (c.noteAllocationFailure, .unavailable)
  | .faulted fault => (c, .broke fault)

/-- The cache with a new tile, for `cell`. -/
def add (c : Cache) (cell : Origin) (tile : Tile) : Cache :=
  { c with tiles := c.tiles.push tile, index := c.index.insert cell c.tiles.size }

/-- A request for a cell that gets a tile of its own. -/
def acquireNew (c : Cache) (cell : Rect) : Cache × Acquired :=
  match Tile.create c.info cell with
  | .error setback => c.withoutBuffer setback
  | .ok tile => (c.add cell.origin tile).start c.tiles.size

/-- The tile that a new cell may take over: of those that nobody computes the one used least
recently. -/
def victim? (c : Cache) : Option Nat :=
  c.index.leastRecent? fun id =>
    match c.tiles[id]? with
    | some tile => !tile.isComputing
    | none => true

/-- The cache in which tile `id` went from the cell `source` to `target` and is now `moved`. -/
def relocate (c : Cache) (id : Nat) (source target : Origin) (moved : Tile) : Cache :=
  { (c.setTile id moved).count fun k => { k with evictions := k.evictions + 1 } with
    index := c.index.move source target }

/-- The cache after no tile could be given to a new cell. -/
def noteExhausted (c : Cache) : Cache := c.count fun k => { k with exhausted := k.exhausted + 1 }

/-- A request for a cell that takes over the tile of another. -/
def acquireReused (c : Cache) (cell : Rect) : Cache × Acquired :=
  match c.victim? with
  | none => (c.noteExhausted, .unavailable)
  | some id =>
    match c.tiles[id]? with
    | none => (c, .unavailable)
    | some tile =>
      match tile.moveTo cell with
      | .error setback => c.withoutBuffer setback
      | .ok moved => (c.relocate id tile.area.origin cell.origin moved).start id

/-- A request for the grid cell `cell` while the image is at `generation`. -/
def acquire (c : Cache) (generation : Nat) (cell : Rect) : Cache × Acquired :=
  if !c.isOpen then (c, .unavailable)
  else
    match c.index.find? cell.origin with
    | some id => c.acquireIndexed generation id
    | none => if c.budget.allows c.tiles.size then c.acquireNew cell else c.acquireReused cell

/-! ## Giving a buffer back -/

/-- Gives tile `id` its buffer back, `painted` or not. -/
def checkin (c : Cache) (id : Nat) (region : Region) (painted : Bool) : Cache :=
  match c.tiles[id]? with
  | none => c
  | some tile => c.setTile id (tile.checkin region painted)

/-- The cache after a computation failed. -/
def noteComputeFailure (c : Cache) : Cache :=
  c.count fun k => { k with computeFailures := k.computeFailures + 1 }

/-- Gives the buffer of tile `id` back after a computation that ended by itself, with the pixels of
the cell if it `succeeded`.  A closed cache has no use for it. -/
def complete (c : Cache) (id : Nat) (region : Region) (succeeded : Bool) : Cache :=
  if !c.isOpen then c
  else if succeeded then (c.checkin id region true).touch id
  else c.noteComputeFailure.checkin id region false

/-- Gives the buffer of tile `id` back after a computation that did not end by itself. -/
def abandon (c : Cache) (id : Nat) (region : Region) : Cache :=
  if !c.isOpen then c else c.checkin id region false

/-- Does tile `id` of an open cache hold computed pixels? -/
def hasPainted (c : Cache) (id : Nat) : Bool := c.isOpen && c.tiles[id]?.any (·.isPainted)

/-- Gives up all tiles for good. -/
def close (c : Cache) : Cache := { c with isOpen := false, tiles := #[], index := .empty }

/-! ## Looking without touching -/

/-- The tile of the cell with this origin, if it has one. -/
def tileAt? (c : Cache) (cell : Origin) : Option Tile := do
  let id ← c.index.find? cell
  c.tiles[id]?

/-- Every tile, the most recently used first. -/
def listTiles (c : Cache) : List Tile := c.index.ids.filterMap fun id => c.tiles[id]?

/-- Are valid pixels of the cell with this origin at hand? -/
def isCached (c : Cache) (generation : Nat) (cell : Origin) : Bool :=
  match c.tileAt? cell with
  | some tile => tile.isValid generation
  | none => false

/-! ## What the operations leave alone -/

@[simp]
theorem tiles_size_setTile (c : Cache) (id : Nat) (tile : Tile) :
    (c.setTile id tile).tiles.size = c.tiles.size := by
  simp [setTile]

@[simp]
theorem tiles_size_touch (c : Cache) (id : Nat) : (c.touch id).tiles.size = c.tiles.size := by
  unfold touch; split <;> simp

theorem acquire_of_closed {c : Cache} (h : c.isOpen = false) (generation : Nat) (cell : Rect) :
    c.acquire generation cell = (c, .unavailable) := by
  simp [acquire, h]

theorem complete_of_closed {c : Cache} (h : c.isOpen = false) (id : Nat) (region : Region)
    (succeeded : Bool) : c.complete id region succeeded = c := by
  simp [complete, h]

theorem abandon_of_closed {c : Cache} (h : c.isOpen = false) (id : Nat) (region : Region) :
    c.abandon id region = c := by
  simp [abandon, h]

end Cache

end TileCache
