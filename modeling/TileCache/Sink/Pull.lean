import TileCache.Sink.Basic

/-!
# Pulls

A pull fills a region with the pixels of a rectangle, one grid cell after another.  For each cell
it asks the cache for a tile.  Whatever it gets, the part of the region in that cell is written at
once, with pixels or with zeros, except where the pull itself has to wait for a computation: then
`Wait` remembers the tile and the cell, and the cell is written when the computation has ended.
By then the tile may have gone to another cell, so its cell is compared again.

`Sink.serve` is one step of a pull.  It says nothing about who runs computations and when; it only
hands out the job.
-/

set_option autoImplicit false

namespace TileCache

/-- What a pull is waiting for. -/
inductive Wait
  | nothing
  /-- The computation of a tile for a cell. -/
  | computing (tile : Nat) (cell : Rect)
  /-- Nothing any more: the computation has ended, with the tile painted or not. -/
  | computed (tile : Nat) (cell : Rect) (painted : Bool)

/-- A pull under way: the region that it fills and the cells that it has not asked for. -/
structure Pull where
  out : Region
  cells : List Rect
  wait : Wait

/-- What a step of a pull comes to. -/
inductive Served
  /-- The pull went on by one cell, or had nothing left to do. -/
  | went (pull : Pull)
  /-- The pull broke off. -/
  | broke (fault : Fault)

namespace Sink

/-- A pull of `rect` into `out`, which gets a buffer of its own for it. -/
def openPull (s : Sink) (rect : Rect) (out : Region) : Except Setback Pull := do
  let out ← out.buffer rect
  .ok { out, cells := out.valid.cells s.size, wait := .nothing }

/-- Writes the part of the pull's region that lies in `cell`: with the pixels of `tile?`, if that
tile has any that are valid, else with zeros. -/
def answer (s : Sink) (tile? : Option Tile) (cell : Rect) (out : Region) (cells : List Rect) :
    Sink × Served :=
  match tile? with
  | none =>
    match out.paint cell 0 with
    | .error fault => (s, .broke fault)
    | .ok out => ({ s with zeroFilled := s.zeroFilled + 1 }, .went ⟨out, cells, .nothing⟩)
  | some tile =>
    match tile.copyTo s.generation out with
    | .error fault => (s, .broke fault)
    | .ok (out, true) => (s, .went ⟨out, cells, .nothing⟩)
    | .ok (out, false) =>
      ({ s with zeroFilled := s.zeroFilled + 1 }, .went ⟨out, cells, .nothing⟩)

/-- One step of a pull, with the job that it hands out.  In synchronous mode the pull then waits
for that job; in background mode it has gone on without it.

The cache is locked for the whole step, but an invalidation does not wait for that: the image is
invalidated `amid` times between the look for a tile and the use of what it holds. -/
def serve (s : Sink) (pull : Pull) (amid : Nat) : Sink × Served × Option Job :=
  match pull with
  | ⟨out, cells, .computing tile cell⟩ => (s, .went ⟨out, cells, .computing tile cell⟩, none)
  | ⟨out, cells, .computed tile cell painted⟩ =>
    let tile? := s.cache.tiles[tile]?.filter fun t => painted && t.area == cell
    let (s, served) := s.answer tile? cell out cells
    (s, served, none)
  | ⟨out, [], .nothing⟩ => (s, .went ⟨out, [], .nothing⟩, none)
  | ⟨out, cell :: cells, .nothing⟩ =>
    let (cache, acquired) := s.cache.acquire s.generation cell
    let s := { s with cache, generation := s.generation + amid }
    match acquired with
    | .ready tile =>
      let (s, served) := s.answer s.cache.tiles[tile]? cell out cells
      (s, served, none)
    | .unavailable =>
      let (s, served) := s.answer none cell out cells
      (s, served, none)
    | .broke fault => (s, .broke fault, none)
    | .compute job =>
      match s.config.mode with
      | .synchronous => (s, .went ⟨out, cells, .computing job.tile cell⟩, some job)
      | .background =>
        let (s, served) := s.answer s.cache.tiles[job.tile]? cell out cells
        (s, served, some job)

/-- Takes back the buffer of `job` after a computation that began at generation `beganAt`.  Says
whether the tile is now painted. -/
def settle (s : Sink) (job : Job) (beganAt : Nat) (answer : Answer) : Sink × Bool :=
  let region := answer.stamped beganAt
  match answer.ending with
  | .completed =>
    let cache := s.cache.complete job.tile region true
    ({ s with cache }, cache.hasPainted job.tile)
  | .failed _ =>
    let cache := s.cache.complete job.tile region false
    ({ s with cache }, cache.hasPainted job.tile)
  | .broken => ({ s with cache := s.cache.abandon job.tile region }, false)

end Sink

namespace Pull

/-- Has the pull written everything? -/
def isDone (p : Pull) : Bool :=
  match p.cells, p.wait with
  | [], .nothing => true
  | _, _ => false

def isWaiting (p : Pull) : Bool :=
  match p.wait with
  | .computing _ _ => true
  | _ => false

/-- The pull after the computation that it waits for has ended. -/
def wake (p : Pull) (painted : Bool) : Pull :=
  match p.wait with
  | .computing tile cell => { p with wait := .computed tile cell painted }
  | _ => p

end Pull

end TileCache
