import TileCache.Sink.Engine

/-!
# Runs

A `Move` is one thing that can happen to an engine, and a run is any sequence of moves.  Nothing is
said about who makes them: several threads that take the lock of the cache in turn make such a
sequence, and so does a single thread.

Looking at a sink changes nothing, so there is no move for it: pulling a mask, listing the tiles
and asking for one of them are questions to the state that a run has led to.
-/

set_option autoImplicit false

namespace TileCache

/-- Is this a region for images like `info`?  No operation on a region changes that. -/
def Region.IsFor (r : Region) (info : ImageInfo) : Prop :=
  r.bounds = info.bounds ∧ r.pixelSize = info.bytesPerPixel

/-- Does the source leave the region's frame alone?  It gets a region that has its buffer already,
and may write what it likes into it, but does not give it another one. -/
def Source.KeepsFrame (source : Source) : Prop :=
  ∀ r : Region, (source r).region.bounds = r.bounds ∧
    (source r).region.pixelSize = r.pixelSize ∧ (source r).region.valid = r.valid

/-- One thing that can happen to an engine.  Pulls and computations go by their numbers. -/
inductive Move
  /-- Somebody begins to pull `rect` into `out`, a region for images of some kind. -/
  | openPull (rect : Rect) (out : Region) (isRegion : ∃ info, out.IsFor info)
  /-- A pull goes on by one cell, while the image is invalidated `amid` times. -/
  | advance (id amid : Nat)
  | dropPull (id : Nat)
  /-- A computation begins: it takes note of the generation and calls the source. -/
  | begin (id : Nat)
  /-- The call of a computation ends, and the buffer goes back.  The source may have broken off,
  with whatever it had written by then. -/
  | finish (id : Nat) (source : Source)
  /-- A computation is dropped, before it began or while its call had not written anything. -/
  | drop (id : Nat)
  | invalidate
  /-- A channel is dropped. -/
  | detach
  /-- The runtime ends. -/
  | shutdown

namespace Engine

def step (e : Engine) : Move → Engine
  | .openPull rect out _ =>
    match e.openPull rect out with
    | .error _ => e
    | .ok (e, _) => e
  | .advance id amid => (e.advance id amid).1
  | .dropPull id => e.dropPull id
  | .begin id => e.begin id
  | .finish id source =>
    match e.computations.lookup id with
    | none => e
    | some c => e.finish id (source c.job.region)
  | .drop id => e.drop id
  | .invalidate => e.invalidate
  | .detach => e.detach
  | .shutdown => e.shutdown

theorem step_openPull_of_ok {e d : Engine} {n : Nat} {rect : Rect} {out : Region}
    (isRegion : ∃ info, out.IsFor info) (h : e.openPull rect out = .ok (d, n)) :
    e.step (.openPull rect out isRegion) = d := by
  delta step
  dsimp only
  rw [h]

theorem step_openPull_of_error {e : Engine} {setback : Setback} {rect : Rect} {out : Region}
    (isRegion : ∃ info, out.IsFor info) (h : e.openPull rect out = .error setback) :
    e.step (.openPull rect out isRegion) = e := by
  delta step
  dsimp only
  rw [h]

theorem step_finish_of_some {e : Engine} {id : Nat} {c : Computation} (source : Source)
    (h : e.computations.lookup id = some c) :
    e.step (.finish id source) = e.finish id (source c.job.region) := by
  delta step
  dsimp only
  rw [h]

theorem step_finish_of_none {e : Engine} {id : Nat} (source : Source)
    (h : e.computations.lookup id = none) : e.step (.finish id source) = e := by
  delta step
  dsimp only
  rw [h]

def run (e : Engine) (moves : List Move) : Engine := moves.foldl step e

@[simp]
theorem run_nil (e : Engine) : e.run [] = e := rfl

theorem run_append (e : Engine) (before after : List Move) :
    e.run (before ++ after) = (e.run before).run after :=
  List.foldl_append

theorem run_concat (e : Engine) (moves : List Move) (move : Move) :
    e.run (moves ++ [move]) = (e.run moves).step move := by
  rw [run_append]
  rfl

end Engine

end TileCache
