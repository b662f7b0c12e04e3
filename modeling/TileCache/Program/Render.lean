import TileCache.CommandLine.Options
import TileCache.Picture.Size
import TileCache.Program.Elapsed
import TileCache.Program.Exit
import TileCache.Program.Line
import TileCache.Sink.Alone

/-!
# Rendering one viewport

`render` pulls its viewport until nothing is missing and writes the picture.  In synchronous mode
one pass has to do, with a warning for every cell that could not be computed.  In background mode
a pass leaves cells out that are then computed, and another pass follows, until the time is up.

Time is reckoned here and not measured: the computations that a pass has started take the
configured delay, all at once, and every pass takes some time of its own.
-/

set_option autoImplicit false

namespace TileCache.Program

open CommandLine

/-- A program that ends early: what it said until then, and how it ends. -/
structure Refusal where
  lines : List Line
  exit : Exit

/-- A viewport that was pulled. -/
structure Rendered where
  sink : Sink
  out : Region
  passes : Nat
  warnings : List Line

/-- The milliseconds that computations have taken: in the background those of a pass go on at the
same time, otherwise one follows the other. -/
def Rendered.busyMillis (r : Rendered) (o : CommandLine.Render) : Nat :=
  (if o.sink.background then r.passes - 1 else r.sink.cache.counters.computes) * o.image.delayMs

namespace Render

/-- What a pass over the viewport left. -/
structure Pass where
  sink : Sink
  out : Region
  missing : Nat
  jobs : List Job

namespace Pass

def timedOut (missing : Nat) : Line := .warn s!"Timed out with {missing} cell(s) still missing"

/-- What is rendered if this is the last pass, after `count` others. -/
def rendered (p : Pass) (count : Nat) : Rendered :=
  { sink := p.sink, out := p.out, passes := count + 1
    warnings := if p.missing = 0 then [] else [timedOut p.missing] }

/-- The sink when the computations that the pass has started have ended. -/
def settled (p : Pass) : Sink := p.jobs.reverse.foldl (·.runJob .pattern ·) p.sink

end Pass

/-- Pulls the viewport once. -/
def pass (viewport : Rect) (sink : Sink) (out : Region) : Except Setback Pass := do
  let before := sink.zeroFilled
  let (sink, finished, jobs) ← sink.pull .pattern viewport out []
  .ok { sink, out := ← finished.region, missing := sink.zeroFilled - before, jobs }

/-- Pulls the viewport again and again, each time after the computations of the pass before have
been waited for.  When that cannot be done again, or there is nothing to wait for, it gives up. -/
def passes (viewport : Rect) : (waits count : Nat) → Sink → Region → Except Setback Rendered
  | 0, count, sink, out => do
    let p ← pass viewport sink out
    .ok (p.rendered count)
  | waits + 1, count, sink, out => do
    let p ← pass viewport sink out
    if p.missing = 0 ∨ p.jobs.isEmpty then .ok (p.rendered count)
    else passes viewport waits (count + 1) p.settled p.out

/-- How often computations that take `delay` milliseconds can be waited for in `secs` seconds, if a
pass takes a millisecond itself. -/
def waitsWithin (secs delay : Nat) : Nat := secs * 1000 / (delay + 1)

/-- Pulls the viewport once and for all. -/
def onePass (viewport : Rect) (sink : Sink) (out : Region) : Except Setback Rendered := do
  let p ← pass viewport sink out
  let warnings :=
    if p.missing = 0 then [] else [Line.warn s!"{p.missing} cell(s) could not be computed"]
  .ok { sink := p.sink, out := p.out, passes := 1, warnings }

def announcement (o : CommandLine.Render) : Line :=
  .info s!"Rendering {o.viewport} at {o.output}"

/-- Pulls the viewport that the options ask for.  The program breaks off if the clock cannot tell
the point in time that is so many seconds ahead at which the time is up. -/
def run (canTell : Nat → Bool) (o : CommandLine.Render) : Except Refusal Rendered :=
  match o.validate with
  | .error error => .error ⟨[.error s!"Configuration error: {error.message}"], .failed⟩
  | .ok () =>
    match Sink.create o.image.info o.sink.config true false with
    | .error error => .error ⟨[.error s!"Failed to create sink: {error.message}"], .failed⟩
    | .ok sink =>
      if !canTell o.timeoutSecs then .error ⟨[announcement o], .brokeOff⟩
      else
        let out := Region.empty o.image.info
        let rendered :=
          if o.sink.background then
            passes o.viewport (waitsWithin o.timeoutSecs o.image.delayMs) 0 sink out
          else onePass o.viewport sink out
        match rendered with
        | .ok rendered => .ok rendered
        | .error (.refused error) =>
          .error ⟨[announcement o, .error s!"Pull failed: {error.message}"], .failed⟩
        | .error (.faulted _) => .error ⟨[announcement o], .brokeOff⟩

/-- The largest side of a picture. -/
def maxSide : Nat := 65535

/-- Why a picture of this size cannot be written, if it cannot. -/
def sizeError? (valid : Rect) : Option String :=
  if maxSide < valid.width.val.toNat ∨ maxSide < valid.height.val.toNat then
    some (s!"Format error encoding Jpeg:\nInvalid image size ({valid.width} x {valid.height}) " ++
      "to encode as JPEG: width and height must be >= 1 and <= 65535")
  else none

/-- A file of up to this many bytes is written in one go at the very end, when nobody looks any
more whether that works. -/
def unheededBytes : Nat := 8192

/-- Is it noticed that there is no room for the picture? -/
def missesRoom (o : CommandLine.Render) (out : Region) : Bool :=
  (sizeError? out.valid).isNone && Picture.Jpeg.exceeds unheededBytes out o.quality

/-- The cache at the end of a rendering. -/
def statsLines (stats : Stats) (budget : Budget) : List Line :=
  let c := stats.counters
  [.info s!"  Tiles: {stats.tiles} allocated, {stats.painted} painted, limit {budget.describe}",
    .info s!"  Lookups: {c.hits} hits, {c.computes} computes, {c.evictions} evictions"] ++
    if c.computeFailures + c.allocationFailures + c.exhausted = 0 then []
    else [.warn (s!"  Misses: {c.computeFailures} failed, {c.allocationFailures} unallocated, " ++
      s!"{c.exhausted} exhausted")]

/-- What is said of a pulled viewport, once it is known whether its file could be written as far as
that is up to the system.  The file of a picture that cannot be written stays empty. -/
def report (o : CommandLine.Render) (r : Rendered) (elapsed : Elapsed)
    (written : Except String Unit) : List Line × Exit :=
  let lines := announcement o :: r.warnings ++
    [.info s!"Pulled {r.out.valid} in {r.passes} pass(es), {elapsed.text}"]
  let failure? := match written with
    | .error reason => some reason
    | .ok () => sizeError? r.out.valid
  match failure? with
  | some reason => (lines ++ [.error s!"Failed to write {o.output}: {reason}"], .failed)
  | none =>
    (lines ++ statsLines r.sink.stats r.sink.cache.budget ++ [.info s!"Wrote {o.output}"],
      .succeeded)

end Render

end TileCache.Program
