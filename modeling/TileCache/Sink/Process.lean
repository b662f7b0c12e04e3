import TileCache.Sink.Run

/-!
# Sinks of a process

A process builds sinks, works with them and drops their channels, in any order.  It counts the sinks
that are in use: one more for each that is built, and one less when the last channel of one is
dropped (`Engine.release`).  A configuration that is refused builds nothing and counts for nothing.

A sink holds on to the image until its last channel is dropped, and a computation does so until it
ends, since it may outlive the sink (`Engine.imageReferences`).
-/

set_option autoImplicit false

namespace TileCache

/-- What a sink can be asked through. -/
inductive Channel
  | data
  | mask
deriving DecidableEq

/-- The channels of a new sink. -/
def Channel.ofSink (withMask : Bool) : List Channel := if withMask then [data, mask] else [data]

namespace Engine

/-- Is the channel that is dropped next the last one? -/
def isAtEnd (e : Engine) : Bool := e.sink.attached = 1

/-- Drops a channel, with the count of the sinks in use. -/
def release (e : Engine) (live : Nat) : Engine × Nat :=
  (e.detach, if e.isAtEnd then live - 1 else live)

/-- How often the image is held. -/
def imageReferences (e : Engine) : Nat :=
  (if e.sink.cache.isOpen then 1 else 0) + e.computations.length

end Engine

/-- A sink that was built, and those of its channels that were not dropped. -/
structure Built where
  engine : Engine
  channels : List Channel

/-- The sinks that were built, in this order, and the count of those in use. -/
structure Process where
  sinks : List Built
  live : Nat

/-- One thing that can happen in a process.  Sinks go by their place in the list. -/
inductive Process.Act
  | build (info : ImageInfo) (config : Config) (hasRuntime withMask : Bool)
  /-- Somebody drops a channel that was not dropped before. -/
  | dropChannel (sink : Nat) (channel : Channel)
  /-- Something happens to a sink, other than that a channel is dropped. -/
  | work (sink : Nat) (move : Move) (isWork : move ≠ .detach)

namespace Process

/-- Nothing was built. -/
def start : Process := { sinks := [], live := 0 }

def build (p : Process) (info : ImageInfo) (config : Config) (hasRuntime withMask : Bool) :
    Process :=
  match Sink.create info config hasRuntime withMask with
  | .error _ => p
  | .ok s =>
    { sinks := p.sinks ++ [⟨.ofSink s hasRuntime, Channel.ofSink withMask⟩], live := p.live + 1 }

def dropChannel (p : Process) (sink : Nat) (channel : Channel) : Process :=
  match p.sinks[sink]? with
  | none => p
  | some b =>
    if b.channels.contains channel then
      let (engine, live) := b.engine.release p.live
      { sinks := p.sinks.set sink ⟨engine, b.channels.erase channel⟩, live }
    else p

def work (p : Process) (sink : Nat) (move : Move) : Process :=
  match p.sinks[sink]? with
  | none => p
  | some b => { p with sinks := p.sinks.set sink { b with engine := b.engine.step move } }

def step (p : Process) : Act → Process
  | .build info config hasRuntime withMask => p.build info config hasRuntime withMask
  | .dropChannel sink channel => p.dropChannel sink channel
  | .work sink move _ => p.work sink move

def run (p : Process) (acts : List Act) : Process := acts.foldl step p

end Process

end TileCache
