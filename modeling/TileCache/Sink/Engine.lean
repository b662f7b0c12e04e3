import TileCache.Sink.Pull

/-!
# Pulls and computations under way

An engine is a sink together with the pulls and the computations that have begun and not ended.
Each of its operations is one thing that can happen: a pull goes on by one cell, a computation
begins or ends or is dropped, the image is invalidated.  The engine takes these in any order and
leaves it to others which one comes next; a schedule is any sequence of them.

A computation is queued first and begins later.  Only one that has begun can give its buffer back
when it is dropped; a buffer that was still queued is lost, and its tile stays in computation.
-/

set_option autoImplicit false

namespace TileCache

/-- Who waits for a computation. -/
inductive Client
  | pull (id : Nat)
  | nobody
deriving DecidableEq

/-- A computation that was handed out.  One that has begun knows the generation at which it did. -/
structure Computation where
  job : Job
  beganAt? : Option Nat
  client : Client

/-- A sink with everything that is under way.  Pulls and computations go by numbers, given in the
order in which they came. -/
structure Engine where
  sink : Sink
  /-- Is there somebody to run computations on their own? -/
  hasRuntime : Bool
  pulls : List (Nat × Pull)
  computations : List (Nat × Computation)
  nextId : Nat
  /-- The areas painted in the background, the latest first. -/
  notified : List Rect

/-- How a pull stands after a step. -/
inductive Turn
  | moved
  | waiting
  | finished (out : Region)
  | broke (fault : Fault)

namespace Engine

def ofSink (sink : Sink) (hasRuntime : Bool) : Engine :=
  { sink, hasRuntime, pulls := [], computations := [], nextId := 0, notified := [] }

/-! ## Pulls -/

/-- Begins a pull and gives it a number. -/
def openPull (e : Engine) (rect : Rect) (out : Region) : Except Setback (Engine × Nat) := do
  let pull ← e.sink.openPull rect out
  .ok ({ e with pulls := (e.nextId, pull) :: e.pulls, nextId := e.nextId + 1 }, e.nextId)

/-- Forgets a pull.  The computations that it started go on. -/
def dropPull (e : Engine) (id : Nat) : Engine :=
  { e with pulls := e.pulls.eraseP (·.1 == id) }

/-- Puts a job among the computations, with its number.  In background mode, and with nobody to
run it, the job is lost. -/
def enqueue (e : Engine) (client : Client) (job : Job) : Engine × Option Nat :=
  if client = .nobody ∧ !e.hasRuntime then (e, none)
  else
    ({ e with
        computations := (e.nextId, { job, beganAt? := none, client }) :: e.computations
        nextId := e.nextId + 1 },
      some e.nextId)

/-- Takes the job that a step of a pull handed out, if it did. -/
def takeJob (e : Engine) (client : Client) : Option Job → Engine × Option Nat
  | none => (e, none)
  | some job => e.enqueue client job

/-- Who waits for the computations that pull `id` starts. -/
def clientOf (e : Engine) (id : Nat) : Client :=
  match e.sink.config.mode with
  | .synchronous => .pull id
  | .background => .nobody

/-- Goes on after a step of pull `id`.  A pull that broke off is no longer under way. -/
def carryOn (e : Engine) (id : Nat) (client : Client) :
    Sink × Served × Option Job → Engine × Option Turn × Option Nat
  | (sink, .broke fault, job?) =>
    let (e, started) := { e with sink }.takeJob client job?
    (e, some (.broke fault), started)
  | (sink, .went pull, job?) =>
    let (e, started) := { e with sink }.takeJob client job?
    ({ e with pulls := (id, pull) :: e.pulls },
      some (if pull.isWaiting then .waiting else .moved), started)

/-- One step of pull `id`, with `amid` invalidations in the middle of it.  Says how the pull stands
and which computation it started.  A pull that has finished is no longer under way. -/
def advance (e : Engine) (id amid : Nat) : Engine × Option Turn × Option Nat :=
  match e.pulls.lookup id with
  | none => (e, none, none)
  | some pull =>
    if pull.isDone then (e.dropPull id, some (.finished pull.out), none)
    else (e.dropPull id).carryOn id (e.clientOf id) (e.sink.serve pull amid)

/-- Lets a pull know that the computation it waits for has ended. -/
def wake (e : Engine) (client : Client) (painted : Bool) : Engine :=
  match client with
  | .nobody => e
  | .pull id =>
    { e with pulls := e.pulls.map fun (n, p) => if n = id then (n, p.wake painted) else (n, p) }

/-! ## Computations -/

def forget (e : Engine) (id : Nat) : Engine :=
  { e with computations := e.computations.eraseP (·.1 == id) }

/-- A queued computation begins, at the present generation. -/
def begin (e : Engine) (id : Nat) : Engine :=
  { e with
    computations := e.computations.map fun (n, c) =>
      if n = id ∧ c.beganAt? = none then (n, { c with beganAt? := some e.sink.generation })
      else (n, c) }

/-- A computation that has begun ends by itself.  If it painted a tile in the background, those who
asked for it are notified. -/
def finish (e : Engine) (id : Nat) (answer : Answer) : Engine :=
  match e.computations.lookup id with
  | none => e
  | some c =>
    match c.beganAt? with
    | none => e
    | some beganAt =>
      let (sink, painted) := e.sink.settle c.job beganAt answer
      let e := { e.forget id with sink }
      let e := if c.client = .nobody ∧ painted ∧ sink.config.notify
        then { e with notified := c.job.area :: e.notified } else e
      e.wake c.client painted

/-- A computation is dropped.  If it has begun its tile gets the buffer back; if not, the buffer is
lost with it. -/
def drop (e : Engine) (id : Nat) : Engine :=
  match e.computations.lookup id with
  | none => e
  | some c =>
    let e := e.forget id
    let e := match c.beganAt? with
      | none => e
      | some _ =>
        { e with sink.cache := e.sink.cache.abandon c.job.tile c.job.region }
    e.wake c.client false

/-! ## The surroundings -/

def invalidate (e : Engine) : Engine := { e with sink := e.sink.invalidate }

def detach (e : Engine) : Engine := { e with sink := e.sink.detach }

/-- There is nobody to run computations from now on, and those under way are dropped. -/
def shutdown (e : Engine) : Engine :=
  { (e.computations.map (·.1)).foldl drop e with hasRuntime := false }

end Engine

end TileCache
