import TileCache.Pixels.Studio
import TileCache.Sink.Process

/-!
# Sessions

A session works a sink over a source on one thread.  Tasks, that is viewers with a pull of their own
and computations, stand in one queue.  A task runs until it has to wait; it joins the end of the
queue when it is created and again when what it waits for has happened.

Besides the viewers there is one direct pull at a time (`Session.pull`).  It does not stand in the
queue: it runs until it waits for a computation, then the queue runs until nothing in it can move,
then the pull goes on.  Without a runtime there is no queue and no viewer, and the direct pull runs
its computations itself.

Everything a session does to its sink is an operation of `Engine`; what it adds is the order.  The
source may be any studio (`SessionOver`); that of a `Session` is scripted.
-/

set_option autoImplicit false

namespace TileCache

inductive Task
  | viewer (id : Nat)
  | computation (id : Nat)
deriving DecidableEq

/-- How a pull ended for the one who asked for it. -/
inductive Outcome
  | filled
  | refused (error : RegionError)
  | broke (fault : Fault)
  /-- It could not end and was dropped. -/
  | pending
  /-- Its viewer was stopped. -/
  | cancelled

/-- How a pull ended, and the region as it then was. -/
structure Pulled where
  outcome : Outcome
  out : Region

/-- How a pull ended that did not get a buffer. -/
def Pulled.withoutBuffer (out : Region) : Setback → Pulled
  | .refused error => ⟨.refused error, out⟩
  | .faulted fault => ⟨.broke fault, out⟩

/-- Where a viewer stands. -/
inductive Viewing
  | queued (rect : Rect)
  | pulling (pull : Nat)
  | ended (pulled : Pulled)

/-- A pull on a task of its own.  It can be found by its name until it was joined, or until another
viewer took the name. -/
structure Viewer where
  name? : Option String
  viewing : Viewing
  aborted : Bool

/-- A computation that waits at a gate, with its call. -/
structure Gate (κ : Type) where
  computation : Nat
  area : Rect
  call : κ

/-- A session over a studio with states `σ` and calls `κ`. -/
structure SessionOver (σ κ : Type) where
  engine : Engine
  studio : σ
  queue : List Task
  /-- In order of arrival. -/
  gates : List (Gate κ)
  /-- The computations that were let through a gate, and how they go on. -/
  released : List (Nat × κ)
  viewers : List (Nat × Viewer)
  nextViewer : Nat
  dataHeld : Bool
  /-- Is the data channel still attached?  Viewers keep it although nobody else holds it. -/
  dataAttached : Bool
  maskHeld : Bool
  /-- How many sinks are in use. -/
  live : Nat
  imageHeld : Bool
  /-- The region that direct pulls fill, and the one for masks. -/
  out : Region
  maskOut : Region
  /-- The regions that the source was called for, the latest first. -/
  generated : List Rect

namespace SessionOver

variable {σ κ : Type}

def start (info : ImageInfo) (config : Config) (studio : σ) (hasRuntime withMask : Bool) :
    Except ConfigError (SessionOver σ κ) := do
  let sink ← Sink.create info config hasRuntime withMask
  .ok { engine := .ofSink sink hasRuntime, studio
        queue := [], gates := [], released := [], viewers := [], nextViewer := 0
        dataHeld := true, dataAttached := true, maskHeld := withMask, live := 1, imageHeld := true
        out := .empty info, maskOut := .empty info.mask, generated := [] }

def sink (s : SessionOver σ κ) : Sink := s.engine.sink

/-! ## Running tasks -/

def push (s : SessionOver σ κ) (task : Task) : SessionOver σ κ :=
  { s with queue := s.queue ++ [task] }

/-- The viewer whose pull this is. -/
def viewerOf? (s : SessionOver σ κ) (pull : Nat) : Option Nat :=
  s.viewers.findSome? fun (id, v) =>
    match v.viewing with
    | .pulling p => if p = pull then some id else none
    | _ => none

/-- The call of the computation takes its course, and the computation ends, which wakes the viewer
that waits for it. -/
def conclude [Studio σ κ] (s : SessionOver σ κ) (id : Nat) (call : κ) :
    SessionOver σ κ × Option Ending :=
  match s.engine.computations.lookup id with
  | none => (s, none)
  | some c =>
    let course := Studio.perform s.studio call c.job.region
    let engine := Nat.repeat Engine.invalidate course.invalidations s.engine
    let s := { s with engine := engine.finish id course.answer }
    let s := match c.client with
      | .nobody => s
      | .pull pull =>
        match s.viewerOf? pull with
        | none => s
        | some viewer => s.push (.viewer viewer)
    (s, some course.answer.ending)

/-- A computation runs: it ends, or it arrives at a gate and waits there (`none`). -/
def runComputation [Studio σ κ] (s : SessionOver σ κ) (id : Nat) :
    SessionOver σ κ × Option Ending :=
  match s.released.lookup id with
  | some call => { s with released := s.released.eraseP (·.1 == id) }.conclude id call
  | none =>
    match s.engine.computations.lookup id with
    | none => (s, none)
    | some c =>
      let valid := c.job.region.valid
      let (studio, call) := Studio.call s.studio c.job.region
      let s := { s with engine := s.engine.begin id, studio, generated := valid :: s.generated }
      if Studio.waits σ call then ({ s with gates := s.gates ++ [⟨id, valid, call⟩] }, none)
      else s.conclude id call

/-- Why a pull stops running. -/
inductive Stop
  /-- It waits, perhaps for a computation that it has just started. -/
  | waiting (started : Option Nat)
  | finished (out : Region)
  /-- It broke off.  The region is as it was before the step that did not end. -/
  | broke (fault : Fault) (out : Region)

/-- The region that a pull fills. -/
def outOf (s : SessionOver σ κ) (pull : Nat) : Region :=
  match s.engine.pulls.lookup pull with
  | some p => p.out
  | none => .empty s.sink.info

/-- Lets a pull run until it stops.  What it starts joins the queue if there is a runtime.  A pull
moves at most twice for each of its cells, which bounds `fuel`. -/
def proceed : (fuel : Nat) → SessionOver σ κ → (pull : Nat) → SessionOver σ κ × Stop
  | 0, s, _ => (s, .waiting none)
  | fuel + 1, s, pull =>
    let out := s.outOf pull
    let (engine, turn?, started) := s.engine.advance pull 0
    let s := { s with engine }
    let s := match started with
      | some id => if s.engine.hasRuntime then s.push (.computation id) else s
      | none => s
    match turn? with
    | none => (s, .waiting none)
    | some .moved => proceed fuel s pull
    | some .waiting => (s, .waiting started)
    | some (.finished out) => (s, .finished out)
    | some (.broke fault) => (s, .broke fault out)

/-- An upper bound for the steps that a pull has left. -/
def stepsLeft (s : SessionOver σ κ) (pull : Nat) : Nat :=
  match s.engine.pulls.lookup pull with
  | none => 1
  | some p => 2 * p.cells.length + 3

def setViewing (s : SessionOver σ κ) (viewer : Nat) (viewing : Viewing) : SessionOver σ κ :=
  { s with
    viewers := s.viewers.map fun (id, v) => if id = viewer then (id, { v with viewing }) else (id, v) }

def isEnded (v : Viewer) : Bool :=
  match v.viewing with
  | .ended _ => true
  | _ => false

/-- Detaches the data channel once nobody holds it, no viewer either. -/
def releaseData (s : SessionOver σ κ) : SessionOver σ κ :=
  if s.dataAttached && !s.dataHeld && s.viewers.all fun (_, v) => isEnded v then
    let (engine, live) := s.engine.release s.live
    { s with engine, live, dataAttached := false }
  else s

def endViewer (s : SessionOver σ κ) (viewer : Nat) (pulled : Pulled) : SessionOver σ κ :=
  (s.setViewing viewer (.ended pulled)).releaseData

/-- Stops a viewer for good, with its pull. -/
def cancelViewer (s : SessionOver σ κ) (viewer : Nat) (v : Viewer) : SessionOver σ κ :=
  let s := match v.viewing with
    | .pulling pull => { s with engine := s.engine.dropPull pull }
    | _ => s
  s.endViewer viewer ⟨.cancelled, .empty s.sink.info⟩

/-- Lets the pull of a viewer run. -/
def proceedViewer (s : SessionOver σ κ) (viewer pull : Nat) : SessionOver σ κ :=
  let (s, stop) := proceed (s.stepsLeft pull) s pull
  match stop with
  | .waiting _ => s
  | .finished out => s.endViewer viewer ⟨.filled, out⟩
  | .broke fault _ => s.endViewer viewer ⟨.broke fault, .empty s.sink.info⟩

def runViewer (s : SessionOver σ κ) (viewer : Nat) : SessionOver σ κ :=
  match s.viewers.lookup viewer with
  | none => s
  | some v =>
    if v.aborted then if isEnded v then s else s.cancelViewer viewer v
    else
      match v.viewing with
      | .ended _ => s
      | .pulling pull => s.proceedViewer viewer pull
      | .queued rect =>
        let out := Region.empty s.sink.info
        match s.engine.openPull rect out with
        | .error setback => s.endViewer viewer (.withoutBuffer out setback)
        | .ok (engine, pull) =>
          ({ s with engine }.setViewing viewer (.pulling pull)).proceedViewer viewer pull

def runTask [Studio σ κ] (s : SessionOver σ κ) : Task → SessionOver σ κ
  | .viewer id => s.runViewer id
  | .computation id => (s.runComputation id).1

def settleWithin [Studio σ κ] : (fuel : Nat) → SessionOver σ κ → SessionOver σ κ
  | 0, s => s
  | fuel + 1, s =>
    match s.queue with
    | [] => s
    | task :: queue => settleWithin fuel ({ s with queue }.runTask task)

/-- An upper bound for the tasks that can run before something new comes from outside: each cell
that is left can start one computation, which is queued, may be let through a gate and wakes its
viewer. -/
def workLeft (s : SessionOver σ κ) : Nat :=
  let pulling := s.engine.pulls.foldl (fun n (_, p) => n + p.cells.length + 1) 0
  let queued := s.viewers.foldl (fun n (_, v) =>
    match v.viewing with
    | .queued rect => n + ((rect.intersect s.sink.info.bounds).cover s.sink.size).count + 1
    | _ => n + 1) 0
  4 * (pulling + queued + s.engine.computations.length) + s.queue.length + 1

/-- Runs the queue until nothing in it can move. -/
def settle [Studio σ κ] (s : SessionOver σ κ) : SessionOver σ κ := settleWithin s.workLeft s

def settleUnless [Studio σ κ] (s : SessionOver σ κ) (defer : Bool) : SessionOver σ κ :=
  if defer then s else s.settle

/-! ## Direct pulls -/

/-- Drops a pull that cannot go on. -/
def giveUp (s : SessionOver σ κ) (pull : Nat) (outcome : Outcome) : SessionOver σ κ × Pulled :=
  ({ s with engine := s.engine.dropPull pull }, ⟨outcome, s.outOf pull⟩)

/-- Runs a computation on behalf of the direct pull.  It cannot wait at a gate: there it is
dropped.  Says how it ended, if it did. -/
def runInline [Studio σ κ] (s : SessionOver σ κ) (id : Nat) : SessionOver σ κ × Option Ending :=
  let (s, ending) := s.runComputation id
  match ending with
  | some ending => (s, some ending)
  | none =>
    ({ s with
        engine := s.engine.drop id
        gates := s.gates.filter fun gate => gate.computation != id },
      none)

/-- Lets a direct pull run to its end.  Each round answers at least one of its cells. -/
def drive [Studio σ κ] :
    (fuel : Nat) → SessionOver σ κ → (pull : Nat) → SessionOver σ κ × Pulled
  | 0, s, pull => s.giveUp pull .pending
  | fuel + 1, s, pull =>
    let (s, stop) := proceed (s.stepsLeft pull) s pull
    match stop with
    | .finished out => (s, ⟨.filled, out⟩)
    | .broke fault out => (s, ⟨.broke fault, out⟩)
    | .waiting started =>
      if s.engine.hasRuntime then
        let s := s.settle
        match s.engine.pulls.lookup pull with
        | some p => if p.isWaiting then s.giveUp pull .pending else drive fuel s pull
        | none => s.giveUp pull .pending
      else
        match started with
        | none => s.giveUp pull .pending
        | some id =>
          let (s, ending) := s.runInline id
          match ending with
          | none => s.giveUp pull .pending
          | some .broken => s.giveUp pull (.broke .brokenSource)
          | some _ => drive fuel s pull

/-- Pulls `rect` into `out`. -/
def pullInto [Studio σ κ] (s : SessionOver σ κ) (rect : Rect) (out : Region) :
    SessionOver σ κ × Pulled :=
  match s.engine.openPull rect out with
  | .error setback => (s, .withoutBuffer out setback)
  | .ok (engine, pull) =>
    let s := { s with engine }
    drive (s.stepsLeft pull) s pull

/-- Pulls `rect` into a new region for images like `into?`, or else into the session's own. -/
def pull [Studio σ κ] (s : SessionOver σ κ) (rect : Rect) (into? : Option ImageInfo) :
    SessionOver σ κ × Pulled :=
  match into? with
  | some info => s.pullInto rect (.empty info)
  | none =>
    let (s, pulled) := s.pullInto rect s.out
    ({ s with out := pulled.out }, pulled)

/-- Pulls the mask of `rect` into `out`. -/
def pullMaskInto (s : SessionOver σ κ) (rect : Rect) (out : Region) : Pulled :=
  match s.sink.pullMask rect out (fun _ => 0) with
  | .filled out => ⟨.filled, out⟩
  | .refused error => ⟨.refused error, out⟩
  | .faulted fault => ⟨.broke fault, out⟩

def pullMask (s : SessionOver σ κ) (rect : Rect) (into? : Option ImageInfo) :
    SessionOver σ κ × Pulled :=
  match into? with
  | some info => (s, s.pullMaskInto rect (.empty info))
  | none =>
    let pulled := s.pullMaskInto rect s.maskOut
    ({ s with maskOut := pulled.out }, pulled)

/-! ## Viewers -/

/-- A new viewer that pulls `rect`.  It needs the data channel and a runtime. -/
def spawn (s : SessionOver σ κ) (name : String) (rect : Rect) : Option (SessionOver σ κ) :=
  if s.dataHeld && s.engine.hasRuntime then
    let others := s.viewers.map fun (id, v) =>
      if v.name? = some name then (id, { v with name? := none }) else (id, v)
    let s := { s with
      viewers := (s.nextViewer, ⟨some name, .queued rect, false⟩) :: others
      nextViewer := s.nextViewer + 1 }
    some (s.push (.viewer (s.nextViewer - 1)))
  else none

def viewerNamed? (s : SessionOver σ κ) (name : String) : Option (Nat × Viewer) :=
  s.viewers.find? fun (_, v) => v.name? == some name

/-- Asks a viewer to stop.  It stops when it is its turn. -/
def abort (s : SessionOver σ κ) (name : String) : Option (SessionOver σ κ) := do
  let (id, v) ← s.viewerNamed? name
  if isEnded v then some s
  else
    let s := { s with
      viewers := s.viewers.map fun (n, w) => if n = id then (n, { w with aborted := true }) else (n, w) }
    some (if s.queue.contains (.viewer id) then s else s.push (.viewer id))

/-- How the pull of a viewer ended; a viewer that has ended can be asked only once. -/
def join (s : SessionOver σ κ) (name : String) : Option (SessionOver σ κ × Pulled) := do
  let (id, v) ← s.viewerNamed? name
  match v.viewing with
  | .ended pulled => some ({ s with viewers := s.viewers.filter (·.1 != id) }, pulled)
  | _ => some (s, ⟨.pending, .empty s.sink.info⟩)

/-! ## The surroundings -/

/-- Lets the computation at gate number `at` go on, and tells its area. -/
def release (s : SessionOver Script Call) (gate : Nat) (act : Act) (reason : String) :
    SessionOver Script Call × Option Rect :=
  match s.gates[gate]? with
  | none => (s, none)
  | some g =>
    let call := { g.call with act, reason }
    ({ s with
        gates := s.gates.eraseIdx gate
        released := (g.computation, call) :: s.released }.push (.computation g.computation),
      some g.area)

def setRules (s : SessionOver Script Call) (rules : List Rule) : SessionOver Script Call :=
  { s with studio := { s.studio with rules } }

def dropData (s : SessionOver σ κ) : SessionOver σ κ := { s with dataHeld := false }.releaseData

def dropMask (s : SessionOver σ κ) : SessionOver σ κ :=
  let (engine, live) := s.engine.release s.live
  { s with engine, live, maskHeld := false }

def dropImage (s : SessionOver σ κ) : SessionOver σ κ := { s with imageHeld := false }

def invalidate (s : SessionOver σ κ) : SessionOver σ κ :=
  { s with engine := s.engine.invalidate }

/-- Ends the runtime: every task is dropped. -/
def shutdown (s : SessionOver σ κ) : SessionOver σ κ :=
  let s := s.viewers.foldl
    (fun s (id, v) => if isEnded v then s else s.cancelViewer id v) s
  { s with engine := s.engine.shutdown, queue := [], gates := [], released := [] }

def liveSinks (s : SessionOver σ κ) : Nat := s.live

/-- Does nobody have the image any more? -/
def imageIsDropped (s : SessionOver σ κ) : Bool := !s.imageHeld && s.engine.imageReferences == 0

end SessionOver

/-- A session over a scripted source. -/
abbrev Session := SessionOver Script Call

namespace Session

def start (info : ImageInfo) (config : Config) (script : Script) (hasRuntime withMask : Bool) :
    Except ConfigError Session :=
  SessionOver.start info config script hasRuntime withMask

end Session

end TileCache
