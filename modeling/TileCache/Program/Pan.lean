import TileCache.CommandLine.Options
import TileCache.Number.Shortest
import TileCache.Program.Elapsed
import TileCache.Program.Exit
import TileCache.Program.Line
import TileCache.Program.Render

/-!
# Panning across the image

`pan` lets viewers walk across the image and reports how the cache did.  The viewers take turns:
each walks its whole way before the next one begins.  The report is a table or one JSON object
whose members stand in alphabetical order.
-/

set_option autoImplicit false

namespace TileCache.Program.Pan

open CommandLine

/-- The computations that are done after a pull which has asked for them.  One that takes any time
is not done before the viewers have arrived: they never pause. -/
def settle (o : CommandLine.Pan) (jobs : List Job) (sink : Sink) : Sink :=
  if o.image.delayMs = 0 then jobs.reverse.foldl (·.runJob .pattern ·) sink else sink

/-- The pulls of one viewer from step number `step` on. -/
def walk (o : CommandLine.Pan) (worker : Nat) :
    (left step : Nat) → Sink → Region → Except Setback Sink
  | 0, _, sink, _ => .ok sink
  | left + 1, step, sink, out => do
    let (sink, finished, jobs) ← sink.pull .pattern (o.viewportAt worker step) out []
    walk o worker left (step + 1) (settle o jobs sink) (← finished.region)

/-- The walks of the viewers from number `worker` on. -/
def walkAll (o : CommandLine.Pan) : (left worker : Nat) → Sink → Except Setback Sink
  | 0, _, sink => .ok sink
  | left + 1, worker, sink => do
    let sink ← walk o worker o.steps 0 sink (.empty o.image.info)
    walkAll o left (worker + 1) sink

/-- What a pan comes to. -/
structure Panned where
  sink : Sink
  pulled : Nat
  /-- The share of the image that is cached. -/
  coverage : Number.Binary

/-- The milliseconds that computations have taken, which the viewers share.  Nobody waits for those
in the background. -/
def Panned.busyMillis (p : Panned) (o : CommandLine.Pan) : Nat :=
  if o.sink.background then 0 else p.sink.cache.counters.computes * o.image.delayMs / o.workers

def announcement (o : CommandLine.Pan) : Line :=
  .info s!"Panning {o.workers} viewer(s) x {o.steps} step(s) over {o.image.info.bounds}"

/-- The share of the bytes that are 255. -/
def coverageOf (mask : ByteArray) : Number.Binary :=
  let cached := mask.foldl (fun n byte => if byte = 255 then n + 1 else n) 0
  .ofFraction cached (max 1 mask.size)

/-- Walks the viewers, counts what they have pulled and looks at the mask afterwards. -/
def tour (o : CommandLine.Pan) (sink : Sink) : Except Refusal Panned :=
  match if o.steps = 0 then .ok sink else walkAll o o.workers 0 sink with
  | .error (.refused error) =>
    .error ⟨[announcement o, .error s!"Viewer failed: {error.message}"], .failed⟩
  | .error (.faulted _) => .error ⟨[announcement o, .error "Viewer panicked"], .failed⟩
  | .ok sink =>
    match countInWord (o.workers * o.steps) with
    | .error _ => .error ⟨[announcement o], .brokeOff⟩
    | .ok pulled =>
      match sink.pullMask o.image.info.bounds (.empty o.image.info.mask) (fun _ => 0) with
      | .filled mask => .ok { sink, pulled, coverage := coverageOf mask.bytes }
      | .refused error =>
        .error ⟨[announcement o, .error s!"Mask pull failed: {error.message}"], .failed⟩
      | .faulted _ => .error ⟨[announcement o], .brokeOff⟩

/-- Lets the viewers that the options ask for walk. -/
def run (o : CommandLine.Pan) : Except Refusal Panned :=
  match o.validate with
  | .error error => .error ⟨[.error s!"Configuration error: {error.message}"], .failed⟩
  | .ok () =>
    match Sink.create o.image.info o.sink.config true true with
    | .error error => .error ⟨[.error s!"Failed to create sink: {error.message}"], .failed⟩
    | .ok sink =>
      if maxHandles < o.workers then .error ⟨[announcement o], .brokeOff⟩ else tour o sink

/-! ## The report as a table -/

def table (p : Panned) (elapsed : Elapsed) : List String :=
  let stats := p.sink.stats
  let c := stats.counters
  ["Screen Sink Statistics",
    "══════════════════════",
    "",
    s!"Viewports pulled:   {p.pulled} in {elapsed.text}",
    s!"Tile size:          {stats.tileWidth}x{stats.tileHeight}",
    s!"Tile limit:         {p.sink.cache.budget.describe}",
    s!"Mode:               {stats.mode.name}",
    "",
    s!"Tiles allocated:    {stats.tiles}",
    s!"Tiles painted:      {stats.painted}",
    s!"Image cached:       {(p.coverage.scale 100).toTenths}%",
    "",
    s!"Hits:               {c.hits}",
    s!"Computes:           {c.computes}",
    s!"Evictions:          {c.evictions}",
    s!"Zero-filled cells:  {stats.zeroFilled}"] ++
    if c.computeFailures + c.allocationFailures + c.exhausted = 0 then []
    else
      ["",
        s!"Compute failures:   {c.computeFailures}",
        s!"Alloc failures:     {c.allocationFailures}",
        s!"Exhausted:          {c.exhausted}"]

/-! ## The report as JSON -/

/-- The members of the statistics, each with its value as it is written. -/
def statsMembers (stats : Stats) : List (String × String) :=
  let c := stats.counters
  [("allocation_failures", toString c.allocationFailures),
    ("attached", toString stats.attached),
    ("closed", if stats.closed then "true" else "false"),
    ("compute_failures", toString c.computeFailures),
    ("computes", toString c.computes),
    ("evictions", toString c.evictions),
    ("exhausted", toString c.exhausted),
    ("hits", toString c.hits),
    ("indexed", toString stats.indexed),
    ("max_tiles", match stats.maxTiles with
      | some limit => toString limit
      | none => "null"),
    ("mode", s!"\"{stats.mode.name}\""),
    ("painted", toString stats.painted),
    ("priority", toString stats.priority),
    ("tile_height", toString stats.tileHeight),
    ("tile_width", toString stats.tileWidth),
    ("tiles", toString stats.tiles),
    ("zero_filled_cells", toString stats.zeroFilled)]

/-- A member on a line of its own, with a comma unless it is the last one. -/
def member (indent name value : String) (last : Bool) : String :=
  s!"{indent}\"{name}\": {value}" ++ if last then "" else ","

/-- The lines of members, one each. -/
def memberLines (indent : String) : List (String × String) → List String
  | [] => []
  | [(name, value)] => [member indent name value true]
  | (name, value) :: rest => member indent name value false :: memberLines indent rest

def json (p : Panned) (elapsed : Elapsed) : List String :=
  ["\x7b",
    member "  " "coverage" p.coverage.shortest.toText false,
    member "  " "elapsed_ms" elapsed.millis false,
    "  \"stats\": \x7b"] ++
    memberLines "    " (statsMembers p.sink.stats) ++
    ["  \x7d,",
      member "  " "viewports" (toString p.pulled) true,
      "\x7d"]

def report (o : CommandLine.Pan) (p : Panned) (elapsed : Elapsed) : List Line :=
  let body := match o.format with
    | .text => table p elapsed
    | .json => json p elapsed
  announcement o :: body.map .plain

end TileCache.Program.Pan
