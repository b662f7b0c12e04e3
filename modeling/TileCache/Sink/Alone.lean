import TileCache.Sink.Pull

/-!
# A pull on its own

When nothing else goes on, a pull can run to its end in one go.  A computation that the pull waits
for is done at once.  Computations wanted in the background are collected, to be done later.
-/

set_option autoImplicit false

namespace TileCache

/-- How a pull on its own ended. -/
inductive Finished
  | filled (out : Region)
  | broke (fault : Fault)
  /-- It was stopped before its end. -/
  | unfinished

/-- The region of a pull that has filled one. -/
def Finished.region : Finished → Except Setback Region
  | filled out => .ok out
  | broke fault => .error (.faulted fault)
  | unfinished => .error (.faulted .stalled)

namespace Sink

/-- Runs a pull to its end, and adds the jobs for the background to `jobs`.  A pull takes at most
two steps for each of its cells, so that it needs no more `fuel` than that and one more. -/
def runPull (source : Source) : (fuel : Nat) → Sink → Pull → List Job → Sink × Finished × List Job
  | 0, s, _, jobs => (s, .unfinished, jobs)
  | fuel + 1, s, pull, jobs =>
    if pull.isDone then (s, .filled pull.out, jobs)
    else
      let (s, served, job?) := s.serve pull 0
      match served, job? with
      | .broke fault, none => (s, .broke fault, jobs)
      | .broke fault, some job => (s, .broke fault, job :: jobs)
      | .went pull, none => runPull source fuel s pull jobs
      | .went pull, some job =>
        if pull.isWaiting then
          let (s, painted) := s.settle job s.generation (source job.region)
          runPull source fuel s (pull.wake painted) jobs
        else runPull source fuel s pull (job :: jobs)

/-- Pulls `rect` into `out`, and adds the jobs for the background to `jobs`. -/
def pull (s : Sink) (source : Source) (rect : Rect) (out : Region) (jobs : List Job) :
    Except Setback (Sink × Finished × List Job) := do
  let pull ← s.openPull rect out
  .ok (s.runPull source (2 * pull.cells.length + 1) pull jobs)

/-- Does a job in the background. -/
def runJob (s : Sink) (source : Source) (job : Job) : Sink :=
  (s.settle job s.generation (source job.region)).1

end Sink

end TileCache
