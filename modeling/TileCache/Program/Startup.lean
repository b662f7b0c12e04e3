import TileCache.Number.Whole
import TileCache.Program.Exit
import TileCache.Program.Line

/-!
# What the environment decides

Two settings in the environment have no option: how many threads there are to be, which must make
sense before anything else is looked at, and what is logged.
-/

set_option autoImplicit false

namespace TileCache.Program

open Log (Filter Level)

/-- The setting for the number of threads. -/
def threadsSetting : String := "TOKIO_WORKER_THREADS"

/-- The setting for the filter of the log. -/
def logSetting : String := "RUST_LOG"

/-- The number of threads that the environment asks for, or the one that is taken anyway. -/
def threads? (environment : String → Option String) : Option Nat :=
  match environment threadsSetting with
  | none => some 1
  | some text => (Number.readWithin false 1 0xffffffffffffffff text).map (·.toNat)

/-- At least one thread is left to do the work. -/
theorem threads?_pos {environment : String → Option String} {n : Nat}
    (h : threads? environment = some n) : 0 < n := by
  unfold threads? at h
  split at h
  · cases h; decide
  · obtain ⟨m, hm, rfl⟩ := Option.map_eq_some_iff.1 h
    have := (Number.readWithin_bounds hm).1
    omega

/-- How the program ends if it cannot have the threads that the environment asks for. -/
def threadsExit? (environment : String → Option String) : Option Exit :=
  match threads? environment with
  | none => some .brokeOff
  | some count => if maxHandles < count then some .brokeOff else none

/-- The filter that is taken if the environment has none, or one that cannot be read. -/
def defaultFilter (verbose : Bool) : Filter :=
  .only Line.target (if verbose then Level.debug else Level.info)

/-- The filter for the log, if its text does not have to be cut within a character. -/
def logFilter? (environment : String → Option String) (verbose : Bool) : Option Filter :=
  match environment logSetting with
  | none => some (defaultFilter verbose)
  | some text =>
    match Filter.read text with
    | .ok filter => some filter
    | .error .malformed => some (defaultFilter verbose)
    | .error .brokenCharacter => none

end TileCache.Program
