import TileCache.Number.Binary

/-!
# Times in reports

A time is written in the largest unit of which it has at least one, with one place behind the
point.  Where a machine is to read it, it is a whole number of milliseconds.
-/

set_option autoImplicit false

namespace TileCache.Program

/-- A time, as the reports write it and in whole milliseconds. -/
structure Elapsed where
  text : String
  millis : String

namespace Elapsed

/-- The units, with the nanoseconds that each of them has. -/
def units : List (Nat × String) := [(1000000000, "s"), (1000000, "ms"), (1000, "µs"), (1, "ns")]

def unitFor (nanos : Nat) : Nat × String :=
  (units.find? fun (length, _) => length ≤ nanos).getD (1, "ns")

/-- A time in nanoseconds. -/
def ofNanos (nanos : Nat) : Elapsed :=
  let (length, unit) := unitFor nanos
  let tenths := Number.roundDiv (nanos * 10) length
  { text := s!"{tenths / 10}.{tenths % 10}{unit}", millis := toString (nanos / 1000000) }

end Elapsed

end TileCache.Program
