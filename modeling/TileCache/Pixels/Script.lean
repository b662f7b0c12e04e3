import TileCache.Geometry.Grid
import TileCache.Pixels.Source

/-!
# Scripted sources

A scripted source behaves as a list of rules says: it fills regions, fails, breaks off half-way,
invalidates its image while it works, or waits at a gate until somebody lets it go on.  It counts
its calls and can show their numbers in the pixels, so that one can see which call a pixel comes
from.  With it every course of events of a sink can be brought about on purpose.
-/

set_option autoImplicit false

namespace TileCache

/-- What a scripted call does. -/
inductive Act
  /-- Fills the region. -/
  | fill
  /-- Waits until it is told how to go on. -/
  | gate
  /-- Fails without writing. -/
  | fail
  /-- Writes the first row and then fails. -/
  | failHalfway
  /-- Breaks off without an answer. -/
  | breakOff
  /-- Asks for a buffer outside the image and fails with the refusal. -/
  | rebuffer
  /-- Invalidates the image, then fills the region. -/
  | invalidate
deriving DecidableEq, Inhabited

/-- What a scripted source fills regions with. -/
inductive Fill
  | constant (value : UInt8)
  /-- The number of the call, in the range of bytes that are not zero. -/
  | callNumber
  | pattern
deriving DecidableEq, Inhabited

/-- A rule: what to do in a call for a region at `origin?` (or anywhere), and how often. -/
structure Rule where
  origin? : Option Origin
  act : Act
  reason : String
  times? : Option Nat
deriving Inhabited

namespace Rule

def applies (rule : Rule) (valid : Rect) : Bool :=
  rule.times? != some 0 && (rule.origin?.isNone || rule.origin? == some valid.origin)

/-- The rule after one use. -/
def used (rule : Rule) : Rule := { rule with times? := rule.times?.map (· - 1) }

end Rule

/-- One call of a scripted source: its number, counted from one, and what it is to do. -/
structure Call where
  number : Nat
  act : Act
  reason : String
deriving Inhabited

/-- A scripted source: its rules and how often it has been called. -/
structure Script where
  fill : Fill
  rules : List Rule
  calls : Nat
deriving Inhabited

namespace Script

/-- The rules after a call for `valid`, with the rule that the call follows. -/
def choose (valid : Rect) : List Rule → List Rule × Option Rule
  | [] => ([], none)
  | rule :: rules =>
    if rule.applies valid then (rule.used :: rules, some rule)
    else
      let (rules, chosen) := choose valid rules
      (rule :: rules, chosen)

/-- Counts a call for `valid` and finds out what it is to do.  The first rule that applies is
followed; without one the call fills the region. -/
def call (script : Script) (valid : Rect) : Script × Call :=
  let (rules, chosen) := choose valid script.rules
  let number := script.calls + 1
  let next := { script with rules, calls := number }
  match chosen with
  | none => (next, ⟨number, .fill, ""⟩)
  | some rule => (next, ⟨number, rule.act, rule.reason⟩)

end Script

namespace Fill

/-- Fills `region` in the call with number `number`. -/
def apply (fill : Fill) (number : Nat) (region : Region) : Answer :=
  match fill with
  | constant value => .ofFault region (region.paint region.valid value)
  | callNumber => .ofFault region (region.paint region.valid (UInt8.ofNat (number % 255 + 1)))
  | pattern => Source.pattern region

end Fill

namespace Call

/-- The byte that a call which fails half-way leaves in the first row. -/
def halfwayByte : UInt8 := 7

/-- What the call leaves behind once it no longer waits. -/
def perform (call : Call) (fill : Fill) (region : Region) : Answer :=
  let failure : Ending := .failed (.compute region.valid call.reason)
  match call.act with
  | .fill | .gate | .invalidate => fill.apply call.number region
  | .fail => ⟨region, failure⟩
  | .failHalfway =>
    match region.paint { region.valid with height := 1 } halfwayByte with
    | .ok written => ⟨written, failure⟩
    | .error _ => ⟨region, .broken⟩
  | .breakOff => ⟨region, .broken⟩
  | .rebuffer =>
    match region.buffer ⟨-5, -5, 5, 5⟩ with
    | .ok buffered => fill.apply call.number buffered
    | .error (.refused error) => ⟨region, .failed (.region error)⟩
    | .error (.faulted _) => ⟨region, .broken⟩

end Call

end TileCache
