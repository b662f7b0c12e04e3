import TileCache.Pixels.Pattern

/-!
# Sources of pixels

A source is asked to fill a region that already has its buffer.  What matters of such a call is
what it leaves behind: an `Answer`, the region as the call left it and how the call ended.  A call
may end without an answer of its own (`Ending.broken`); what it wrote until then is still there.

A region is stamped only by `Answer.stamped`, with the generation that held *before* the call.  An
image that is invalidated while a call is under way thus leaves pixels that are stale at once.
-/

set_option autoImplicit false

namespace TileCache

/-- How a call of a source ended. -/
inductive Ending
  | completed
  | failed (error : SourceError)
  /-- The call broke off. -/
  | broken
deriving DecidableEq

/-- What a call of a source leaves behind. -/
structure Answer where
  region : Region
  ending : Ending

namespace Answer

/-- The region after the call, stamped with the generation at which the call began if it
completed. -/
def stamped (a : Answer) (generation : Nat) : Region :=
  match a.ending with
  | .completed => { a.region with stamp := some generation }
  | _ => a.region

/-- The answer of a computation that either has written the region or broke off. -/
def ofFault (before : Region) : Except Fault Region → Answer
  | .ok region => ⟨region, .completed⟩
  | .error _ => ⟨before, .broken⟩

end Answer

/-- A source whose answer hangs on the region alone. -/
abbrev Source := Region → Answer

/-- The source that paints the test pattern. -/
def Source.pattern : Source := fun r => .ofFault r (Pattern.paint r)

end TileCache
