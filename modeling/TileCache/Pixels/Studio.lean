import TileCache.Pixels.Script

/-!
# Sources with a state

A source may count its calls, have an order of its own, or be told from outside what to do next.  A
`Studio` is such a source: each call that begins may change its state, and so may the same region
come out differently every time.  A call either waits until somebody lets it go on, or takes its
`Course` at once: it may invalidate its image meanwhile, and it leaves an answer behind.

Scripted sources are studios.
-/

set_option autoImplicit false

namespace TileCache

/-- What comes of a call: how often the image was invalidated meanwhile, and what is left behind. -/
structure Course where
  invalidations : Nat
  answer : Answer

/-- A source whose states are of type `σ` and whose calls under way are of type `κ`. -/
class Studio (σ : Type) (κ : outParam Type) where
  /-- A call begins for a region: the source from then on, and the call. -/
  call : σ → Region → σ × κ
  /-- Does the call wait until it is let go on? -/
  waits : κ → Bool
  /-- What comes of a call that waits no longer, with the region that it began with. -/
  perform : σ → κ → Region → Course

instance : Studio Script Call where
  call script region := script.call region.valid
  waits call := call.act = .gate
  perform script call region :=
    { invalidations := if call.act = .invalidate then 1 else 0
      answer := call.perform script.fill region }

end TileCache
