import TileCache.Pixels.Script

/-!
# Images

An image is a description of its pixels, the source that computes them, and a generation, which
goes up whenever all pixels computed so far are declared stale.
-/

set_option autoImplicit false

namespace TileCache

/-- An image over a scripted source. -/
structure Image where
  info : ImageInfo
  script : Script
  generation : Nat

namespace Image

def create (info : ImageInfo) (script : Script) : Image := { info, script, generation := 0 }

/-- A region for this image that holds no pixel yet. -/
def region (image : Image) : Region := .empty image.info

/-- Declares all pixels computed so far stale. -/
def invalidate (image : Image) : Image := { image with generation := image.generation + 1 }

/-- Computes the pixels of `region` in one go.  The generation is read before the source is asked,
so an invalidation meanwhile leaves the pixels stale.  A call that stops at a gate has no ending
and leaves the region as it was. -/
def prepare (image : Image) (region : Region) : Image × Region × Option Ending :=
  let beganAt := image.generation
  let (script, call) := image.script.call region.valid
  let image := { image with script }
  if call.act = .gate then (image, region, none)
  else
    let image := if call.act = .invalidate then image.invalidate else image
    let answer := call.perform script.fill region
    (image, answer.stamped beganAt, some answer.ending)

end Image

end TileCache
