import TileCache.Cache.Config
import TileCache.Pixels.Format

/-!
# What the program can be asked to do

There are two commands: `render` writes one viewport as a picture, `pan` moves viewers across the
image and reports on the cache.  Each has its options, which may still ask for something senseless;
`validate` says what, and looks at the image first, then at the sink, then at the rest in order.

`Pan.viewportAt` walks a viewer to the right and, at the right edge, back to the left and down.
Its arithmetic is that of words of 64 bits.
-/

set_option autoImplicit false

namespace TileCache.CommandLine

/-- Why options are refused. -/
inductive OptionError
  | imageSize
  | bands
  | sink (error : ConfigError)
  | quality
  | rectLength
  | viewportOutside (viewport : Rect)
  | workers
  | viewport
  | step
deriving DecidableEq

def OptionError.message : OptionError → String
  | imageSize => "image width and height must be greater than 0"
  | bands => "bands must be 1 or 3"
  | sink error => error.message
  | quality => "quality must be between 1 and 100"
  | rectLength => "rect must be left,top,width,height"
  | viewportOutside rect => s!"viewport {rect} does not overlap the image"
  | workers => "workers must be greater than 0"
  | viewport => "viewport must be greater than 0"
  | step => "step must be greater than 0"

/-- The picture to be shown, and how long the computation of a tile takes. -/
structure ImageOptions where
  width : Coord
  height : Coord
  bands : UInt8
  delayMs : Nat
deriving DecidableEq

namespace ImageOptions

def info (o : ImageOptions) : ImageInfo :=
  { width := o.width, height := o.height, bands := o.bands, format := .uchar }

def validate (o : ImageOptions) : Except OptionError Unit :=
  if o.width.val ≤ 0 ∨ o.height.val ≤ 0 then .error .imageSize
  else if o.bands ≠ 1 ∧ o.bands ≠ 3 then .error .bands
  else .ok ()

end ImageOptions

structure SinkOptions where
  tileWidth : Coord
  tileHeight : Coord
  maxTiles : Int
  priority : Coord
  background : Bool
deriving DecidableEq

namespace SinkOptions

/-- The configuration that the options stand for. -/
def config (o : SinkOptions) : Config :=
  { tileWidth := o.tileWidth, tileHeight := o.tileHeight, maxTiles := o.maxTiles
    priority := o.priority, mode := if o.background then .background else .synchronous
    notify := false }

def validate (o : SinkOptions) : Except OptionError Unit :=
  match o.config.validate with
  | .ok _ => .ok ()
  | .error error => .error (.sink error)

end SinkOptions

/-- The options of `render`. -/
structure Render where
  image : ImageOptions
  sink : SinkOptions
  output : String
  quality : Nat
  rect? : Option (List Coord)
  timeoutSecs : Nat
deriving DecidableEq

namespace Render

/-- The rectangle to be shown: the one asked for, or the whole image. -/
def viewport (o : Render) : Rect :=
  match o.rect? with
  | some [left, top, width, height] => ⟨left, top, width, height⟩
  | _ => o.image.info.bounds

def validate (o : Render) : Except OptionError Unit := do
  o.image.validate
  o.sink.validate
  if o.quality = 0 ∨ 100 < o.quality then .error .quality
  if o.rect?.any fun rect => rect.length != 4 then .error .rectLength
  if (o.viewport.intersect o.image.info.bounds).isEmpty then .error (.viewportOutside o.viewport)

end Render

inductive StatsFormat
  | text
  | json
deriving DecidableEq

/-- The options of `pan`. -/
structure Pan where
  image : ImageOptions
  sink : SinkOptions
  workers : Nat
  steps : Nat
  viewport : Coord
  step : Coord
  format : StatsFormat
deriving DecidableEq

/-- The number between `-2 ^ 63` and `2 ^ 63 - 1` that agrees with `v` modulo `2 ^ 64`. -/
def word64 (v : Int) : Int := (v + 0x8000000000000000) % 0x10000000000000000 - 0x8000000000000000

theorem word64_of_mem {v : Int} (hl : -0x8000000000000000 ≤ v) (hu : v < 0x8000000000000000) :
    word64 v = v := by
  unfold word64; omega

namespace Pan

def validate (o : Pan) : Except OptionError Unit := do
  o.image.validate
  o.sink.validate
  if o.workers = 0 then .error .workers
  if o.viewport.val ≤ 0 then .error .viewport
  if o.step.val ≤ 0 then .error .step

/-- How far a viewport can move along a side of the image, at least one pixel. -/
def reach (o : Pan) (side : Coord) : Int :=
  max 1 (Coord.wrap (side.val - o.viewport.val)).val

/-- Where viewer number `worker` looks after `step` moves. -/
def viewportAt (o : Pan) (worker step : Nat) : Rect :=
  let start := word64 (word64 worker * o.viewport.val)
  let travel := word64 (start + word64 (word64 step * o.step.val))
  let columns := o.reach o.image.width
  let rows := o.reach o.image.height
  let left := travel.tmod columns
  let top := (word64 (start + word64 (travel.tdiv columns * o.step.val))).tmod rows
  ⟨.wrap left, .wrap top, o.viewport, o.viewport⟩

end Pan

inductive Command
  | render (options : Render)
  | pan (options : Pan)
deriving DecidableEq

/-- A command line that was understood. -/
structure Invocation where
  command : Command
  verbose : Bool
deriving DecidableEq

end TileCache.CommandLine
