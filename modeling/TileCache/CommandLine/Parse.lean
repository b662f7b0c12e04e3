import TileCache.CommandLine.Argument
import TileCache.CommandLine.Options

/-!
# Understanding a command line

The tables of options, and the way from the texts that a scan found to the options of a command.
Options of the image and of the sink can also be set in the environment; what is given neither way
has a default.
-/

set_option autoImplicit false

namespace TileCache.CommandLine

/-! ## The options -/

def helpSpec : Spec := { long := "help", short? := some 'h', kind := .help }

def verboseSpec : Spec := { long := "verbose", short? := some 'v', kind := .flag }

def coordCheck : Check := .whole true (-2147483648) 2147483647

def wordCheck : Check := .whole false 0 18446744073709551615

def byteCheck : Check := .whole true 0 255

/-- The options before the command. -/
def generalSpecs : List Spec :=
  [verboseSpec, helpSpec, { long := "version", short? := some 'V', kind := .version }]

def imageSpecs : List Spec :=
  [{ long := "width", kind := .single, check := coordCheck, environment? := some "SINK_WIDTH" },
    { long := "height", kind := .single, check := coordCheck, environment? := some "SINK_HEIGHT" },
    { long := "bands", kind := .single, check := byteCheck, environment? := some "SINK_BANDS" },
    { long := "delay-ms", kind := .single, check := wordCheck
      environment? := some "SINK_DELAY_MS" }]

def sinkSpecs : List Spec :=
  [{ long := "tile-width", kind := .single, check := coordCheck
     environment? := some "SINK_TILE_WIDTH" },
    { long := "tile-height", kind := .single, check := coordCheck
      environment? := some "SINK_TILE_HEIGHT" },
    { long := "max-tiles", kind := .single, hyphens := .numbers
      check := .whole true (-9223372036854775808) 9223372036854775807
      environment? := some "SINK_MAX_TILES" },
    { long := "priority", kind := .single, hyphens := .numbers, check := coordCheck
      environment? := some "SINK_PRIORITY" },
    { long := "background", kind := .flag, environment? := some "SINK_BACKGROUND" }]

def renderSpecs : List Spec :=
  imageSpecs ++ sinkSpecs ++
    [{ long := "output", short? := some 'o', kind := .single, check := .notEmpty },
      { long := "quality", kind := .single, check := byteCheck },
      { long := "rect", kind := .list, hyphens := .any, check := coordCheck },
      { long := "timeout-secs", kind := .single, check := wordCheck },
      verboseSpec, helpSpec]

def panSpecs : List Spec :=
  imageSpecs ++ sinkSpecs ++
    [{ long := "workers", kind := .single, check := wordCheck },
      { long := "steps", kind := .single, check := wordCheck },
      { long := "viewport", kind := .single, check := coordCheck },
      { long := "step", kind := .single, check := coordCheck },
      { long := "format", kind := .single, check := .oneOf ["text", "json"] },
      verboseSpec, helpSpec]

/-! ## From texts to options -/

namespace Found

/-- The number given for an option, or the default. -/
def number (found : Found) (long : String) (default : Int) : Int :=
  match found.values long with
  | [] => default
  | text :: _ => (Number.readInt true text.toList).getD default

def nat (found : Found) (long : String) (default : Nat) : Nat := (found.number long default).toNat

def coord (found : Found) (long : String) (default : Int) : Coord :=
  .clamp (found.number long default)

def text (found : Found) (long default : String) : String :=
  (found.values long).headD default

def isSet (found : Found) (long : String) : Bool := found.values long == ["true"]

def coords? (found : Found) (long : String) : Option (List Coord) :=
  (found.lookup long).map fun texts =>
    texts.map fun text => .clamp ((Number.readInt true text.toList).getD 0)

def imageOptions (found : Found) : ImageOptions :=
  { width := found.coord "width" 4096, height := found.coord "height" 4096
    bands := UInt8.ofNat (found.nat "bands" 3), delayMs := found.nat "delay-ms" 0 }

def sinkOptions (found : Found) : SinkOptions :=
  { tileWidth := found.coord "tile-width" 128, tileHeight := found.coord "tile-height" 128
    maxTiles := found.number "max-tiles" 256, priority := found.coord "priority" 0
    background := found.isSet "background" }

def render (found : Found) : Render :=
  { image := found.imageOptions, sink := found.sinkOptions
    output := found.text "output" "viewport.jpg", quality := found.nat "quality" 80
    rect? := found.coords? "rect", timeoutSecs := found.nat "timeout-secs" 30 }

def pan (found : Found) : Pan :=
  { image := found.imageOptions, sink := found.sinkOptions
    workers := found.nat "workers" 4, steps := found.nat "steps" 64
    viewport := found.coord "viewport" 512, step := found.coord "step" 96
    format := if found.text "format" "text" = "json" then .json else .text }

end Found

/-! ## The whole line -/

/-- Scans the options of a command, which has no commands of its own. -/
def commandOptions (specs : List Spec) (arguments : List String)
    (environment : String → Option String) : Except UsageError Found := do
  let scanned ← scan specs [] arguments .start
  fromEnvironment environment specs scanned.found

/-- The words behind `help` name the command that help is wanted for. -/
def helpFor : List String → UsageError
  | [] => .helpWanted
  | [command] => if ["render", "pan", "help"].contains command then .helpWanted else .commandUnknown
  | _ => .commandUnknown

/-- Understands a command line, without the name of the program. -/
def parse (arguments : List String) (environment : String → Option String) :
    Except UsageError Invocation := do
  let general ← scan generalSpecs ["render", "pan", "help"] arguments .start
  match general.command? with
  | none => .error (if general.found.isEmpty then .nothingGiven else .commandMissing)
  | some (command, rest) =>
    if command = "help" then .error (helpFor rest)
    else if command = "render" then
      let found ← commandOptions renderSpecs rest environment
      .ok ⟨.render found.render, general.found.isSet "verbose" || found.isSet "verbose"⟩
    else
      let found ← commandOptions panSpecs rest environment
      .ok ⟨.pan found.pan, general.found.isSet "verbose" || found.isSet "verbose"⟩

end TileCache.CommandLine
