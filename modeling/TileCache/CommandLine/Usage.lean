import TileCache.CommandLine.Parse

/-!
# Help with the command line

What is said to somebody who asks for help, or whose command line was not understood.
-/

set_option autoImplicit false

namespace TileCache.CommandLine

/-- What is wrong, if the arguments are not just a request for help. -/
def UsageError.message? : UsageError → Option String
  | helpWanted | versionWanted | nothingGiven => none
  | commandMissing => some "a command is missing"
  | commandUnknown => some "unknown command"
  | argumentUnknown argument => some s!"unexpected argument '{argument}'"
  | valueMissing option => some s!"a value is required for '{option}'"
  | valueNotOffered option value | valueMalformed option value =>
    some s!"invalid value '{value}' for '{option}'"
  | valueUnneeded option value => some s!"unexpected value '{value}' for '{option}'"
  | repeated option => some s!"'{option}' cannot be used more than once"

def versionText : String := "screen-sink 0.1.0"

/-- An option in a line of the help. -/
def Spec.helpLine (spec : Spec) : String :=
  let short := match spec.short? with
    | some c => s!"-{c}, "
    | none => "    "
  let setting := match spec.environment? with
    | some name => s!" [env: {name}]"
    | none => ""
  "  " ++ short ++ spec.display ++ setting

def usageLines : List String :=
  ["Usage: screen-sink [OPTIONS] <COMMAND>", ""] ++ generalSpecs.map Spec.helpLine ++
    ["", "render: write one viewport as a picture"] ++ renderSpecs.map Spec.helpLine ++
    ["", "pan: move viewers across the image and report on the cache"] ++
    panSpecs.map Spec.helpLine

/-- All that is said about a command line that is not carried out. -/
def UsageError.lines : UsageError → List String
  | versionWanted => [versionText]
  | error =>
    (error.message?.toList.map fun message => s!"error: {message}") ++ usageLines

end TileCache.CommandLine
