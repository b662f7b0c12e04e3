import TileCache.CommandLine.Parse
import TileCache.Program.Pan
import TileCache.Program.Render
import TileCache.Program.Startup
import TileCache.Program.System

/-!
# A whole run of the program

From the arguments and the environment to what the program says, how it ends and the files it
leaves in a working directory that was empty.
-/

set_option autoImplicit false

namespace TileCache.Program

/-- What is in a file that the program has created. -/
inductive Contents
  | empty
  | picture (width height components : Nat)
deriving DecidableEq

/-- What a run leaves behind. -/
structure Report where
  lines : List Line
  exit : Exit
  files : List (String × Contents)

def Refusal.report (r : Refusal) : Report := { lines := r.lines, exit := r.exit, files := [] }

/-- A program that ends without having said or done anything. -/
def silent (exit : Exit) : Report := { lines := [], exit, files := [] }

def contentsOf (out : Region) : Contents :=
  if (Render.sizeError? out.valid).isSome then .empty
  else .picture out.valid.width.val.toNat out.valid.height.val.toNat out.pixelSize

/-- Writes the picture of a rendering to where its options want it. -/
def writtenTo (system : System) (o : CommandLine.Render) (out : Region) :
    Except FileError Destination :=
  match system.createFile o.output with
  | .error error => .error error
  | .ok destination =>
    if destination = .full && Render.missesRoom o out then .error .noRoom else .ok destination

/-- A rendering that is written from an empty working directory. -/
def renderReport (system : System) (o : CommandLine.Render) (elapsed : Elapsed) : Report :=
  match Render.run system.canTell o with
  | .error refusal => refusal.report
  | .ok rendered =>
    match writtenTo system o rendered.out with
    | .error error =>
      let (lines, exit) := Render.report o rendered elapsed (.error error.message)
      { lines, exit, files := [] }
    | .ok destination =>
      let (lines, exit) := Render.report o rendered elapsed (.ok ())
      { lines, exit
        files := destination.name?.toList.map fun name => (name, contentsOf rendered.out) }

def panReport (o : CommandLine.Pan) (elapsed : Elapsed) : Report :=
  match Pan.run o with
  | .error refusal => refusal.report
  | .ok panned => { lines := Pan.report o panned elapsed, exit := .succeeded, files := [] }

/-- The end of a program whose command line is not carried out: help and the version can be asked
for, all else is misuse. -/
def exitOf : CommandLine.UsageError → Exit
  | .helpWanted | .versionWanted => .succeeded
  | _ => .misused

/-- What a command comes to in an empty working directory. -/
def commandReport (system : System) (command : CommandLine.Command) (elapsed : Elapsed) : Report :=
  match command with
  | .render o => renderReport system o elapsed
  | .pan o => panReport o elapsed

/-- A run in an empty working directory, which takes the time `elapsed`. -/
def run (system : System) (arguments : List String) (environment : String → Option String)
    (elapsed : Elapsed) : Report :=
  match threadsExit? environment with
  | some exit => silent exit
  | none =>
    match CommandLine.parse arguments environment with
    | .error error => silent (exitOf error)
    | .ok invocation =>
      match logFilter? environment invocation.verbose with
      | none => silent .brokeOff
      | some filter =>
        let report := commandReport system invocation.command elapsed
        { report with lines := report.lines.filter (·.passes filter) }

end TileCache.Program
