import TileCache.CommandLine.Usage
import TileCache.Picture.Jpeg
import TileCache.Program.Report

/-!
# The program

The command line: it reads arguments and environment, writes the picture and prints the lines.
-/

set_option autoImplicit false

namespace TileCache.Program

open CommandLine

/-- The settings in the environment: those that options have, and those that have none. -/
def readEnvironment : IO (String → Option String) := do
  let names := [threadsSetting, logSetting] ++ (renderSpecs ++ panSpecs).filterMap (·.environment?)
  let settings ← names.filterMapM fun name => do
    return (← IO.getEnv name).map fun value => (name, value)
  return fun name => settings.lookup name

/-- Prints the lines that get past the filter. -/
def printAll (filter : Log.Filter) (lines : List Line) : IO Unit :=
  (lines.filter (·.passes filter)).forM fun line => IO.println line.text

/-- What is said of a file that cannot be written: what the system says, and its number for that. -/
def reasonOf : IO.Error → String
  | .noFileOrDirectory _ code details | .inappropriateType _ code details
  | .invalidArgument _ code details | .permissionDenied _ code details
  | .resourceExhausted _ code details | .noSuchThing _ code details =>
    s!"{details} (os error {code})"
  | error => toString error

/-- The time that has passed since `started`, and `busyMillis` more for computations. -/
def elapsedSince (started busyMillis : Nat) : IO Elapsed := do
  return .ofNanos ((← IO.monoNanosNow) - started + busyMillis * 1000000)

/-- Writes a file.  Whether that works is of interest only if there are many bytes. -/
def writeBytes (file : IO.FS.Handle) (bytes : ByteArray) : IO Unit :=
  tryCatch (do file.write bytes; file.flush) fun error =>
    if bytes.size ≤ Render.unheededBytes then pure () else throw error

/-- Creates the file of a rendering, and writes the picture if that is possible. -/
def writePicture (o : CommandLine.Render) (rendered : Rendered) : IO (Except String Unit) :=
  tryCatch
    (do
      let file ← IO.FS.Handle.mk o.output .write
      if (Render.sizeError? rendered.out.valid).isNone then
        writeBytes file (Picture.Jpeg.encode rendered.out o.quality)
      return .ok ())
    (fun error => return .error (reasonOf error))

/-- The seconds from which on the clock cannot tell a point in time any more. -/
def clockLimitSecs : Nat := 0x8000000000000000

def renderMain (filter : Log.Filter) (o : CommandLine.Render) : IO Exit := do
  let started ← IO.monoNanosNow
  match Render.run (fun secs => started / 1000000000 + secs < clockLimitSecs) o with
  | .error refusal =>
    printAll filter refusal.lines
    return refusal.exit
  | .ok rendered =>
    let elapsed ← elapsedSince started (rendered.busyMillis o)
    let written ← writePicture o rendered
    let (lines, exit) := Render.report o rendered elapsed written
    printAll filter lines
    return exit

def panMain (filter : Log.Filter) (o : CommandLine.Pan) : IO Exit := do
  let started ← IO.monoNanosNow
  match Pan.run o with
  | .error refusal =>
    printAll filter refusal.lines
    return refusal.exit
  | .ok panned =>
    printAll filter (Pan.report o panned (← elapsedSince started (panned.busyMillis o)))
    return .succeeded

def commandMain (filter : Log.Filter) : Command → IO Exit
  | .render o => renderMain filter o
  | .pan o => panMain filter o

def runMain (arguments : List String) : IO Exit := do
  let environment ← readEnvironment
  if let some exit := threadsExit? environment then return exit
  match parse arguments environment with
  | .error error =>
    error.lines.forM fun line => IO.eprintln line
    return exitOf error
  | .ok invocation =>
    match logFilter? environment invocation.verbose with
    | none => return .brokeOff
    | some filter => commandMain filter invocation.command

end TileCache.Program

def main (arguments : List String) : IO UInt32 :=
  return UInt32.ofNat (← TileCache.Program.runMain arguments).code
