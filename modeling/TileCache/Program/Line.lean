import TileCache.Log.Escape
import TileCache.Log.Filter

/-!
# What the program says

The program writes lines: log lines with a severity, and plain lines.  A filter may keep some of
the log back, but never a plain line.
-/

set_option autoImplicit false

namespace TileCache.Program

open Log (Severity Filter)

inductive Line
  | log (severity : Severity) (message : String)
  | plain (text : String)
deriving DecidableEq

namespace Line

def info (message : String) : Line := .log .info message

def warn (message : String) : Line := .log .warn message

def error (message : String) : Line := .log .error message

/-- The part of the program that all lines of the log come from. -/
def target : String := "screen_sink"

/-- The fields of a line of the log: it is nothing but a message. -/
def fields : List String := ["message"]

/-- A line of the log begins with the severity and the part of the program that speaks. -/
def text : Line → String
  | log severity message => Log.escape s!"{severity.name} {target}: {message}"
  | plain text => text

/-- Does the line get past the filter? -/
def passes (filter : Filter) : Line → Bool
  | log severity _ => (filter.levelFor target fields).shows severity
  | plain _ => true

end Line

end TileCache.Program
