import TileCache.Number.Whole

/-!
# How much is logged

Lines of the log are more or less severe, and a level says from which severity on they are wanted.
A level is written as a name, in letters of either case, or as a number.
-/

set_option autoImplicit false

namespace TileCache.Log

/-- How severe a line is. -/
inductive Severity
  | info
  | warn
  | error
deriving DecidableEq

def Severity.name : Severity → String
  | info => "INFO"
  | warn => "WARN"
  | error => "ERROR"

/-- Which lines are wanted: those of the severity that a level is named for, and all that are more
severe. -/
inductive Level
  | off
  | error
  | warn
  | info
  | debug
  | trace
deriving DecidableEq

namespace Level

/-- The levels, each one more talkative than the one before. -/
def all : List Level := [off, error, warn, info, debug, trace]

def name : Level → String
  | off => "off"
  | error => "error"
  | warn => "warn"
  | info => "info"
  | debug => "debug"
  | trace => "trace"

/-- The place of a level among all of them. -/
def number : Level → Nat
  | off => 0
  | error => 1
  | warn => 2
  | info => 3
  | debug => 4
  | trace => 5

theorem all_number (level : Level) : all[level.number]? = some level := by
  cases level <;> rfl

/-- The level that a text names or numbers. -/
def ofText? (text : List Char) : Option Level :=
  let numbered := (Number.readInt false text).bind fun n => all[n.toNat]?
  numbered <|> all.find? fun level => level.name.toList == text.map Char.toLower

/-- Does somebody who asks for the level want lines of this severity? -/
def shows (level : Level) : Severity → Bool
  | .error => error.number ≤ level.number
  | .warn => warn.number ≤ level.number
  | .info => info.number ≤ level.number

/-- Whoever wants lines also wants those that are more severe. -/
theorem shows_mono {level : Level} :
    (level.shows .info → level.shows .warn) ∧ (level.shows .warn → level.shows .error) := by
  cases level <;> decide

end Level

end TileCache.Log
