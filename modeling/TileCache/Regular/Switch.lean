import TileCache.Text.Blank

/-!
# Switches

Switches change how a regular expression is read.  They are set for the rest of a group, or for a
group of their own: `(?i-u)` and `(?i-u:…)`.  Three of them matter here: whether upper and lower
case are the same, whether texts are made of characters or of bytes, and whether blanks and
comments may stand between the signs.
-/

set_option autoImplicit false

namespace TileCache.Regular

structure Switches where
  caseless : Bool
  unicode : Bool
  spaced : Bool
deriving DecidableEq

/-- Without what stands between the signs: blanks, and comments up to the end of their line. -/
def skipBlanks : (inComment : Bool) → List Char → List Char
  | _, [] => []
  | true, c :: cs => skipBlanks (c != '\n') cs
  | false, c :: cs =>
    if c = '#' then skipBlanks true cs
    else if Text.isBlank c then skipBlanks false cs
    else c :: cs

namespace Switches

/-- How an expression is read from the start. -/
def initial : Switches := { caseless := false, unicode := true, spaced := false }

/-- From the next sign on. -/
def skip (s : Switches) (cs : List Char) : List Char := if s.spaced then skipBlanks false cs else cs

theorem skip_initial (cs : List Char) : initial.skip cs = cs := rfl

/-- The letters of all switches. -/
def letters : List Char := ['i', 'm', 's', 'U', 'u', 'R', 'x']

/-- Turns a switch on or off. -/
def set (s : Switches) (letter : Char) (on : Bool) : Switches :=
  if letter = 'i' then { s with caseless := on }
  else if letter = 'u' then { s with unicode := on }
  else if letter = 'x' then { s with spaced := on }
  else s

/-- Reads letters up to the sign that ends them, a colon or a bracket, and says whether there are
any, which sign it is, and what follows.  Behind a minus switches are turned off.  Nothing may come
twice, and the minus not last. -/
def read : (seen : List Char) → Switches → List Char →
    Option (Switches × Bool × Char × List Char)
  | _, _, [] => none
  | seen, s, c :: cs =>
    if c = ':' ∨ c = ')' then
      if seen.head? = some '-' then none else some (s, !seen.isEmpty, c, cs)
    else if seen.contains c then none
    else if c = '-' then read (c :: seen) s cs
    else if letters.contains c then read (c :: seen) (s.set c (!seen.contains '-')) cs
    else none

end Switches

end TileCache.Regular
