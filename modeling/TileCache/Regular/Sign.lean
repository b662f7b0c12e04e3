import TileCache.Regular.Switch

/-!
# Signs

The smallest parts of a regular expression, and those that are written with a backslash.  Classes
of characters beyond ASCII and words of their letters are not available, nor is anything that could
match half a character.
-/

set_option autoImplicit false

namespace TileCache.Regular

inductive Sign
  /-- A character, perhaps given as the number of a byte. -/
  | letter (c : Char) (asByte : Bool)
  /-- Digits, blanks or letters of words, or all others. -/
  | kind (negated : Bool)
  /-- A place in a text, perhaps at a word. -/
  | edge (ofWord : Bool)
  /-- Any character. -/
  | any
deriving DecidableEq

namespace Sign

/-- Can the sign stand by itself? -/
def allowed (s : Switches) : Sign → Bool
  | letter c asByte => if s.unicode then !s.caseless else !asByte || c.toNat < 0x80
  | kind negated => !s.unicode && !negated
  | edge ofWord => !s.unicode || !ofWord
  | any => s.unicode

/-- Can the sign be a member of a class? -/
def allowedInClass (s : Switches) : Sign → Bool
  | letter c _ => if s.unicode then !s.caseless else c.toNat < 0x80
  | kind negated => !s.unicode && !negated
  | edge _ | any => false

end Sign

def hexDigit? (c : Char) : Option Nat :=
  if '0' ≤ c ∧ c ≤ '9' then some (c.toNat - '0'.toNat)
  else if 'a' ≤ c ∧ c ≤ 'f' then some (c.toNat - 'a'.toNat + 10)
  else if 'A' ≤ c ∧ c ≤ 'F' then some (c.toNat - 'A'.toNat + 10)
  else none

/-- Reads that many hexadecimal digits behind those that stand for `n`. -/
def readHex (s : Switches) : (count n : Nat) → List Char → Option (Nat × List Char)
  | 0, n, cs => some (n, cs)
  | _ + 1, _, [] => none
  | count + 1, n, c :: cs => do
    let digit ← hexDigit? c
    readHex s count (16 * n + digit) (s.skip cs)

/-- Reads a character that is given by its number. -/
def readNumbered (s : Switches) (count : Nat) (asByte : Bool) (cs : List Char) :
    Option (Sign × List Char) := do
  let (n, rest) ← readHex s count 0 (s.skip cs)
  if n.isValidChar then some (.letter (Char.ofNat n) asByte, rest) else none

/-- The characters with a letter of their own. -/
def named : List (Char × Char) :=
  [('a', '\x07'), ('f', '\x0c'), ('n', '\n'), ('r', '\r'), ('t', '\t'), ('v', '\x0b')]

/-- Reads what follows a backslash.  What is not a letter or digit of ASCII stands for itself. -/
def readEscaped (s : Switches) : List Char → Option (Sign × List Char)
  | [] => none
  | c :: cs =>
    if c = 'x' then readNumbered s 2 true cs
    else if c = 'u' then readNumbered s 4 false cs
    else if c = 'U' then readNumbered s 8 false cs
    else if ['d', 's', 'w'].contains c then some (.kind false, cs)
    else if ['D', 'S', 'W'].contains c then some (.kind true, cs)
    else if ['A', 'z'].contains c then some (.edge false, cs)
    else if ['b', 'B', '<', '>'].contains c then some (.edge true, cs)
    else
      match named.lookup c with
      | some letter => some (.letter letter false, cs)
      | none => if c.toNat < 0x80 ∧ !c.isAlphanum then some (.letter c false, cs) else none

end TileCache.Regular
