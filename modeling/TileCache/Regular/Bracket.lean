import TileCache.Regular.Sign

/-!
# Classes in brackets

A class lists its members: characters, ranges of them, kinds, classes with a name and other classes
in brackets.  `&&`, `--` and `~~` stand between lists and join what is ahead of them with what
follows.

What is kept of a class that is being read is how deep its parts lie within each other.
-/

set_option autoImplicit false

namespace TileCache.Regular

/-- How deep parts lie that stand side by side: one by itself as deep as it is, several of them one
step deeper than the deepest. -/
def depthOf : List Nat → Nat
  | [] => 0
  | [depth] => depth
  | depths => 1 + depths.foldl max 0

/-- A class of which the end has not been reached. -/
structure Bracket where
  negated : Bool
  /-- How deep the lists ahead of the last sign between lists lie. -/
  ahead? : Option Nat
  /-- How deep the members lie that have been read since. -/
  members : List Nat

namespace Bracket

def depth (b : Bracket) : Nat :=
  match b.ahead? with
  | none => depthOf b.members
  | some ahead => 1 + max ahead (depthOf b.members)

def add (b : Bracket) (depth : Nat) : Bracket := { b with members := depth :: b.members }

/-- Begins the next list. -/
def join (b : Bracket) : Bracket := { b with ahead? := some b.depth, members := [] }

end Bracket

/-- The classes with a name. -/
def classNames : List String :=
  ["alnum", "alpha", "ascii", "blank", "cntrl", "digit", "graph", "lower", "print", "punct",
    "space", "upper", "word", "xdigit"]

/-- Reads the name of a class behind a bracket, and says whether the class is negated. -/
def readNamed? : List Char → Option (Bool × List Char)
  | ':' :: cs =>
    let (negated, cs) := match cs with
      | '^' :: rest => (true, rest)
      | _ => (false, cs)
    match cs.dropWhile (· != ':') with
    | ':' :: ']' :: rest =>
      if classNames.contains (String.ofList (cs.takeWhile (· != ':'))) then some (negated, rest)
      else none
    | _ => none
  | _ => none

/-- Can a class with a name be a member?  Where texts are made of bytes, a negated one would match
half a character; where they are made of characters, no class knows its letters in the other
case. -/
def allowsNamed (s : Switches) (negated : Bool) : Bool :=
  if s.unicode then !s.caseless else !negated

/-- Passes over the minus signs at the start of a class. -/
def readMinuses (s : Switches) : (fuel : Nat) → Bracket → List Char → Option (Bracket × List Char)
  | fuel + 1, b, '-' :: cs =>
    if (Sign.letter '-' false).allowedInClass s then readMinuses s fuel (b.add 0) (s.skip cs)
    else none
  | _, b, cs => some (b, cs)

/-- Reads the start of a class behind its bracket: whether it is negated, and the signs that are
members only there, minus signs and then a closing bracket. -/
def readStart (s : Switches) (cs : List Char) : Option (Bracket × List Char) := do
  let (negated, cs) := match s.skip cs with
    | '^' :: rest => (true, s.skip rest)
    | rest => (false, rest)
  let (b, cs) ← readMinuses s cs.length ⟨negated, none, []⟩ cs
  match b.members, cs with
  | [], ']' :: rest =>
    if (Sign.letter ']' false).allowedInClass s then some (b.add 0, s.skip rest) else none
  | _, _ => some (b, cs)

/-- Reads one sign of a class. -/
def readSign (s : Switches) : List Char → Option (Sign × List Char)
  | [] => none
  | '\\' :: cs => readEscaped s cs
  | c :: cs => some (.letter c false, cs)

/-- The next character that is not blank.  Only the sign ahead of a comment is passed over. -/
def peekBeyond : (inComment : Bool) → List Char → Option Char
  | _, [] => none
  | inComment, c :: cs =>
    if Text.isBlank c then peekBeyond inComment cs
    else if c = '#' ∧ !inComment then peekBeyond true cs
    else some c

def peek (s : Switches) (cs : List Char) : Option Char :=
  if s.spaced then peekBeyond false cs else cs.head?

/-- Does a range follow?  A minus ahead of the end of the class is a member, and two of them stand
between lists. -/
def rangeFollows? (s : Switches) : List Char → Option (List Char)
  | '-' :: cs =>
    if peek s cs = some ']' ∨ peek s cs = some '-' then none else some (s.skip cs)
  | _ => none

/-- Reads a sign or a range of characters. -/
def readMember (s : Switches) (cs : List Char) : Option (List Char) := do
  let (first, rest) ← readSign s cs
  match rangeFollows? s (s.skip rest) with
  | none => if first.allowedInClass s then some rest else none
  | some rest =>
    let (last, rest) ← readSign s rest
    match first, last with
    | .letter c _, .letter d _ =>
      if first.allowedInClass s && last.allowedInClass s && c ≤ d then some rest else none
    | _, _ => none

/-- Reads a class up to its end, together with the classes around it, and says how deep it is. -/
def readClass (s : Switches) : (fuel : Nat) → Bracket → (around : List Bracket) → List Char →
    Option (Nat × List Char)
  | 0, _, _, _ => none
  | fuel + 1, b, around, cs =>
    match s.skip cs with
    | [] => none
    | '[' :: rest =>
      match readNamed? rest with
      | some (negated, rest) =>
        if allowsNamed s negated then readClass s fuel (b.add 0) around rest else none
      | none => do
        let (inner, rest) ← readStart s rest
        readClass s fuel inner (b :: around) rest
    | ']' :: rest =>
      if !s.unicode && b.negated then none
      else
        match around with
        | [] => some (1 + b.depth, rest)
        | outer :: around => readClass s fuel (outer.add (1 + b.depth)) around rest
    | '&' :: '&' :: rest | '-' :: '-' :: rest | '~' :: '~' :: rest =>
      readClass s fuel b.join around rest
    | rest => do
      let rest ← readMember s rest
      readClass s fuel (b.add 0) around rest

end TileCache.Regular
