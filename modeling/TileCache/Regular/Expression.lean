import TileCache.Regular.Bracket
import TileCache.Text.Alphanumeric

/-!
# Regular expressions

`isExpression` says whether a text is a regular expression.  What it would match is of no concern
here, so that nothing is kept of an expression but how deep its parts lie within each other: they
may not lie deeper than `maxDepth`.

An expression is read sign by sign.  Groups that are open wait for their end; `|` stands between
the branches of a group, and a branch is a row of parts.
-/

set_option autoImplicit false

namespace TileCache.Regular

/-- How deep the parts of an expression may lie within each other. -/
def maxDepth : Nat := 250

/-- A part of a branch. -/
structure Part where
  depth : Nat
  /-- Is it nothing but a setting of switches? -/
  isSetting : Bool

/-- A group of which the end has not been reached. -/
structure Group where
  /-- How it is read from here on. -/
  switches : Switches
  /-- How deep its finished branches are. -/
  branches : List Nat
  /-- The parts of the branch that is being read, the last one first. -/
  parts : List Part

namespace Group

def opened (switches : Switches) : Group := { switches, branches := [], parts := [] }

/-- How deep the branch that is being read is. -/
def branchDepth (g : Group) : Nat := depthOf (g.parts.map (·.depth))

def depth (g : Group) : Nat := depthOf (g.branchDepth :: g.branches)

def add (g : Group) (depth : Nat) : Group :=
  { g with parts := { depth, isSetting := false } :: g.parts }

/-- Sets switches for all that follows in the group. -/
def setting (g : Group) (switches : Switches) : Group :=
  { g with switches, parts := { depth := 0, isSetting := true } :: g.parts }

/-- Begins the next branch. -/
def branch (g : Group) : Group := { g with branches := g.branchDepth :: g.branches, parts := [] }

/-- Repeats the last part, if there is one that can be. -/
def repeated? (g : Group) : Option Group :=
  match g.parts with
  | [] => none
  | part :: parts =>
    if part.isSetting then none else some ({ g with parts }.add (1 + part.depth))

theorem repeated?_add (g : Group) (depth : Nat) :
    (g.add depth).repeated? = some (g.add (1 + depth)) := rfl

theorem repeated?_opened (switches : Switches) : (opened switches).repeated? = none := rfl

theorem repeated?_branch (g : Group) : g.branch.repeated? = none := rfl

theorem repeated?_setting (g : Group) (switches : Switches) :
    (g.setting switches).repeated? = none := rfl

end Group

/-! ## Names of groups -/

/-- A name begins with a letter or an underscore. -/
def isName : List Char → Bool
  | [] => false
  | c :: cs =>
    (c = '_' || Text.isAlphabetic c) &&
      cs.all fun c => ['_', '.', '[', ']'].contains c || Text.isAlphanumeric c

/-- Reads a name and the bracket behind it.  No two groups have the same name. -/
def readName (taken : List (List Char)) (cs : List Char) : Option (List Char × List Char) :=
  let name := cs.takeWhile (· != '>')
  match cs.dropWhile (· != '>') with
  | '>' :: rest => if isName name && !taken.contains name then some (name, rest) else none
  | _ => none

/-! ## Reading -/

/-- An expression of which the end has not been reached. -/
structure Draft where
  /-- The names that groups have been given. -/
  names : List (List Char)
  /-- The innermost group. -/
  group : Group
  /-- The groups around it, from the inside. -/
  around : List Group

namespace Draft

/-- The beginning of every expression, which is itself like a group. -/
def initial : Draft := { names := [], group := .opened .initial, around := [] }

def add (d : Draft) (depth : Nat) : Draft := { d with group := d.group.add depth }

def enter (d : Draft) (switches : Switches) : Draft :=
  { d with group := .opened switches, around := d.group :: d.around }

/-- Reads the beginning of a group behind its bracket, which may turn out to be a setting of
switches. -/
def openGroup (d : Draft) (cs : List Char) : Option (Draft × List Char) :=
  let s := d.group.switches
  match s.skip cs with
  | '?' :: 'P' :: '<' :: rest | '?' :: '<' :: rest => do
    let (name, rest) ← readName d.names rest
    return ({ d with names := name :: d.names }.enter s, rest)
  | '?' :: rest => do
    let (inner, isAny, stop, rest) ← Switches.read [] s rest
    if stop = ':' then return (d.enter inner, rest)
    else if isAny then return ({ d with group := d.group.setting inner }, rest)
    else none
  | rest => some (d.enter s, rest)

/-- Ends a group.  The switches are again those of the group around it. -/
def closeGroup? (d : Draft) : Option Draft :=
  match d.around with
  | [] => none
  | outer :: around => some { d with group := outer.add (1 + d.group.depth), around }

/-- Adds a sign, if it can stand by itself. -/
def sign? (d : Draft) (sign : Sign) : Option Draft :=
  if sign.allowed d.group.switches then some (d.add 0) else none

/-- Reads what begins with the character `c`.  A repetition may be followed by a question mark,
which says that it is to be short; one with a count would need a closing brace, and there is
none. -/
def advance (d : Draft) (c : Char) (rest : List Char) : Option (Draft × List Char) :=
  if c = '(' then d.openGroup rest
  else if c = ')' then d.closeGroup?.map (·, rest)
  else if c = '|' then some ({ d with group := d.group.branch }, rest)
  else if c = '[' then do
    let (bracket, rest) ← readStart d.group.switches rest
    let (depth, rest) ← readClass d.group.switches (rest.length + 1) bracket [] rest
    return (d.add depth, rest)
  else if c = '?' ∨ c = '*' ∨ c = '+' then do
    let group ← d.group.repeated?
    return ({ d with group }, if rest.head? = some '?' then rest.tail else rest)
  else if c = '\x7b' then none
  else if c = '\\' then do
    let (sign, rest) ← readEscaped d.group.switches rest
    return (← d.sign? sign, rest)
  else
    let sign : Sign :=
      if c = '.' then .any else if c = '^' ∨ c = '$' then .edge false else .letter c false
    (d.sign? sign).map (·, rest)

/-- Reads up to the end of the text, if there is `fuel` for every sign. -/
def read : (fuel : Nat) → Draft → List Char → Option Draft
  | 0, _, _ => none
  | fuel + 1, d, cs =>
    match d.group.switches.skip cs with
    | [] => some d
    | c :: rest => do
      let (d, rest) ← d.advance c rest
      read fuel d rest

/-- Is it a whole expression? -/
def isFinished (d : Draft) : Bool := d.around.isEmpty && d.group.depth ≤ maxDepth

end Draft

/-- Is the text, which has no closing brace in it, a regular expression? -/
def isExpression (text : List Char) : Bool :=
  match Draft.initial.read (text.length + 1) text with
  | some d => d.isFinished
  | none => false

theorem isExpression_nil : isExpression [] = true := rfl

end TileCache.Regular
