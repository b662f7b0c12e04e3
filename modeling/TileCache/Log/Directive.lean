import TileCache.Log.Level
import TileCache.Log.Value
import TileCache.Text.Alphanumeric
import TileCache.Text.Blank
import TileCache.Text.Cut

/-!
# Directives

A directive sets a level for what it describes.  It is a level alone, or a target with or without a
level, and between these there may be a span with fields:

    info    target    target=info    target[span]=info    target[span{field=value}]=info

A directive that ends without a level wants everything.

The blanks around a directive are passed over when it is read.  Its texts are nevertheless cut out
of the whole piece, at the places that were counted without the blanks ahead of it: a directive
with such blanks names something else than it seems to, or cannot be cut at all.
-/

set_option autoImplicit false

namespace TileCache.Log

/-- Something that a line of the log carries with it. -/
structure Field where
  name : List Char
  /-- Is only a certain value of the field meant? -/
  hasValue : Bool
deriving DecidableEq

/-- Which level is set, and for what. -/
structure Directive where
  target? : Option (List Char)
  span? : Option (List Char)
  fields : List Field
  level : Level
deriving DecidableEq

/-- Why a directive cannot be read. -/
inductive DirectiveError
  | malformed
  /-- A text would have to be cut within a character. -/
  | brokenCharacter
deriving DecidableEq

/-- The part of a text up to the next `=`. -/
def untilEquals (text : List Char) : List Char := text.takeWhile (· != '=')

/-- A name, and possibly a value between a `=` and the next one. -/
def Field.ofText? (text : List Char) : Option Field :=
  let name := untilEquals text
  match text.drop name.length with
  | [] => some { name, hasValue := false }
  | _ :: rest => if Value.isValue (untilEquals rest) then some { name, hasValue := true } else none

namespace Directive

/-- What sets everything at once. -/
def everything : Directive := { target? := none, span? := none, fields := [], level := .trace }

/-- How far a directive has been read.  A number is the place where the text that is being read
begins. -/
inductive Stage
  | start
  /-- A target or a level. -/
  | head (begun : Nat)
  | span (begun : Nat)
  | field (begun : Nat)
  | afterField
  | afterSpan
  | level (begun : Nat)
deriving DecidableEq

def cut (piece : List Char) (begun place : Nat) : Except DirectiveError (List Char) :=
  match Text.slice? piece begun place with
  | some text => .ok text
  | none => .error .brokenCharacter

def cutRest (piece : List Char) (begun : Nat) : Except DirectiveError (List Char) :=
  match Text.sliceFrom? piece begun with
  | some text => .ok text
  | none => .error .brokenCharacter

/-- May a directive begin with the character? -/
def isFirst (c : Char) : Bool := ['-', ':', '_'].contains c || Text.isAlphanumeric c

/-- Reads the character at `place`. -/
def advance (piece : List Char) (d : Directive) (place : Nat) (c : Char) :
    Stage → Except DirectiveError (Directive × Stage)
  | .start =>
    if c = '[' then .ok (d, .span (place + 1))
    else if isFirst c then .ok (d, .head place)
    else .error .malformed
  | .head begun =>
    if c = '=' then do return ({ d with target? := ← cut piece begun place }, .level (place + 1))
    else if c = '[' then do
      return ({ d with target? := ← cut piece begun place }, .span (place + 1))
    else .ok (d, .head begun)
  | .span begun =>
    if c = ']' then do return ({ d with span? := ← cut piece begun place }, .afterSpan)
    else if c = '\x7b' then do
      let name ← cut piece begun place
      return ({ d with span? := if name = [] then none else some name }, .field (place + 1))
    else .ok (d, .span begun)
  | .field begun =>
    if c = '\x7d' then do
      let text ← cut piece begun place
      if text = [] then .error .malformed
      match Field.ofText? text with
      | some field => return ({ d with fields := d.fields ++ [field] }, .afterField)
      | none => .error .malformed
    else .ok (d, .field begun)
  | .afterField => if c = ']' then .ok (d, .afterSpan) else .error .malformed
  | .afterSpan => if c = '=' then .ok (d, .level (place + 1)) else .error .malformed
  | .level begun => .ok (d, .level begun)

/-- Reads what is left when nothing follows. -/
def finish (piece : List Char) (d : Directive) : Stage → Except DirectiveError Directive
  | .head begun => do
    let text ← cutRest piece begun
    match Level.ofText? text with
    | some level => return { d with level }
    | none => return { d with target? := some text }
  | .level begun => do
    let text ← cutRest piece begun
    if text = [] then return d
    match Level.ofText? text with
    | some level => return { d with level }
    | none => .error .malformed
  | .afterSpan => .ok d
  | _ => .error .malformed

/-- Reads the characters from `place` on. -/
def readFrom (piece : List Char) : (place : Nat) → List Char → Directive → Stage →
    Except DirectiveError Directive
  | _, [], d, stage => finish piece d stage
  | place, c :: cs, d, stage => do
    let (d, stage) ← advance piece d place c stage
    readFrom piece (place + c.utf8Size) cs d stage

/-- The directive that a piece of text stands for. -/
def read (piece : List Char) : Except DirectiveError Directive :=
  readFrom piece 0 (Text.trim piece) everything .start

/-- Does the directive hold wherever the program is, and whatever values fields have? -/
def isStatic (d : Directive) : Bool := d.span?.isNone && !d.fields.any (·.hasValue)

/-- Is the directive about lines with this target and these fields? -/
def concerns (d : Directive) (target : List Char) (fields : List (List Char)) : Bool :=
  d.isStatic && d.target?.all (·.isPrefixOf target) && d.fields.all (fields.contains ·.name)

/-- What sets a level for a single target. -/
def ofTarget (target : List Char) (level : Level) : Directive :=
  { everything with target? := some target, level }

theorem concerns_ofTarget (target : List Char) (level : Level) (fields : List (List Char)) :
    (ofTarget target level).concerns target fields = true := by
  have hp : target.isPrefixOf target = true :=
    List.isPrefixOf_iff_prefix.2 (List.prefix_refl target)
  show (true && target.isPrefixOf target && true) = true
  rw [hp]
  rfl

/-- How closely a directive describes what it is about.  First counts the length of the target,
then the number of fields. -/
def atLeastAsClose (d e : Directive) : Bool :=
  let length := fun (d : Directive) => d.target?.elim 0 fun target => target.length + 1
  length e < length d || (length e == length d && e.fields.length ≤ d.fields.length)

end Directive

end TileCache.Log
