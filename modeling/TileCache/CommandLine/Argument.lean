import TileCache.Number.Whole

/-!
# Arguments on a command line

Options are described by `Spec`s, and a list of arguments is scanned against them.  The scan
fixes which of two faults is reported:

* An option's value is looked at when the next option that is known comes, or the end.  An
  argument that nobody knows is therefore reported before a bad value just ahead of it.
* A value that is attached to its option (`--name=value`) is looked at right away.
* Settings of the environment are looked at after all arguments, in the order of the options, and
  only for options that were not given.

An argument that begins with a hyphen is an option, unless the option before it waits for a value
and takes such values.
-/

set_option autoImplicit false

namespace TileCache.CommandLine

/-- Which texts are values of an option. -/
inductive Check
  | whole (signed : Bool) (least greatest : Int)
  | oneOf (words : List String)
  | notEmpty
deriving DecidableEq

/-- What an option does. -/
inductive Kind
  | help
  | version
  /-- It is given or not. -/
  | flag
  /-- It has one value. -/
  | single
  /-- It has one or more values between commas, and may be given again to add more. -/
  | list
deriving DecidableEq

/-- Which arguments that begin with a hyphen an option takes as its value. -/
inductive Hyphens
  | refused
  /-- Those that go on like a number. -/
  | numbers
  | any
deriving DecidableEq

structure Spec where
  long : String
  short? : Option Char := none
  kind : Kind
  check : Check := .oneOf ["true", "false"]
  hyphens : Hyphens := .refused
  environment? : Option String := none

namespace Spec

def takesValue (spec : Spec) : Bool :=
  match spec.kind with
  | .single | .list => true
  | _ => false

/-- How messages name the option. -/
def display (spec : Spec) : String :=
  if spec.takesValue then
    let value := spec.long.map fun c => if c = '-' then '_' else c.toUpper
    s!"--{spec.long} <{value}>"
  else s!"--{spec.long}"

end Spec

/-- Why a command line is not accepted.  Options are named as messages name them. -/
inductive UsageError
  | helpWanted
  | versionWanted
  /-- There is no argument at all. -/
  | nothingGiven
  | commandMissing
  | commandUnknown
  | argumentUnknown (argument : String)
  | valueMissing (option : String)
  /-- The value is none of those on offer. -/
  | valueNotOffered (option value : String)
  /-- The value cannot be read. -/
  | valueMalformed (option value : String)
  | valueUnneeded (option value : String)
  | repeated (option : String)
deriving DecidableEq

/-- The options that were given, by their long names, with the texts of their values. -/
abbrev Found := List (String × List String)

namespace Found

def has (found : Found) (spec : Spec) : Bool := (found.lookup spec.long).isSome

/-- The values of an option, none if it was not given. -/
def values (found : Found) (long : String) : List String := (found.lookup long).getD []

def add (found : Found) (spec : Spec) (values : List String) : Found :=
  (spec.long, found.values spec.long ++ values) :: found.eraseP (·.1 == spec.long)

end Found

/-! ## Values -/

def Spec.checkValue (spec : Spec) (value : String) : Except UsageError Unit :=
  match spec.check with
  | .whole signed least greatest =>
    if (Number.readWithin signed least greatest value).isSome then .ok ()
    else .error (.valueMalformed spec.display value)
  | .oneOf words =>
    if words.contains value then .ok () else .error (.valueNotOffered spec.display value)
  | .notEmpty =>
    if value.isEmpty then .error (.valueNotOffered spec.display value) else .ok ()

/-- Enters an option that was given with `values`. -/
def Found.commit (found : Found) (spec : Spec) (values : List String) : Except UsageError Found :=
  match spec.kind with
  | .help => .error .helpWanted
  | .version => .error .versionWanted
  | .flag =>
    if found.has spec then .error (.repeated spec.display) else .ok (found.add spec ["true"])
  | .single => do
    if values.isEmpty then .error (.valueMissing spec.display)
    if found.has spec then .error (.repeated spec.display)
    values.forM spec.checkValue
    .ok (found.add spec values)
  | .list => do
    if values.isEmpty then .error (.valueMissing spec.display)
    let values := values.flatMap (·.splitOn ",")
    values.forM spec.checkValue
    .ok (found.add spec values)

/-! ## Scanning -/

/-- What the last argument left to be done. -/
inductive Expecting
  | nothing
  /-- The option waits for its value. -/
  | value (spec : Spec)
  /-- The option has its value, which was not looked at yet. -/
  | unchecked (spec : Spec) (value : String)

structure Scan where
  found : Found
  expecting : Expecting

namespace Scan

def start : Scan := ⟨[], .nothing⟩

/-- Enters the option that the last argument left open. -/
def resolve (s : Scan) : Except UsageError Scan :=
  match s.expecting with
  | .nothing => .ok s
  | .value spec => do .ok ⟨← s.found.commit spec [], .nothing⟩
  | .unchecked spec value => do .ok ⟨← s.found.commit spec [value], .nothing⟩

def give (s : Scan) (spec : Spec) (values : List String) : Except UsageError Scan := do
  let s ← s.resolve
  .ok ⟨← s.found.commit spec values, .nothing⟩

/-- The option's value comes with the next argument. -/
def await (s : Scan) (spec : Spec) : Except UsageError Scan := do
  let s ← s.resolve
  .ok { s with expecting := .value spec }

/-- An argument of two hyphens and `body`. -/
def long (specs : List Spec) (body : List Char) (s : Scan) : Except UsageError Scan :=
  let name := String.ofList (body.takeWhile (· != '='))
  let value? := match body.dropWhile (· != '=') with
    | [] => none
    | _ :: value => some (String.ofList value)
  match specs.find? (·.long == name) with
  | none => .error (.argumentUnknown s!"--{name}")
  | some spec =>
    match spec.takesValue, value? with
    | true, some value => s.give spec [value]
    | true, none => s.await spec
    | false, some value => .error (.valueUnneeded spec.display value)
    | false, none => s.give spec []

/-- An argument of one hyphen and letters.  The rest after an option that has a value is the
value. -/
def shorts (specs : List Spec) : List Char → Scan → Except UsageError Scan
  | [], s => .ok s
  | c :: cs, s =>
    match specs.find? (·.short? == some c) with
    | none => .error (.argumentUnknown s!"-{c}")
    | some spec =>
      if spec.takesValue then
        match cs with
        | [] => s.await spec
        | '=' :: value => s.give spec [String.ofList value]
        | value => s.give spec [String.ofList value]
      else do
        let s ← s.give spec []
        shorts specs cs s

end Scan

/-- Do these characters look like a number?  Digits, after the first of them perhaps a point, and
perhaps an exponent, which does not stand last. -/
def looksNumeric (cs : List Char) : Bool :=
  go cs 0 false false
where
  go : List Char → Nat → Bool → Bool → Bool
    | [], _, _, _ => true
    | c :: cs, i, point, exponent =>
      if c.isDigit then go cs (i + 1) point exponent
      else if c = '.' && !point && !exponent && 0 < i then go cs (i + 1) true exponent
      else if c = 'e' && !exponent && 0 < i && !cs.isEmpty then go cs (i + 1) point true
      else false

/-- Does an option that waits for its value take this argument? -/
def Spec.takes (spec : Spec) (argument : List Char) : Bool :=
  match argument with
  | '-' :: c :: cs =>
    match spec.hyphens with
    | .refused => false
    | .numbers => looksNumeric (c :: cs)
    | .any => true
  | _ => true

/-- What a scan found: the options, and the command at which it stopped with what follows it. -/
structure Scanned where
  found : Found
  command? : Option (String × List String)

/-- The end of the arguments. -/
def finish (s : Scan) : Except UsageError Scanned := do
  let s ← s.resolve
  .ok ⟨s.found, none⟩

/-- A word that is neither an option nor a command. -/
def strayWord {α : Type} (commands : List String) (word : String) : Except UsageError α :=
  if commands.isEmpty then .error (.argumentUnknown word) else .error .commandUnknown

/-- Scans arguments up to the first command. -/
def scan (specs : List Spec) (commands : List String) :
    List String → Scan → Except UsageError Scanned
  | [], s => finish s
  | argument :: rest, s =>
    let taken? := match s.expecting with
      | .value spec => if spec.takes argument.toList then some spec else none
      | _ => none
    let waits := match s.expecting with
      | .value _ => true
      | _ => false
    match taken? with
    | some spec => scan specs commands rest { s with expecting := .unchecked spec argument }
    | none =>
      if !waits && commands.contains argument then .ok ⟨s.found, some (argument, rest)⟩
      else
        match argument.toList with
        | ['-', '-'] =>
          match rest with
          | [] => finish s
          | word :: _ =>
            if commands.contains word then .error (.argumentUnknown word)
            else strayWord commands word
        | '-' :: '-' :: body => do
          let s ← s.long specs body
          scan specs commands rest s
        | '-' :: c :: cs => do
          let s ← s.shorts specs (c :: cs)
          scan specs commands rest s
        | _ => strayWord commands argument

/-- Adds the settings of the environment for options that were not given. -/
def fromEnvironment (environment : String → Option String) :
    List Spec → Found → Except UsageError Found
  | [], found => .ok found
  | spec :: specs, found =>
    match spec.environment?.bind environment with
    | some value =>
      if found.has spec then fromEnvironment environment specs found
      else do
        spec.checkValue value
        fromEnvironment environment specs (found.add spec [value])
    | none => fromEnvironment environment specs found

end TileCache.CommandLine
