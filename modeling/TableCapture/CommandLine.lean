import TableCapture.Text.Decimal

/-!
# The command line

A command line names a configuration file and a command. At each of its two levels, before and
after the name of the command, there is at most one option that takes a value. The value follows
the option, or is attached to it; it is looked at only when the next option comes or the level is
over, so an earlier fault may still be found later. Help and the version can be asked for at any
point before a fault.
-/

namespace TableCapture

/-- Why a command line is not carried out. -/
inductive ArgumentIssue where
  /-- There are no arguments that say anything. -/
  | nothing
  | noCommand
  | unknownCommand
  | unknownArgument
  /-- An option has no value. -/
  | noValue
  /-- The value of an option is not of its form. -/
  | badValue
  /-- A value is attached to an option that takes none. -/
  | needlessValue
  /-- An option is given twice. -/
  | repeated
  /-- Help is asked for. -/
  | help
  /-- The version is asked for. -/
  | version
deriving DecidableEq, Repr, Inhabited

/-- Whether an issue is something that was asked for. -/
def ArgumentIssue.isRequest : ArgumentIssue → Bool
  | help | version => true
  | _ => false

/-- What can stand at one level of a command line. -/
structure ArgumentLevel where
  /-- The long name of the option that takes a value. -/
  long : Option String := none
  /-- Its name of one letter. -/
  short : Option Char := none
  /-- Whether a text can be its value. -/
  accepts : String → Bool := fun _ => true
  /-- Whether the version can be asked for. -/
  versioned : Bool := false
  /-- The names of commands. -/
  commands : List String := []

/-- An option whose value is not stored yet. -/
inductive PendingValue where
  | none
  /-- The value comes next. -/
  | awaited
  | given (value : String)
deriving DecidableEq, Repr, Inhabited

/-- The value of the option at a level, so far. -/
structure OptionState where
  value : Option String := none
  pending : PendingValue := .none
deriving DecidableEq, Repr, Inhabited

namespace ArgumentLevel

variable (l : ArgumentLevel)

/-- Stores a value. -/
def store (s : OptionState) (value : String) : Except ArgumentIssue OptionState :=
  if s.value.isSome then .error .repeated
  else if l.accepts value then .ok { s with value := some value }
  else .error .badValue

/-- Stores the value that is pending. -/
def settle (s : OptionState) : Except ArgumentIssue OptionState :=
  match s.pending with
  | .none => .ok s
  | .awaited => .error .noValue
  | .given value => l.store { s with pending := .none } value

/-- Reads the option that takes a value, with the value attached to it if there is one. -/
def readOption (s : OptionState) (attached : Option String) : Except ArgumentIssue OptionState := do
  let s ← l.settle s
  match attached with
  | none => return { s with pending := .awaited }
  | some value => l.store s value

/-- Reads something that is asked for. -/
def readRequest (s : OptionState) (request : ArgumentIssue) : Except ArgumentIssue OptionState := do
  let _ ← l.settle s
  throw request

/-- Reads an argument after its two hyphens. -/
def readLong (s : OptionState) (cs : List Char) : Except ArgumentIssue OptionState :=
  let name := String.ofList (cs.takeWhile (· ≠ '='))
  let attached := match cs.dropWhile (· ≠ '=') with
    | [] => none
    | _ :: value => some (String.ofList value)
  let request? : Option ArgumentIssue :=
    if name = "help" then some .help
    else if l.versioned && name = "version" then some .version
    else none
  match request? with
  | some request =>
    if attached.isSome then .error .needlessValue else l.readRequest s request
  | none => if l.long = some name then l.readOption s attached else .error .unknownArgument

/-- Reads an argument after its only hyphen. Whatever follows the letter of an option that takes
a value is the value, an equals sign in front left out. -/
def readShort (s : OptionState) : List Char → Except ArgumentIssue OptionState
  | [] => .ok s
  | c :: cs =>
    if c = 'h' then l.readRequest s .help
    else if l.versioned && c = 'V' then l.readRequest s .version
    else if l.short = some c then
      match cs with
      | [] => l.readOption s none
      | '=' :: value => l.readOption s (some (String.ofList value))
      | value => l.readOption s (some (String.ofList value))
    else .error .unknownArgument

/-- What is wrong with an argument that has no place. Where commands can stand it is taken for
one, unless it is the name of one that comes too late. -/
def stray (late : Bool) (a : String) : ArgumentIssue :=
  if l.commands = [] ∨ (late ∧ a ∈ l.commands) then .unknownArgument else .unknownCommand

/-- Reads the arguments of a level. Gives the name of the command and the arguments after it.
After two hyphens alone, nothing is an option or a command any more. -/
def read (late : Bool) (s : OptionState) :
    List String → Except ArgumentIssue (OptionState × Option (String × List String))
  | [] => .ok (s, none)
  | a :: as =>
    if late then .error (l.stray late a)
    else if s.pending ≠ .awaited ∧ a ∈ l.commands then .ok (s, some (a, as))
    else
      match a.toList with
      | ['-', '-'] => read true s as
      | '-' :: '-' :: cs => do read late (← l.readLong s cs) as
      | '-' :: c :: cs => do read late (← l.readShort s (c :: cs)) as
      | _ =>
        if s.pending = .awaited then read late { s with pending := .given a } as
        else .error (l.stray late a)

/-- Reads the arguments of a level without commands. -/
def readAll (as : List String) : Except ArgumentIssue (Option String) := do
  let (s, _) ← l.read false {} as
  return (← l.settle s).value

end ArgumentLevel

/-- What the program is to do. -/
inductive Command where
  /-- Show the source that the configuration describes. -/
  | validate
  /-- Read the schema of the captured table, for so many seconds at most. -/
  | schema (seconds : Option Nat)
deriving DecidableEq, Repr, Inhabited

/-- A configuration file and a command. -/
structure CommandLine where
  config : String
  command : Command
deriving DecidableEq, Repr, Inhabited

namespace CommandLine

/-- The number of seconds that a text writes. -/
def seconds? (s : String) : Option Nat :=
  match s.toList with
  | '+' :: cs => Decimal.uint64? cs
  | cs => Decimal.uint64? cs

/-- The level before the command. -/
def outer : ArgumentLevel where
  long := some "config"
  short := some 'c'
  versioned := true
  commands := ["validate", "schema", "help"]

/-- The level after `validate`. -/
def validateLevel : ArgumentLevel where

/-- The level after `schema`. -/
def schemaLevel : ArgumentLevel where
  long := some "timeout-secs"
  accepts := fun s => (seconds? s).isSome

/-- What comes of asking for help on a command. -/
def helpOn : List String → ArgumentIssue
  | [] => .help
  | [name] => if name ∈ outer.commands then .help else .unknownCommand
  | _ => .unknownCommand

/-- The command of a name with its arguments. -/
def readCommand (name : String) (as : List String) : Except ArgumentIssue Command := do
  if name = "validate" then
    let _ ← validateLevel.readAll as
    return .validate
  else if name = "schema" then
    return .schema ((← schemaLevel.readAll as).bind seconds?)
  else throw (helpOn as)

/-- Reads a command line. -/
def ofArguments (as : List String) : Except ArgumentIssue CommandLine := do
  match ← outer.read false {} as with
  | (s, none) =>
    let s ← outer.settle s
    throw (if s.value.isNone then .nothing else .noCommand)
  | (s, some (name, as)) =>
    let command ← readCommand name as
    let s ← outer.settle s
    return ⟨s.value.getD "source.yaml", command⟩

end CommandLine

end TableCapture
