/-!
# Data types of columns

The type of a column with its arguments. `DataType.display` writes it in capitals; a type that is
not known keeps its own spelling.
-/

namespace TableCapture.Sql

/-- What the length of a text counts. -/
inductive LengthUnit where
  | characters
  | octets
deriving DecidableEq, Repr, Inhabited

/-- What a time says about its zone. -/
inductive TimeZone where
  | unsaid
  | present
  | absent
  /-- Said by the name of the type, which then ends in `TZ`. -/
  | inName
deriving DecidableEq, Repr, Inhabited

/-- The type of a column. The first argument is the name of the type in capitals. -/
inductive DataType where
  | plain (name : String)
  | sized (name : String) (length : Option Nat)
  | integer (name : String) (width : Option Nat) (unsigned : Bool)
  | character (name : String) (length : Option (Nat × Option LengthUnit))
  /-- An exact number with its precision and scale. -/
  | exact (name : String) (precision : Option (Nat × Option Nat))
  | time (name : String) (precision : Option Nat) (zone : TimeZone)
  /-- One of listed words, or a set of them. -/
  | words (name : String) (values : List String)
  | array (element : DataType)
  /-- A type that is not known, as it is spelled. -/
  | custom (name : String) (modifiers : List String)
deriving DecidableEq, Repr, Inhabited

namespace DataType

/-- A number in brackets. -/
def bracketed : Option Nat → String
  | none => ""
  | some n => "(" ++ toString n ++ ")"

/-- A length in brackets with its unit. -/
def lengthDisplay : Option (Nat × Option LengthUnit) → String
  | none => ""
  | some (n, none) => "(" ++ toString n ++ ")"
  | some (n, some .characters) => "(" ++ toString n ++ " CHARACTERS)"
  | some (n, some .octets) => "(" ++ toString n ++ " OCTETS)"

/-- A precision in brackets with its scale. -/
def precisionDisplay : Option (Nat × Option Nat) → String
  | none => ""
  | some (p, none) => "(" ++ toString p ++ ")"
  | some (p, some s) => "(" ++ toString p ++ "," ++ toString s ++ ")"

/-- A word in single quotes, the quotes in it doubled. -/
def quotedWord (s : String) : String :=
  String.ofList ('\'' :: s.toList.flatMap (fun c => if c = '\'' then [c, c] else [c]) ++ ['\''])

/-- The type as it is shown. -/
def display : DataType → String
  | plain name => name
  | sized name length => name ++ bracketed length
  | integer name width unsigned =>
    name ++ bracketed width ++ if unsigned then " UNSIGNED" else ""
  | character name length => name ++ lengthDisplay length
  | exact name precision => name ++ precisionDisplay precision
  | time name precision .unsaid => name ++ bracketed precision
  | time name precision .present => name ++ bracketed precision ++ " WITH TIME ZONE"
  | time name precision .absent => name ++ bracketed precision ++ " WITHOUT TIME ZONE"
  | time name precision .inName => name ++ "TZ" ++ bracketed precision
  | words name values => name ++ "(" ++ ", ".intercalate (values.map quotedWord) ++ ")"
  | array element => element.display ++ "[]"
  | custom name [] => name
  | custom name modifiers => name ++ "(" ++ ", ".intercalate modifiers ++ ")"

end DataType

end TableCapture.Sql
