import TableCapture.Options.Error
import TableCapture.Text.Decimal

/-!
# Declared options

A declaration says what values an option takes. `OptionDeclaration.parse` reads the text of an
option as its declaration says, neither trimmed nor case-folded: any text, a decimal integer
between two bounds, or one of the listed words.
-/

namespace TableCapture

/-- The values that an option takes. -/
inductive OptionKind where
  | text
  /-- An integer between two bounds, both included. -/
  | integer (min max : Int)
  /-- One of the listed words. -/
  | choice (values : List String)
deriving DecidableEq, Repr, Inhabited

/-- The value of an option, read as its declaration says. -/
inductive OptionValue where
  | text (s : String)
  | integer (i : Int)
  | choice (s : String)
deriving DecidableEq, Repr, Inhabited

namespace OptionValue

/-- The text of a value that is one. -/
def asText? : OptionValue → Option String
  | text s | choice s => some s
  | integer _ => none

/-- The integer of a value that is one. -/
def asInteger? : OptionValue → Option Int
  | integer i => some i
  | _ => none

end OptionValue

/-- An option that a connector knows. -/
structure OptionDeclaration where
  key : String
  kind : OptionKind
  required : Bool := false
  /-- The text read in place of an option that is not given. -/
  default? : Option String := none
  description : String := ""
deriving DecidableEq, Repr, Inhabited

/-- Reads the text of an option. -/
def OptionDeclaration.parse (o : OptionDeclaration) (raw : String) :
    Except OptionError OptionValue :=
  match o.kind with
  | .text => .ok (.text raw)
  | .integer min max =>
    match (Decimal.int64? raw.toList).filter fun v => min ≤ v ∧ v ≤ max with
    | some v => .ok (.integer v)
    | none => .error (.invalidValue o.key raw none)
  | .choice values =>
    if raw ∈ values then .ok (.choice raw)
    else .error (.invalidValue o.key raw (some values))

end TableCapture
