import TableCapture.Text.Quoted

/-!
# Displayed values

A `Shape` is the outline of a displayed value: words, and groups of items between two brackets.
`Shape.oneLine` writes it on one line, with commas between the items; `Shape.indented` puts every
item on a line of its own, four spaces further in, with a comma after each. A group without items
is its brackets alone in both forms.
-/

namespace TableCapture

/-- The outline of a displayed value. A `spaced` group has a space inside each bracket when it is
written on one line. -/
inductive Shape where
  | word (text : String)
  | labelled (label : String) (value : Shape)
  | group (opening closing : String) (spaced : Bool) (items : List Shape)
deriving Inhabited

namespace Shape

/-- A quoted text. -/
def text (s : String) : Shape :=
  .word (Text.quoted s)

/-- A record with named fields; one without fields is its name. -/
def record (name : String) : List (String × Shape) → Shape
  | [] => .word name
  | fields => .group (name ++ " \x7b") "\x7d" true (fields.map fun f => .labelled f.1 f.2)

/-- A list of values. -/
def list (items : List Shape) : Shape :=
  .group "[" "]" false items

/-- Values under text keys. -/
def table (entries : List (String × Shape)) : Shape :=
  .group "\x7b" "\x7d" false (entries.map fun e => .labelled (Text.quoted e.1) e.2)

/-- A value that may be missing. -/
def optional : Option Shape → Shape
  | none => .word "None"
  | some s => .group "Some(" ")" false [s]

/-- A truth value. -/
def flag (b : Bool) : Shape :=
  .word (if b then "true" else "false")

mutual

/-- The form on one line. -/
def oneLine : Shape → String
  | .word t => t
  | .labelled l v => l ++ ": " ++ oneLine v
  | .group o c _ [] => o ++ c
  | .group o c spaced (i :: is) =>
    let pad := if spaced then " " else ""
    o ++ pad ++ oneLine i ++ oneLineTail is ++ pad ++ c

/-- The items after the first, a comma before each. -/
def oneLineTail : List Shape → String
  | [] => ""
  | i :: is => ", " ++ oneLine i ++ oneLineTail is

end

/-- The blanks in front of a line that is `depth` levels in. -/
def indent (depth : Nat) : String :=
  String.ofList (List.replicate (4 * depth) ' ')

mutual

/-- The form on several lines, for a value that starts on a line `depth` levels in. -/
def indentedAt (depth : Nat) : Shape → String
  | .word t => t
  | .labelled l v => l ++ ": " ++ indentedAt depth v
  | .group o c _ [] => o ++ c
  | .group o c _ (i :: is) => o ++ "\n" ++ indentedItems (depth + 1) (i :: is) ++ indent depth ++ c

/-- Items on lines of their own. -/
def indentedItems (depth : Nat) : List Shape → String
  | [] => ""
  | i :: is => indent depth ++ indentedAt depth i ++ ",\n" ++ indentedItems depth is

end

/-- The form on several lines. -/
def indented (s : Shape) : String :=
  indentedAt 0 s

end Shape

end TableCapture
