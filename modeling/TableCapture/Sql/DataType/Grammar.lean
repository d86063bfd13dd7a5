import TableCapture.Sql.DataType
import TableCapture.Sql.Reading
import TableCapture.Text.Decimal

/-!
# Reading data types

A type starts with a word. The words below introduce the known types; any other word, also one in
backticks, names a type of its own, which may have modifiers in brackets.
-/

namespace TableCapture.Sql

/-- Types without arguments. -/
def plainTypes : List String :=
  ["BOOLEAN", "REAL", "DATE", "JSON", "UUID", "TEXT", "STRING", "INTERVAL", "REGCLASS", "BYTEA"]

/-- Types with a length. -/
def sizedTypes : List String :=
  ["FLOAT", "NVARCHAR", "CLOB", "BINARY", "VARBINARY", "BLOB", "DATETIME"]

/-- Integer types. -/
def integerTypes : List String :=
  ["INT", "INTEGER", "TINYINT", "SMALLINT", "MEDIUMINT", "BIGINT"]

/-- Exact numbers. -/
def exactTypes : List String :=
  ["DECIMAL", "NUMERIC", "DEC", "BIGNUMERIC", "BIGDECIMAL"]

/-- Reads an optional number in brackets. -/
def size? : List Token → Option (Option Nat × List Token)
  | .leftParen :: .number n _ :: .rightParen :: ts =>
    (Decimal.uint64? n.toList).map fun k => (some k, ts)
  | .leftParen :: _ => none
  | ts => some (none, ts)

/-- Reads an optional length in brackets, with an optional unit. -/
def characterLength? : List Token → Option (Option (Nat × Option LengthUnit) × List Token)
  | .leftParen :: .number n _ :: .rightParen :: ts =>
    (Decimal.uint64? n.toList).map fun k => (some (k, none), ts)
  | .leftParen :: .number n _ :: u :: .rightParen :: ts =>
    if u.isKeyword "CHARACTERS" then
      (Decimal.uint64? n.toList).map fun k => (some (k, some .characters), ts)
    else if u.isKeyword "OCTETS" then
      (Decimal.uint64? n.toList).map fun k => (some (k, some .octets), ts)
    else none
  | .leftParen :: _ => none
  | ts => some (none, ts)

/-- Reads an optional precision in brackets, with an optional scale. -/
def precision? : List Token → Option (Option (Nat × Option Nat) × List Token)
  | .leftParen :: .number p _ :: .rightParen :: ts =>
    (Decimal.uint64? p.toList).map fun p => (some (p, none), ts)
  | .leftParen :: .number p _ :: .comma :: .number s _ :: .rightParen :: ts =>
    match Decimal.uint64? p.toList, Decimal.uint64? s.toList with
    | some p, some s => some (some (p, some s), ts)
    | _, _ => none
  | .leftParen :: _ => none
  | ts => some (none, ts)

/-- Reads texts with commas between them, up to a closing bracket. -/
def wordList? : List Token → Option (List String × List Token)
  | .text .single s :: .comma :: ts => (wordList? ts).map fun (ss, rest) => (s :: ss, rest)
  | .text .single s :: .rightParen :: ts => some ([s], ts)
  | _ => none

/-- Reads what a time says about its zone. -/
def timeZone? (ts : List Token) : Option (TimeZone × List Token) :=
  match keyword? "WITH" ts, keyword? "WITHOUT" ts with
  | some rest, _ => (keywords? ["TIME", "ZONE"] rest).map fun rest => (.present, rest)
  | _, some rest => (keywords? ["TIME", "ZONE"] rest).map fun rest => (.absent, rest)
  | _, _ => some (.unsaid, ts)

/-- Reads a text type; `VARYING` and `LARGE OBJECT` are part of its name. -/
def characterType? (name : String) (ts : List Token) : Option (DataType × List Token) :=
  match keyword? "VARYING" ts, keywords? ["LARGE", "OBJECT"] ts with
  | some rest, _ =>
    (characterLength? rest).map fun (l, rest) => (.character (name ++ " VARYING") l, rest)
  | _, some rest => (size? rest).map fun (l, rest) => (.sized (name ++ " LARGE OBJECT") l, rest)
  | _, _ => (characterLength? ts).map fun (l, rest) => (.character name l, rest)

/-- A part of the name of an unknown type as it is shown: its quotes stay, those inside doubled. -/
def Token.typeName? : Token → Option String
  | .word w =>
    if w.quoted then
      some (String.ofList ('`' :: w.value.toList.flatMap (fun c => if c = '`' then [c, c] else [c])
        ++ ['`']))
    else some w.value
  | .text .single s => some (DataType.quotedWord s)
  | .text .double s =>
    some (String.ofList ('"' :: s.toList.flatMap (fun c => if c = '"' then [c, c] else [c])
      ++ ['"']))
  | _ => none

/-- Reads the dotted name of an unknown type. -/
def customName? : List Token → Option (List String × List Token)
  | t :: .period :: ts =>
    match t.typeName?, customName? ts with
    | some n, some (ns, rest) => some (n :: ns, rest)
    | _, _ => none
  | t :: ts => t.typeName?.map fun n => ([n], ts)
  | [] => none

/-- Reads modifiers up to a closing bracket. Commas between them may be missing or repeated. -/
def modifiers? : List Token → Option (List String × List Token)
  | .rightParen :: ts => some ([], ts)
  | .comma :: ts => modifiers? ts
  | .word w :: ts => (modifiers? ts).map fun (ms, rest) => (w.display :: ms, rest)
  | .number n _ :: ts => (modifiers? ts).map fun (ms, rest) => (n :: ms, rest)
  | .text .single s :: ts => (modifiers? ts).map fun (ms, rest) => (s :: ms, rest)
  | _ => none

/-- Reads a type that is not known. -/
def customType? (ts : List Token) : Option (DataType × List Token) :=
  match customName? ts with
  | none => none
  | some (ns, .leftParen :: rest) =>
    (modifiers? rest).map fun (ms, rest) => (.custom (".".intercalate ns) ms, rest)
  | some (ns, rest) => some (.custom (".".intercalate ns) [], rest)

/-- Reads the brackets that make a type an array. -/
def arrayOf? (t : DataType) : List Token → Option (DataType × List Token)
  | .operator .leftBracket :: .operator .rightBracket :: ts => arrayOf? (.array t) ts
  | .operator .leftBracket :: _ => none
  | ts => some (t, ts)

/-- Reads a known type other than an array, whose first word is the first token. -/
def scalarType? (t : Token) (ts : List Token) : Option (DataType × List Token) :=
  match plainTypes.find? t.isKeyword, sizedTypes.find? t.isKeyword,
    integerTypes.find? t.isKeyword, exactTypes.find? t.isKeyword with
  | some name, _, _, _ => some (.plain name, ts)
  | _, some name, _, _ => (size? ts).map fun (l, rest) => (.sized name l, rest)
  | _, _, some name, _ =>
    (size? ts).map fun (l, rest) =>
      match keyword? "UNSIGNED" rest with
      | some rest => (.integer name l true, rest)
      | none => (.integer name l false, rest)
  | _, _, _, some name => (precision? ts).map fun (p, rest) => (.exact name p, rest)
  | _, _, _, _ =>
    if t.isKeyword "VARCHAR" then
      (characterLength? ts).map fun (l, rest) => (.character "VARCHAR" l, rest)
    else if t.isKeyword "CHAR" then characterType? "CHAR" ts
    else if t.isKeyword "CHARACTER" then characterType? "CHARACTER" ts
    else if t.isKeyword "DOUBLE" then
      match keyword? "PRECISION" ts with
      | some rest => some (.plain "DOUBLE PRECISION", rest)
      | none => some (.plain "DOUBLE", ts)
    else if t.isKeyword "TIME" || t.isKeyword "TIMESTAMP" then
      let name := if t.isKeyword "TIME" then "TIME" else "TIMESTAMP"
      match size? ts with
      | none => none
      | some (p, rest) => (timeZone? rest).map fun (z, rest) => (.time name p z, rest)
    else if t.isKeyword "TIMETZ" then
      (size? ts).map fun (p, rest) => (.time "TIME" p .inName, rest)
    else if t.isKeyword "TIMESTAMPTZ" then
      (size? ts).map fun (p, rest) => (.time "TIMESTAMP" p .inName, rest)
    else if t.isKeyword "ENUM" || t.isKeyword "SET" then
      let name := if t.isKeyword "ENUM" then "ENUM" else "SET"
      match ts with
      | .leftParen :: rest => (wordList? rest).map fun (ss, rest) => (.words name ss, rest)
      | _ => none
    else customType? (t :: ts)

/-- Reads a type. -/
def dataType? : List Token → Option (DataType × List Token)
  | [] => none
  | t :: ts =>
    if t.isKeyword "ARRAY" then
      match ts with
      | .operator .less :: rest =>
        match dataType? rest with
        | some (e, .operator .greater :: rest) => arrayOf? (.array e) rest
        | _ => none
      | _ => none
    else if t.isWord then
      match scalarType? t ts with
      | some (d, rest) => arrayOf? d rest
      | none => none
    else none

end TableCapture.Sql
