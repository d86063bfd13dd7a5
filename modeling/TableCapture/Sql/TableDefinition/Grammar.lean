import TableCapture.Sql.Query
import TableCapture.Sql.TableDefinition

/-!
# Reading definitions of tables

The column list holds columns and constraints with commas between them; one more comma may stand
at its end. An item that starts with the keyword of a constraint is one. Attributes of a column
come in any order and number.
-/

namespace TableCapture.Sql

/-! ## Clauses -/

/-- Passes what happens to rows that refer to a row that goes or changes. -/
def passAction : Passer := fun ts =>
  [["RESTRICT"], ["CASCADE"], ["SET", "NULL"], ["NO", "ACTION"], ["SET", "DEFAULT"]].findSome?
    fun ks => keywords? ks ts

/-- Passes `ON` with one of two words and an action, if it is there. -/
def passOn (word : String) : Passer :=
  passAfter ["ON", word] passAction

/-- Passes `ON DELETE` and `ON UPDATE` with their actions, in either order, each at most once. -/
def passActions : Passer := fun ts =>
  if (keywords? ["ON", "DELETE"] ts).isSome then (passOn "DELETE" ts).bind (passOn "UPDATE")
  else (passOn "UPDATE" ts).bind fun rest =>
    if (keywords? ["ON", "UPDATE"] ts).isSome then passOn "DELETE" rest else some rest

/-- Passes an expression in brackets. -/
def passCheck : Passer :=
  passInBrackets passExpression

/-- Passes keywords and a number, if the first keyword is there; the others may be missing. -/
def passNumbered (first : String) (others : List String) : Passer :=
  passAfter [first] fun ts => passNumber (passKeywords others ts)

/-- Passes a bound of a sequence, or that it has none. -/
def passBound (word : String) : Passer := fun ts =>
  match keywords? ["NO", word] ts with
  | some rest => some rest
  | none => passNumbered word [] ts

/-- Passes the options of a sequence. -/
def passSequence : Passer := fun ts => do
  let ts ← passNumbered "INCREMENT" ["BY"] ts
  let ts ← passBound "MINVALUE" ts
  let ts ← passBound "MAXVALUE" ts
  let ts ← passNumbered "START" ["WITH"] ts
  let ts ← passNumbered "CACHE" [] ts
  return passKeywords ["CYCLE"] (passKeywords ["NO"] ts)

/-- Passes the options of an identity column, if they are there. -/
def passIdentity : Passer := fun ts =>
  match ts with
  | .leftParen :: _ => passInBrackets passSequence ts
  | ts => some ts

/-! ## Columns -/

/-- Reads what follows `GENERATED`. Where nothing does that may, there is no attribute. -/
def generated? (ts : List Token) : Option (Option ColumnAttribute × List Token) :=
  match keywords? ["ALWAYS", "AS", "IDENTITY"] ts,
    keywords? ["BY", "DEFAULT", "AS", "IDENTITY"] ts, keywords? ["ALWAYS", "AS"] ts with
  | some rest, _, _ => (passIdentity rest).map fun rest => (some .generated, rest)
  | _, some rest, _ => (passIdentity rest).map fun rest => (some .generated, rest)
  | _, _, some (.leftParen :: rest) =>
    (passCheck (.leftParen :: rest)).map fun rest =>
      (some .generated, passKeywords ["STORED"] rest)
  | _, _, some rest => some (none, rest)
  | _, _, none => some (none, ts)

/-- Reads an attribute of a column. Where there is none, the tokens may still be shorter, for some
words that can introduce an attribute are passed in any case. -/
def attribute? (ts : List Token) : Option (Option ColumnAttribute × List Token) :=
  if let some rest := keywords? ["CHARACTER", "SET"] ts then
    (dottedName? rest).map fun (_, rest) => (some .characterSet, rest)
  else if let some rest := keywords? ["NOT", "NULL"] ts then some (some .notNull, rest)
  else if let some rest := keyword? "COMMENT" ts then
    match rest with
    | .text .single _ :: rest => some (some .comment, rest)
    | _ => none
  else if let some rest := keyword? "NULL" ts then some (some .null, rest)
  else if let some rest := keyword? "DEFAULT" ts then
    (passExpression rest).map fun rest => (some .default, rest)
  else if let some rest := keywords? ["PRIMARY", "KEY"] ts then some (some .primaryKey, rest)
  else if let some rest := keyword? "UNIQUE" ts then some (some .unique, rest)
  else if let some rest := keyword? "REFERENCES" ts then do
    let (_, rest) ← dottedName? rest
    let rest ← passBracketedNames rest
    let rest ← passActions rest
    return (some .references, rest)
  else if let some rest := keyword? "CHECK" ts then
    (passCheck rest).map fun rest => (some .check, rest)
  else if let some rest := keyword? "AUTO_INCREMENT" ts then some (some .autoIncrement, rest)
  else
    let ts := passKeywords ["AUTOINCREMENT"] ts
    if let some rest := keywords? ["ON", "UPDATE"] ts then
      (passExpression rest).map fun rest => (some .onUpdate, rest)
    else if let some rest := keyword? "GENERATED" ts then generated? rest
    else some (none, ts)

/-- Reads attributes as long as there are any. An attribute may be named. The first argument
bounds their number. -/
def attributes? : Nat → List Token → Option (List ColumnAttribute × List Token)
  | 0, _ => none
  | n + 1, ts =>
    match keyword? "CONSTRAINT" ts with
    | some rest =>
      match (name? rest).bind fun (_, rest) => attribute? rest with
      | some (some a, rest) => (attributes? n rest).map fun (as, rest) => (a :: as, rest)
      | _ => none
    | none =>
      match attribute? ts with
      | none => none
      | some (none, rest) => some ([], rest)
      | some (some a, rest) => (attributes? n rest).map fun (as, rest) => (a :: as, rest)

/-- Reads a column. -/
def columnDefinition? (ts : List Token) : Option (ColumnDefinition × List Token) := do
  let (name, rest) ← name? ts
  let (dataType, rest) ← dataType? rest
  let rest ← passCollation rest
  let (attributes, rest) ← attributes? (rest.length + 1) rest
  return (⟨name, dataType, attributes⟩, rest)

/-! ## Constraints -/

/-- Reads a foreign key after its two keywords. -/
def foreignKey? (ts : List Token) : Option (TableConstraint × List Token) := do
  let (columns, rest) ← bracketedNames? ts
  let rest ← keyword? "REFERENCES" rest
  let (_, rest) ← dottedName? rest
  let (_, rest) ← bracketedNames? rest
  let rest ← passActions rest
  return (.foreignKey columns, rest)

/-- Reads an index after its keyword. The name may be missing. -/
def index? (ts : List Token) : Option (TableConstraint × List Token) := do
  let rest := match keyword? "USING" ts, name? ts with
    | none, some (_, rest) => rest
    | _, _ => ts
  let rest ← match keyword? "USING" rest with
    | some rest => oneKeyword? ["BTREE", "HASH"] rest
    | none => some rest
  (bracketedNames? rest).map fun (columns, rest) => (.index columns, rest)

/-- Reads a full-text or spatial index after its keyword. -/
def specialIndex? (ts : List Token) : Option (TableConstraint × List Token) :=
  let rest := (oneKeyword? ["KEY", "INDEX"] ts).getD ts
  let rest := match name? rest with
    | some (_, rest) => rest
    | none => rest
  (bracketedNames? rest).map fun (columns, rest) => (.index columns, rest)

/-- Reads a constraint that starts with its keyword. The outer result is none where no such
keyword is there, the inner one where what follows is no constraint. A full-text or spatial index
is not read after a name. -/
def constraint? (named : Bool) (ts : List Token) :
    Option (Option (TableConstraint × List Token)) :=
  if let some rest := keyword? "PRIMARY" ts then
    some ((keyword? "KEY" rest).bind fun rest =>
      (bracketedNames? rest).map fun (columns, rest) => (.primaryKey columns, rest))
  else if let some rest := keyword? "UNIQUE" ts then
    some ((bracketedNames? rest).map fun (columns, rest) => (.unique columns, rest))
  else if let some rest := keyword? "FOREIGN" ts then
    some ((keyword? "KEY" rest).bind foreignKey?)
  else if let some rest := keyword? "CHECK" ts then
    some ((passCheck rest).map fun rest => (.check, rest))
  else if let some rest := oneKeyword? ["INDEX", "KEY"] ts then some (index? rest)
  else if let some rest := oneKeyword? ["FULLTEXT", "SPATIAL"] ts then
    some (if named then none else specialIndex? rest)
  else none

/-! ## Tables -/

/-- An item of a column list. -/
inductive TableItem where
  | column (c : ColumnDefinition)
  | constraint (c : TableConstraint)
deriving DecidableEq, Repr, Inhabited

namespace TableItem

/-- The column of an item that is one. -/
def column? : TableItem → Option ColumnDefinition
  | column c => some c
  | constraint _ => none

/-- The constraint of an item that is one. -/
def constraint? : TableItem → Option TableConstraint
  | column _ => none
  | constraint c => some c

end TableItem

/-- Reads an item of a column list. A column has to start with a word. -/
def tableItem? (ts : List Token) : Option (TableItem × List Token) :=
  match keyword? "CONSTRAINT" ts with
  | some rest =>
    match (name? rest).bind fun (_, rest) => constraint? true rest with
    | some (some (c, rest)) => some (.constraint c, rest)
    | _ => none
  | none =>
    match constraint? false ts with
    | some r => r.map fun (c, rest) => (.constraint c, rest)
    | none =>
      match ts with
      | .word w :: rest => (columnDefinition? (.word w :: rest)).map fun (c, rest) =>
          (.column c, rest)
      | _ => none

/-- Reads the items of a column list and its closing bracket. The first argument bounds their
number. -/
def tableItems? : Nat → List Token → Option (List TableItem × List Token)
  | 0, _ => none
  | n + 1, ts =>
    match tableItem? ts with
    | some (i, .comma :: .rightParen :: rest) => some ([i], rest)
    | some (i, .rightParen :: rest) => some ([i], rest)
    | some (i, .comma :: rest) => (tableItems? n rest).map fun (is, rest) => (i :: is, rest)
    | _ => none

/-- Reads a column list if there is one. -/
def columnList? : List Token → Option (List TableItem × List Token)
  | .leftParen :: .rightParen :: ts => some ([], ts)
  | .leftParen :: ts => tableItems? (ts.length + 1) ts
  | ts => some ([], ts)

/-- Passes an equals sign and a word. -/
def passSetting : Passer
  | .operator .equal :: .word _ :: ts => some ts
  | _ => none

/-- Passes the name of a cluster. -/
def passCluster : Passer
  | .word _ :: ts | .text .single _ :: ts => some ts
  | _ => none

/-- Passes what the rows are ordered by: a name, or names in brackets. -/
def passOrder : Passer := fun ts =>
  match ts with
  | .leftParen :: .rightParen :: rest => some rest
  | .leftParen :: _ => (bracketedNames? ts).map Prod.snd
  | ts => passName ts

/-- Passes what happens to the rows at the end of a transaction. -/
def passCommit : Passer := fun ts =>
  match oneKeyword? ["DELETE", "PRESERVE"] ts with
  | some rest => keyword? "ROWS" rest
  | none => keyword? "DROP" ts

/-- Reads the definition of a table after `TABLE`. -/
def tableDefinition? (ts : List Token) : Option (TableDefinition × List Token) := do
  let (name, rest) ← dottedName? (passKeywords ["IF", "NOT", "EXISTS"] ts)
  let rest ← passAfter ["ON", "CLUSTER"] passCluster rest
  let rest := match oneKeyword? ["LIKE", "ILIKE"] rest with
    | some rest => passBrokenName rest
    | none => rest
  let rest := match keyword? "CLONE" rest with
    | some rest => passBrokenName rest
    | none => rest
  let (items, rest) ← columnList? rest
  let rest := passKeywords ["WITHOUT", "ROWID"] rest
  let rest ← passAfter ["ENGINE"] passSetting rest
  let rest ← passAfter ["ORDER", "BY"] passOrder rest
  let rest ← passAfter ["AS"] passQuery rest
  let rest ← passAfter ["DEFAULT", "CHARSET"] passSetting rest
  let rest ← passAfter ["COLLATE"] passSetting rest
  let rest ← passAfter ["ON", "COMMIT"] passCommit rest
  return (⟨name, items.filterMap TableItem.column?, items.filterMap TableItem.constraint?⟩, rest)

end TableCapture.Sql
