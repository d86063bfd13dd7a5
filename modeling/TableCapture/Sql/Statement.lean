import TableCapture.Sql.TableDefinition.Grammar

/-!
# Statements

A text holds statements with semicolons between them. Only definitions of tables matter; a few
other statements are read and passed over, and any other is an error.
-/

namespace TableCapture.Sql

/-- A statement. -/
inductive Statement where
  | createTable (d : TableDefinition)
  | other
deriving DecidableEq, Repr, Inhabited

/-- Passes dotted names with commas between them. -/
def passDottedNames : Passer :=
  passSeparated passDottedName

/-- Passes a name after a condition that the thing is there, or is not. -/
def passConditional (condition : List String) : Passer := fun ts =>
  passDottedName (passKeywords condition ts)

/-! ## Making tables and other things -/

/-- Passes the definition of a view after `VIEW`. -/
def passView : Passer := fun ts => do
  let ts ← passDottedName ts
  let ts ← passBracketedNames ts
  let ts ← passAfter ["CLUSTER"] (fun ts => (keyword? "BY" ts).bind passBracketedNames) ts
  passQuery (← keyword? "AS" ts)

/-- Passes the definition of an index after `INDEX`. -/
def passIndex : Passer := fun ts => do
  let ts ← passConditional ["IF", "NOT", "EXISTS"] ts
  let ts ← passDottedName (← keyword? "ON" ts)
  let ts ← passAfter ["USING"] passName ts
  passInBrackets (passSeparated (inStatement ts).ordering) ts

/-- Passes where a database lies. The first argument bounds the number of places. -/
def passLocations : Nat → Passer
  | 0, _ => none
  | n + 1, ts =>
    match oneKeyword? ["LOCATION", "MANAGEDLOCATION"] ts with
    | some rest => do passLocations n (← passLiteral rest)
    | none => some ts

/-- Passes the definition of a database after `DATABASE`. -/
def passDatabase : Passer := fun ts => do
  let ts ← passConditional ["IF", "NOT", "EXISTS"] ts
  passLocations (ts.length + 1) ts

/-- Passes the definition of a schema after `SCHEMA`. -/
def passSchema : Passer := fun ts => do
  let ts := passKeywords ["IF", "NOT", "EXISTS"] ts
  match keyword? "AUTHORIZATION" ts with
  | some rest => passName rest
  | none => passAfter ["AUTHORIZATION"] passName (← passDottedName ts)

/-- Reads what may follow `CREATE`. -/
def creation? (ts : List Token) : Option (Statement × List Token) :=
  let replaced := keywords? ["OR", "REPLACE"] ts
  let rest := replaced.getD ts
  let rest := passKeywords ["TRANSIENT"] (passKeywords ["GLOBAL"] (passKeywords ["LOCAL"] rest))
  let rest := passOneKeyword ["TEMP", "TEMPORARY"] rest
  if let some rest := keyword? "TABLE" rest then
    (tableDefinition? rest).map fun (d, rest) => (.createTable d, rest)
  else
    (match keywords? ["MATERIALIZED", "VIEW"] rest, keyword? "VIEW" rest with
      | some rest, _ => passView rest
      | _, some rest => passView rest
      | _, _ =>
        if replaced.isSome then none
        else if let some rest := keyword? "INDEX" (passKeywords ["UNIQUE"] rest) then passIndex rest
        else if let some rest := keyword? "SCHEMA" rest then passSchema rest
        else (keyword? "DATABASE" rest).bind passDatabase).map fun rest => (.other, rest)

/-! ## Other statements -/

/-- Passes what may follow `DROP`. -/
def passDropping : Passer := fun ts => do
  let role := (keyword? "ROLE" ts).isSome
  let ts ← oneKeyword? ["TABLE", "VIEW", "INDEX", "ROLE", "SCHEMA", "SEQUENCE"] ts
  let ts ← passDottedNames (passKeywords ["IF", "EXISTS"] ts)
  let cascade := keyword? "CASCADE" ts
  let restrict := keyword? "RESTRICT" (cascade.getD ts)
  let rest := passKeywords ["PURGE"] (restrict.getD (cascade.getD ts))
  if cascade.isSome && restrict.isSome || role && rest.length < ts.length then none
  else some rest

/-- Passes what may follow `ADD` in the change of a table. -/
def passAddition : Passer := fun ts =>
  match keyword? "CONSTRAINT" ts with
  | some rest => do
    let (_, rest) ← name? rest
    let r ← constraint? true rest
    r.map Prod.snd
  | none =>
    match constraint? false ts with
    | some r => r.map Prod.snd
    | none =>
      let rest := passKeywords ["IF", "NOT", "EXISTS"] ts
      match keyword? "PARTITION" rest with
      | some rest => passInBrackets (inStatement rest).expressions rest
      | none => (columnDefinition? (passKeywords ["COLUMN"] rest)).map Prod.snd

/-- Passes what may follow `RENAME` in the change of a table. -/
def passRenaming : Passer := fun ts =>
  match keyword? "TO" ts with
  | some rest => passDottedName rest
  | none => do passName (← keyword? "TO" (← passName (passKeywords ["COLUMN"] ts)))

/-- Passes what may follow `DROP` in the change of a table. -/
def passRemoval : Passer := fun ts =>
  match keyword? "CONSTRAINT" ts, keywords? ["PRIMARY", "KEY"] ts with
  | some rest, _ => do
    return passKeywords ["CASCADE"] (← passName (passKeywords ["IF", "EXISTS"] rest))
  | _, some rest => some rest
  | _, _ => do
    let ts := passKeywords ["IF", "EXISTS"] (passKeywords ["COLUMN"] ts)
    return passKeywords ["CASCADE"] (← passName ts)

/-- Passes what may follow `ALTER TABLE`. -/
def passAlteration : Passer := fun ts => do
  let ts ← passDottedName (passKeywords ["ONLY"] ts)
  match keyword? "ADD" ts, keyword? "RENAME" ts, keyword? "DROP" ts with
  | some rest, _, _ => passAddition rest
  | _, some rest, _ => passRenaming rest
  | _, _, some rest => passRemoval rest
  | _, _, _ => none

/-- Passes what is set for rows that are there already: names with their values. -/
def passAssignments : Passer := fun ts =>
  passSeparated
    (fun rest => do
      match ← passDottedName rest with
      | .operator .equal :: rest => (inStatement ts).expression rest
      | _ => none) ts

/-- Passes what may follow `INSERT`. -/
def passInsertion : Passer := fun ts => do
  let ts := passKeywords ["LOCAL"] (passOneKeyword ["INTO", "OVERWRITE"] ts)
  let ts ← passDottedName (passKeywords ["TABLE"] ts)
  let ts ← match ts with
    | .leftParen :: .rightParen :: rest => some rest
    | ts => passBracketedNames ts
  let ts ← passAfter ["PARTITION"] (passInBrackets (inStatement ts).expressions) ts
  let ts ← passQuery (← passBracketedNames ts)
  let ts ← passAfter ["ON"]
    (fun ts => (keywords? ["DUPLICATE", "KEY", "UPDATE"] ts).bind passAssignments) ts
  passAfter ["RETURNING"] (passSeparated (inStatement ts).passSelected) ts

/-- Passes what may follow `TRUNCATE`. -/
def passTruncation : Passer := fun ts => do
  let ts ← passDottedName (← keyword? "TABLE" ts)
  passAfter ["PARTITION"] (passInBrackets (inStatement ts).expressions) ts

/-- Passes a condition on what is shown. -/
def passShownIf : Passer := fun ts =>
  match oneKeyword? ["LIKE", "ILIKE"] ts with
  | some rest => passLiteral rest
  | none => passAfter ["WHERE"] passExpression ts

/-- Passes what may follow `SHOW`. The value of a variable is shown where no keyword says what is;
its name goes on up to an equals sign. -/
def passShowing : Passer := fun ts => do
  let extended := passKeywords ["FULL"] (passKeywords ["EXTENDED"] ts)
  match oneKeyword? ["COLUMNS", "FIELDS"] extended, keyword? "TABLES" extended with
  | some rest, _ => do
    let rest ← passDottedName (← oneKeyword? ["FROM", "IN"] rest)
    let rest ← match oneKeyword? ["FROM", "IN"] rest with
      | some rest => passName rest
      | none => some rest
    passShownIf rest
  | _, some rest => do
    let rest ← match oneKeyword? ["FROM", "IN"] rest with
      | some rest => passName rest
      | none => some rest
    passShownIf rest
  | _, _ =>
    match keyword? "FUNCTIONS" extended with
    | some rest => passShownIf rest
    | none =>
      if extended.length < ts.length then none
      else
        match keyword? "CREATE" ts, oneKeyword? ["COLLATION", "VARIABLES"] ts with
        | some rest, _ => do
          passDottedName
            (← oneKeyword? ["TABLE", "TRIGGER", "FUNCTION", "PROCEDURE", "EVENT", "VIEW"] rest)
        | _, some rest => passShownIf rest
        | _, _ => some (ts.dropWhile (· ≠ .operator .equal))

/-- Reads a statement. -/
def statement? (ts : List Token) : Option (Statement × List Token) :=
  if let some rest := keyword? "CREATE" ts then creation? rest
  else
    let others : List (List String × Passer) := [
      (["DROP"], passDropping), (["ALTER", "TABLE"], passAlteration), (["INSERT"], passInsertion),
      (["TRUNCATE"], passTruncation), (["SHOW"], passShowing)]
    ((others.findSome? fun o => (keywords? o.1 ts).map o.2).getD
      (if ts.head? = some .leftParen ∨ (oneKeyword? ["SELECT", "WITH", "VALUES"] ts).isSome then
        passQuery ts
      else none)).map fun rest => (.other, rest)

/-- Reads statements with semicolons between them. Empty ones do not count. The first argument
bounds their number. -/
def statements? : Nat → List Token → Option (List Statement)
  | _, [] => some []
  | 0, _ => none
  | n + 1, .semicolon :: ts => statements? n ts
  | n + 1, ts =>
    match statement? ts with
    | some (s, []) => some [s]
    | some (s, .semicolon :: rest) => (statements? n rest).map (s :: ·)
    | _ => none

/-- The table that a statement defines. -/
def Statement.definition? : Statement → Option TableDefinition
  | createTable d => some d
  | other => none

end TableCapture.Sql
