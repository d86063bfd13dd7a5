import TableCapture.Sql.Expression

/-!
# Passing queries

A query selects values, gives rows of values, or joins such queries. As with expressions, nothing
of it is kept.
-/

namespace TableCapture.Sql

/-- Keywords that are no alias of a value without `AS`. -/
def valueAliasReserved : List String :=
  ["WITH", "EXPLAIN", "ANALYZE", "SELECT", "WHERE", "GROUP", "SORT", "HAVING", "ORDER", "TOP",
   "LATERAL", "VIEW", "LIMIT", "OFFSET", "FETCH", "UNION", "EXCEPT", "INTERSECT", "CLUSTER",
   "DISTRIBUTE", "FROM", "INTO", "END"]

/-- Keywords that are no alias of a table without `AS`. -/
def tableAliasReserved : List String :=
  ["WITH", "EXPLAIN", "ANALYZE", "SELECT", "WHERE", "GROUP", "SORT", "HAVING", "ORDER", "PIVOT",
   "TOP", "LATERAL", "VIEW", "LIMIT", "OFFSET", "FETCH", "UNION", "EXCEPT", "INTERSECT", "ON",
   "JOIN", "INNER", "CROSS", "FULL", "LEFT", "RIGHT", "NATURAL", "USING", "CLUSTER", "DISTRIBUTE",
   "OUTER", "SET", "QUALIFY"]

/-- Passes an alias if one is there. After `AS` there has to be one. -/
def passAlias (reserved : List String) : Passer := fun ts =>
  match keyword? "AS" ts with
  | some rest => passName rest
  | none =>
    match ts with
    | .word w :: rest => if reserved.any w.isKeyword then some ts else some rest
    | ts => some ((passName ts).getD ts)

/-- Passes an alias of a table, which may name the columns, if one is there. -/
def passTableAlias : Passer := fun ts => do
  let rest ← passAlias tableAliasReserved ts
  if rest.length < ts.length then passBracketedNames rest else some rest

namespace Inner

variable (i : Inner)

/-! ## Rows of tables -/

/-- Passes a table, the rows that a function gives, or a query in brackets. -/
def passTable : Passer := fun ts =>
  match keyword? "LATERAL" ts, keyword? "TABLE" ts with
  | some rest, _ => (passInBrackets i.query rest).bind passTableAlias
  | _, some rest => (passInBrackets i.expression rest).bind passTableAlias
  | _, _ =>
    match ts with
    | .leftParen :: _ => (passInBrackets i.query ts).bind passTableAlias
    | _ => do
      let ts ← match ← passDottedName ts with
        | .leftParen :: rest => i.passArguments rest
        | rest => some rest
      let ts ← passTableAlias ts
      match keyword? "WITH" ts with
      | some (.leftParen :: rest) => (i.expressions rest).bind (token? .rightParen)
      | _ => some ts

/-- Passes the words that join a table to those before it: whether there are any, and whether a
condition may follow the table. -/
def passJoin (ts : List Token) : Option (Option Bool × List Token) :=
  match keyword? "CROSS" ts, keyword? "OUTER" ts with
  | some rest, _ => (oneKeyword? ["JOIN", "APPLY"] rest).map fun rest => (some false, rest)
  | _, some rest => (keyword? "APPLY" rest).map fun rest => (some false, rest)
  | _, _ =>
    let natural := (keyword? "NATURAL" ts).isSome
    let start := passKeywords ["NATURAL"] ts
    let join := fun (rest : List Token) =>
      (keyword? "JOIN" rest).map fun rest => (some !natural, rest)
    if (oneKeyword? ["INNER", "JOIN"] start).isSome then join (passKeywords ["INNER"] start)
    else
      match oneKeyword? ["LEFT", "RIGHT"] start, oneKeyword? ["ANTI", "SEMI"] start,
        keyword? "FULL" start with
      | some rest, _, _ => join (passOneKeyword ["OUTER", "SEMI", "ANTI"] rest)
      | _, some rest, _ => join rest
      | _, _, some rest => join (passKeywords ["OUTER"] rest)
      | _, _, _ => if natural then none else some (none, ts)

/-- Passes the tables that are joined to one. The first argument bounds their number. -/
def passJoins : Nat → Passer
  | 0, _ => none
  | n + 1, ts => do
    match ← passJoin ts with
    | (none, rest) => some rest
    | (some conditional, rest) =>
      let rest ← i.passTable rest
      let rest ← if conditional then
          match keyword? "ON" rest, keyword? "USING" rest with
          | some rest, _ => i.expression rest
          | _, some rest => (bracketedNames? rest).map Prod.snd
          | _, _ => some rest
        else some rest
      passJoins n rest

/-- Passes a table with those that are joined to it. -/
def passTables : Passer := fun ts => do
  let ts ← i.passTable ts
  i.passJoins (ts.length + 1) ts

/-! ## Values -/

/-- Passes a value that is selected. -/
def passSelected : Passer := fun ts =>
  match passStar ts with
  | some rest => some rest
  | none => (i.expression ts).bind (passAlias valueAliasReserved)

/-- Passes the number of the first rows that are selected. -/
def passTop : Passer := fun ts => do
  let ts ← match ts with
    | .leftParen :: _ => passInBrackets i.expression ts
    | _ => passNumber ts
  return passKeywords ["WITH", "TIES"] (passKeywords ["PERCENT"] ts)

/-- Passes the table that the selected rows go into. -/
def passTarget : Passer := fun ts =>
  passDottedName
    (passKeywords ["TABLE"] (passKeywords ["UNLOGGED"] (passOneKeyword ["TEMP", "TEMPORARY"] ts)))

/-- Passes a selection after its keyword. -/
def passSelection : Passer := fun ts => do
  let ts ← passQuantifier ts
  let ts ← passAfter ["TOP"] i.passTop ts
  let ts ← passSeparated i.passSelected ts
  let ts ← passAfter ["INTO"] passTarget ts
  let ts ← passAfter ["FROM"] (passSeparated i.passTables) ts
  let ts ← passAfter ["WHERE"] i.expression ts
  let ts ← passAfter ["GROUP", "BY"] i.expressions ts
  let ts ← passAfter ["CLUSTER", "BY"] i.expressions ts
  let ts ← passAfter ["DISTRIBUTE", "BY"] i.expressions ts
  let ts ← passAfter ["SORT", "BY"] i.expressions ts
  let ts ← passAfter ["HAVING"] i.expression ts
  passAfter ["QUALIFY"] i.expression ts

/-- Passes a row of values, which may be empty. -/
def passRow : Passer := fun ts =>
  match passKeywords ["ROW"] ts with
  | .leftParen :: .rightParen :: rest => some rest
  | rest => passInBrackets i.expressions rest

/-! ## Queries -/

/-- Passes a query that is not joined with others. -/
def passSimpleQuery : Passer := fun ts =>
  match keyword? "SELECT" ts, keyword? "VALUES" ts, keyword? "TABLE" ts with
  | some rest, _, _ => i.passSelection rest
  | _, some rest, _ => passSeparated i.passRow rest
  | _, _, some rest =>
    match rest with
    | .word _ :: .period :: .word _ :: rest => some rest
    | .word _ :: .period :: _ => none
    | .word _ :: rest => some (rest.drop 2)
    | _ => none
  | _, _, _ => passInBrackets i.query ts

/-- Passes queries that are joined. The first argument bounds their number. -/
def passJoinedQueries : Nat → Passer
  | 0, _ => none
  | n + 1, ts => do
    let ts ← i.passSimpleQuery ts
    match oneKeyword? ["UNION", "EXCEPT", "INTERSECT"] ts with
    | some rest => passJoinedQueries n (passOneKeyword ["ALL", "DISTINCT"] rest)
    | none => some ts

/-- Passes how many rows are given at most. `ALL` gives no number. -/
def passLimit (ts : List Token) : Option (Bool × List Token) :=
  match keyword? "ALL" ts with
  | some rest => some (false, rest)
  | none => (i.expression ts).map fun rest => (true, rest)

/-- Passes how many rows are given at most and how many are left out, in either order. A number
after a comma is a limit as well. -/
def passBounds : Nat → Bool → Bool → Passer
  | 0, _, _, ts => some ts
  | n + 1, limited, skipped, ts => do
    let (limited, ts) ← match limited, keyword? "LIMIT" ts with
      | false, some rest => i.passLimit rest
      | _, _ => some (limited, ts)
    let (skipped, ts) ← match skipped, keyword? "OFFSET" ts with
      | false, some rest =>
        (i.expression rest).map fun rest => (true, passOneKeyword ["ROW", "ROWS"] rest)
      | _, _ => some (skipped, ts)
    match limited && !skipped, ts with
    | true, .comma :: rest => passBounds n true true (← i.expression rest)
    | _, _ => passBounds n limited skipped ts

/-- Passes how many rows are fetched, after its keyword. -/
def passFetched : Passer := fun ts => do
  let ts ← oneKeyword? ["FIRST", "NEXT"] ts
  let ts ← match oneKeyword? ["ROW", "ROWS"] ts with
    | some rest => some rest
    | none => do oneKeyword? ["ROW", "ROWS"] (passKeywords ["PERCENT"] (← passValue ts))
  match keyword? "ONLY" ts with
  | some rest => some rest
  | none => keywords? ["WITH", "TIES"] ts

/-- Passes the locks that a query takes. The first argument bounds their number. -/
def passLocks : Nat → Passer
  | 0, _ => none
  | n + 1, ts =>
    match keyword? "FOR" ts with
    | none => some ts
    | some rest => do
      let rest ← oneKeyword? ["UPDATE", "SHARE"] rest
      let rest ← passAfter ["OF"] passDottedName rest
      passLocks n <| match keyword? "NOWAIT" rest with
        | some rest => rest
        | none => passKeywords ["SKIP", "LOCKED"] rest

/-- Passes a query with a name. -/
def passNamedQuery : Passer := fun ts => do
  let ts ← passName ts
  let ts ← passBracketedNames ts
  let ts ← passInBrackets i.query (← keyword? "AS" ts)
  passAfter ["FROM"] passName ts

/-- Passes a query. -/
def passQuery : Passer := fun ts => do
  let ts ← passAfter ["WITH"]
    (fun ts => passSeparated i.passNamedQuery (passKeywords ["RECURSIVE"] ts)) ts
  let ts ← i.passJoinedQueries (ts.length + 1) ts
  let ts ← passAfter ["ORDER", "BY"] (passSeparated i.ordering) ts
  let ts ← i.passBounds 2 false false ts
  let ts ← passAfter ["FETCH"] passFetched ts
  passLocks (ts.length + 1) ts

end Inner

/-! ## Nesting -/

/-- How deep expressions and queries may be nested in a statement. -/
def nestingLimit : Nat := 49

/-- The passers inside something, where `depth` more expressions and queries may be nested. The
first argument bounds the number of their calls inside one another. -/
def inner : Nat → Nat → Inner
  | 0, _ => ⟨fun _ => none, fun _ _ => none, fun _ => none, fun _ => none⟩
  | n + 1, depth =>
    { expression := fun ts =>
        match depth with
        | 0 => none
        | d + 1 => (inner n d).passOperation strength 0 ts
      stronger := fun least ts => (inner n depth).passOperation strength least ts
      span := fun ts => (inner n depth).passOperation spanStrength 0 ts
      query := fun ts =>
        match depth with
        | 0 => none
        | d + 1 => (inner n d).passQuery ts }

/-- The passers inside a statement. Every call takes a token before it calls another, so the
number of tokens bounds the number of calls inside one another. -/
def inStatement (ts : List Token) : Inner :=
  inner (ts.length + 2) nestingLimit

/-- Passes an expression. -/
def passExpression : Passer := fun ts =>
  (inStatement ts).expression ts

/-- Passes a query. -/
def passQuery : Passer := fun ts =>
  (inStatement ts).query ts

end TableCapture.Sql
