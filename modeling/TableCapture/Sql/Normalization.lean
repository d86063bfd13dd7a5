import TableCapture.Sql.Token

/-!
# The normal form of a table definition

A server shows a definition with attributes and options that say nothing about the columns. The
normal form leaves them out: blanks go; inside the column list `CHARACTER SET x`, `CHARSET x` and
`COLLATE x` go, and `UNIQUE KEY name` becomes `CONSTRAINT name UNIQUE`; whatever follows the
column list goes. So the normal form of a text without a column list is the text without blanks.
-/

namespace TableCapture.Sql

/-- Whether a token is `KEY` or `INDEX`. -/
def Token.isKeyOrIndex (t : Token) : Bool :=
  t.spells "KEY" || t.spells "INDEX"

/-- The normal form of what stands inside `depth` open brackets; it ends with the bracket that
closes the first one. -/
def columnList : Nat → List Token → List Token
  | _, [] => []
  | 0, t :: ts =>
    if t = .leftParen then t :: columnList 1 ts else t :: columnList 0 ts
  | d + 1, t :: ts =>
    if t.spells "CHARACTER" then
      match ts with
      | [] => [t]
      | [u] => if u.spells "SET" then [] else t :: columnList (d + 1) [u]
      | u :: v :: rest =>
        if u.spells "SET" then columnList (d + 1) rest
        else t :: columnList (d + 1) (u :: v :: rest)
    else if t.spells "CHARSET" || t.spells "COLLATE" then
      match ts with
      | [] => []
      | _ :: rest => columnList (d + 1) rest
    else if t.spells "UNIQUE" then
      match ts with
      | [] => [t]
      | [u] => if u.isKeyOrIndex then [t] else t :: columnList (d + 1) [u]
      | u :: v :: rest =>
        if u.isKeyOrIndex then
          if v.isWord then
            Token.ofKeyword "CONSTRAINT" :: v :: Token.ofKeyword "UNIQUE" ::
              columnList (d + 1) rest
          else t :: columnList (d + 1) (v :: rest)
        else t :: columnList (d + 1) (u :: v :: rest)
    else if t = .leftParen then t :: columnList (d + 2) ts
    else if t = .rightParen then
      match d with
      | 0 => [t]
      | d + 1 => t :: columnList (d + 1) ts
    else t :: columnList (d + 1) ts

/-- The normal form of a definition. -/
def normalize (ts : List Token) : List Token :=
  columnList 0 (ts.filter (· ≠ .blank))

end TableCapture.Sql
