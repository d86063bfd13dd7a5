import TableCapture.Sql.Normalization
import TableCapture.Sql.Statement
import TableCapture.Sql.Token.Scan

/-!
# From a definition text to changes

`readChanges` reads the definitions of tables in a text, in the normal form of their tokens. Each
gives one change, which creates the table with the schema that the definition gives. Names without
qualifiers take the default catalog and schema.
-/

namespace TableCapture

/-- Why a definition text was not read. -/
inductive DefinitionError where
  /-- A text, a quoted word or a comment is not closed. -/
  | tokens
  /-- The tokens are no statements. -/
  | grammar
  /-- Another reader's reason. -/
  | other (reason : String)
deriving DecidableEq, Repr, Inhabited

namespace Sql

/-- The change that a definition makes. -/
def TableDefinition.change (catalog schema : Option String) (d : TableDefinition) : TableChange :=
  .create (d.schema (.ofParts catalog schema d.name))

/-- The changes that the statements of a text make. -/
def readChanges (text : String) (catalog schema : Option String) :
    Except DefinitionError (List TableChange) :=
  match Token.scan text with
  | none => .error .tokens
  | some ts =>
    let ts := normalize ts
    match statements? ts.length ts with
    | none => .error .grammar
    | some ss =>
      .ok ((ss.filterMap Statement.definition?).map (TableDefinition.change catalog schema))

end Sql

end TableCapture
