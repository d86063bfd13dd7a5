import TableCapture.Duration
import TableCapture.Options.Error
import TableCapture.Sql.Changes

/-!
# What can go wrong with a schema

The schema of a table is read by one statement. An error names the table and the statement, and
says at which point the reading failed.
-/

namespace TableCapture

/-- Where the reading of a schema failed. -/
inductive SchemaFailure where
  /-- The answer defines no such table. -/
  | notFound
  /-- The statement itself failed. -/
  | queryFailed (cause : String)
  /-- No answer came in time. -/
  | timedOut (limit : Duration)
  /-- The definition in the answer could not be read. -/
  | unreadable (cause : DefinitionError)
deriving DecidableEq, Repr, Inhabited

/-- Why the schema of a table is not known. -/
structure SchemaError where
  table : TableId
  statement : String
  failure : SchemaFailure
deriving DecidableEq, Repr, Inhabited

/-- The text shown for an error. -/
def SchemaError.message (e : SchemaError) : String :=
  let table := e.table.display
  match e.failure with
  | .notFound => "Can't obtain schema for table " ++ table ++ " by running " ++ e.statement
  | .queryFailed _ =>
    "Failed to read schema for table " ++ table ++ " by running " ++ e.statement
  | .timedOut limit =>
    "Timed out after " ++ limit.display ++ " reading schema for table " ++ table
      ++ " by running " ++ e.statement
  | .unreadable _ => "Failed to parse DDL of table " ++ table ++ " returned by " ++ e.statement

/-- Anything that can go wrong with a source. -/
inductive CaptureError where
  | options (e : OptionError)
  | schema (e : SchemaError)
deriving DecidableEq, Repr, Inhabited

/-- The text shown for an error is that of its cause. -/
def CaptureError.message : CaptureError → String
  | options e => e.message
  | schema e => e.message

end TableCapture
