import TableCapture.SchemaError

/-!
# Resolving the schema of a table

To resolve a table is to run the statement that shows its definition, and to read the definition
from the second column of the first row of the answer. Of the changes that it makes, the last one
for this very table counts.

`resolve` is written over the effects of running a statement and of reading a definition.
`resolveRecorded` takes notes of both, and `Reply.schema` is the case without effects.
-/

namespace TableCapture

/-- Rows of values, each of which may be missing. -/
abbrev Rows := List (List (Option String))

/-- What a statement gives: rows, or the reason why it failed. -/
inductive Reply where
  | rows (rows : Rows)
  | failed (cause : String)
deriving DecidableEq, Repr, Inhabited

/-- The definition in an answer: the second value of the first row. -/
def Rows.definition? (rows : Rows) : Option String :=
  match rows with
  | (_ :: d :: _) :: _ => d
  | _ => none

/-- The schema that the last change of a table gives. -/
def TableChange.lastSchema? (t : TableId) (changes : List TableChange) : Option TableSchema :=
  ((changes.filter fun c => c.id = t).getLast?).map TableChange.schema

/-- What a definition makes: changes, or the reason why it cannot be read. -/
abbrev Reading := Except DefinitionError (List TableChange)

/-- Resolves a table. `run` runs a statement, and `read` reads a definition whose names take the
given catalog and schema where they have none. -/
def resolve {m : Type → Type} [Monad m] (run : String → m Reply)
    (read : String → Option String → Option String → m Reading) (t : TableId) :
    m (Except SchemaError TableSchema) := do
  let fail := fun failure => Except.error ⟨t, t.statement, failure⟩
  match ← run t.statement with
  | .failed cause => return fail (.queryFailed cause)
  | .rows rows =>
    match Rows.definition? rows with
    | none => return fail .notFound
    | some definition =>
      match ← read definition t.catalog t.schema with
      | .error cause => return fail (.unreadable cause)
      | .ok changes =>
        match TableChange.lastSchema? t changes with
        | none => return fail .notFound
        | some schema => return .ok schema

/-- The schema that a reply gives for a table. -/
def Reply.schema (r : Reply) (t : TableId) : Except SchemaError TableSchema :=
  Id.run (resolve (fun _ => pure r) (fun d c s => pure (Sql.readChanges d c s)) t)

/-- A definition handed over to be read, with the defaults for its names. -/
structure ReadRequest where
  definition : String
  catalog : Option String
  schema : Option String
deriving DecidableEq, Repr, Inhabited

/-- The statements that were run and the definitions that were read, in order. -/
structure Transcript where
  statements : List String
  readings : List ReadRequest
deriving DecidableEq, Repr, Inhabited

/-- Resolves a table where every statement gets `reply`, every definition is read by `read`, and
both are noted down. -/
def resolveRecorded (reply : String → Reply)
    (read : String → Option String → Option String → Reading) (t : TableId) :
    Except SchemaError TableSchema × Transcript :=
  StateT.run (m := Id)
    (resolve
      (fun s => do
        modify fun n => { n with statements := n.statements ++ [s] }
        pure (reply s))
      (fun d c s => do
        modify fun n => { n with readings := n.readings ++ [⟨d, c, s⟩] }
        pure (read d c s))
      t)
    ⟨[], []⟩

end TableCapture
