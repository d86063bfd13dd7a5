import TableCapture.TableId

/-!
# Schemas of tables

The schema of a table is its columns in the order of their definition and the columns of its
primary key in key order. Reading a definition yields changes, each of which creates a table.
-/

namespace TableCapture

/-- A column of a table. -/
structure TableColumn where
  name : String
  dataType : String
  nullable : Bool
deriving DecidableEq, Repr, Inhabited

/-- The columns of a table and the names of its primary key. -/
structure TableSchema where
  id : TableId
  columns : List TableColumn
  primaryKey : List String
deriving DecidableEq, Repr, Inhabited

namespace TableSchema

/-- The first column of a name. -/
def column? (s : TableSchema) (name : String) : Option TableColumn :=
  s.columns.find? fun c => c.name = name

/-- Whether a name belongs to the primary key. -/
def isPrimaryKey (s : TableSchema) (name : String) : Bool :=
  s.primaryKey.contains name

/-- The names of the columns in order. -/
def columnNames (s : TableSchema) : List String :=
  s.columns.map TableColumn.name

/-- Sets whether the first column of a name is nullable, and leaves the others. -/
def setNullableIn (name : String) (value : Bool) : List TableColumn → List TableColumn
  | [] => []
  | c :: cs =>
    if c.name = name then { c with nullable := value } :: cs
    else c :: setNullableIn name value cs

/-- Sets whether the first column of a name is nullable. -/
def setNullable (s : TableSchema) (name : String) (value : Bool) : TableSchema :=
  { s with columns := setNullableIn name value s.columns }

end TableSchema

/-- What a change does to a table. -/
inductive TableChangeKind where
  | create
deriving DecidableEq, Repr, Inhabited

/-- A change of one table. -/
structure TableChange where
  kind : TableChangeKind
  id : TableId
  schema : TableSchema
deriving DecidableEq, Repr, Inhabited

/-- The change that creates a table with a schema. -/
def TableChange.create (s : TableSchema) : TableChange :=
  ⟨.create, s.id, s⟩

end TableCapture
