import TableCapture.Sql.DataType
import TableCapture.TableSchema

/-!
# Definitions of tables

What a definition says of a table: its columns with their attributes, and the constraints of the
table. `TableDefinition.schema` is the schema that it gives. A column is nullable unless it, or
the key of the table, says otherwise. A primary key of the table takes the place of the one that
the columns give, and a later one the place of an earlier one.
-/

namespace TableCapture.Sql

/-- An attribute of a column. -/
inductive ColumnAttribute where
  | notNull
  | null
  | default
  | comment
  | characterSet
  | primaryKey
  | unique
  | references
  | check
  | autoIncrement
  | onUpdate
  | generated
deriving DecidableEq, Repr, Inhabited

/-- A column as it is defined. -/
structure ColumnDefinition where
  name : String
  dataType : DataType
  attributes : List ColumnAttribute
deriving DecidableEq, Repr, Inhabited

/-- A constraint of a table. -/
inductive TableConstraint where
  | primaryKey (columns : List String)
  | unique (columns : List String)
  | foreignKey (columns : List String)
  | check
  | index (columns : List String)
deriving DecidableEq, Repr, Inhabited

/-- A table as it is defined. -/
structure TableDefinition where
  /-- The parts of the name. -/
  name : List String
  columns : List ColumnDefinition
  constraints : List TableConstraint
deriving DecidableEq, Repr, Inhabited

namespace ColumnDefinition

/-- Whether the column says that it is the primary key. -/
def isPrimaryKey (c : ColumnDefinition) : Bool :=
  c.attributes.contains .primaryKey

/-- The column as it says itself. -/
def column (c : ColumnDefinition) : TableColumn :=
  ⟨c.name, c.dataType.display, !c.attributes.contains .notNull && !c.isPrimaryKey⟩

end ColumnDefinition

/-- A schema under a further constraint. -/
def TableConstraint.apply (s : TableSchema) : TableConstraint → TableSchema
  | primaryKey keys =>
    { keys.foldl (fun s k => s.setNullable k false) s with primaryKey := keys }
  | _ => s

/-- The schema that a definition gives a table of a certain name. -/
def TableDefinition.schema (d : TableDefinition) (id : TableId) : TableSchema :=
  d.constraints.foldl TableConstraint.apply
    ⟨id, d.columns.map ColumnDefinition.column,
      (d.columns.filter ColumnDefinition.isPrimaryKey).map ColumnDefinition.name⟩

end TableCapture.Sql
