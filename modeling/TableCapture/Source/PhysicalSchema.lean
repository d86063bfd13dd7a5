import TableCapture.Text.Shape

/-!
# Physical schemas

The columns of a source table as the catalog that holds the table definition declares them.
-/

namespace TableCapture

/-- A declared column. -/
structure PhysicalColumn where
  name : String
  dataType : String
  nullable : Bool := true
deriving DecidableEq, Repr, Inhabited

/-- A declared key. -/
structure UniqueConstraint where
  name : String
  columns : List String
deriving DecidableEq, Repr, Inhabited

/-- The declared columns in order, and the primary key if one is declared. -/
structure PhysicalSchema where
  columns : List PhysicalColumn := []
  primaryKey : Option UniqueConstraint := none
deriving DecidableEq, Repr, Inhabited

namespace PhysicalSchema

instance : EmptyCollection PhysicalSchema := ⟨{}⟩

/-- The displayed column. -/
def columnShape (c : PhysicalColumn) : Shape :=
  .record "Column"
    [("name", .text c.name), ("data_type", .text c.dataType), ("nullable", .flag c.nullable)]

/-- The displayed key. -/
def keyShape (k : UniqueConstraint) : Shape :=
  .record "UniqueConstraint"
    [("name", .text k.name), ("columns", .list (k.columns.map .text))]

/-- The displayed schema. -/
def shape (s : PhysicalSchema) : Shape :=
  .record "PhysicalSchema"
    [("columns", .list (s.columns.map columnShape)),
      ("primary_key", .optional (s.primaryKey.map keyShape))]

end PhysicalSchema

end TableCapture
