import TableCapture.Text.Backtick

/-!
# Names of tables

A table is named by its own name and at most two qualifiers, a catalog and a schema. The parts of
a name are displayed with dots between them, or quoted with backticks, so that a quoted name reads
back as exactly these parts whatever characters they hold.
-/

namespace TableCapture

/-- The name of a table with its qualifiers. -/
structure TableId where
  catalog : Option String
  schema : Option String
  table : String
deriving DecidableEq, Repr, Inhabited

namespace TableId

/-- The qualifiers that are there, and the name. -/
def parts (t : TableId) : List String :=
  t.catalog.toList ++ t.schema.toList ++ [t.table]

/-- The parts with dots between them. -/
def display (t : TableId) : String :=
  ".".intercalate t.parts

/-- The parts in backticks with dots between them. -/
def quoted (t : TableId) : String :=
  ".".intercalate (t.parts.map fun p => String.ofList (Backtick.quote p.toList))

/-- The statement that shows the definition of a table. -/
def statement (t : TableId) : String :=
  "SHOW CREATE TABLE " ++ t.quoted

/-- The order of one qualifier: one that is missing comes first. -/
def qualifierLe : Option String → Option String → Bool
  | none, _ => true
  | some _, none => false
  | some a, some b => a ≤ b

/-- The order by catalog, then schema, then name. -/
def le (s t : TableId) : Bool :=
  if s.catalog ≠ t.catalog then qualifierLe s.catalog t.catalog
  else if s.schema ≠ t.schema then qualifierLe s.schema t.schema
  else s.table ≤ t.table

/-- The names in order. -/
def sort (ts : List TableId) : List TableId :=
  ts.mergeSort le

/-- The table that a name of one or more parts means where the default catalog and schema hold.
Three parts are catalog, schema and table. Two are schema and table where there is a default
schema, else catalog and table. In any other case the last part is the table. -/
def ofParts (catalog schema : Option String) (parts : List String) : TableId :=
  match parts, schema with
  | [c, s, t], _ => ⟨some c, some s, t⟩
  | [s, t], some _ => ⟨catalog, some s, t⟩
  | [c, t], none => ⟨some c, none, t⟩
  | parts, schema => ⟨catalog, schema, parts.getLastD ""⟩

end TableId

end TableCapture
