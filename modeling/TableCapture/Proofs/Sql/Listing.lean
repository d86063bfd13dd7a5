import TableCapture.Proofs.Sql.Keys
import TableCapture.Proofs.Sql.Nullability
import TableCapture.Proofs.Sql.Printing

/-!
# Definitions as a server lists them

A server lists the definition of a table with its columns, its primary key and its other keys, each
on a line of its own, and ends it with options of the table. `readChanges_listing` says that such a
listing is read back exactly: whatever names it holds, reading gives one change, and the schema in
it has the columns and the primary key of the listing, a column being nullable if it does not say
`NOT NULL` and does not belong to the primary key.
-/

namespace TableCapture

namespace Sql

/-! ## Listings -/

/-- A key of a table other than its primary key, as it is listed. -/
structure ListedKey where
  name : String
  unique : Bool
  columns : List String
  columns_ne : columns ≠ []

/-- A column as it is listed. -/
structure ListedColumn where
  name : String
  type : ColumnType
  characterSet : Option { w : String // IsPlainWord w }
  collation : Option { w : String // IsPlainWord w }
  notNull : Bool
  /-- The value that is given, where one is; it may be `NULL`. -/
  default : Option (Option { s : String // IsLiteral s })
  autoIncrement : Bool
  comment : Option { s : String // IsLiteral s }

/-- A table as it is listed. There may be no primary key. -/
structure Listing where
  name : String
  columns : List ListedColumn
  primaryKey : List String
  keys : List ListedKey
  columns_ne : columns ≠ []
  names_nodup : (columns.map ListedColumn.name).Nodup

namespace ListedKey

def print (k : ListedKey) : String :=
  (if k.unique then "UNIQUE KEY " else "KEY ") ++ quotedName k.name ++ " " ++ printedNames k.columns

def constraint (k : ListedKey) : TableConstraint :=
  if k.unique then .unique k.columns else .index k.columns

end ListedKey

namespace ListedColumn

/-- A default value as an attribute. -/
def defaultAttribute : Option { s : String // IsLiteral s } → Attribute
  | none => .defaultNull
  | some s => .defaultText s

/-- The attributes of a column in the order in which they are listed. -/
def attributes (c : ListedColumn) : List Attribute :=
  (c.characterSet.map fun w => .characterSet ⟨w, false⟩).toList
    ++ (c.collation.map fun w => .collate ⟨w, false⟩).toList
    ++ (if c.notNull then [.notNull] else [])
    ++ (c.default.map defaultAttribute).toList
    ++ (if c.autoIncrement then [.autoIncrement] else [])
    ++ (c.comment.map fun s => .comment s).toList

def column (c : ListedColumn) : Column :=
  ⟨c.name, c.type, c.attributes⟩

end ListedColumn

namespace Listing

def lines (l : Listing) : List String :=
  l.columns.map (fun c => c.column.print)
    ++ (if l.primaryKey = [] then [] else ["PRIMARY KEY " ++ printedNames l.primaryKey])
    ++ l.keys.map ListedKey.print

/-- The text of a listing up to the options of the table. -/
def text (l : Listing) : String :=
  tableText l.name l.lines

/-- The constraints that are listed. -/
def constraints (l : Listing) : List TableConstraint :=
  (if l.primaryKey = [] then [] else [.primaryKey l.primaryKey]) ++ l.keys.map ListedKey.constraint

/-- The schema that a listing shows. -/
def schema (l : Listing) (id : TableId) : TableSchema where
  id := id
  columns := l.columns.map fun c =>
    ⟨c.name, c.type.display, !c.notNull && !l.primaryKey.contains c.name⟩
  primaryKey := l.primaryKey

end Listing

/-! ## What is read of a listing -/

namespace ListedColumn

variable (c : ListedColumn)

theorem mem_attributes {a : Attribute} (ha : a ∈ c.attributes) :
    a.Plain ∧ a ≠ .uniqueKey ∧ a ≠ .primaryKey ∧ (a = .notNull → c.notNull = true) := by
  simp only [attributes, List.mem_append, Option.mem_toList, Option.map_eq_some_iff,
    List.mem_ite_nil_right, List.mem_singleton] at ha
  rcases ha with
    ((((⟨w, -, rfl⟩ | ⟨w, -, rfl⟩) | ⟨hn, rfl⟩) | ⟨d, -, rfl⟩) | ⟨-, rfl⟩) | ⟨s, -, rfl⟩
  · exact ⟨⟨rfl, w.2⟩, by simp⟩
  · exact ⟨⟨rfl, w.2⟩, by simp⟩
  · exact ⟨trivial, by simp [hn]⟩
  · rcases d with _ | s
    · exact ⟨trivial, by simp [defaultAttribute]⟩
    · exact ⟨s.2, by simp [defaultAttribute]⟩
  · exact ⟨trivial, by simp⟩
  · exact ⟨s.2, by simp⟩

theorem uniqueKey_notMem : .uniqueKey ∉ c.attributes :=
  fun h => (c.mem_attributes h).2.1 rfl

theorem clear_attributes : Attribute.Clear c.attributes :=
  Attribute.clear_of_notMem c.uniqueKey_notMem

theorem notNull_mem_read : .notNull ∈ Attribute.read c.attributes ↔ c.notNull = true := by
  have hapart : ¬ [.uniqueKey, .notNull] <:+: c.attributes := fun h =>
    c.uniqueKey_notMem (h.subset (by simp))
  rw [Attribute.notNull_mem_read c.clear_attributes, Attribute.keeps_iff_mem hapart]
  constructor
  · exact fun h => (c.mem_attributes h).2.2.2 rfl
  · exact fun h => by simp [attributes, h]

theorem isPrimaryKey_definition : c.column.definition.isPrimaryKey = false := by
  rw [Column.isPrimaryKey_definition _ c.clear_attributes, decide_eq_false_iff_not]
  exact fun h => (c.mem_attributes h).2.2.1 rfl

theorem column_definition :
    c.column.definition.column = ⟨c.name, c.type.display, !c.notNull⟩ := by
  have hnotNull : c.column.definition.attributes.contains .notNull = c.notNull := by
    rw [Bool.eq_iff_iff, List.contains_iff_mem]
    exact c.notNull_mem_read
  rw [ColumnDefinition.column, hnotNull, c.isPrimaryKey_definition, Bool.not_false, Bool.and_true]
  show TableColumn.mk c.name c.type.dataType.display _ = _
  rw [c.type.display_dataType]

theorem prints : Prints c.column.print (.column c.column.definition) :=
  prints_column (fun _ ha => (c.mem_attributes ha).1) c.clear_attributes

end ListedColumn

theorem ListedKey.prints (k : ListedKey) : Prints k.print (.constraint k.constraint) := by
  unfold ListedKey.print ListedKey.constraint
  cases k.unique with
  | true => exact prints_uniqueKey k.name k.columns_ne
  | false => exact prints_key k.name k.columns_ne

namespace Listing

variable (l : Listing)

def definitions : List ColumnDefinition :=
  l.columns.map fun c => c.column.definition

theorem prints_lines : List.Forall₂ Prints l.lines
    (l.definitions.map TableItem.column ++ l.constraints.map TableItem.constraint) := by
  have hcolumns : List.Forall₂ Prints (l.columns.map fun c => c.column.print)
      (l.definitions.map TableItem.column) := by
    rw [definitions, List.map_map, List.forall₂_map_left_iff, List.forall₂_map_right_iff,
      List.forall₂_same]
    exact fun c _ => c.prints
  have hkeys : List.Forall₂ Prints (l.keys.map ListedKey.print)
      ((l.keys.map ListedKey.constraint).map TableItem.constraint) := by
    rw [List.map_map, List.forall₂_map_left_iff, List.forall₂_map_right_iff, List.forall₂_same]
    exact fun k _ => k.prints
  rw [lines, constraints]
  split_ifs with hkey
  · simpa using List.rel_append hcolumns hkeys
  · have hprimary : List.Forall₂ Prints ["PRIMARY KEY " ++ printedNames l.primaryKey]
        [.constraint (.primaryKey l.primaryKey)] := .cons (prints_primaryKey hkey) .nil
    simpa using List.rel_append hcolumns (List.rel_append hprimary hkeys)

theorem keys_definition : TableDefinition.keys ⟨[l.name], l.definitions, l.constraints⟩
    = if l.primaryKey = [] then [] else [l.primaryKey] := by
  have hnone : ∀ k ∈ l.keys.map ListedKey.constraint, TableConstraint.key? k = none := by
    rw [List.forall_mem_map]
    intro k _
    rw [ListedKey.constraint]
    split_ifs <;> rfl
  rw [TableDefinition.keys, constraints, List.filterMap_append, List.filterMap_eq_nil_iff.2 hnone]
  split_ifs <;> rfl

theorem schema_definition (id : TableId) :
    TableDefinition.schema ⟨[l.name], l.definitions, l.constraints⟩ id = l.schema id := by
  have hnames : l.definitions.map ColumnDefinition.name = l.columns.map fun c => c.name := by
    rw [definitions, List.map_map]
    rfl
  have hcolumns : l.definitions.map ColumnDefinition.column
      = l.columns.map fun c => ⟨c.name, c.type.display, !c.notNull⟩ := by
    rw [definitions, List.map_map]
    exact List.map_congr_left fun c _ => c.column_definition
  have hown : l.definitions.filter ColumnDefinition.isPrimaryKey = [] := by
    rw [definitions, List.filter_eq_nil_iff, List.forall_mem_map]
    exact fun c _ => by simp [c.isPrimaryKey_definition]
  rw [TableDefinition.schema_eq (hnames ▸ l.names_nodup), keys_definition]
  simp only [hcolumns, hown, TableSchema.withKeys, List.map_map, schema]
  split_ifs with hkey
  · simp [hkey, TableSchema.named]
  · simp [TableSchema.named]

end Listing

/-- A listing with options that can be cut into tokens is read back exactly. -/
theorem readChanges_listing (l : Listing) {options : String} (h : (Token.scan options).isSome)
    (catalog schema : Option String) :
    readChanges (l.text ++ options) catalog schema
      = .ok [.create (l.schema ⟨catalog, schema, l.name⟩)] := by
  have hne : l.lines ≠ [] := by simp [Listing.lines, l.columns_ne]
  have hid : TableId.ofParts catalog schema [l.name] = ⟨catalog, schema, l.name⟩ := by
    cases schema <;> rfl
  rw [Listing.text, readChanges_of_lines hne l.prints_lines h, TableDefinition.change, hid,
    l.schema_definition]

/-- A table whose names need their backticks. -/
def oddListing : Listing where
  name := "a`(b"
  columns := [
    { name := "KEY", type := .varchar 255, characterSet := some ⟨"utf8", by decide⟩,
      collation := some ⟨"utf8_bin", by decide⟩, notNull := false,
      default := some (some ⟨"),", by decide⟩), autoIncrement := false,
      comment := some ⟨"UNIQUE", by decide⟩ },
    { name := "", type := .bigint, characterSet := none, collation := none, notNull := true,
      default := none, autoIncrement := true, comment := none },
    { name := "`,`", type := .text, characterSet := none, collation := none, notNull := false,
      default := some none, autoIncrement := false, comment := none }]
  primaryKey := ["", "KEY"]
  keys := [⟨"k", true, ["`,`", "KEY"], by simp⟩, ⟨"INDEX", false, [""], by simp⟩]
  columns_ne := by simp
  names_nodup := by decide

example : oddListing.text = "CREATE TABLE `a``(b` (\n"
    ++ "  `KEY` varchar(255) CHARACTER SET utf8 COLLATE utf8_bin DEFAULT '),' COMMENT 'UNIQUE',\n"
    ++ "  `` bigint NOT NULL AUTO_INCREMENT,\n  ```,``` text DEFAULT NULL,\n"
    ++ "  PRIMARY KEY (``,`KEY`),\n  UNIQUE KEY `k` (```,```,`KEY`),\n  KEY `INDEX` (``)\n)" := by
  decide +kernel

theorem readChanges_listing_odd :
    (Token.scan " COMMENT 'a)b' -- c").isSome
      ∧ readChanges (oddListing.text ++ " COMMENT 'a)b' -- c") (some "x") none
        = .ok [.create ⟨⟨some "x", none, "a`(b"⟩, [⟨"KEY", "VARCHAR(255)", false⟩,
            ⟨"", "BIGINT", false⟩, ⟨"`,`", "TEXT", true⟩], ["", "KEY"]⟩] := by
  have h : (Token.scan " COMMENT 'a)b' -- c").isSome := by decide +kernel
  exact ⟨h, readChanges_listing oddListing h (some "x") none⟩

end Sql

end TableCapture
