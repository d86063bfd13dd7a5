import Mathlib.Data.List.Forall2
import Mathlib.Data.List.Nodup
import TableCapture.Sql.TableDefinition

/-!
# Columns and keys of a definition

The columns of a definition come one after the other, and then its constraints are applied in
order. Each primary key among them takes the place of the one before and makes its columns not
nullable; the other constraints do nothing (`apply_eq`). So the last primary key stays, and the
columns of all of them are not nullable (`foldl_apply`). `schema_describes` puts this together for
definitions in which no two columns have one name.
-/

namespace TableCapture

/-! ## Columns that are made not nullable -/

namespace TableSchema

variable {cs : List TableColumn} {name : String} {keys : List String}

theorem setNullableIn_eq_map (h : (cs.map TableColumn.name).Nodup) :
    setNullableIn name false cs =
      cs.map fun c => { c with nullable := c.nullable && decide (c.name ≠ name) } := by
  induction cs with
  | nil => rfl
  | cons c cs ih =>
    rw [List.map_cons, List.nodup_cons] at h
    rw [setNullableIn, List.map_cons]
    by_cases hc : c.name = name
    · -- The column found first is the only one of its name, so the others stay as they are.
      have hcs : ∀ d ∈ cs, { d with nullable := d.nullable && decide (d.name ≠ name) } = d := by
        intro d hd
        have hne : d.name ≠ name := fun hd' =>
          h.1 (List.mem_map.2 ⟨d, hd, hd'.trans hc.symm⟩)
        simp [hne]
      rw [if_pos hc, List.map_congr_left hcs]
      simp [hc]
    · rw [if_neg hc, ih h.2]
      simp [hc]

theorem foldl_setNullable (s : TableSchema) (h : (s.columns.map TableColumn.name).Nodup) :
    keys.foldl (fun s k => s.setNullable k false) s = { s with
      columns := s.columns.map fun c =>
        { c with nullable := c.nullable && !keys.contains c.name } } := by
  induction keys generalizing s with
  | nil => simp
  | cons k keys ih =>
    rw [List.foldl_cons, ih]
    · simp only [setNullable, setNullableIn_eq_map h, List.map_map]
      congr 1
      refine List.map_congr_left fun c _ => ?_
      simp [Bool.and_assoc]
    · rw [setNullable, setNullableIn_eq_map h, List.map_map]
      exact h

/-- Whether a name stands in one of several keys. -/
def named (keys : List (List String)) (name : String) : Bool :=
  keys.any fun k => k.contains name

/-- A schema in which columns of keys are not nullable, and the last key is the primary key. -/
def withKeys (s : TableSchema) (keys : List (List String)) : TableSchema where
  id := s.id
  columns := s.columns.map fun c => { c with nullable := c.nullable && !named keys c.name }
  primaryKey := keys.getLast?.getD s.primaryKey

theorem withKeys_nil (s : TableSchema) : s.withKeys [] = s := by
  simp [withKeys, named]

theorem withKeys_cons (s : TableSchema) (k : List String) (keys : List (List String)) :
    (s.withKeys [k]).withKeys keys = s.withKeys (k :: keys) := by
  have hlast : keys.getLast?.getD k = (k :: keys).getLast?.getD s.primaryKey := by
    rw [List.getLast?_cons, Option.getD_some]
  simp only [withKeys, List.map_map, List.getLast?_singleton, Option.getD_some, hlast]
  congr 1
  refine List.map_congr_left fun c _ => ?_
  simp [named, Bool.and_assoc]

theorem names_withKeys (s : TableSchema) (keys : List (List String)) :
    (s.withKeys keys).columns.map TableColumn.name = s.columns.map TableColumn.name := by
  rw [withKeys, List.map_map]
  rfl

end TableSchema

namespace Sql

/-- The columns of a primary key. -/
def TableConstraint.key? : TableConstraint → Option (List String)
  | primaryKey keys => some keys
  | _ => none

/-- The primary keys among the constraints, in order. -/
def TableDefinition.keys (d : TableDefinition) : List (List String) :=
  d.constraints.filterMap TableConstraint.key?

/-- A column of a schema is one that the definition gives. It is nullable unless it says otherwise
or is named in a primary key. -/
structure TableDefinition.Shows (d : TableDefinition) (c : ColumnDefinition) (col : TableColumn) :
    Prop where
  name : col.name = c.name
  dataType : col.dataType = c.dataType.display
  nullable : col.nullable = true ↔ .notNull ∉ c.attributes ∧ .primaryKey ∉ c.attributes
    ∧ ∀ keys ∈ d.keys, c.name ∉ keys

/-- A schema has the columns and the key of a definition. -/
structure TableDefinition.Describes (d : TableDefinition) (s : TableSchema) : Prop where
  columns : List.Forall₂ d.Shows d.columns s.columns
  key_of_constraint : ∀ keys, d.keys.getLast? = some keys → s.primaryKey = keys
  key_of_columns : d.keys = [] →
    s.primaryKey = (d.columns.filter fun c => .primaryKey ∈ c.attributes).map ColumnDefinition.name
  not_nullable : ∀ col ∈ s.columns, col.name ∈ s.primaryKey → col.nullable = false

section Constraints

variable {c : TableConstraint} {cs : List TableConstraint} {s : TableSchema}

theorem apply_eq (h : (s.columns.map TableColumn.name).Nodup) (c : TableConstraint) :
    c.apply s = s.withKeys c.key?.toList := by
  cases c with
  | primaryKey keys =>
    rw [TableConstraint.apply, TableSchema.foldl_setNullable s h]
    simp [TableSchema.withKeys, TableSchema.named, TableConstraint.key?]
  | unique | foreignKey | check | index => exact s.withKeys_nil.symm

theorem foldl_apply (h : (s.columns.map TableColumn.name).Nodup) :
    cs.foldl TableConstraint.apply s = s.withKeys (cs.filterMap TableConstraint.key?) := by
  induction cs generalizing s with
  | nil => exact s.withKeys_nil.symm
  | cons c cs ih =>
    rw [List.foldl_cons, apply_eq h, ih (by rwa [TableSchema.names_withKeys])]
    rcases hc : c.key? with _ | k
    · rw [Option.toList_none, TableSchema.withKeys_nil, List.filterMap_cons_none hc]
    · rw [Option.toList_some, TableSchema.withKeys_cons, List.filterMap_cons_some hc]

end Constraints

namespace TableDefinition

variable {d : TableDefinition} {id : TableId}

theorem schema_eq (h : (d.columns.map ColumnDefinition.name).Nodup) :
    d.schema id = TableSchema.withKeys ⟨id, d.columns.map ColumnDefinition.column,
      (d.columns.filter ColumnDefinition.isPrimaryKey).map ColumnDefinition.name⟩ d.keys := by
  refine foldl_apply ?_
  rw [List.map_map]
  exact h

theorem forall₂_shows (h : (d.columns.map ColumnDefinition.name).Nodup) :
    List.Forall₂ d.Shows d.columns (d.schema id).columns := by
  rw [schema_eq h, TableSchema.withKeys, List.map_map, List.forall₂_map_right_iff,
    List.forall₂_same]
  refine fun c _ => ⟨rfl, rfl, ?_⟩
  simp [ColumnDefinition.column, ColumnDefinition.isPrimaryKey, TableSchema.named, and_assoc]

theorem not_nullable_of_key (h : (d.columns.map ColumnDefinition.name).Nodup) {col : TableColumn}
    (hcol : col ∈ (d.schema id).columns) (hkey : col.name ∈ (d.schema id).primaryKey) :
    col.nullable = false := by
  rw [schema_eq h] at hcol hkey
  obtain ⟨c₀, hc₀, rfl⟩ := List.mem_map.1 hcol
  obtain ⟨c, hc, rfl⟩ := List.mem_map.1 hc₀
  rcases hlast : d.keys.getLast? with _ | keys
  · -- The key is that of the columns, so this column says itself that it is part of it.
    simp only [TableSchema.withKeys, hlast, Option.getD_none] at hkey
    obtain ⟨c', hc', hname⟩ := List.mem_map.1 hkey
    obtain ⟨hmem, hprimary⟩ := List.mem_filter.1 hc'
    obtain rfl : c' = c := List.inj_on_of_nodup_map h hmem hc hname
    simp [ColumnDefinition.column, hprimary]
  · simp only [TableSchema.withKeys, hlast, Option.getD_some] at hkey
    have hnamed : TableSchema.named d.keys c.column.name = true :=
      List.any_eq_true.2 ⟨keys, List.mem_of_getLast? hlast, List.contains_iff_mem.2 hkey⟩
    simp [hnamed]

/-- A definition whose columns have different names gives these columns, and the last primary key
among its constraints, or else the one that the columns give. Of the constraints only the primary
keys count. -/
theorem schema_describes (d : TableDefinition) (id : TableId)
    (h : (d.columns.map ColumnDefinition.name).Nodup) :
    (d.schema id).id = id ∧ d.Describes (d.schema id)
      ∧ ∀ cs, cs.filterMap TableConstraint.key? = d.keys →
        TableDefinition.schema ⟨d.name, d.columns, cs⟩ id = d.schema id := by
  refine ⟨by rw [schema_eq h, TableSchema.withKeys], ?_, fun cs hcs => ?_⟩
  · constructor
    case columns => exact forall₂_shows h
    case key_of_constraint =>
      intro keys hkeys
      rw [schema_eq h, TableSchema.withKeys, hkeys, Option.getD_some]
    case key_of_columns =>
      intro hnil
      rw [schema_eq h, TableSchema.withKeys, hnil, List.getLast?_nil, Option.getD_none]
      have hfilter : d.columns.filter ColumnDefinition.isPrimaryKey
          = d.columns.filter fun c => .primaryKey ∈ c.attributes :=
        List.filter_congr fun c _ => List.contains_eq_mem ..
      rw [hfilter]
    case not_nullable => exact fun col hcol hkey => not_nullable_of_key h hcol hkey
  · rw [schema_eq h, schema_eq (d := ⟨d.name, d.columns, cs⟩) h]
    exact congrArg _ hcs

/-- Keys of columns and of the table, of which the last names a column that is not there. -/
def lampsDefinition : TableDefinition where
  name := ["lamps"]
  columns := [
    ⟨"watt", .integer "INT" none false, [.comment, .primaryKey]⟩,
    ⟨"base", .plain "TEXT", [.null]⟩,
    ⟨"Base", .plain "TEXT", [.unique, .notNull]⟩, ⟨"maker", .plain "TEXT", [.unique]⟩,
    ⟨"note", .plain "TEXT", []⟩]
  constraints := [.unique ["note"], .primaryKey ["base"], .check, .primaryKey ["maker", "price"],
    .index ["note"]]

theorem schema_describes_lamps : (lampsDefinition.columns.map ColumnDefinition.name).Nodup
    ∧ lampsDefinition.Describes ⟨⟨none, none, "lamps"⟩, [⟨"watt", "INT", false⟩,
        ⟨"base", "TEXT", false⟩, ⟨"Base", "TEXT", false⟩, ⟨"maker", "TEXT", false⟩,
        ⟨"note", "TEXT", true⟩], ["maker", "price"]⟩ := by
  have h : (lampsDefinition.columns.map ColumnDefinition.name).Nodup := by decide
  exact ⟨h, (schema_describes lampsDefinition ⟨none, none, "lamps"⟩ h).2.1⟩

end TableDefinition

end Sql

end TableCapture
