import TableCapture.Proofs.Sql.Table

/-!
# Which columns are nullable

A column is nullable unless it says `NOT NULL` or `PRIMARY KEY`, in whatever order its attributes
come. There is one exception: `UNIQUE KEY` takes the word after it for the name of the key. So a
`NOT NULL` right after it does not count, and an attribute of which a part is left that cannot be
read makes the definition an error. `readChanges_nullable` says so of every definition that is a
list of columns, and `nullable_lost` shows a column that is nullable although it says `NOT NULL`.
-/

namespace TableCapture.Sql

namespace Attribute

variable {as : List Attribute} {a b : Attribute}

/-- `NOT NULL` stands first among attributes, or after another than `UNIQUE KEY`. -/
def Keeps (as : List Attribute) : Prop :=
  as.head? = some notNull ∨ ∃ a, a ≠ uniqueKey ∧ [a, notNull] <:+: as

/-- `NOT NULL` stands after an attribute other than `UNIQUE KEY`, the first of which is `a`. -/
def KeepsAfter (a : Attribute) (as : List Attribute) : Prop :=
  ∃ b, b ≠ uniqueKey ∧ [b, notNull] <:+: a :: as

theorem keepsAfter_nil : ¬ KeepsAfter a [] := by
  rintro ⟨b, -, h⟩
  simpa using h.length_le

theorem keepsAfter_cons :
    KeepsAfter a (b :: as) ↔ a ≠ uniqueKey ∧ b = notNull ∨ KeepsAfter b as := by
  simp only [KeepsAfter, List.infix_cons_iff (a := a), List.cons_prefix_cons, List.nil_prefix,
    and_true, and_or_left, exists_or]
  refine or_congr_left ⟨?_, ?_⟩
  · rintro ⟨c, hc, rfl, rfl⟩
    exact ⟨hc, rfl⟩
  · rintro ⟨hc, rfl⟩
    exact ⟨a, hc, rfl, rfl⟩

theorem keeps_iff_keepsAfter (ha : a ≠ uniqueKey) : Keeps as ↔ KeepsAfter a as := by
  cases as with
  | nil => simp [Keeps, keepsAfter_nil]
  | cons b as =>
    rw [keepsAfter_cons, Keeps, List.head?_cons, Option.some.injEq, and_iff_right ha]
    rfl

theorem own_eq_notNull : a.own = some .notNull ↔ a = notNull := by
  cases a <;> simp [own]

theorem eq_null_of_remainder {c : ColumnAttribute} (h : a.remainder = some c) : c = .null := by
  cases a <;> cases h <;> rfl

theorem notNull_mem_read_iff (hc : Clear as) (ha : a ≠ uniqueKey) :
    .notNull ∈ read as ↔ KeepsAfter a as := by
  -- The attribute before moves along; a `UNIQUE KEY` never is that, since it is met with the next.
  fun_induction read as generalizing a with
  | case1 => simp [keepsAfter_nil]
  | case2 b as ih =>
    have hb := ne_uniqueKey_of_clashes (clear_cons_cons.1 hc).1
    rw [keepsAfter_cons, keepsAfter_cons, ← ih hc.of_cons.of_cons hb]
    have hremainder : b.remainder ≠ some .notNull := fun h => by cases eq_null_of_remainder h
    simp [hremainder]
  | case3 b as hlast ih =>
    rw [List.mem_append, Option.mem_toList, own_eq_notNull, keepsAfter_cons, and_iff_right ha]
    by_cases hb : b = uniqueKey
    · cases as with
      | nil => simp [read, keepsAfter_nil]
      | cons c as => exact (hlast c as hb rfl).elim
    · rw [ih hc.of_cons hb]

theorem notNull_mem_read (hc : Clear as) : .notNull ∈ read as ↔ Keeps as := by
  have ha : notNull ≠ uniqueKey := by decide
  rw [notNull_mem_read_iff hc ha, keeps_iff_keepsAfter ha]

theorem primaryKey_mem_read (hc : Clear as) : .primaryKey ∈ read as ↔ primaryKey ∈ as := by
  fun_induction read as with
  | case1 => simp
  | case2 b as ih =>
    have hb : primaryKey ≠ b := by
      rintro rfl
      cases (clear_cons_cons.1 hc).1
    have hremainder : b.remainder ≠ some .primaryKey := fun h => by cases eq_null_of_remainder h
    simp [ih hc.of_cons.of_cons, hremainder, hb]
  | case3 a as hlast ih => cases a <;> simp [own, ih hc.of_cons]

theorem keeps_iff_mem (h : ¬ [uniqueKey, notNull] <:+: as) : Keeps as ↔ notNull ∈ as := by
  constructor
  · rintro (hhead | ⟨a, -, ha⟩)
    · exact List.mem_of_mem_head? hhead
    · exact ha.subset (by simp)
  · intro hmem
    obtain ⟨pre, post, rfl⟩ := List.append_of_mem hmem
    rcases List.eq_nil_or_concat pre with rfl | ⟨pre, a, rfl⟩
    · exact .inl rfl
    · have ha : [a, notNull] <:+: pre.concat a ++ notNull :: post := ⟨pre, post, by simp⟩
      refine .inr ⟨a, ?_, ha⟩
      rintro rfl
      exact h ha

end Attribute

/-- A column of a schema is one that a definition writes. It is nullable as its attributes say,
except that a `NOT NULL` right after `UNIQUE KEY` does not count. -/
structure Column.ShownBy (c : Column) (col : TableColumn) : Prop where
  name : col.name = c.name
  dataType : col.dataType = c.type.display
  nullable : col.nullable = false ↔ Attribute.Keeps c.attributes ∨ .primaryKey ∈ c.attributes
  agrees : ¬ [.uniqueKey, .notNull] <:+: c.attributes →
    (col.nullable = false ↔ .notNull ∈ c.attributes ∨ .primaryKey ∈ c.attributes)

namespace Column

variable (c : Column)

theorem isPrimaryKey_definition (hc : Attribute.Clear c.attributes) :
    c.definition.isPrimaryKey = decide (.primaryKey ∈ c.attributes) := by
  rw [ColumnDefinition.isPrimaryKey, definition, List.contains_eq_mem]
  exact decide_eq_decide.2 (Attribute.primaryKey_mem_read hc)

theorem shownBy_definition (hc : Attribute.Clear c.attributes) :
    c.ShownBy c.definition.column := by
  have hnullable : c.definition.column.nullable = false ↔
      Attribute.Keeps c.attributes ∨ .primaryKey ∈ c.attributes := by
    rw [ColumnDefinition.column, c.isPrimaryKey_definition hc, ← Attribute.notNull_mem_read hc]
    simp [definition, imp_iff_not_or]
  exact ⟨rfl, c.type.display_dataType, hnullable, fun h =>
    hnullable.trans (or_congr_left (Attribute.keeps_iff_mem h))⟩

end Column

section Definition

variable {text : String} {ts : List Token} {name : List String} {tss : List (List Token)}
  {columns : List Column}

theorem readChanges_of_clear (hlex : Lexes text.toList ts) (hts : Defines ts name tss)
    (hcolumns : List.Forall₂ Column.Writes columns tss) (hne : columns ≠ [])
    (hclear : ∀ c ∈ columns, Attribute.Clear c.attributes) (catalog schema : Option String) :
    ∃ s : TableSchema, readChanges text catalog schema = .ok [.create s]
      ∧ s.id = .ofParts catalog schema name ∧ List.Forall₂ Column.ShownBy columns s.columns
      ∧ s.primaryKey = (columns.filter fun c => .primaryKey ∈ c.attributes).map Column.name := by
  have hitems : List.Forall₂ ReadsItem tss
      ((columns.map Column.definition).map TableItem.column ++ [].map TableItem.constraint) := by
    rw [List.map_nil, List.append_nil]
    exact readsItem_columns hcolumns hclear
  have hne' : tss ≠ [] := by
    rintro rfl
    cases hcolumns
    exact hne rfl
  refine ⟨_, readChanges_of_items hlex hts hne' hitems catalog schema, rfl, ?_, ?_⟩
  · show List.Forall₂ _ columns ((columns.map Column.definition).map ColumnDefinition.column)
    rw [List.forall₂_map_right_iff, List.forall₂_map_right_iff, List.forall₂_same]
    exact fun c hc => c.shownBy_definition (hclear c hc)
  · show (((columns.map Column.definition).filter _).map ColumnDefinition.name) = _
    have hfilter : columns.filter (ColumnDefinition.isPrimaryKey ∘ Column.definition)
        = columns.filter fun c => .primaryKey ∈ c.attributes :=
      List.filter_congr fun c hc => c.isPrimaryKey_definition (hclear c hc)
    rw [List.filter_map, List.map_map, hfilter]
    rfl

/-- A definition that lists columns gives the columns as they are written, and of those in which no
`NOT NULL` stands right after `UNIQUE KEY` exactly the ones that say `NOT NULL` or `PRIMARY KEY` are
not nullable. But where `UNIQUE KEY` takes the first word of an attribute that cannot be read
without it, the definition is an error; orders are supposed to have names at which no attribute
starts. -/
theorem readChanges_nullable (hlex : Lexes text.toList ts) (hts : Defines ts name tss)
    (hcolumns : List.Forall₂ Column.Writes columns tss) (hne : columns ≠ [])
    (catalog schema : Option String) :
    ((∀ c ∈ columns, Attribute.Clear c.attributes) →
      ∃ s : TableSchema, readChanges text catalog schema = .ok [.create s]
        ∧ s.id = .ofParts catalog schema name ∧ List.Forall₂ Column.ShownBy columns s.columns
        ∧ s.primaryKey = (columns.filter fun c => .primaryKey ∈ c.attributes).map Column.name)
    ∧ ((∀ c ∈ columns, ∀ w, .collate w ∈ c.attributes → (Token.word w).NoAttribute) →
      (∃ c ∈ columns, ¬ Attribute.Clear c.attributes) →
        readChanges text catalog schema = .error .grammar) := by
  refine ⟨fun hclear => readChanges_of_clear hlex hts hcolumns hne hclear catalog schema,
    fun hwords hc => ?_⟩
  obtain ⟨tss₁, us, tss₂, items, rfl, hitems, hblocks⟩ := exists_blocksItem hcolumns hwords hc
  exact readChanges_of_blocked hlex hts hitems hblocks catalog schema

end Definition

/-- Columns whose attributes come in unusual orders. -/
def lampColumns : List Column := [
  ⟨"not", .int, [.uniqueKey, .unique, .notNull]⟩,
  ⟨",", .int, [.comment "(", .autoIncrement, .collate ⟨"x", false⟩, .primaryKey, .uniqueKey]⟩]

def lampTokens : List (List Token) :=
  [[.word ⟨"not", true⟩, .ofKeyword "Int", .ofKeyword "UNIQUE", .ofKeyword "KEY",
      .ofKeyword "unique", .ofKeyword "not", .ofKeyword "null"],
    [.word ⟨",", true⟩, .ofKeyword "int", .ofKeyword "comment", .text .single "(",
      .ofKeyword "Auto_Increment", .ofKeyword "collate", .ofKeyword "x", .ofKeyword "primary",
      .ofKeyword "KEY", .ofKeyword "unique", .ofKeyword "key"]]

theorem writes_lampColumns : List.Forall₂ Column.Writes lampColumns lampTokens := by
  refine .cons ?_ (.cons ?_ .nil)
  · exact ⟨_, _, .int rfl, .cons (.uniqueKey rfl rfl) (.cons (.unique rfl)
      (.cons (.notNull rfl rfl) .nil)), rfl⟩
  · exact ⟨_, _, .int rfl, .cons (.comment rfl) (.cons (.autoIncrement rfl) (.cons (.collate rfl)
      (.cons (.primaryKey rfl rfl) (.cons (.uniqueKey rfl rfl) .nil)))), rfl⟩

def lampText : String :=
  "create table `(`.lamps(`not` Int UNIQUE KEY unique not null,`,` int comment '('"
    ++ " Auto_Increment collate x primary KEY unique key);"

def clashText : String :=
  "create table lamps (`a` int unique key collate x)"

def clashTokens : List (List Token) :=
  [[.word ⟨"a", true⟩, .ofKeyword "int", .ofKeyword "unique", .ofKeyword "key",
    .ofKeyword "collate", .ofKeyword "x"]]

theorem writes_clashColumns :
    List.Forall₂ Column.Writes [⟨"a", .int, [.uniqueKey, .collate ⟨"x", false⟩]⟩] clashTokens :=
  .cons ⟨_, _, .int rfl, .cons (.uniqueKey rfl rfl) (.cons (.collate rfl) .nil), rfl⟩ .nil

theorem readChanges_nullable_lamps :
    (∃ s : TableSchema, readChanges lampText none (some "b") = .ok [.create s]
      ∧ s.id = ⟨none, some "(", "lamps"⟩ ∧ s.primaryKey = [","]
      ∧ List.Forall₂ Column.ShownBy lampColumns s.columns)
    ∧ readChanges clashText none none = .error .grammar := by
  have hopening : Spelled ["CREATE", "TABLE"] [.ofKeyword "create", .ofKeyword "table"] :=
    .cons rfl (.cons rfl .nil)
  have hmem : ["CREATE", "TABLE"] ∈ openings := by decide
  refine ⟨?_, ?_⟩
  · have hlex : Lexes lampText.toList ([.ofKeyword "create", .ofKeyword "table"]
        ++ [.word ⟨"(", true⟩, .period, .ofKeyword "lamps"] ++ .leftParen ::
          [Token.comma].intercalate lampTokens ++ .rightParen :: [.semicolon]) := by
      unfold Lexes
      decide +kernel
    have hclear : ∀ c ∈ lampColumns, Attribute.Clear c.attributes := by
      unfold Attribute.Clear
      decide
    have hname : Names [.word ⟨"(", true⟩, .period, .ofKeyword "lamps"] ["(", "lamps"] :=
      .cons rfl (.last rfl)
    obtain ⟨s, hread, hid, hcolumns, hkey⟩ := (readChanges_nullable hlex
      ⟨_, _, _, ⟨_, hmem, hopening⟩, hname, rfl⟩ writes_lampColumns (List.cons_ne_nil _ _)
      none (some "b")).1 hclear
    exact ⟨s, hread, hid, hkey, hcolumns⟩
  · have hlex : Lexes clashText.toList ([.ofKeyword "create", .ofKeyword "table"]
        ++ [.ofKeyword "lamps"] ++ .leftParen :: [Token.comma].intercalate clashTokens
          ++ .rightParen :: []) := by
      unfold Lexes
      decide +kernel
    have hword : (Token.word ⟨"x", false⟩).NoAttribute := by
      unfold Token.NoAttribute
      decide +kernel
    have hclash : ¬ Attribute.Clear [.uniqueKey, .collate ⟨"x", false⟩] := by
      unfold Attribute.Clear
      decide
    exact (readChanges_nullable hlex ⟨_, _, _, ⟨_, hmem, hopening⟩, .last rfl, rfl⟩
      writes_clashColumns (List.cons_ne_nil _ _) none none).2 (by simp [hword]) (by simp [hclash])

/-- A column that says `NOT NULL` is nullable where `UNIQUE KEY` stands before it. -/
theorem nullable_lost :
    Lexes "CREATE TABLE `t` (`a` int UNIQUE KEY NOT NULL)".toList
        ([.ofKeyword "CREATE", .ofKeyword "TABLE"] ++ [.word ⟨"t", true⟩] ++ .leftParen ::
          [Token.comma].intercalate [[.word ⟨"a", true⟩, .ofKeyword "int", .ofKeyword "UNIQUE",
            .ofKeyword "KEY", .ofKeyword "NOT", .ofKeyword "NULL"]] ++ .rightParen :: [])
      ∧ Column.Writes ⟨"a", .int, [.uniqueKey, .notNull]⟩ [.word ⟨"a", true⟩, .ofKeyword "int",
          .ofKeyword "UNIQUE", .ofKeyword "KEY", .ofKeyword "NOT", .ofKeyword "NULL"]
      ∧ readChanges "CREATE TABLE `t` (`a` int UNIQUE KEY NOT NULL)" none none
        = .ok [.create ⟨⟨none, none, "t"⟩, [⟨"a", "INT", true⟩], []⟩] := by
  refine ⟨?_, ⟨_, _, .int rfl, .cons (.uniqueKey rfl rfl) (.cons (.notNull rfl rfl) .nil), rfl⟩, ?_⟩
  · unfold Lexes
    decide +kernel
  · decide +kernel

end TableCapture.Sql
