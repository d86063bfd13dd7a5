import TableCapture.Proofs.Sql.Attributes
import TableCapture.Proofs.Sql.Scanning
import TableCapture.Sql.Changes

/-!
# From the items of a column list to the change

`ReadsItem ts i` says that tokens are read as an item of a column list, by way of their normal form.
Items with commas between them are read one by one, so a text whose tokens open the definition of a
table, name it and list items makes one change, which creates the table with these items
(`readChanges_of_items`). Where one of the items cannot be read to its end, the text is an error
(`readChanges_of_blocked`). What follows the column list does not count.
-/

namespace TableCapture.Sql

/-- An item of a column list is read of the normal form of tokens, and what it leaves is the normal
form of the tokens `left`. -/
def ReadsUpTo (left ts : List Token) (item : TableItem) : Prop :=
  ∃ us, ∀ d rest, Ends rest →
    columnList (d + 1) (ts ++ rest) = us ++ columnList (d + 1) (left ++ rest)
      ∧ tableItem? (us ++ columnList (d + 1) (left ++ rest))
        = some (item, columnList (d + 1) (left ++ rest))

/-- Tokens are read as an item of a column list. -/
def ReadsItem (ts : List Token) (item : TableItem) : Prop :=
  ReadsUpTo [] ts item

/-- Tokens are not read as an item of a column list to their end. -/
def BlocksItem (ts : List Token) : Prop :=
  ∃ left item, ReadsUpTo left ts item ∧ Blocked left

/-! ## Columns -/

/-- A column as a definition writes it. -/
structure Column where
  name : String
  type : ColumnType
  attributes : List Attribute
deriving DecidableEq, Repr

namespace Column

/-- The tokens that write a column. -/
def Writes (c : Column) (ts : List Token) : Prop :=
  ∃ us vs, c.type.Writes us ∧ Attribute.WritesAll c.attributes vs
    ∧ ts = .word ⟨c.name, true⟩ :: us ++ vs

/-- What is read of a column. -/
def definition (c : Column) : ColumnDefinition :=
  ⟨c.name, c.type.dataType, Attribute.read c.attributes⟩

end Column

section Columns

variable {c : Column} {ts rest : List Token} {d : Nat}

theorem columnList_type {ty : ColumnType} (h : ty.Writes ts) :
    columnList (d + 1) (ts ++ rest) = ts ++ columnList (d + 1) rest := by
  cases h with
  | varchar ht =>
    have ht := inert_of_is (Token.is_of_spells ht (by decide)) (by decide)
    exact (columnList_inert ht).trans
      (congrArg _ (columnList_brackets (List.forall_mem_singleton.2 (inert_number _ _))))
  | _ ht =>
    have ht := inert_of_is (Token.is_of_spells ht (by decide)) (by decide)
    exact columnList_inert ht

theorem readsUpTo_column {name : String} {ty : ColumnType} {us left : List Token}
    {cs : List ColumnAttribute} (hty : ty.Writes us) (h : ReadAs ts cs left) :
    ReadsUpTo left (.word ⟨name, true⟩ :: us ++ ts) (.column ⟨name, ty.dataType, cs⟩) := by
  obtain ⟨vs, h⟩ := h
  refine ⟨.word ⟨name, true⟩ :: us ++ vs, fun d rest hrest => ?_⟩
  obtain ⟨hnormal, hstops, hattributes⟩ := h d rest hrest
  refine ⟨?_, ?_⟩
  · simp only [List.cons_append, List.append_assoc, columnList_inert (inert_quoted _),
      columnList_type hty, hnormal]
  · have hattributes := hattributes
      (vs.length + (columnList (d + 1) (left ++ rest)).length + 1) (by omega)
    generalize columnList (d + 1) (left ++ rest) = ws at hstops hattributes ⊢
    have hcolumn : columnDefinition? (.word ⟨name, true⟩ :: (us ++ (vs ++ ws)))
        = some (⟨name, ty.dataType, cs⟩, ws) := by
      simp [columnDefinition?, name?, Token.name?, dataType?_of_writes hty hstops,
        hstops.passCollation, hattributes]
    simp [tableItem?, keyword?, constraint?, oneKeyword?, hcolumn]

theorem readsItem_column (hw : c.Writes ts) (hc : Attribute.Clear c.attributes) :
    ReadsItem ts (.column c.definition) := by
  obtain ⟨us, vs, hus, hvs, rfl⟩ := hw
  rcases Attribute.readAs_of_writes hvs (fun h => absurd hc h) with ⟨-, hread⟩ | ⟨h, -⟩
  · exact readsUpTo_column hus hread
  · exact absurd hc h

theorem blocksItem_column (hw : c.Writes ts) (hc : ¬ Attribute.Clear c.attributes)
    (hwords : ∀ w, .collate w ∈ c.attributes → (Token.word w).NoAttribute) : BlocksItem ts := by
  obtain ⟨us, vs, hus, hvs, rfl⟩ := hw
  rcases Attribute.readAs_of_writes hvs (fun _ => hwords) with ⟨h, -⟩ | ⟨-, cs, left, hread, hleft⟩
  · exact absurd h hc
  · exact ⟨left, _, readsUpTo_column hus hread, hleft⟩

theorem readsItem_columns {columns : List Column} {tss : List (List Token)}
    (hw : List.Forall₂ Column.Writes columns tss)
    (hc : ∀ c ∈ columns, Attribute.Clear c.attributes) :
    List.Forall₂ ReadsItem tss ((columns.map Column.definition).map TableItem.column) := by
  induction hw with
  | nil => exact .nil
  | cons hw _ ih =>
    rw [List.forall_mem_cons] at hc
    exact .cons (readsItem_column hw hc.1) (ih hc.2)

/-- Where a column is not clear, the columns before the first such one are read and it is not. -/
theorem exists_blocksItem {columns : List Column} {tss : List (List Token)}
    (hw : List.Forall₂ Column.Writes columns tss)
    (hwords : ∀ c ∈ columns, ∀ w, .collate w ∈ c.attributes → (Token.word w).NoAttribute)
    (hc : ∃ c ∈ columns, ¬ Attribute.Clear c.attributes) :
    ∃ tss₁ ts tss₂ items, tss = tss₁ ++ ts :: tss₂ ∧ List.Forall₂ ReadsItem tss₁ items
      ∧ BlocksItem ts := by
  induction hw with
  | nil => simp at hc
  | @cons c ts columns tss hw _ ih =>
    rw [List.forall_mem_cons] at hwords
    by_cases hclear : Attribute.Clear c.attributes
    · have hrest : ∃ c ∈ columns, ¬ Attribute.Clear c.attributes := by simpa [hclear] using hc
      obtain ⟨tss₁, us, tss₂, items, rfl, hitems, hblocks⟩ := ih hwords.2 hrest
      exact ⟨ts :: tss₁, us, tss₂, _, rfl, .cons (readsItem_column hw hclear) hitems, hblocks⟩
    · exact ⟨[], ts, tss, [], rfl, .nil, blocksItem_column hw hclear hwords.1⟩

end Columns

/-! ## Constraints -/

/-- Quoted names with commas between them. -/
def quotedNames (names : List String) : List Token :=
  [Token.comma].intercalate (names.map fun n => [.word ⟨n, true⟩])

/-- Quoted names in brackets. -/
def bracketed (names : List String) : List Token :=
  .leftParen :: quotedNames names ++ [Token.rightParen]

section Constraints

variable {t u : Token} {ts rest : List Token} {n m : String} {names : List String} {d : Nat}

@[simp] theorem quotedNames_singleton : quotedNames [n] = [.word ⟨n, true⟩] :=
  rfl

@[simp] theorem quotedNames_cons_cons :
    quotedNames (n :: m :: names) = .word ⟨n, true⟩ :: .comma :: quotedNames (m :: names) :=
  rfl

theorem inert_quotedNames : ∀ t ∈ quotedNames names, t.Inert := by
  induction names with
  | nil => simp [quotedNames]
  | cons n names ih =>
    cases names with
    | nil => simp [inert_quoted]
    | cons m names =>
      rw [quotedNames_cons_cons, List.forall_mem_cons, List.forall_mem_cons]
      exact ⟨inert_quoted n, inert_comma, ih⟩

theorem namesToParen?_quotedNames (hne : names ≠ []) :
    namesToParen? (quotedNames names ++ .rightParen :: rest) = some (names, rest) := by
  induction names with
  | nil => exact absurd rfl hne
  | cons n names ih =>
    cases names with
    | nil => simp [namesToParen?, Token.name?]
    | cons m names => simp [namesToParen?, Token.name?, ih (List.cons_ne_nil _ _)]

theorem bracketedNames?_bracketed (hne : names ≠ []) :
    bracketedNames? (bracketed names ++ rest) = some (names, rest) := by
  rw [bracketed, List.append_assoc, List.cons_append, List.singleton_append]
  exact namesToParen?_quotedNames hne

theorem columnList_bracketed :
    columnList (d + 1) (bracketed names ++ rest) = bracketed names ++ columnList (d + 1) rest := by
  rw [bracketed, List.append_assoc, List.append_assoc]
  exact columnList_brackets inert_quotedNames

theorem readsItem_primaryKey (ht : t.Is "PRIMARY") (hu : u.Is "KEY") (hne : names ≠ []) :
    ReadsItem (t :: u :: bracketed names) (.constraint (.primaryKey names)) := by
  refine ⟨t :: u :: bracketed names, fun d rest _ => ⟨?_, ?_⟩⟩
  · simp only [List.cons_append, List.nil_append, columnList_inert (inert_of_is ht (by decide)),
      columnList_inert (inert_of_is hu (by decide)), columnList_bracketed]
  · simp [tableItem?, constraint?, keyword?, ht.isKeyword, hu.isKeyword,
      bracketedNames?_bracketed hne]

theorem readsItem_uniqueKey (key : String) (ht : t.Is "UNIQUE") (hu : u.Is "KEY")
    (hne : names ≠ []) :
    ReadsItem (t :: u :: .word ⟨key, true⟩ :: bracketed names) (.constraint (.unique names)) := by
  refine ⟨.ofKeyword "CONSTRAINT" :: .word ⟨key, true⟩ :: .ofKeyword "UNIQUE" :: bracketed names,
    fun d rest _ => ⟨?_, ?_⟩⟩
  · simp only [List.cons_append, List.nil_append]
    rw [columnList_uniqueKey_word ht (isKeyOrIndex_of_is hu) rfl, columnList_bracketed]
  · have hconstraint : (Token.ofKeyword "CONSTRAINT").Is "CONSTRAINT" :=
      Token.is_ofKeyword (by decide)
    have hunique : (Token.ofKeyword "UNIQUE").Is "UNIQUE" := Token.is_ofKeyword (by decide)
    simp [tableItem?, constraint?, keyword?, hconstraint.isKeyword, hunique.isKeyword, name?,
      Token.name?, bracketedNames?_bracketed hne]

theorem readsItem_key (key : String) (ht : t.Is "KEY") (hne : names ≠ []) :
    ReadsItem (t :: .word ⟨key, true⟩ :: bracketed names) (.constraint (.index names)) := by
  refine ⟨t :: .word ⟨key, true⟩ :: bracketed names, fun d rest _ => ⟨?_, ?_⟩⟩
  · simp only [List.cons_append, List.nil_append, columnList_inert (inert_of_is ht (by decide)),
      columnList_inert (inert_quoted key), columnList_bracketed]
  · generalize columnList (d + 1) ([] ++ rest) = rest
    have husing : keyword? "USING" (bracketed names ++ rest) = none := rfl
    have hindex : index? (.word ⟨key, true⟩ :: (bracketed names ++ rest))
        = some (.index names, rest) := by
      have hnot : keyword? "USING" (.word ⟨key, true⟩ :: (bracketed names ++ rest)) = none := rfl
      simp [index?, name?, Token.name?, hnot, husing, bracketedNames?_bracketed hne]
    simp [tableItem?, constraint?, keyword?, oneKeyword?, ht.isKeyword, hindex]

end Constraints

/-! ## The column list -/

theorem filterMap_column? (cs : List ColumnDefinition) (ks : List TableConstraint) :
    (cs.map TableItem.column ++ ks.map TableItem.constraint).filterMap TableItem.column? = cs := by
  have hcolumn : TableItem.column? ∘ TableItem.column = some := rfl
  have hconstraint : TableItem.column? ∘ TableItem.constraint = fun _ => none := rfl
  rw [List.filterMap_append, List.filterMap_map, List.filterMap_map, hcolumn, hconstraint,
    List.filterMap_some, List.filterMap_none, List.append_nil]

theorem filterMap_constraint? (cs : List ColumnDefinition) (ks : List TableConstraint) :
    (cs.map TableItem.column ++ ks.map TableItem.constraint).filterMap TableItem.constraint?
      = ks := by
  have hcolumn : TableItem.constraint? ∘ TableItem.column = fun _ => none := rfl
  have hconstraint : TableItem.constraint? ∘ TableItem.constraint = some := rfl
  rw [List.filterMap_append, List.filterMap_map, List.filterMap_map, hcolumn, hconstraint,
    List.filterMap_some, List.filterMap_none, List.nil_append]

section Items

variable {tss : List (List Token)} {items : List TableItem}

theorem tableItems?_comma {n : Nat} {ts rest : List Token} {item : TableItem}
    (h : tableItem? ts = some (item, .comma :: rest)) (hne : ∀ us, rest ≠ .rightParen :: us) :
    tableItems? (n + 1) ts = (tableItems? n rest).map fun (is, rest) => (item :: is, rest) := by
  rw [tableItems?, h]
  split
  · rename_i hrest
    cases hrest
    exact absurd rfl (hne _)
  · rename_i hrest
    cases hrest
  · rename_i hrest
    cases hrest
    rfl
  · rename_i hrest
    exact absurd rfl (hrest _ _)

theorem tableItems?_of_blocked {n : Nat} {ts rest : List Token} {t : Token} {item : TableItem}
    (h : tableItem? ts = some (item, t :: rest)) (hcomma : t ≠ .comma) (hparen : t ≠ .rightParen) :
    tableItems? n ts = none := by
  cases n with
  | zero => rfl
  | succ n =>
    rw [tableItems?, h]
    split
    · rename_i hrest
      cases hrest
      exact absurd rfl hcomma
    · rename_i hrest
      cases hrest
      exact absurd rfl hparen
    · rename_i hrest
      cases hrest
      exact absurd rfl hcomma
    · rfl

theorem ne_rightParen_of_tableItems? {n : Nat} {ts : List Token}
    (h : tableItems? n ts = some (items, [])) (us : List Token) : ts ≠ .rightParen :: us := by
  rintro rfl
  cases n <;> cases h

theorem ne_rightParen_of_tableItem? {ts rest : List Token} {item : TableItem}
    (h : tableItem? ts = some (item, rest)) (us : List Token) : ts ≠ .rightParen :: us := by
  rintro rfl
  cases h

/-- Items with commas between them, and the bracket that closes the list. -/
def closedList (tss : List (List Token)) (tail : List Token) : List Token :=
  [Token.comma].intercalate tss ++ .rightParen :: tail

theorem closedList_singleton (ts tail : List Token) :
    closedList [ts] tail = ts ++ .rightParen :: tail := by
  rw [closedList, List.intercalate_singleton]

theorem closedList_cons (ts tail : List Token) (hne : tss ≠ []) :
    closedList (ts :: tss) tail = ts ++ .comma :: closedList tss tail := by
  rw [closedList, List.intercalate_cons_of_ne_nil hne, List.append_assoc, List.append_assoc]
  rfl

theorem exists_ends (ts : List Token) (tss : List (List Token)) (tail : List Token) :
    ∃ rest, Ends rest ∧ closedList (ts :: tss) tail = ts ++ rest := by
  by_cases hne : tss = []
  · subst hne
    exact ⟨_, ends_rightParen tail, closedList_singleton ts tail⟩
  · exact ⟨_, ends_comma _, closedList_cons ts tail hne⟩

/-- The column list that items make is read as certain items, or as none at all. -/
def ListsAs (tss : List (List Token)) (items : Option (List TableItem)) : Prop :=
  ∀ tail, columnList? (.leftParen :: columnList 1 (closedList tss tail))
    = items.map fun items => (items, [])

theorem columnList?_of_tableItems? {ts : List Token} {r : Option (List TableItem × List Token)}
    (hne : ∀ us, ts ≠ .rightParen :: us) (h : tableItems? (ts.length + 1) ts = r) :
    columnList? (.leftParen :: ts) = r := by
  unfold columnList?
  split
  · rename_i hts
    cases hts
    exact absurd rfl (hne _)
  · rename_i hts
    cases hts
    exact h
  · rename_i hts
    exact absurd rfl (hts _)

theorem exists_normal (h : List.Forall₂ ReadsItem tss items) (hne : tss ≠ [])
    (tail : List Token) :
    ∃ us, columnList 1 (closedList tss tail) = us ++ [Token.rightParen]
      ∧ ∀ n, us.length < n → tableItems? n (us ++ [Token.rightParen]) = some (items, []) := by
  -- The bound on the number of items is enough since a comma stands between any two.
  induction h with
  | nil => exact absurd rfl hne
  | @cons ts item tss items hts htss ih =>
    obtain ⟨us, hts⟩ := hts
    by_cases hlast : tss = []
    · subst hlast
      cases htss
      obtain ⟨hnormal, hread⟩ := hts 0 _ (ends_rightParen tail)
      rw [List.nil_append, columnList_last] at hnormal hread
      refine ⟨us, ?_, fun n hn => ?_⟩
      · rw [closedList_singleton, hnormal]
      · obtain ⟨n, rfl⟩ : ∃ k, n = k + 1 := ⟨n - 1, by omega⟩
        simp [tableItems?, hread]
    · obtain ⟨vs, hnormal', hread'⟩ := ih hlast
      obtain ⟨hnormal, hread⟩ := hts 0 _ (ends_comma (closedList tss tail))
      rw [List.nil_append, columnList_inert inert_comma, hnormal'] at hnormal hread
      refine ⟨us ++ .comma :: vs, ?_, fun n hn => ?_⟩
      · rw [closedList_cons ts tail hlast, hnormal, List.append_assoc, List.cons_append]
      · rw [List.length_append, List.length_cons] at hn
        obtain ⟨n, rfl⟩ : ∃ k, n = k + 1 := ⟨n - 1, by omega⟩
        have hrest := hread' n (by omega)
        rw [List.append_assoc, List.cons_append, tableItems?_comma hread
          (ne_rightParen_of_tableItems? hrest), hrest, Option.map_some]

theorem listsAs_of_reads (h : List.Forall₂ ReadsItem tss items) (hne : tss ≠ []) :
    ListsAs tss (some items) := by
  intro tail
  obtain ⟨us, hnormal, hread⟩ := exists_normal h hne tail
  have hread := hread ((us ++ [Token.rightParen]).length + 1) (by rw [List.length_append]; omega)
  rw [hnormal]
  exact columnList?_of_tableItems? (ne_rightParen_of_tableItems? hread) hread

/-- Items are read up to the first one that cannot be. -/
theorem tableItems?_blocked {ts : List Token} (h : List.Forall₂ ReadsItem tss items)
    (hts : BlocksItem ts) (tss' : List (List Token)) (tail : List Token) :
    (∃ r, tableItem? (columnList 1 (closedList (tss ++ ts :: tss') tail)) = some r)
      ∧ ∀ n, tableItems? n (columnList 1 (closedList (tss ++ ts :: tss') tail)) = none := by
  induction h with
  | nil =>
    obtain ⟨left, item, ⟨us, hts⟩, t, vs, rfl, hinert, -, hcomma⟩ := hts
    obtain ⟨rest, hrest, htail⟩ := exists_ends ts tss' tail
    obtain ⟨hnormal, hread⟩ := hts 0 rest hrest
    have hleft : columnList 1 (t :: vs ++ rest) = t :: columnList 1 (vs ++ rest) :=
      columnList_inert hinert
    rw [hleft] at hread hnormal
    rw [List.nil_append, htail, hnormal]
    exact ⟨⟨_, hread⟩, fun n => tableItems?_of_blocked hread hcomma hinert.closing⟩
  | @cons us item tss items hus htss ih =>
    obtain ⟨⟨r, hr⟩, hnone⟩ := ih
    obtain ⟨vs, hus⟩ := hus
    obtain ⟨hnormal, hread⟩ := hus 0 _ (ends_comma (closedList (tss ++ ts :: tss') tail))
    rw [List.nil_append, columnList_inert inert_comma] at hnormal hread
    rw [List.cons_append, closedList_cons us tail (by simp), hnormal]
    refine ⟨⟨_, hread⟩, fun n => ?_⟩
    cases n with
    | zero => rfl
    | succ n =>
      -- Another item follows the comma, so it is not the one that may end the list.
      rw [tableItems?_comma hread (ne_rightParen_of_tableItem? hr), hnone, Option.map_none]

theorem listsAs_of_blocked {ts : List Token} {tss' : List (List Token)}
    (h : List.Forall₂ ReadsItem tss items) (hts : BlocksItem ts) :
    ListsAs (tss ++ ts :: tss') none := by
  intro tail
  obtain ⟨⟨r, hr⟩, hnone⟩ := tableItems?_blocked h hts tss' tail
  exact columnList?_of_tableItems? (ne_rightParen_of_tableItem? hr) (hnone _)

end Items

/-! ## The definition -/

/-- The keywords that open the definition of a table. -/
def openings : List (List String) :=
  [["CREATE", "TABLE"], ["CREATE", "TABLE", "IF", "NOT", "EXISTS"],
    ["CREATE", "TEMPORARY", "TABLE"], ["CREATE", "TEMPORARY", "TABLE", "IF", "NOT", "EXISTS"]]

/-- The tokens of a dotted name. -/
inductive Names : List Token → List String → Prop
  | last {t : Token} {n : String} : t.name? = some n → Names [t] [n]
  | cons {t : Token} {n : String} {ts : List Token} {ns : List String} :
      t.name? = some n → Names ts ns → Names (t :: .period :: ts) (n :: ns)

/-- Tokens open the definition of a table of a certain name, list items, and go on somehow. -/
def Defines (ts : List Token) (name : List String) (tss : List (List Token)) : Prop :=
  ∃ opening dotted tail, (∃ ks ∈ openings, Spelled ks opening) ∧ Names dotted name
    ∧ ts = opening ++ dotted ++ .leftParen :: [Token.comma].intercalate tss ++ .rightParen :: tail

section Definition

variable {ts us rest : List Token} {name : List String} {items : Option (List TableItem)}

/-- The definition of a table with certain items. -/
def ofItems (name : List String) (items : List TableItem) : TableDefinition :=
  ⟨name, items.filterMap TableItem.column?, items.filterMap TableItem.constraint?⟩

theorem ofItems_append (cs : List ColumnDefinition) (ks : List TableConstraint) :
    ofItems name (cs.map TableItem.column ++ ks.map TableItem.constraint) = ⟨name, cs, ks⟩ := by
  rw [ofItems, filterMap_column?, filterMap_constraint?]

theorem Names.exists_cons (h : Names ts name) (rest : List Token) :
    ∃ t u us, ts ++ .leftParen :: rest = t :: u :: us ∧ (u = .period ∨ u = .leftParen) := by
  cases h with
  | last ht => exact ⟨_, _, _, rfl, .inr rfl⟩
  | cons ht h => exact ⟨_, _, _, rfl, .inl rfl⟩

/-- A dotted name holds nothing but names and periods. -/
theorem Names.ne_of_name? (h : Names ts name) {u : Token} (hu : u.name? = none)
    (hperiod : u ≠ .period) : ∀ t ∈ ts, t ≠ u := by
  have hname : ∀ {t : Token} {n : String}, t.name? = some n → t ≠ u := by
    rintro t n ht rfl
    rw [hu] at ht
    cases ht
  induction h with
  | last ht => exact List.forall_mem_singleton.2 (hname ht)
  | cons ht _ ih =>
    rw [List.forall_mem_cons, List.forall_mem_cons]
    exact ⟨hname ht, hperiod.symm, ih⟩

/-- A dotted name ends where no period follows. -/
theorem dottedName?_names (h : Names ts name) (hrest : rest.head? ≠ some .period) :
    dottedName? (ts ++ rest) = some (name, rest) := by
  induction h with
  | last ht =>
    rcases rest with _ | ⟨u, rest⟩
    · simp [dottedName?, ht]
    · have hu : u ≠ .period := by simpa using hrest
      simp [dottedName?, ht, hu]
  | cons ht _ ih => simp [dottedName?, ht, ih]

/-- A name is not taken for a condition. -/
theorem passKeywords_names (h : Names ts name) :
    passKeywords ["IF", "NOT", "EXISTS"] (ts ++ .leftParen :: rest) = ts ++ .leftParen :: rest := by
  obtain ⟨t, u, us, hts, hu⟩ := h.exists_cons rest
  have hnot : u.isKeyword "NOT" = false := by rcases hu with rfl | rfl <;> rfl
  rw [hts]
  cases hif : t.isKeyword "IF" <;> simp [passKeywords, keywords?, keyword?, hif, hnot]

theorem tableDefinition?_names (hts : passKeywords ["IF", "NOT", "EXISTS"] us
      = ts ++ .leftParen :: rest) (h : Names ts name)
    (hread : columnList? (.leftParen :: rest) = items.map fun items => (items, [])) :
    tableDefinition? us = items.map fun items => (ofItems name items, []) := by
  rw [tableDefinition?, hts, dottedName?_names h (by simp)]
  show (columnList? (.leftParen :: rest)).bind _ = _
  rw [hread]
  cases items <;> rfl

theorem keyword?_of_is {t : Token} {k j : String} (ht : t.Is k) :
    keyword? j (t :: us) = if k = j then some us else none := by
  simp [keyword?, ht.isKeyword]

theorem creation?_table {t : Token} (hor : keywords? ["OR", "REPLACE"] ts = none)
    (hts : passOneKeyword ["TEMP", "TEMPORARY"] (passKeywords ["TRANSIENT"]
      (passKeywords ["GLOBAL"] (passKeywords ["LOCAL"] ts))) = t :: us) (ht : t.Is "TABLE") :
    creation? ts = (tableDefinition? us).map fun (d, rest) => (.createTable d, rest) := by
  unfold creation?
  extract_lets replaced rest₁ rest₂ rest₃
  have hrest : rest₃ = t :: us := by
    simp only [rest₃, rest₂, rest₁, replaced, hor, Option.getD_none, hts]
  rw [hrest, keyword?_of_is ht, if_pos rfl]

theorem creation?_plain {t : Token} (ht : t.Is "TABLE") :
    creation? (t :: us) = (tableDefinition? us).map fun (d, rest) => (.createTable d, rest) := by
  refine creation?_table ?_ ?_ ht
  · simp [keywords?, keyword?_of_is ht]
  · simp [passOneKeyword, oneKeyword?, passKeywords, keywords?, keyword?_of_is ht]

theorem creation?_temporary {t u : Token} (ht : t.Is "TEMPORARY") (hu : u.Is "TABLE") :
    creation? (t :: u :: us) =
      (tableDefinition? us).map fun (d, rest) => (.createTable d, rest) := by
  refine creation?_table ?_ ?_ hu
  · simp [keywords?, keyword?_of_is ht]
  · simp [passOneKeyword, oneKeyword?, passKeywords, keywords?, keyword?_of_is ht]

theorem passKeywords_condition {t u v : Token} (ht : t.Is "IF") (hu : u.Is "NOT")
    (hv : v.Is "EXISTS") : passKeywords ["IF", "NOT", "EXISTS"] (t :: u :: v :: us) = us := by
  simp [passKeywords, keywords?, keyword?_of_is ht, keyword?_of_is hu, keyword?_of_is hv]

theorem statement?_opening {ks : List String} (hks : ks ∈ openings) (hopening : Spelled ks us)
    (h : Names ts name)
    (hread : columnList? (.leftParen :: rest) = items.map fun items => (items, [])) :
    statement? (us ++ (ts ++ .leftParen :: rest))
      = items.map fun items => (.createTable (ofItems name items), []) := by
  have hdefinition : ∀ {vs : List Token},
      passKeywords ["IF", "NOT", "EXISTS"] vs = ts ++ .leftParen :: rest →
        (tableDefinition? vs).map (fun (d, rest) => (Statement.createTable d, rest))
          = items.map fun items => (.createTable (ofItems name items), []) := by
    intro vs hvs
    rw [tableDefinition?_names hvs h hread]
    cases items <;> rfl
  have hplain := hdefinition (passKeywords_names h)
  have hcondition := fun {t u v : Token} (ht : t.spells "IF") (hu : u.spells "NOT")
    (hv : v.spells "EXISTS") => hdefinition (passKeywords_condition
      (Token.is_of_spells ht (by decide)) (Token.is_of_spells hu (by decide))
      (Token.is_of_spells hv (by decide)))
  have hcreate : ∀ {t : Token} {vs : List Token}, t.spells "CREATE" →
      statement? (t :: vs) = creation? vs := fun ht => by
    rw [statement?, keyword?_of_is (Token.is_of_spells ht (by decide)), if_pos rfl]
  have htable : ∀ {t : Token} {vs : List Token}, t.spells "TABLE" → creation? (t :: vs) = _ :=
    fun ht => creation?_plain (Token.is_of_spells ht (by decide))
  have htemporary : ∀ {t u : Token} {vs : List Token}, t.spells "TEMPORARY" → u.spells "TABLE" →
      creation? (t :: u :: vs) = _ := fun ht hu =>
    creation?_temporary (Token.is_of_spells ht (by decide)) (Token.is_of_spells hu (by decide))
  simp only [openings, List.mem_cons, List.not_mem_nil, or_false] at hks
  rcases hks with rfl | rfl | rfl | rfl
  · rcases hopening with _ | ⟨h1, _ | ⟨h2, _ | _⟩⟩
    exact (hcreate h1).trans ((htable h2).trans hplain)
  · rcases hopening with _ | ⟨h1, _ | ⟨h2, _ | ⟨h3, _ | ⟨h4, _ | ⟨h5, _ | _⟩⟩⟩⟩⟩
    exact (hcreate h1).trans ((htable h2).trans (hcondition h3 h4 h5))
  · rcases hopening with _ | ⟨h1, _ | ⟨h2, _ | ⟨h3, _ | _⟩⟩⟩
    exact (hcreate h1).trans ((htemporary h2 h3).trans hplain)
  · rcases hopening with _ | ⟨h1, _ | ⟨h2, _ | ⟨h3, _ | ⟨h4, _ | ⟨h5, _ | ⟨h6, _ | _⟩⟩⟩⟩⟩⟩
    exact (hcreate h1).trans ((htemporary h2 h3).trans (hcondition h4 h5 h6))

theorem Spelled.ne_leftParen {ks : List String} (h : Spelled ks us) : ∀ t ∈ us, t ≠ .leftParen := by
  induction h with
  | nil => simp
  | cons ht _ ih =>
    refine List.forall_mem_cons.2 ⟨?_, ih⟩
    rintro rfl
    cases ht

theorem exists_cons_of_opening {ks : List String} (hks : ks ∈ openings) (h : Spelled ks us) :
    ∃ t vs, us = t :: vs ∧ t.spells "CREATE" := by
  simp only [openings, List.mem_cons, List.not_mem_nil, or_false] at hks
  rcases hks with rfl | rfl | rfl | rfl <;>
  · rcases h with _ | ⟨ht, -⟩
    exact ⟨_, _, rfl, ht⟩

theorem statements?_single {t : Token} {s : Option Statement} (ht : t ≠ .semicolon)
    (h : statement? (t :: ts) = s.map fun s => (s, [])) :
    statements? (t :: ts).length (t :: ts) = s.map fun s => [s] := by
  rw [List.length_cons, statements?, h]
  · cases s <;> rfl
  · exact List.cons_ne_nil _ _
  · rintro us ⟨rfl, rfl⟩
    exact ht rfl

/-- The definition of a table makes one change, which creates the table, or it is an error, as its
column list is read. -/
theorem readChanges_of_listsAs {text : String} {tss : List (List Token)}
    (hlex : Lexes text.toList ts) (hts : Defines ts name tss) (hread : ListsAs tss items)
    (catalog schema : Option String) :
    readChanges text catalog schema = items.elim (.error .grammar)
      fun items => .ok [(ofItems name items).change catalog schema] := by
  obtain ⟨all, hscan, hall⟩ := Option.map_eq_some_iff.1 hlex
  obtain ⟨opening, dotted, tail, ⟨keys, hkeys, hopening⟩, hdotted, rfl⟩ := hts
  have hnormalize : normalize all
      = opening ++ (dotted ++ .leftParen :: columnList 1 (closedList tss tail)) := by
    have hbefore : ∀ t ∈ opening ++ dotted, t ≠ .leftParen := by
      rw [List.forall_mem_append]
      exact ⟨hopening.ne_leftParen, hdotted.ne_of_name? rfl (by simp)⟩
    rw [normalize, hall, List.append_assoc, List.cons_append, ← closedList,
      columnList_before hbefore, List.append_assoc]
  have hstatement := statement?_opening hkeys hopening hdotted (hread tail)
  obtain ⟨t, vs, rfl, ht⟩ := exists_cons_of_opening hkeys hopening
  have ht : t ≠ .semicolon := by
    rintro rfl
    cases ht
  have hstatements : statements? (normalize all).length (normalize all)
      = items.map fun items => [.createTable (ofItems name items)] := by
    rw [hnormalize]
    refine (statements?_single ht (s := items.map fun items => .createTable (ofItems name items))
      (hstatement.trans ?_)).trans ?_ <;> cases items <;> rfl
  rw [readChanges, Token.scan, hscan]
  simp only [hstatements]
  cases items <;> rfl

/-- The definition of a table makes one change, which creates the table with the columns and
constraints listed. -/
theorem readChanges_of_items {text : String} {tss : List (List Token)}
    {cs : List ColumnDefinition} {ks : List TableConstraint} (hlex : Lexes text.toList ts)
    (hts : Defines ts name tss) (hne : tss ≠ [])
    (hitems : List.Forall₂ ReadsItem tss
      (cs.map TableItem.column ++ ks.map TableItem.constraint))
    (catalog schema : Option String) :
    readChanges text catalog schema
      = .ok [TableDefinition.change catalog schema ⟨name, cs, ks⟩] := by
  rw [readChanges_of_listsAs hlex hts (listsAs_of_reads hitems hne), Option.elim_some,
    ofItems_append]

/-- The definition of a table is an error where an item cannot be read to its end. -/
theorem readChanges_of_blocked {text : String} {tss₁ tss₂ : List (List Token)}
    {items : List TableItem} (hlex : Lexes text.toList ts)
    (hts : Defines ts name (tss₁ ++ us :: tss₂)) (hitems : List.Forall₂ ReadsItem tss₁ items)
    (hblocks : BlocksItem us) (catalog schema : Option String) :
    readChanges text catalog schema = .error .grammar := by
  rw [readChanges_of_listsAs hlex hts (listsAs_of_blocked hitems hblocks), Option.elim_none]

end Definition

end TableCapture.Sql
