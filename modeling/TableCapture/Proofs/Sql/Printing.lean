import TableCapture.Proofs.Decimal
import TableCapture.Proofs.Sql.Table

/-!
# Definitions as they are printed

Every part of a definition has a printed form: a name in backticks, a type in small letters,
attributes in capitals with a blank before each. A printed part gives the tokens that write it
wherever it stands in a text, so a printed line is read as its item (`prints_column`,
`prints_primaryKey`, `prints_key`), and a text of such lines makes the change that the items make
(`readChanges_of_lines`), whatever the names in it and whatever stands after the lines.
-/

namespace TableCapture.Sql

/-- A name in backticks. -/
def quotedName (name : String) : String :=
  String.ofList (Backtick.quote name.toList)

/-- Names in backticks with commas between them, in brackets. -/
def printedNames (names : List String) : String :=
  "(" ++ ",".intercalate (names.map quotedName) ++ ")"

def ColumnType.print : ColumnType → String
  | int => "int"
  | bigint => "bigint"
  | text => "text"
  | varchar length => "varchar(" ++ toString length ++ ")"

namespace Attribute

def print : Attribute → String
  | notNull => "NOT NULL"
  | defaultNull => "DEFAULT NULL"
  | defaultText value => "DEFAULT '" ++ value ++ "'"
  | unique => "UNIQUE"
  | uniqueKey => "UNIQUE KEY"
  | primaryKey => "PRIMARY KEY"
  | autoIncrement => "AUTO_INCREMENT"
  | comment text => "COMMENT '" ++ text ++ "'"
  | characterSet name => "CHARACTER SET " ++ name.value
  | collate name => "COLLATE " ++ name.value

/-- The literals and words of an attribute are printed as they are. -/
def Plain : Attribute → Prop
  | defaultText s | comment s => IsLiteral s
  | characterSet w | collate w => w.quoted = false ∧ IsPlainWord w.value
  | _ => True

end Attribute

def Column.print (c : Column) : String :=
  quotedName c.name ++ " " ++ c.type.print ++ String.join (c.attributes.map fun a => " " ++ a.print)

/-- A line is printed for an item of a column list. -/
def Prints (line : String) (item : TableItem) : Prop :=
  ∃ ts, ReadsItem ts item ∧ Spaced ("\n  " ++ line).toList ts

/-- The text that defines a table by lines for its items. -/
def tableText (name : String) (lines : List String) : String :=
  "CREATE TABLE " ++ quotedName name ++ " (" ++ ",".intercalate (lines.map ("\n  " ++ ·)) ++ "\n)"

/-! ## Words and names -/

section Words

variable {b : Char} {us : List Token} {names : List String}

theorem spaced_keyword (k : String) (hk : IsPlainWord k) :
    Spaced (' ' :: k.toList) [.ofKeyword k] :=
  spaced_lexeme .space (lexeme_word hk)

theorem spaced_name (hb : Break b us) (name : String) :
    Spaced (b :: (quotedName name).toList) (us ++ [.word ⟨name, true⟩]) := by
  rw [quotedName, String.toList_ofList]
  exact spaced_lexeme hb (lexeme_quoted name)

theorem spaced_names (hb : Break b us) (hne : names ≠ []) :
    Spaced (b :: (",".intercalate (names.map quotedName)).toList) (us ++ quotedNames names) := by
  rw [String.toList_intercalate]
  induction names generalizing b us with
  | nil => exact absurd rfl hne
  | cons n names ih =>
    cases names with
    | nil => simpa using spaced_name hb n
    | cons m names =>
      have h := (spaced_name hb n).append (ih .comma (List.cons_ne_nil _ _))
      rw [List.append_assoc] at h
      simp only [List.map_cons, List.intercalate_cons_cons] at h ⊢
      simpa using h

theorem spaced_bracketed (hne : names ≠ []) :
    Spaced (' ' :: (printedNames names).toList) (bracketed names) := by
  have h := ((spaced_break .space).append (spaced_names .opening hne)).append
    (spaced_break .closing)
  unfold printedNames bracketed
  simpa using h

end Words

/-! ## Columns -/

section Columns

variable {c : Column} {as : List Attribute}

theorem exists_writes_type (ty : ColumnType) :
    ∃ ts, ty.Writes ts ∧ Spaced (' ' :: ty.print.toList) ts := by
  cases ty with
  | int => exact ⟨_, .int rfl, spaced_keyword "int" (by decide)⟩
  | bigint => exact ⟨_, .bigint rfl, spaced_keyword "bigint" (by decide)⟩
  | text => exact ⟨_, .text rfl, spaced_keyword "text" (by decide)⟩
  | varchar length =>
    have hdigits : Decimal.uint64? (String.ofList (Nat.toDigits 10 length.toNat)).toList
        = some length.toNat := by
      rw [String.toList_ofList, Decimal.uint64?_toDigits]
    have h := (spaced_keyword "varchar" (by decide)).append
      ((spaced_lexeme .opening (lexeme_number length.toNat)).append (spaced_break .closing))
    refine ⟨[.ofKeyword "varchar", .leftParen, .number _ false, .rightParen],
      .varchar rfl hdigits, ?_⟩
    have hprint : toString length = String.ofList (Nat.toDigits 10 length.toNat) :=
      Nat.toString_eq_ofList_toDigits
    show Spaced (' ' :: ("varchar(" ++ toString length ++ ")").toList) _
    simpa [hprint] using h

theorem exists_writes_attribute {a : Attribute} (ha : a.Plain) :
    ∃ ts, a.Writes ts ∧ Spaced (' ' :: a.print.toList) ts := by
  have hword := spaced_keyword
  cases a with
  | notNull =>
    exact ⟨_, .notNull rfl rfl, (hword "NOT" (by decide)).append (hword "NULL" (by decide))⟩
  | defaultNull =>
    exact ⟨_, .defaultNull rfl rfl, (hword "DEFAULT" (by decide)).append (hword "NULL" (by decide))⟩
  | defaultText s =>
    refine ⟨[.ofKeyword "DEFAULT", .text .single s], .defaultText rfl, ?_⟩
    show Spaced (' ' :: ("DEFAULT '" ++ s ++ "'").toList) _
    simpa using (hword "DEFAULT" (by decide)).append (spaced_lexeme .space (lexeme_text ha))
  | unique => exact ⟨_, .unique rfl, hword "UNIQUE" (by decide)⟩
  | uniqueKey =>
    exact ⟨_, .uniqueKey rfl rfl, (hword "UNIQUE" (by decide)).append (hword "KEY" (by decide))⟩
  | primaryKey =>
    exact ⟨_, .primaryKey rfl rfl, (hword "PRIMARY" (by decide)).append (hword "KEY" (by decide))⟩
  | autoIncrement => exact ⟨_, .autoIncrement rfl, hword "AUTO_INCREMENT" (by decide)⟩
  | comment s =>
    refine ⟨[.ofKeyword "COMMENT", .text .single s], .comment rfl, ?_⟩
    show Spaced (' ' :: ("COMMENT '" ++ s ++ "'").toList) _
    simpa using (hword "COMMENT" (by decide)).append (spaced_lexeme .space (lexeme_text ha))
  | characterSet w =>
    obtain ⟨value, quoted⟩ := w
    obtain ⟨rfl, hvalue⟩ := ha
    refine ⟨[.ofKeyword "CHARACTER", .ofKeyword "SET", .ofKeyword value],
      .characterSet rfl rfl, ?_⟩
    show Spaced (' ' :: ("CHARACTER SET " ++ value).toList) _
    simpa using (hword "CHARACTER" (by decide)).append
      ((hword "SET" (by decide)).append (hword value hvalue))
  | collate w =>
    obtain ⟨value, quoted⟩ := w
    obtain ⟨rfl, hvalue⟩ := ha
    refine ⟨[.ofKeyword "COLLATE", .ofKeyword value], .collate rfl, ?_⟩
    show Spaced (' ' :: ("COLLATE " ++ value).toList) _
    simpa using (hword "COLLATE" (by decide)).append (hword value hvalue)

theorem exists_writesAll (h : ∀ a ∈ as, a.Plain) :
    ∃ ts, Attribute.WritesAll as ts
      ∧ Spaced (String.join (as.map fun a => " " ++ a.print)).toList ts := by
  induction as with
  | nil => exact ⟨[], .nil, spaced_nil⟩
  | cons a as ih =>
    rw [List.forall_mem_cons] at h
    obtain ⟨ts, hts, hprint⟩ := exists_writes_attribute h.1
    obtain ⟨us, hus, hjoin⟩ := ih h.2
    refine ⟨ts ++ us, .cons hts hus, ?_⟩
    simpa [String.toList_join] using hprint.append hjoin

theorem prints_column (h : ∀ a ∈ c.attributes, a.Plain) (hc : Attribute.Clear c.attributes) :
    Prints c.print (.column c.definition) := by
  obtain ⟨us, hus, htype⟩ := exists_writes_type c.type
  obtain ⟨vs, hvs, hattributes⟩ := exists_writesAll h
  refine ⟨_, readsItem_column ⟨us, vs, hus, hvs, rfl⟩ hc, ?_⟩
  have hname := (spaced_break .space).append (spaced_name .space c.name)
  have hline := (spaced_break .line).append hname
  unfold Column.print
  simpa using (hline.append htype).append hattributes

end Columns

/-! ## Constraints -/

section Constraints

variable {names : List String}

theorem prints_primaryKey (hne : names ≠ []) :
    Prints ("PRIMARY KEY " ++ printedNames names) (.constraint (.primaryKey names)) := by
  refine ⟨_, readsItem_primaryKey (Token.is_ofKeyword (by decide))
    (Token.is_ofKeyword (by decide)) hne, ?_⟩
  have hwords := (spaced_keyword "PRIMARY" (by decide)).append (spaced_keyword "KEY" (by decide))
  have hline := ((spaced_break .line).append (spaced_break .space)).append hwords
  simpa using hline.append (spaced_bracketed hne)

theorem prints_uniqueKey (name : String) (hne : names ≠ []) :
    Prints ("UNIQUE KEY " ++ quotedName name ++ " " ++ printedNames names)
      (.constraint (.unique names)) := by
  refine ⟨_, readsItem_uniqueKey name (Token.is_ofKeyword (by decide))
    (Token.is_ofKeyword (by decide)) hne, ?_⟩
  have hwords := (spaced_keyword "UNIQUE" (by decide)).append (spaced_keyword "KEY" (by decide))
  have hline := ((spaced_break .line).append (spaced_break .space)).append hwords
  simpa using (hline.append (spaced_name .space name)).append (spaced_bracketed hne)

theorem prints_key (name : String) (hne : names ≠ []) :
    Prints ("KEY " ++ quotedName name ++ " " ++ printedNames names)
      (.constraint (.index names)) := by
  refine ⟨_, readsItem_key name (Token.is_ofKeyword (by decide)) hne, ?_⟩
  have hline := ((spaced_break .line).append (spaced_break .space)).append
    (spaced_keyword "KEY" (by decide))
  simpa using (hline.append (spaced_name .space name)).append (spaced_bracketed hne)

end Constraints

/-! ## The text -/

section Text

variable {lines : List String} {items : List TableItem}

theorem exists_reads_lines (h : List.Forall₂ Prints lines items) :
    ∃ tss, List.Forall₂ ReadsItem tss items
      ∧ List.Forall₂ Spaced (lines.map fun line => ("\n  " ++ line).toList) tss := by
  induction h with
  | nil => exact ⟨[], .nil, .nil⟩
  | cons hline _ ih =>
    obtain ⟨ts, hts, hspaced⟩ := hline
    obtain ⟨tss, htss, hlines⟩ := ih
    exact ⟨ts :: tss, .cons hts htss, .cons hspaced hlines⟩

theorem toList_tableText (name options : String) (lines : List String) :
    (tableText name lines ++ options).toList = "CREATE".toList ++ (' ' :: "TABLE".toList ++
      ' ' :: (quotedName name).toList ++ ([' '] ++ ['(']) ++
        [','].intercalate (lines.map fun line => ("\n  " ++ line).toList) ++ ['\n'] ++
          ')' :: options.toList) := by
  have hcreate : "CREATE TABLE ".toList = "CREATE".toList ++ ' ' :: "TABLE".toList ++ [' '] := rfl
  have hcomma : ",".toList = [','] := rfl
  have hopening : " (".toList = [' ', '('] := rfl
  have hclosing : "\n)".toList = ['\n', ')'] := rfl
  unfold tableText
  simp only [String.toList_append, String.toList_intercalate, hcreate, hcomma, hopening,
    hclosing, List.map_map, Function.comp_def, List.append_assoc, List.cons_append,
    List.nil_append]

/-- A text of printed lines makes the change that their items make. -/
theorem readChanges_of_lines {name options : String} {cs : List ColumnDefinition}
    {ks : List TableConstraint} (hne : lines ≠ [])
    (hlines : List.Forall₂ Prints lines
      (cs.map TableItem.column ++ ks.map TableItem.constraint))
    (hoptions : (Token.scan options).isSome) (catalog schema : Option String) :
    readChanges (tableText name lines ++ options) catalog schema
      = .ok [TableDefinition.change catalog schema ⟨[name], cs, ks⟩] := by
  obtain ⟨tss, hitems, hspaced⟩ := exists_reads_lines hlines
  obtain ⟨all, hall⟩ := Option.isSome_iff_exists.1 hoptions
  have htss : tss ≠ [] := by
    rintro rfl
    exact hne (List.map_eq_nil_iff.1 (List.forall₂_nil_right_iff.1 hspaced))
  have hlex : Lexes (tableText name lines ++ options).toList
      ([.ofKeyword "CREATE", .ofKeyword "TABLE"] ++ [.word ⟨name, true⟩] ++ .leftParen ::
        [Token.comma].intercalate tss ++ .rightParen :: all.filter (· ≠ .blank)) := by
    have htail : Lexes (')' :: options.toList) (.rightParen :: all.filter (· ≠ .blank)) :=
      Lexes.break .closing (lexes_iff.2 ⟨all, hall, rfl⟩)
    have hhead := ((spaced_keyword "TABLE" (by decide)).append (spaced_name .space name)).append
      ((spaced_break .space).append (spaced_break .opening))
    have hbody := (hhead.append (spaced_intercalate .comma hspaced)).append (spaced_break .line)
    obtain ⟨hbreaks, hrest⟩ := hbody _ _ ⟨_, _, _, .closing, rfl⟩ htail
    have hcreate : Lexeme "CREATE".toList (.ofKeyword "CREATE") := lexeme_word (by decide)
    rw [toList_tableText]
    simpa using hrest.lexeme hcreate hbreaks
  have hopening : Spelled ["CREATE", "TABLE"] [.ofKeyword "CREATE", .ofKeyword "TABLE"] :=
    .cons rfl (.cons rfl .nil)
  exact readChanges_of_items hlex ⟨_, _, _, ⟨_, by decide, hopening⟩, .last rfl, rfl⟩ htss hitems
    catalog schema

end Text

end TableCapture.Sql
