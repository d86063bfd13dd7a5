import TableCapture.Proofs.Sql.Printing

/-!
# Names in the statement that is run

The statement that asks for a table holds its names in backticks, and a name can hold any
characters. However they are chosen, the text is cut into one word for each name with periods
between the words (`Sql.Scans.quotedNames`), for a backtick inside a name is doubled, and the first
one that is not doubled has a period or the end of the text after it. So the statement asks for this
table and does nothing else, and the quoted form tells which names it was made of
(`quoting_keeps_names`).
-/

namespace TableCapture

namespace Sql

/-- Words in backticks with periods between them. -/
def dottedWords (names : List String) : List Token :=
  (names.map fun n => .word ⟨n, true⟩).intersperse .period

/-- The tokens that ask how a table was created, by what stands for its name. -/
def showing (name : List Token) : List Token :=
  .ofKeyword "SHOW" :: .ofKeyword "CREATE" :: .ofKeyword "TABLE" :: name

/-- Tokens are one statement, and it asks how the table of a certain name was created. -/
def AsksFor (ts : List Token) (name : List String) : Prop :=
  statements? ts.length ts = some [.other]
    ∧ ∃ us, ts = showing us ∧ dottedName? us = some (name, [])

section Names

variable {names : List String} {rest : List Char} {ts : List Token}

@[simp] theorem dottedWords_singleton (n : String) : dottedWords [n] = [.word ⟨n, true⟩] :=
  rfl

@[simp] theorem dottedWords_cons_cons (n m : String) (names : List String) :
    dottedWords (n :: m :: names) = .word ⟨n, true⟩ :: .period :: dottedWords (m :: names) :=
  rfl

theorem names_dottedWords (hne : names ≠ []) : Names (dottedWords names) names := by
  induction names with
  | nil => exact absurd rfl hne
  | cons n names ih =>
    cases names with
    | nil => exact .last rfl
    | cons m names => exact .cons rfl (ih (List.cons_ne_nil _ _))

theorem Names.dottedName? (h : Names ts names) : dottedName? ts = some (names, []) := by
  have hread : Sql.dottedName? (ts ++ []) = some (names, []) := dottedName?_names h (by simp)
  rwa [List.append_nil] at hread

theorem dottedWords_injective {names' : List String} (hne : names ≠ []) (hne' : names' ≠ [])
    (h : dottedWords names = dottedWords names') : names = names' := by
  have hread := (names_dottedWords hne).dottedName?
  rw [h, (names_dottedWords hne').dottedName?] at hread
  exact (congrArg Prod.fst (Option.some.inj hread)).symm

theorem Scans.quotedName (n : String) (hrest : rest.head? ≠ some '`') (h : Scans rest ts) :
    Scans ((Sql.quotedName n).toList ++ rest) (.word ⟨n, true⟩ :: ts) := by
  have hname : (Sql.quotedName n).toList ++ rest
      = '`' :: (Backtick.double n.toList ++ '`' :: rest) := by
    simp [Sql.quotedName, Backtick.quote]
  rw [hname]
  exact Scans.step (scanOne_quoted n hrest) (by simp; omega) h

theorem head?_quotedNames (hne : names ≠ []) (rest : List Char) :
    ((".".intercalate (names.map Sql.quotedName)).toList ++ rest).head? = some '`' := by
  rcases names with _ | ⟨n, _ | ⟨m, names⟩⟩
  · exact absurd rfl hne
  · simp [Sql.quotedName, Backtick.quote]
  · simp [Sql.quotedName, Backtick.quote]

/-- Names in backticks with periods between them are these words, whatever follows them but another
backtick. -/
theorem Scans.quotedNames (hne : names ≠ []) (hrest : rest.head? ≠ some '`') (h : Scans rest ts) :
    Scans ((".".intercalate (names.map Sql.quotedName)).toList ++ rest)
      (dottedWords names ++ ts) := by
  induction names with
  | nil => exact absurd rfl hne
  | cons n names ih =>
    cases names with
    | nil => simpa using h.quotedName n hrest
    | cons m names =>
      have hscans := ih (List.cons_ne_nil m names)
      -- The backtick of the next name keeps the period from being the start of a number.
      obtain ⟨cs, hcs⟩ :=
        List.head?_eq_some_iff.1 (head?_quotedNames (List.cons_ne_nil m names) rest)
      have hperiod : Token.scanOne '.' ('`' :: cs) = some (.period, '`' :: cs) := rfl
      rw [← hcs] at hperiod
      have htail := Scans.step hperiod (Nat.le_refl _) hscans
      simpa using htail.quotedName n (by simp)

theorem Lexes.keyword {k : String} (hk : IsPlainWord k) (h : Lexes rest ts) :
    Lexes (k.toList ++ ' ' :: rest) (.ofKeyword k :: ts) :=
  Lexes.lexeme (lexeme_word hk) ⟨_, _, _, .space, rfl⟩ (h.break .space)

theorem lexes_showing (h : Lexes rest ts) :
    Lexes ("SHOW CREATE TABLE ".toList ++ rest) (showing ts) :=
  .keyword (k := "SHOW") (by decide) <| .keyword (k := "CREATE") (by decide) <|
    .keyword (k := "TABLE") (by decide) h

theorem statements?_showing (h : Names ts names) :
    statements? (showing ts).length (showing ts) = some [.other] := by
  have hshow : (Token.ofKeyword "SHOW").Is "SHOW" := Token.is_ofKeyword (by decide)
  have hcreate : (Token.ofKeyword "CREATE").Is "CREATE" := Token.is_ofKeyword (by decide)
  have htable : (Token.ofKeyword "TABLE").Is "TABLE" := Token.is_ofKeyword (by decide)
  have hpass : passShowing (.ofKeyword "CREATE" :: .ofKeyword "TABLE" :: ts) = some [] := by
    simp [passShowing, passKeywords, keywords?, oneKeyword?, keyword?_of_is hcreate,
      keyword?_of_is htable, passDottedName, h.dottedName?]
  have hstatement : statement? (showing ts) = some (.other, []) := by
    simp [showing, statement?, keywords?, keyword?_of_is hshow, hpass]
  exact statements?_single (s := some .other) (by simp [Token.ofKeyword]) hstatement

theorem asksFor_names (h : Names ts names) : AsksFor (showing ts) names :=
  ⟨statements?_showing h, ts, rfl, h.dottedName?⟩

end Names

end Sql

namespace TableId

theorem parts_ne_nil (t : TableId) : t.parts ≠ [] :=
  List.concat_ne_nil _ _

theorem toList_statement (t : TableId) :
    t.statement.toList = "SHOW CREATE TABLE ".toList ++ t.quoted.toList :=
  String.toList_append

theorem scan_quoted (t : TableId) :
    Sql.Token.scan t.quoted = some (Sql.dottedWords t.parts) := by
  have h : Sql.Scans (t.quoted.toList ++ []) (Sql.dottedWords t.parts ++ []) :=
    Sql.Scans.quotedNames t.parts_ne_nil (by simp) rfl
  rwa [List.append_nil, List.append_nil] at h

end TableId

/-- The quoted form of a name is cut into its parts, whatever characters they hold. So the statement
that is run asks for this table, and names that differ in a part are quoted differently. -/
theorem quoting_keeps_names (t : TableId) :
    Sql.Token.scan t.quoted = some (Sql.dottedWords t.parts)
      ∧ Sql.Lexes t.statement.toList (Sql.showing (Sql.dottedWords t.parts))
      ∧ Sql.AsksFor (Sql.showing (Sql.dottedWords t.parts)) t.parts
      ∧ ∀ u : TableId, t.quoted = u.quoted ↔ t.parts = u.parts := by
  have hnames := Sql.names_dottedWords t.parts_ne_nil
  have hquoted : Sql.Lexes t.quoted.toList (Sql.dottedWords t.parts) := by
    refine Sql.lexes_iff.2 ⟨_, t.scan_quoted, List.filter_eq_self.2 fun u hu => ?_⟩
    simpa using hnames.ne_of_name? rfl (by simp) u hu
  refine ⟨t.scan_quoted, ?_, Sql.asksFor_names hnames, fun u => ⟨fun h => ?_, fun h => ?_⟩⟩
  · rw [t.toList_statement]
    exact Sql.lexes_showing hquoted
  · have hscan := t.scan_quoted
    rw [h, u.scan_quoted] at hscan
    exact Sql.dottedWords_injective t.parts_ne_nil u.parts_ne_nil (Option.some.inj hscan).symm
  · rw [TableId.quoted, h, ← TableId.quoted]

/-- A name that is spelled like the end of the statement and another one is still one word. -/
example : Sql.Token.scan (TableId.quoted ⟨some "db", none, "a`; DROP TABLE `b"⟩)
    = some [.word ⟨"db", true⟩, .period, .word ⟨"a`; DROP TABLE `b", true⟩] := by
  decide +kernel

end TableCapture
