import TableCapture.Proofs.Sql.ColumnList
import TableCapture.Proofs.Sql.Scanning
import TableCapture.Sql.Changes

/-!
# Where the normal form ends

As long as no bracket is taken for the argument of an attribute, the normal form of a text ends with
the bracket that closes its column list. So what follows the list is not read
(`readChanges_after_list`). Where `CHARACTER SET` and `COLLATE` have a word or a text for their
argument, this leaves `CHARSET` alone to stand before a bracket (`normalize_keeps_list`). A call of
the function of this name does so, and then the list ends too early (`column_lost`).
-/

namespace TableCapture.Sql

/-- Whether a token can be the argument of an attribute. -/
def Token.isArgument : Token → Bool
  | word _ => true
  | text _ _ => true
  | _ => false

/-- `CHARACTER SET` and `COLLATE` have a word or a text for their argument. -/
def Argued (ts : List Token) : Prop :=
  ∀ ks ∈ [["CHARACTER", "SET"], ["COLLATE"]], After ks (fun o => o.any Token.isArgument) ts

/-- The normal form rewrites the column list, and ends with the bracket that closes it. -/
def KeepsList (ts : List Token) : Prop :=
  ∃ pre body post us, Parts (withoutBlanks ts) pre body post ∧ Rewrites body us ∧ Balanced us
    ∧ normalize ts = pre ++ .leftParen :: us ++ [.rightParen]

instance (ts : List Token) : Decidable (Argued ts) :=
  inferInstanceAs (Decidable (∀ ks ∈ [["CHARACTER", "SET"], ["COLLATE"]],
    After ks (fun o => o.any Token.isArgument) ts))

variable {ts pre body post us : List Token}

theorem mem_withoutBlanks {t : Token} (ht : t ≠ .blank) : t ∈ withoutBlanks ts ↔ t ∈ ts := by
  simp [withoutBlanks, ht]

theorem brackets_withoutBlanks : brackets (withoutBlanks ts) = brackets ts := by
  rw [brackets, withoutBlanks, List.filter_filter]
  refine List.filter_congr fun t _ => ?_
  cases t <;> rfl

theorem Balanced.withoutBlanks (h : Balanced ts) : Balanced (withoutBlanks ts) :=
  Closes.congr h brackets_withoutBlanks

theorem Rewrites.balanced (h : Rewrites ts us) (hts : Balanced ts)
    (ha : Argumentless Token.isBracket ts) : Balanced us :=
  Closes.congr hts (h.filter_eq (fun _ => isBracket_of_isWord) ha)

/-- The normal form of tokens with a column list. -/
theorem exists_normalize (hpre : .leftParen ∉ pre) (hbody : Balanced body)
    (ha : Argumentless Token.isBracket (body ++ [.rightParen])) :
    ∃ us, Rewrites body us ∧ Balanced us
      ∧ ∀ rest, columnList 0 (pre ++ .leftParen :: body ++ .rightParen :: rest)
        = pre ++ .leftParen :: us ++ [.rightParen] := by
  obtain ⟨us, hus⟩ := exists_rewrites ha rfl
  have ha := ha.of_append_left
  refine ⟨us, hus, hus.balanced hbody ha, fun rest => ?_⟩
  rw [List.append_assoc, List.cons_append,
    columnList_before fun t ht => ne_of_mem_of_not_mem ht hpre, hus.columnList_eq hbody ha,
    List.append_assoc, List.cons_append]

/-- What follows the column list says nothing: the normal form ends with the bracket that closes
the list, and texts that differ after it alone make the same changes. -/
theorem readChanges_after_list (hpre : .leftParen ∉ pre) (hbody : Balanced body)
    (ha : Argumentless Token.isBracket
      (withoutBlanks (pre ++ .leftParen :: body ++ [.rightParen]))) :
    (∃ us, Rewrites (withoutBlanks body) us ∧ Balanced us
      ∧ ∀ rest, normalize (pre ++ .leftParen :: body ++ .rightParen :: rest)
        = withoutBlanks pre ++ .leftParen :: us ++ [.rightParen])
    ∧ (∀ rest rest', normalize (pre ++ .leftParen :: body ++ .rightParen :: rest)
        = normalize (pre ++ .leftParen :: body ++ .rightParen :: rest'))
    ∧ ∀ text text' rest rest' catalog schema,
        Token.scan text = some (pre ++ .leftParen :: body ++ .rightParen :: rest) →
        Token.scan text' = some (pre ++ .leftParen :: body ++ .rightParen :: rest') →
        readChanges text catalog schema = readChanges text' catalog schema := by
  have hpre' : .leftParen ∉ withoutBlanks pre := fun h => hpre ((mem_withoutBlanks (by simp)).1 h)
  have hsplit : ∀ rest, withoutBlanks (pre ++ .leftParen :: body ++ .rightParen :: rest)
      = withoutBlanks pre ++ .leftParen :: withoutBlanks body
        ++ .rightParen :: withoutBlanks rest := fun rest => by simp [withoutBlanks]
  rw [hsplit, List.append_assoc, List.cons_append] at ha
  obtain ⟨us, hus, hbalanced, hnormal⟩ := exists_normalize hpre' hbody.withoutBlanks
    ((ha.of_append _).of_append [.leftParen])
  have hnormal : ∀ rest, normalize (pre ++ .leftParen :: body ++ .rightParen :: rest)
      = withoutBlanks pre ++ .leftParen :: us ++ [.rightParen] := fun rest => by
    rw [normalize, ← withoutBlanks, hsplit, hnormal]
  have hsame := fun rest rest' => (hnormal rest).trans (hnormal rest').symm
  refine ⟨⟨us, hus, hbalanced, hnormal⟩, hsame, ?_⟩
  intro text text' rest rest' catalog schema htext htext'
  rw [readChanges, readChanges, htext, htext']
  simp only [hsame rest rest']

def lampsList : String :=
  "create table lamps (a varchar(3) Character Set x, UNIQUE KEY b (a))"

def lampsOpening : List Token :=
  [.ofKeyword "create", .blank, .ofKeyword "table", .blank, .ofKeyword "lamps", .blank]

def lampsBody : List Token :=
  [.ofKeyword "a", .blank, .ofKeyword "varchar", .leftParen, .number "3" false, .rightParen, .blank,
    .ofKeyword "Character", .blank, .ofKeyword "Set", .blank, .ofKeyword "x", .comma, .blank,
    .ofKeyword "UNIQUE", .blank, .ofKeyword "KEY", .blank, .ofKeyword "b", .blank, .leftParen,
    .ofKeyword "a", .rightParen]

theorem readChanges_after_list_lamps :
    readChanges (lampsList ++ " ENGINE=InnoDB") none none
        = readChanges (lampsList ++ " COMMENT ')'; DROP TABLE lamps") none none
      ∧ normalize (lampsOpening ++ .leftParen :: lampsBody ++ .rightParen :: [])
        = normalize (lampsOpening ++ .leftParen :: lampsBody ++ .rightParen :: [.leftParen]) := by
  have hbefore : .leftParen ∉ lampsOpening := by decide +kernel
  have hbalanced : Balanced lampsBody := by decide +kernel
  obtain ⟨-, hsame, hread⟩ := readChanges_after_list hbefore hbalanced (by decide +kernel)
  refine ⟨hread _ _ [.blank, .ofKeyword "ENGINE", .operator .equal, .ofKeyword "InnoDB"]
    [.blank, .ofKeyword "COMMENT", .blank, .text .single ")", .semicolon, .blank, .ofKeyword "DROP",
      .blank, .ofKeyword "TABLE", .blank, .ofKeyword "lamps"] none none ?_ ?_,
    hsame [] [.leftParen]⟩
  · decide +kernel
  · decide +kernel

theorem argumentless_of_argued (ha : Argued ts)
    (hc : After ["CHARSET"] (fun o => !o.any Token.isBracket) ts) :
    Argumentless Token.isBracket ts := by
  have hargument : ∀ o : Option Token, o.any Token.isArgument → !o.any Token.isBracket := by
    rintro (_ | t) h
    · cases h
    · cases t <;> first | rfl | cases h
  simp only [Argued, List.forall_mem_cons, List.not_mem_nil, false_implies, implies_true,
    and_true] at ha
  simp only [Argumentless, attributeNames, List.forall_mem_cons, List.not_mem_nil, false_implies,
    implies_true, and_true]
  exact ⟨fun us hus h => hargument _ (ha.1 us hus h), hc,
    fun us hus h => hargument _ (ha.2 us hus h)⟩

/-- Where attributes have words and texts for arguments, and `CHARSET` no bracket, the normal form
of balanced tokens is balanced, and it ends with the bracket that closes the column list. -/
theorem normalize_keeps_list (h : Balanced ts) (ha : Argued (withoutBlanks ts))
    (hc : After ["CHARSET"] (fun o => !o.any Token.isBracket) (withoutBlanks ts)) :
    Balanced (normalize ts) ∧ (.leftParen ∈ ts → KeepsList ts) := by
  have ha := argumentless_of_argued ha hc
  have hkeeps : .leftParen ∈ ts → KeepsList ts := by
    intro hts
    obtain ⟨pre, body, post, hparts⟩ :=
      h.withoutBlanks.exists_parts ((mem_withoutBlanks (by simp)).2 hts)
    rw [hparts.eq_append, List.append_assoc] at ha
    have hbody : Argumentless Token.isBracket (body ++ .rightParen :: post) :=
      (ha.of_append pre).of_append [.leftParen]
    rw [List.append_cons] at hbody
    obtain ⟨us, hus, hbalanced, hnormal⟩ :=
      exists_normalize hparts.before hparts.balanced hbody.of_append_left
    refine ⟨pre, body, post, us, hparts, hus, hbalanced, ?_⟩
    rw [normalize, ← withoutBlanks, hparts.eq_append, hnormal]
  refine ⟨?_, hkeeps⟩
  by_cases hts : .leftParen ∈ ts
  · obtain ⟨pre, body, post, us, hparts, -, hus, hnormal⟩ := hkeeps hts
    have h := h.withoutBlanks
    rw [hparts.eq_append, List.append_assoc] at h
    have hclosed : Balanced (.leftParen :: (us ++ [.rightParen])) :=
      closes_leftParen.2 (hus.append (closes_rightParen.2 (closes_nil.2 rfl)))
    rw [hnormal, List.append_assoc]
    exact Closes.congr hclosed (by rw [brackets_append, (h.before hparts.before).1]; rfl)
  · have hnone : ∀ t ∈ withoutBlanks ts, t ≠ .leftParen := by
      rintro t ht rfl
      exact hts ((mem_withoutBlanks (by simp)).1 ht)
    rw [normalize, ← withoutBlanks, columnList_none hnone]
    exact h.withoutBlanks

theorem normalize_keeps_list_lamps :
    KeepsList (lampsOpening ++ .leftParen :: lampsBody ++ .rightParen :: [.blank]) :=
  (normalize_keeps_list (by decide +kernel) (by decide +kernel) (by decide +kernel)).2
    (by decide +kernel)

def charsetText : String :=
  "CREATE TABLE `t` (`a` text, `b` varchar(64) DEFAULT (charset(`a`)), `c` int NOT NULL)"

def charsetBody : List Token :=
  [.word ⟨"a", true⟩, .ofKeyword "text", .comma,
    .word ⟨"b", true⟩, .ofKeyword "varchar", .leftParen, .number "64" false, .rightParen,
    .ofKeyword "DEFAULT", .leftParen, .ofKeyword "charset", .leftParen, .word ⟨"a", true⟩,
    .rightParen, .rightParen, .comma,
    .word ⟨"c", true⟩, .ofKeyword "int", .ofKeyword "NOT", .ofKeyword "NULL"]

def charsetTokens : List Token :=
  [.ofKeyword "CREATE", .ofKeyword "TABLE", .word ⟨"t", true⟩] ++ .leftParen :: charsetBody
    ++ .rightParen :: []

/-- The opening bracket of a call of `charset` is taken for a name, so the list ends one bracket too
early, and the columns after it are lost. -/
theorem column_lost :
    Lexes charsetText.toList charsetTokens
      ∧ Balanced charsetTokens ∧ Argued (withoutBlanks charsetTokens)
      ∧ .leftParen ∈ charsetTokens ∧ ¬ KeepsList charsetTokens
      ∧ readChanges charsetText none none = .ok [.create
        ⟨⟨none, none, "t"⟩, [⟨"a", "TEXT", true⟩, ⟨"b", "VARCHAR(64)", true⟩], []⟩] := by
  refine ⟨?_, by decide +kernel, by decide +kernel, by decide +kernel, ?_, by decide +kernel⟩
  · unfold Lexes
    decide +kernel
  rintro ⟨pre, body, post, us, hparts, hus, -, hnormal⟩
  have hlist : Parts (withoutBlanks charsetTokens)
      [.ofKeyword "CREATE", .ofKeyword "TABLE", .word ⟨"t", true⟩] charsetBody [] :=
    ⟨by decide +kernel, by decide +kernel, by decide +kernel⟩
  obtain ⟨rfl, rfl, rfl⟩ := hparts.unique hlist
  have hopening : Token.leftParen ≠ .comma := by decide
  -- Rewriting keeps the commas, and the normal form has lost one.
  have hcommas : us.count .comma = charsetBody.count .comma := by
    rw [List.count_eq_length_filter, List.count_eq_length_filter,
      hus.filter_eq (fun t ht => ?_) (by decide +kernel)]
    cases t <;> first | rfl | cases ht
  have htwo : charsetBody.count .comma = 2 := by decide +kernel
  have hlost : (normalize charsetTokens).count .comma = 1 := by decide +kernel
  rw [hnormal, List.count_append, List.count_append, List.count_cons_of_ne hopening] at hlost
  omega

end TableCapture.Sql
