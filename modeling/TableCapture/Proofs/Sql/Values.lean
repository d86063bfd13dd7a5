import TableCapture.Proofs.Sql.Spelling
import TableCapture.Sql.Query

/-!
# Types and values before other attributes

The type of a column and its default value stand before attributes, a comma or a closing bracket.
None of these goes on with a type or a value (`Stops`), so `dataType?_of_writes` reads the type
alone and `passExpression_text` and `passExpression_null` pass the value alone.
-/

namespace TableCapture.Sql

/-- The types that a column may have. -/
inductive ColumnType where
  | int
  | bigint
  | text
  | varchar (length : UInt64)
deriving DecidableEq, Repr

namespace ColumnType

def dataType : ColumnType → DataType
  | int => .integer "INT" none false
  | bigint => .integer "BIGINT" none false
  | text => .plain "TEXT"
  | varchar length => .character "VARCHAR" (some (length.toNat, none))

/-- A type as a schema shows it. -/
def display : ColumnType → String
  | int => "INT"
  | bigint => "BIGINT"
  | text => "TEXT"
  | varchar length => "VARCHAR" ++ "(" ++ toString length ++ ")"

theorem display_dataType (ty : ColumnType) : ty.dataType.display = ty.display := by
  cases ty with
  | varchar length =>
    simp only [dataType, DataType.display, DataType.lengthDisplay, display, String.append_assoc]
    rfl
  | _ => rfl

/-- The tokens that write a type. -/
inductive Writes : ColumnType → List Token → Prop
  | int {t : Token} : t.spells "INT" → Writes int [t]
  | bigint {t : Token} : t.spells "BIGINT" → Writes bigint [t]
  | text {t : Token} : t.spells "TEXT" → Writes text [t]
  | varchar {t : Token} {length : UInt64} {digits : String} {long : Bool} :
      t.spells "VARCHAR" → Decimal.uint64? digits.toList = some length.toNat →
      Writes (varchar length) [t, .leftParen, .number digits long, .rightParen]

end ColumnType

/-- What does not go on with a type or a value: a comma, a closing bracket, or a word that is no
operator and says nothing more of a type. -/
def Stops : List Token → Prop
  | .comma :: _ | .rightParen :: _ => True
  | .word w :: ts => strength (.word w :: ts) = 0 ∧ w.isKeyword "COLLATE" = false
      ∧ w.isKeyword "UNSIGNED" = false
  | _ => False

section Stops

variable {t u : Token} {ts rest : List Token} {k : String}

theorem stops_of_is (h : t.Is k)
    (hk : k ∈ ["NULL", "DEFAULT", "UNIQUE", "PRIMARY", "AUTO_INCREMENT", "COMMENT", "CONSTRAINT"]) :
    Stops (t :: ts) := by
  cases t with
  | word w =>
    have hw : ∀ j, w.isKeyword j = decide (k = j) := h.isKeyword
    simp only [List.mem_cons, List.not_mem_nil, or_false] at hk
    rcases hk with rfl | rfl | rfl | rfl | rfl | rfl | rfl <;> simp [Stops, strength, hw]
  | _ => cases h.isWord

theorem stops_not (ht : t.Is "NOT") (hu : u.Is "NULL") : Stops (t :: u :: ts) := by
  cases t with
  | word w =>
    have hw : ∀ j, w.isKeyword j = decide ("NOT" = j) := ht.isKeyword
    simp [Stops, strength, hw, oneKeyword?, keyword?, hu.isKeyword]
  | _ => cases ht.isWord

theorem Stops.strength_eq (h : Stops rest) : strength rest = 0 := by
  unfold Stops at h
  split at h
  · rfl
  · rfl
  · exact h.1
  · exact h.elim

theorem Stops.passCollation (h : Stops rest) : passCollation rest = some rest := by
  unfold Stops at h
  split at h
  · rfl
  · rfl
  · simp [Sql.passCollation, passAfter, keywords?, keyword?, Token.isKeyword, h.2.1]
  · exact h.elim

theorem Stops.unsigned (h : Stops rest) : keyword? "UNSIGNED" rest = none := by
  unfold Stops at h
  split at h
  · rfl
  · rfl
  · simp [keyword?, Token.isKeyword, h.2.2]
  · exact h.elim

/-- Nothing that belongs to the word before it follows a type or a value. -/
theorem Stops.exists_cons (h : Stops rest) : ∃ t ts, rest = t :: ts ∧ t ≠ .leftParen
    ∧ t ≠ .period ∧ t ≠ .operator .leftBracket ∧ ∀ kind s, t ≠ .text kind s := by
  unfold Stops at h
  split at h
  · exact ⟨_, _, rfl, by simp⟩
  · exact ⟨_, _, rfl, by simp⟩
  · exact ⟨_, _, rfl, by simp⟩
  · exact h.elim

theorem Stops.size? (h : Stops rest) : size? rest = some (none, rest) := by
  obtain ⟨t, ts, rfl, hne, -⟩ := h.exists_cons
  unfold Sql.size?
  split
  · simp_all
  · simp_all
  · rfl

theorem Stops.arrayOf? (h : Stops rest) (d : DataType) : arrayOf? d rest = some (d, rest) := by
  obtain ⟨t, ts, rfl, -, -, hne, -⟩ := h.exists_cons
  unfold Sql.arrayOf?
  split
  · simp_all
  · simp_all
  · rfl

end Stops

/-! ## Types -/

section Types

variable {t : Token} {ts rest : List Token} {ty : ColumnType}

theorem dataType?_of_is {k : String} {d : DataType} {us : List Token} (ht : t.Is k)
    (hk : k ≠ "ARRAY") (h : scalarType? t us = some (d, rest)) (hs : Stops rest) :
    dataType? (t :: us) = some (d, rest) := by
  have harray : t.isKeyword "ARRAY" = false := by rw [ht.isKeyword, decide_eq_false hk]
  unfold dataType?
  simp only [harray, ht.isWord, h, hs.arrayOf?]
  simp

theorem dataType?_of_writes (hw : ty.Writes ts) (hs : Stops rest) :
    dataType? (ts ++ rest) = some (ty.dataType, rest) := by
  cases hw with
  | @int t h =>
    have ht := Token.is_of_spells h (by decide)
    refine dataType?_of_is ht (by decide) ?_ hs
    simp [scalarType?, plainTypes, sizedTypes, integerTypes, ht.isKeyword, hs.size?, hs.unsigned,
      ColumnType.dataType]
  | @bigint t h =>
    have ht := Token.is_of_spells h (by decide)
    refine dataType?_of_is ht (by decide) ?_ hs
    simp [scalarType?, plainTypes, sizedTypes, integerTypes, ht.isKeyword, hs.size?, hs.unsigned,
      ColumnType.dataType]
  | @text t h =>
    have ht := Token.is_of_spells h (by decide)
    refine dataType?_of_is ht (by decide) ?_ hs
    simp [scalarType?, plainTypes, ht.isKeyword, ColumnType.dataType]
  | @varchar t length digits long h hdigits =>
    have ht := Token.is_of_spells h (by decide)
    refine dataType?_of_is ht (by decide) ?_ hs
    simp [scalarType?, plainTypes, sizedTypes, integerTypes, exactTypes, ht.isKeyword,
      characterLength?, hdigits, ColumnType.dataType]

end Types

/-! ## Values -/

section Values

variable {t : Token} {rest : List Token} {i : Inner}

theorem passExpression_of_operand {ts : List Token}
    (h : ∀ i : Inner, i.passOperand ts = some rest) (hs : Stops rest) :
    passExpression ts = some rest := by
  have hstop : (inner (ts.length + 1) 48).passOperators strength 0 (rest.length + 1) rest
      = some rest := by
    rw [Inner.passOperators, hs.strength_eq, if_pos (Nat.le_refl 0)]
  show ((inner (ts.length + 1) 48).passOperand ts).bind _ = some rest
  rw [h, Option.bind_some, hstop]

theorem dataType?_text (s : String) : dataType? (.text .single s :: rest) = none := by
  unfold dataType?
  simp [Token.isKeyword, Token.isWord]

theorem passExpression_text (s : String) (hs : Stops rest) :
    passExpression (.text .single s :: rest) = some rest := by
  refine passExpression_of_operand (fun i => ?_) hs
  simp [Inner.passOperand, Inner.passTyped, dataType?_text, Inner.passPlainOperand, passValue,
    hs.passCollation]

/-- `NULL` alone is read as the name of a type, but as none that a text follows. -/
theorem passTyped_null (ht : t.Is "NULL") (hs : Stops rest) : i.passTyped (t :: rest) = none := by
  obtain ⟨name, hname⟩ : ∃ name, t.typeName? = some name := by
    cases t with
    | word w =>
      rw [Token.typeName?]
      split
      · exact ⟨_, rfl⟩
      · exact ⟨_, rfl⟩
    | _ => cases ht.isWord
  have hcustom : scalarType? t rest = some (.custom name [], rest) := by
    obtain ⟨u, us, rfl, hparen, hdot, -⟩ := hs.exists_cons
    have hread : customName? (t :: u :: us) = some ([name], u :: us) := by
      rw [customName?.eq_def]
      simp [hname, hdot]
    simp [scalarType?, plainTypes, sizedTypes, integerTypes, exactTypes, ht.isKeyword, customType?,
      hread, hparen]
  simp [Inner.passTyped, dataType?_of_is ht (by decide) hcustom hs]

theorem passExpression_null (ht : t.Is "NULL") (hs : Stops rest) :
    passExpression (t :: rest) = some rest := by
  refine passExpression_of_operand (fun i => ?_) hs
  cases t with
  | word w =>
    have hw : ∀ j, w.isKeyword j = decide ("NULL" = j) := ht.isKeyword
    simp [Inner.passOperand, passTyped_null ht hs, Inner.passPlainOperand, Inner.passWord,
      Inner.passForm, hw, hs.passCollation]
  | _ => cases ht.isWord

end Values

end TableCapture.Sql
