import TableCapture.Proofs.Sql.Spelling
import TableCapture.Sql.Normalization

/-!
# The normal form of a column list, token by token

Most tokens are inert: they stay in the normal form and change nothing about those around them. The
few that are not are `CHARACTER SET` and `COLLATE`, which go with the word after them, `UNIQUE KEY`,
and the brackets.
-/

namespace TableCapture.Sql

/-- A token stays in the normal form, whatever stands before and after it. -/
structure Token.Inert (t : Token) : Prop where
  spells : ∀ k ∈ ["CHARACTER", "CHARSET", "COLLATE", "UNIQUE"], t.spells k = false
  opening : t ≠ .leftParen
  closing : t ≠ .rightParen

variable {t u v : Token} {ts rest : List Token} {k : String} {d : Nat}

theorem inert_of_is (h : t.Is k) (hk : k ∉ ["CHARACTER", "CHARSET", "COLLATE", "UNIQUE"]) :
    t.Inert := by
  refine ⟨fun j hj => ?_, ?_, ?_⟩
  · rw [h.spells, decide_eq_false_iff_not]
    rintro rfl
    exact hk hj
  · rintro rfl
    cases h.isWord
  · rintro rfl
    cases h.isWord

theorem inert_quoted (n : String) : (Token.word ⟨n, true⟩).Inert :=
  ⟨fun _ _ => rfl, by simp, by simp⟩

theorem inert_text (s : String) : (Token.text .single s).Inert :=
  ⟨fun _ _ => rfl, by simp, by simp⟩

theorem inert_number (digits : String) (long : Bool) : (Token.number digits long).Inert :=
  ⟨fun _ _ => rfl, by simp, by simp⟩

theorem inert_comma : Token.comma.Inert :=
  ⟨fun _ _ => rfl, by simp, by simp⟩

theorem isKeyOrIndex_of_is (h : t.Is "KEY") : t.isKeyOrIndex = true := by
  simp [Token.isKeyOrIndex, h.spells]

theorem columnList_inert (h : t.Inert) :
    columnList (d + 1) (t :: ts) = t :: columnList (d + 1) ts := by
  have hs := h.spells
  simp only [List.forall_mem_cons, List.not_mem_nil, false_implies, implies_true, and_true] at hs
  obtain ⟨h1, h2, h3, h4⟩ := hs
  rw [columnList.eq_def]
  simp [h1, h2, h3, h4, h.opening, h.closing]

theorem columnList_inerts (h : ∀ t ∈ ts, t.Inert) :
    columnList (d + 1) (ts ++ rest) = ts ++ columnList (d + 1) rest := by
  induction ts with
  | nil => rfl
  | cons t ts ih =>
    rw [List.forall_mem_cons] at h
    rw [List.cons_append, columnList_inert h.1, ih h.2, List.cons_append]

theorem columnList_leftParen :
    columnList (d + 1) (.leftParen :: ts) = .leftParen :: columnList (d + 2) ts := by
  rw [columnList.eq_def]
  simp [Token.spells]

theorem columnList_rightParen :
    columnList (d + 2) (.rightParen :: ts) = .rightParen :: columnList (d + 1) ts := by
  rw [columnList.eq_def]
  simp [Token.spells]

theorem columnList_last : columnList 1 (.rightParen :: ts) = [.rightParen] := by
  rw [columnList.eq_def]
  simp [Token.spells]

theorem columnList_brackets (h : ∀ t ∈ ts, t.Inert) :
    columnList (d + 1) (.leftParen :: ts ++ .rightParen :: rest)
      = .leftParen :: ts ++ .rightParen :: columnList (d + 1) rest := by
  rw [List.cons_append, columnList_leftParen, columnList_inerts h, columnList_rightParen,
    List.cons_append]

theorem columnList_characterSet (ht : t.Is "CHARACTER") (hu : u.Is "SET") :
    columnList (d + 1) (t :: u :: v :: rest) = columnList (d + 1) rest := by
  rw [columnList.eq_def]
  simp [ht.spells, hu.spells]

theorem columnList_collate (ht : t.Is k) (hk : k ∈ ["CHARSET", "COLLATE"]) :
    columnList (d + 1) (t :: u :: rest) = columnList (d + 1) rest := by
  rw [columnList.eq_def]
  simp only [List.mem_cons, List.not_mem_nil, or_false] at hk
  rcases hk with rfl | rfl <;> simp [ht.spells]

theorem columnList_unique (ht : t.Is "UNIQUE") (hu : u.isKeyOrIndex = false) :
    columnList (d + 1) (t :: u :: rest) = t :: columnList (d + 1) (u :: rest) := by
  rw [columnList.eq_def]
  rcases rest with _ | ⟨v, rest⟩ <;> simp [ht.spells, hu]

/-- `UNIQUE KEY` before a word takes the word for its name. -/
theorem columnList_uniqueKey_word (ht : t.Is "UNIQUE") (hu : u.isKeyOrIndex) (hv : v.isWord) :
    columnList (d + 1) (t :: u :: v :: rest) = Token.ofKeyword "CONSTRAINT" :: v ::
      Token.ofKeyword "UNIQUE" :: columnList (d + 1) rest := by
  rw [columnList.eq_def]
  simp [ht.spells, hu, hv]

theorem columnList_uniqueKey (ht : t.Is "UNIQUE") (hu : u.isKeyOrIndex) (hv : v.isWord = false) :
    columnList (d + 1) (t :: u :: v :: rest) = t :: columnList (d + 1) (v :: rest) := by
  rw [columnList.eq_def]
  simp [ht.spells, hu, hv]

theorem columnList_none (h : ∀ t ∈ ts, t ≠ .leftParen) : columnList 0 ts = ts := by
  induction ts with
  | nil => rfl
  | cons t ts ih =>
    rw [List.forall_mem_cons] at h
    rw [columnList, if_neg h.1, ih h.2]

theorem columnList_before (h : ∀ t ∈ ts, t ≠ .leftParen) :
    columnList 0 (ts ++ .leftParen :: rest) = ts ++ .leftParen :: columnList 1 rest := by
  induction ts with
  | nil => simp [columnList]
  | cons t ts ih =>
    rw [List.forall_mem_cons] at h
    rw [List.cons_append, columnList, if_neg h.1, ih h.2, List.cons_append]

end TableCapture.Sql
