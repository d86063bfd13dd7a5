import TableCapture.Proofs.Sql.Transparency

/-!
# Names and texts have no say

What becomes of a token in the normal form depends on whether it is blank, a bracket or a word, and
on the steering word that it is, if any. A map of tokens that keeps this (`Token.Steady`) may as
well be applied to the normal form (`Token.Steady.normalize_eq`). Other names in backticks and other
texts in quotes are such a map, so they show in their own places and nowhere else, whatever they
look like (`normalize_map`).
-/

namespace TableCapture.Sql

/-- A map of tokens that keeps what decides over the normal form. -/
structure Token.Steady (f : Token → Token) : Prop where
  blank : ∀ t, f t = .blank ↔ t = .blank
  leftParen : ∀ t, f t = .leftParen ↔ t = .leftParen
  rightParen : ∀ t, f t = .rightParen ↔ t = .rightParen
  isWord : ∀ t, (f t).isWord = t.isWord
  spells : ∀ t, ∀ k ∈ steeringWords, (f t).spells k = t.spells k
  /-- The words that the normal form brings in are the same. -/
  constraint : f (.ofKeyword "CONSTRAINT") = .ofKeyword "CONSTRAINT"
  unique : f (.ofKeyword "UNIQUE") = .ofKeyword "UNIQUE"

/-- Other names in backticks and other texts in quotes. -/
def Token.replace (name : String → String) (literal : TextKind → String → TextKind × String) :
    Token → Token
  | word w => if w.quoted then word ⟨name w.value, true⟩ else word w
  | text kind value => text (literal kind value).1 (literal kind value).2
  | t => t

namespace Token.Steady

variable {f : Token → Token} {t : Token} {ts ws : List Token} {ks : List String} {d : Nat}

theorem isKeyOrIndex (h : Steady f) (t : Token) : (f t).isKeyOrIndex = t.isKeyOrIndex := by
  rw [Token.isKeyOrIndex, Token.isKeyOrIndex, h.spells t _ (by decide), h.spells t _ (by decide)]

theorem startsWith_map (h : Steady f) (hks : ∀ k ∈ ks, k ∈ steeringWords) (ts : List Token) :
    startsWith ks (ts.map f) = startsWith ks ts := by
  induction ks generalizing ts with
  | nil => rfl
  | cons k ks ih =>
    rw [List.forall_mem_cons] at hks
    rcases ts with _ | ⟨t, ts⟩
    · rfl
    · rw [List.map_cons, startsWith, startsWith, h.spells t k hks.1, ih hks.2]

theorem spelled_map (h : Steady f) (hks : ∀ k ∈ ks, k ∈ steeringWords) (hws : Spelled ks ws) :
    Spelled ks (ws.map f) := by
  induction hws with
  | nil => exact .nil
  | cons hw _ ih =>
    rw [List.forall_mem_cons] at hks
    exact .cons (by rw [h.spells _ _ hks.1, hw]) (ih hks.2)

theorem columnList_map (h : Steady f) (ts : List Token) :
    columnList (d + 1) (ts.map f) = (columnList (d + 1) ts).map f := by
  induction ts using rewriting_induction generalizing d with
  | nil => simp [columnList]
  | @dropped ks ws ts hks hws ih =>
    have hmap := h.spelled_map (mem_steeringWords_of_attribute hks) hws
    rw [List.map_append, columnList_attribute hks hmap, columnList_attribute hks hws,
      ← List.map_tail, ih]
  | @named t u v ts ht hu hv ih =>
    have ht' : (f t).spells "UNIQUE" := by rw [h.spells t _ (by decide), ht]
    have hu' : (f u).isKeyOrIndex := by rw [h.isKeyOrIndex, hu]
    have hv' : (f v).isWord := by rw [h.isWord, hv]
    rw [List.map_cons, List.map_cons, List.map_cons,
      columnList_named ht' hu' hv', columnList_named ht hu hv, ih, List.map_cons, List.map_cons,
      List.map_cons, h.constraint, h.unique]
  | @unnamed t u ts ht hu hts ih =>
    have ht' : (f t).spells "UNIQUE" := by rw [h.spells t _ (by decide), ht]
    have hu' : (f u).isKeyOrIndex := by rw [h.isKeyOrIndex, hu]
    have hts' : (ts.map f).head?.any Token.isWord = false := by
      rw [← hts]
      cases ts with
      | nil => rfl
      | cons v ts => exact h.isWord v
    rw [List.map_cons, List.map_cons, columnList_unnamed ht' hu' hts', columnList_unnamed ht hu hts,
      ih, List.map_cons]
  | @keep t ts hkeep ih =>
    have hkeep' : ∀ ks ∈ rewrittenWords, startsWith ks (f t :: ts.map f) = false := by
      intro ks hks
      rw [← List.map_cons, h.startsWith_map (mem_steeringWords hks), hkeep ks hks]
    rw [List.map_cons, columnList_kept hkeep', columnList_kept hkeep, List.map_cons]
    simp only [h.leftParen, h.rightParen]
    split_ifs with hl hr hd
    · rw [ih]
    · rfl
    · obtain ⟨e, rfl⟩ := Nat.exists_eq_succ_of_ne_zero hd
      rw [ih]
    · rw [ih]

/-- Up to the first bracket all tokens stay. -/
theorem columnList_map_zero (h : Steady f) (ts : List Token) :
    columnList 0 (ts.map f) = (columnList 0 ts).map f := by
  induction ts with
  | nil => rfl
  | cons t ts ih =>
    rw [List.map_cons, columnList, columnList]
    simp only [h.leftParen]
    split_ifs with hl
    · rw [h.columnList_map, List.map_cons]
    · rw [ih, List.map_cons]

theorem normalize_eq (h : Steady f) (ts : List Token) :
    normalize (ts.map f) = (normalize ts).map f := by
  have hblank : (fun t => decide (t ≠ .blank)) ∘ f = fun t => decide (t ≠ .blank) := by
    funext t
    simp [h.blank]
  rw [normalize, normalize, List.filter_map, hblank, h.columnList_map_zero]

end Token.Steady

section Replace

variable (name : String → String) (literal : TextKind → String → TextKind × String)

theorem Token.replace_cases (t : Token) :
    t.replace name literal = t
      ∨ (∃ n, t = .word ⟨n, true⟩ ∧ t.replace name literal = .word ⟨name n, true⟩)
      ∨ ∃ k s j r, t = .text k s ∧ t.replace name literal = .text j r := by
  cases t with
  | word w =>
    obtain ⟨n, _ | _⟩ := w
    · exact .inl rfl
    · exact .inr (.inl ⟨n, rfl, rfl⟩)
  | text k s => exact .inr (.inr ⟨k, s, _, _, rfl, rfl⟩)
  | _ => exact .inl rfl

theorem steady_replace : Token.Steady (Token.replace name literal) := by
  have hcases := Token.replace_cases name literal
  have hsame : ∀ t u : Token, (∀ n, u ≠ .word ⟨n, true⟩) → (∀ k s, u ≠ .text k s) →
      (t.replace name literal = u ↔ t = u) := by
    intro t u hword htext
    rcases hcases t with h | ⟨n, rfl, h⟩ | ⟨k, s, j, r, rfl, h⟩ <;> rw [h]
    · exact iff_of_false (hword _).symm (hword _).symm
    · exact iff_of_false (htext _ _).symm (htext _ _).symm
  constructor
  · exact fun t => hsame t _ (by simp) (by simp)
  · exact fun t => hsame t _ (by simp) (by simp)
  · exact fun t => hsame t _ (by simp) (by simp)
  · intro t
    rcases hcases t with h | ⟨n, rfl, h⟩ | ⟨k, s, j, r, rfl, h⟩ <;> rw [h] <;> rfl
  · intro t k hk
    rcases hcases t with h | ⟨n, rfl, h⟩ | ⟨k, s, j, r, rfl, h⟩ <;> rw [h] <;> rfl
  · rfl
  · rfl

end Replace

/-- What decides over the normal form is kept by a map of tokens, and then the map may come after.
So other names in backticks and other texts in quotes show in their own places alone. -/
theorem normalize_map (ts : List Token) :
    (∀ f, Token.Steady f → normalize (ts.map f) = (normalize ts).map f)
      ∧ ∀ name literal, normalize (ts.map (Token.replace name literal))
        = (normalize ts).map (Token.replace name literal) :=
  ⟨fun _ hf => hf.normalize_eq ts,
    fun name literal => (steady_replace name literal).normalize_eq ts⟩

def lampsKey : List Token :=
  [.ofKeyword "lamps", .leftParen, .word ⟨"a", true⟩, .ofKeyword "text", .ofKeyword "Charset",
    .text .single "b", .ofKeyword "DEFAULT", .text .single "c", .comma, .blank, .ofKeyword "Unique",
    .blank, .ofKeyword "Index", .word ⟨"d", true⟩, .leftParen, .word ⟨"a", true⟩, .rightParen,
    .rightParen, .text .single "e"]

/-- Every name is `collate`, and every text has a bracket in it. -/
def oddly : Token → Token :=
  Token.replace (fun _ => "collate") fun kind _ => (kind, "a)b")

theorem normalize_map_lamps : normalize (lampsKey.map oddly) =
    [.ofKeyword "lamps", .leftParen, .word ⟨"collate", true⟩, .ofKeyword "text",
      .ofKeyword "DEFAULT", .text .single "a)b", .comma, .ofKeyword "CONSTRAINT",
      .word ⟨"collate", true⟩, .ofKeyword "UNIQUE", .leftParen, .word ⟨"collate", true⟩,
      .rightParen, .rightParen] := by
  have h := (normalize_map lampsKey).1 oddly (steady_replace _ _)
  rw [h]
  decide +kernel

end TableCapture.Sql
