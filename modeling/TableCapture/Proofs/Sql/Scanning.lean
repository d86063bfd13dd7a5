import Mathlib.Data.List.Forall2
import TableCapture.Sql.Token.Scan

/-!
# The tokens of written texts

`Scans` gives all the tokens of a text, and `Lexes` gives them without blanks. A text that is put
together from words, names, literals and numbers gives their tokens, as long as something stands
after each that ends it. `Lexeme cs t` says that a text followed by such a character is one token,
and `Spaced p ts` that a piece which starts with such a character gives its tokens before those of
whatever follows. Pieces can be joined (`Spaced.append`, `spaced_intercalate`), so the tokens of a
long text are found piece by piece.
-/

namespace TableCapture.Sql

/-- The tokens of a text, blanks and comments among them. -/
def Scans (cs : List Char) (ts : List Token) : Prop :=
  Token.scanUpTo cs.length cs = some ts

/-- The tokens of a text, blanks and comments apart. -/
def Lexes (cs : List Char) (ts : List Token) : Prop :=
  (Token.scanUpTo cs.length cs).map (List.filter (· ≠ .blank)) = some ts

/-- The characters that end a word, with their tokens. -/
inductive Break : Char → List Token → Prop
  | space : Break ' ' []
  | line : Break '\n' []
  | comma : Break ',' [.comma]
  | opening : Break '(' [.leftParen]
  | closing : Break ')' [.rightParen]

/-- A text that starts with a character that ends a word. -/
def Breaks (cs : List Char) : Prop :=
  ∃ c ts rest, Break c ts ∧ cs = c :: rest

/-- A text is one token where a break follows it. -/
def Lexeme : List Char → Token → Prop
  | [], _ => False
  | c :: cs, t => t ≠ .blank ∧ ∀ rest, Breaks rest → Token.scanOne c (cs ++ rest) = some (t, rest)

/-- A piece of a text starts with a break and gives tokens, where a break follows it. -/
def Spaced (p : List Char) (ts : List Token) : Prop :=
  ∀ rest us, Breaks rest → Lexes rest us → Breaks (p ++ rest) ∧ Lexes (p ++ rest) (ts ++ us)

/-! ## One token after another -/

section Scan

variable {c : Char} {cs rest : List Char} {t : Token} {ts us : List Token}

theorem scanUpTo_mono {m n : Nat} (h : Token.scanUpTo m cs = some ts) (hmn : m ≤ n) :
    Token.scanUpTo n cs = some ts := by
  induction m generalizing n cs ts with
  | zero =>
    cases cs with
    | nil => cases n <;> exact h
    | cons c cs => cases h
  | succ m ih =>
    cases cs with
    | nil => cases n <;> exact h
    | cons c cs =>
      obtain ⟨n, rfl⟩ : ∃ k, n = k + 1 := ⟨n - 1, by omega⟩
      rw [Token.scanUpTo] at h ⊢
      rcases hone : Token.scanOne c cs with _ | ⟨t, rest⟩ <;> simp only [hone] at h ⊢
      · cases h
      · obtain ⟨ts', hts, rfl⟩ := Option.map_eq_some_iff.1 h
        rw [ih hts (by omega), Option.map_some]

theorem Scans.step (h : Token.scanOne c cs = some (t, rest)) (hlen : rest.length ≤ cs.length)
    (hrest : Scans rest ts) : Scans (c :: cs) (t :: ts) := by
  simp only [Scans, List.length_cons, Token.scanUpTo, h, scanUpTo_mono hrest hlen, Option.map_some]

theorem lexes_iff : Lexes cs ts ↔ ∃ all, Scans cs all ∧ all.filter (· ≠ .blank) = ts :=
  Option.map_eq_some_iff

theorem Lexes.step (h : Token.scanOne c cs = some (t, rest)) (hlen : rest.length ≤ cs.length)
    (hrest : Lexes rest us) : Lexes (c :: cs) ([t].filter (· ≠ .blank) ++ us) := by
  obtain ⟨all, hall, rfl⟩ := lexes_iff.1 hrest
  refine lexes_iff.2 ⟨t :: all, hall.step h hlen, ?_⟩
  rw [← List.filter_append, List.singleton_append]

theorem Lexes.break (hb : Break c ts) (h : Lexes cs us) : Lexes (c :: cs) (ts ++ us) := by
  have hstep : ∀ t, Token.scanOne c cs = some (t, cs) →
      Lexes (c :: cs) ([t].filter (· ≠ .blank) ++ us) := fun t ht => Lexes.step ht (Nat.le_refl _) h
  cases hb <;> exact hstep _ rfl

theorem Lexes.lexeme (h : Lexeme cs t) (hb : Breaks rest) (hrest : Lexes rest us) :
    Lexes (cs ++ rest) (t :: us) := by
  cases cs with
  | nil => exact h.elim
  | cons c cs =>
    have hstep := Lexes.step (h.2 rest hb) (by simp) hrest
    rwa [List.filter_eq_self.2 (by simp [h.1])] at hstep

theorem Breaks.head?_ne (h : Breaks cs) {d : Char} (hd : d ∉ [' ', '\n', ',', '(', ')']) :
    cs.head? ≠ some d := by
  obtain ⟨c, ts, rest, hb, rfl⟩ := h
  rintro ⟨⟩
  cases hb <;> simp at hd

theorem Breaks.not_word (h : Breaks cs) : cs.takeWhile Token.isWordPart = [] := by
  obtain ⟨c, ts, rest, hb, rfl⟩ := h
  cases hb <;> rfl

theorem Breaks.not_digit (h : Breaks cs) : cs.takeWhile Char.isDigit = [] := by
  obtain ⟨c, ts, rest, hb, rfl⟩ := h
  cases hb <;> rfl

theorem dropWhile_eq_self {p : Char → Bool} (h : cs.takeWhile p = []) : cs.dropWhile p = cs := by
  simpa [h] using List.takeWhile_append_dropWhile (p := p) (l := cs)

end Scan

/-! ## Words, names, literals and numbers -/

/-- A word that needs no backticks. -/
def IsPlainWord (w : String) : Prop :=
  w.toList.head?.any Token.isWordStart ∧ w.toList.tail.all Token.isWordPart

instance (w : String) : Decidable (IsPlainWord w) :=
  inferInstanceAs (Decidable (_ ∧ _))

/-- A text that stands between single quotes as it is. -/
def IsLiteral (s : String) : Prop :=
  '\'' ∉ s.toList ∧ '\\' ∉ s.toList

instance (s : String) : Decidable (IsLiteral s) :=
  inferInstanceAs (Decidable (_ ∧ _))

section Lexemes

variable {cs rest : List Char}

theorem scanOne_wordStart {c : Char} (hc : Token.isWordStart c) :
    Token.scanOne c cs = Token.scanLetter c cs := by
  have hne : ∀ d : Char, Token.isWordStart d = false → c ≠ d := by
    rintro d hd rfl
    simp [hd] at hc
  unfold Token.scanOne
  rw [if_neg, if_neg (hne _ (by decide)), if_pos hc]
  rintro (h | h | h)
  · exact hne _ (by decide) h
  · exact hne _ (by decide) h
  · exact hne _ (by decide) h

theorem scanLetter_eq_scanWord {c : Char} (h : cs.head? ≠ some '\'') :
    Token.scanLetter c cs = some (Token.scanWord c cs) := by
  unfold Token.scanLetter
  split
  · simp at h
  · simp at h
  · rfl

theorem lexeme_word {w : String} (h : IsPlainWord w) : Lexeme w.toList (.word ⟨w, false⟩) := by
  obtain ⟨hhead, htail⟩ := h
  rcases hw : w.toList with _ | ⟨c, cs⟩
  · simp [hw] at hhead
  simp only [hw, List.head?_cons, Option.any_some, List.tail_cons, List.all_eq_true] at hhead htail
  refine ⟨by simp, fun rest hb => ?_⟩
  have hquote : (cs ++ rest).head? ≠ some '\'' := by
    cases cs with
    | nil => exact hb.head?_ne (by decide)
    | cons d cs =>
      rintro ⟨⟩
      exact absurd (htail '\'' (by simp)) (by decide)
  rw [scanOne_wordStart hhead, scanLetter_eq_scanWord hquote, Token.scanWord,
    List.takeWhile_append_of_pos htail, List.dropWhile_append_of_pos htail, hb.not_word,
    dropWhile_eq_self hb.not_word, List.append_nil, ← hw, String.ofList_toList]

/-- A name in backticks is one word, whatever follows it but another backtick. -/
theorem scanOne_quoted (n : String) (h : rest.head? ≠ some '`') :
    Token.scanOne '`' (Backtick.double n.toList ++ '`' :: rest) = some (.word ⟨n, true⟩, rest) := by
  show (Backtick.body? (Backtick.double n.toList ++ '`' :: rest)).map _ = _
  rw [Backtick.body?_eq_some_iff.2 ⟨rfl, h⟩, Option.map_some]
  simp

theorem lexeme_quoted (n : String) : Lexeme (Backtick.quote n.toList) (.word ⟨n, true⟩) := by
  refine ⟨by simp, fun rest hb => ?_⟩
  show Token.scanOne '`' (Backtick.double n.toList ++ ['`'] ++ rest) = _
  rw [List.append_assoc, List.singleton_append, scanOne_quoted n (hb.head?_ne (by decide))]

theorem textBody_literal (hq : '\'' ∉ cs) (hs : '\\' ∉ cs) (hrest : rest.head? ≠ some '\'')
    (hne : rest ≠ []) : Token.textBody '\'' (cs ++ '\'' :: rest) = some (cs, rest) := by
  induction cs with
  | nil =>
    obtain ⟨d, rest, rfl⟩ := List.exists_cons_of_ne_nil hne
    have hd : d ≠ '\'' := by simpa using hrest
    rw [List.nil_append, Token.textBody.eq_def]
    simp [hd]
  | cons c cs ih =>
    simp only [List.mem_cons, not_or] at hq hs
    obtain ⟨d, ds, hds⟩ : ∃ d ds, cs ++ '\'' :: rest = d :: ds :=
      List.exists_cons_of_ne_nil (by simp)
    have hread := ih hq.2 hs.2
    rw [hds] at hread
    rw [List.cons_append, hds, Token.textBody, if_neg (Ne.symm hq.1), hread, Option.map_some]
    exact fun hc => hs.1 hc.symm

theorem lexeme_text {s : String} (h : IsLiteral s) :
    Lexeme ('\'' :: s.toList ++ ['\'']) (.text .single s) := by
  refine ⟨by simp, fun rest hb => ?_⟩
  have hne : rest ≠ [] := by
    obtain ⟨c, ts, rest, -, rfl⟩ := hb
    exact List.cons_ne_nil _ _
  show Token.scanText .single (Token.textBody '\'' (s.toList ++ ['\''] ++ rest)) = _
  rw [List.append_assoc, List.singleton_append,
    textBody_literal h.1 h.2 (hb.head?_ne (by decide)) hne, Token.scanText]
  simp

theorem scanNumber_digits {ds : List Char} (hne : ds ≠ []) (hds : ∀ d ∈ ds, d.isDigit)
    (hb : Breaks rest) :
    Token.scanNumber (ds ++ rest) = (.number (String.ofList ds) false, rest) := by
  have hdot : ds ≠ ['.'] := by
    rintro rfl
    simpa using hds '.' (by simp)
  rw [Token.scanNumber, List.takeWhile_append_of_pos hds, List.dropWhile_append_of_pos hds,
    hb.not_digit, dropWhile_eq_self hb.not_digit, List.append_nil]
  obtain ⟨c, ts, rest, hb, rfl⟩ := hb
  cases hb <;> simp [hdot, Token.scanExponent]

theorem mem_digits {d : Char} (h : d.isDigit) : d ∈ "0123456789".toList := by
  have hlt : d.toNat < 58 := by
    simp only [Char.isDigit, Bool.and_eq_true, decide_eq_true_eq, UInt32.le_iff_toNat_le] at h
    exact Nat.lt_succ_of_le h.2
  have hall : ∀ n < 58, (Char.ofNat n).isDigit → Char.ofNat n ∈ "0123456789".toList := by decide
  simpa using hall d.toNat hlt (by simpa using h)

theorem scanOne_digit {c : Char} (hc : c.isDigit) :
    Token.scanOne c cs = some (Token.scanNumber (c :: cs)) := by
  have hmem := mem_digits hc
  simp only [String.reduceToList, List.mem_cons, List.not_mem_nil, or_false] at hmem
  rcases hmem with rfl | rfl | rfl | rfl | rfl | rfl | rfl | rfl | rfl | rfl <;> rfl

theorem lexeme_number (n : Nat) :
    Lexeme (Nat.toDigits 10 n) (.number (String.ofList (Nat.toDigits 10 n)) false) := by
  have hds : ∀ d ∈ Nat.toDigits 10 n, d.isDigit := fun d hd =>
    Nat.isDigit_of_mem_toDigits (by decide) (by decide) hd
  rcases hd : Nat.toDigits 10 n with _ | ⟨d, ds⟩
  · exact Nat.toDigits_ne_nil hd
  rw [hd] at hds
  refine ⟨by simp, fun rest hb => ?_⟩
  rw [scanOne_digit (hds d (by simp)), ← List.cons_append,
    scanNumber_digits (List.cons_ne_nil d ds) hds hb]

end Lexemes

/-! ## Pieces -/

section Pieces

variable {c : Char} {p q cs : List Char} {t : Token} {ts us : List Token}

theorem spaced_nil : Spaced [] [] :=
  fun _ _ hb h => ⟨hb, h⟩

theorem Spaced.append (hp : Spaced p ts) (hq : Spaced q us) : Spaced (p ++ q) (ts ++ us) := by
  intro rest vs hb h
  obtain ⟨hb', h'⟩ := hq rest vs hb h
  rw [List.append_assoc, List.append_assoc]
  exact hp _ _ hb' h'

theorem spaced_break (hb : Break c ts) : Spaced [c] ts :=
  fun _ _ _ h => ⟨⟨c, ts, _, hb, rfl⟩, h.break hb⟩

theorem spaced_lexeme (hb : Break c ts) (h : Lexeme cs t) : Spaced (c :: cs) (ts ++ [t]) := by
  intro rest us hrest hus
  have hlex := (hus.lexeme h hrest).break hb
  exact ⟨⟨c, ts, _, hb, rfl⟩, by rwa [List.append_assoc]⟩

theorem spaced_intercalate {ps : List (List Char)} {tss : List (List Token)}
    (hb : Break c us) (h : List.Forall₂ Spaced ps tss) :
    Spaced ([c].intercalate ps) (us.intercalate tss) := by
  induction h with
  | nil => exact spaced_nil
  | cons hp hps ih =>
    cases hps with
    | nil => simpa using hp
    | cons hp' hps =>
      rw [List.intercalate_cons_cons, List.intercalate_cons_cons]
      exact (hp.append (spaced_break hb)).append ih

end Pieces

end TableCapture.Sql
