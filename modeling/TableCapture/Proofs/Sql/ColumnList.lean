import TableCapture.Proofs.Sql.Brackets
import TableCapture.Proofs.Sql.Normalization

/-!
# Rewriting a column list

Inside the column list the normal form leaves attributes out and names keys anew, and keeps every
other token where it is: it rewrites the list (`Rewrites`). A step takes an attribute, a key or one
token (`rewriting_induction`). What is left out are words and the arguments of attributes, so the
brackets stay as long as none of them is taken for an argument (`Rewrites.filter_eq`). Then those
that are open are those that were opened, and the normal form ends with the bracket that closes the
column list (`Rewrites.columnList_eq`).
-/

namespace TableCapture.Sql

/-- The tokens that are not blank. -/
def withoutBlanks (ts : List Token) : List Token :=
  ts.filter (· ≠ .blank)

/-- Tokens start with words that are spelled so. -/
def startsWith : List String → List Token → Bool
  | [], _ => true
  | _ :: _, [] => false
  | k :: ks, t :: ts => t.spells k && startsWith ks ts

/-- The names of the attributes that are left out. -/
def attributeNames : List (List String) :=
  [["CHARACTER", "SET"], ["CHARSET"], ["COLLATE"]]

/-- The words that do not stay as they are. -/
def rewrittenWords : List (List String) :=
  attributeNames ++ [["UNIQUE", "KEY"], ["UNIQUE", "INDEX"]]

/-- Wherever words stand among tokens, what follows them is such. -/
def After (ks : List String) (p : Option Token → Bool) (ts : List Token) : Prop :=
  ∀ us ∈ ts.tails, startsWith ks us = true → p us[ks.length]? = true

instance (ks : List String) (p : Option Token → Bool) (ts : List Token) :
    Decidable (After ks p ts) :=
  inferInstanceAs (Decidable (∀ us ∈ ts.tails, startsWith ks us = true → p us[ks.length]? = true))

/-- No token for which `p` holds stands in the place of the argument of an attribute. -/
def Argumentless (p : Token → Bool) (ts : List Token) : Prop :=
  ∀ ks ∈ attributeNames, After ks (fun o => !o.any p) ts

instance (p : Token → Bool) (ts : List Token) : Decidable (Argumentless p ts) :=
  inferInstanceAs (Decidable (∀ ks ∈ attributeNames, After ks (fun o => !o.any p) ts))

/-- Tokens are rewritten. Attributes go with their arguments, and a unique key that has a name
becomes a constraint of this name. -/
inductive Rewrites : List Token → List Token → Prop
  | nil : Rewrites [] []
  | dropped {ks ws ts us} (hks : ks ∈ attributeNames) (hws : Spelled ks ws) (v : Token)
      (h : Rewrites ts us) : Rewrites (ws ++ v :: ts) us
  | named {t u v ts us} (ht : t.spells "UNIQUE") (hu : u.isKeyOrIndex) (hv : v.isWord)
      (h : Rewrites ts us) : Rewrites (t :: u :: v :: ts)
        (Token.ofKeyword "CONSTRAINT" :: v :: Token.ofKeyword "UNIQUE" :: us)
  | unnamed {t u ts us} (ht : t.spells "UNIQUE") (hu : u.isKeyOrIndex)
      (hts : ts.head?.any Token.isWord = false) (h : Rewrites ts us) :
      Rewrites (t :: u :: ts) (t :: us)
  | keep {t ts us} (ht : ∀ ks ∈ rewrittenWords, startsWith ks (t :: ts) = false)
      (h : Rewrites ts us) : Rewrites (t :: ts) (t :: us)

variable {t u v : Token} {ts us ws rest body : List Token} {k : String} {ks : List String}
  {p : Option Token → Bool} {q : Token → Bool} {d e : Nat}

/-! ## Words and what follows them -/

theorem startsWith_iff : startsWith ks ts = true ↔ ∃ ws us, ts = ws ++ us ∧ Spelled ks ws := by
  induction ks generalizing ts with
  | nil => exact iff_of_true rfl ⟨[], ts, rfl, .nil⟩
  | cons k ks ih =>
    constructor
    · intro h
      rcases ts with _ | ⟨t, ts⟩
      · cases h
      · obtain ⟨ht, hts⟩ := Bool.and_eq_true_iff.1 h
        obtain ⟨ws, us, rfl, hws⟩ := ih.1 hts
        exact ⟨t :: ws, us, rfl, .cons ht hws⟩
    · rintro ⟨ws, us, rfl, hws⟩
      cases hws with
      | cons ht hws => exact Bool.and_eq_true_iff.2 ⟨ht, ih.2 ⟨_, us, rfl, hws⟩⟩

theorem After.of_append (h : After ks p (us ++ ts)) : After ks p ts :=
  fun vs hvs => h vs ((List.mem_tails ..).2 (((List.mem_tails ..).1 hvs).trans
    (List.suffix_append us ts)))

theorem After.head? (h : After ks p (ws ++ ts)) (hws : Spelled ks ws) : p ts.head? = true := by
  have hp := h _ ((List.mem_tails ..).2 List.suffix_rfl) (startsWith_iff.2 ⟨ws, ts, rfl, hws⟩)
  rw [hws.length_eq, List.getElem?_append_right (Nat.le_refl _), Nat.sub_self] at hp
  rwa [List.head?_eq_getElem?]

theorem Argumentless.of_append (us : List Token) (h : Argumentless q (us ++ ts)) :
    Argumentless q ts :=
  fun ks hks => (h ks hks).of_append

theorem Argumentless.head? (h : Argumentless q (ws ++ ts)) (hks : ks ∈ attributeNames)
    (hws : Spelled ks ws) : ts.head?.any q = false := by
  simpa using (h ks hks).head? hws

theorem Argumentless.of_append_left (h : Argumentless q (ts ++ us)) : Argumentless q ts := by
  intro ks hks vs hvs hstart
  obtain ⟨ws, rest, rfl, hws⟩ := startsWith_iff.1 hstart
  obtain ⟨init, rfl⟩ := (List.mem_tails ..).1 hvs
  rw [List.append_assoc, List.append_assoc] at h
  have hhead := (h.of_append init).head? hks hws
  rw [hws.length_eq, List.getElem?_append_right (Nat.le_refl _), Nat.sub_self]
  cases rest with
  | nil => rfl
  | cons v rest => simpa using hhead

theorem isWord_of_spelled (h : Spelled ks ws) : ∀ w ∈ ws, w.isWord := by
  induction h with
  | nil => simp
  | cons hw _ ih =>
    rw [List.forall_mem_cons]
    exact ⟨Token.isWord_of_spells hw, ih⟩

theorem isWord_of_isKeyOrIndex (h : u.isKeyOrIndex) : u.isWord := by
  rcases Bool.or_eq_true_iff.1 h with h | h <;> exact Token.isWord_of_spells h

/-! ## What rewriting keeps -/

/-- Of tokens that are neither words nor arguments rewriting keeps all. -/
theorem Rewrites.filter_eq (h : Rewrites ts us) (hword : ∀ t, t.isWord → q t = false)
    (ha : Argumentless q ts) : us.filter q = ts.filter q := by
  have hskip : ∀ {ws ts : List Token}, (∀ w ∈ ws, w.isWord) →
      (ws ++ ts).filter q = ts.filter q := by
    intro ws ts hws
    rw [List.filter_append, List.filter_eq_nil_iff.2 fun w hw => by simp [hword w (hws w hw)],
      List.nil_append]
  induction h with
  | nil => rfl
  | @dropped ks ws ts us hks hws v h ih =>
    have hv : q v = false := by simpa using ha.head? hks hws
    rw [hskip (isWord_of_spelled hws), List.filter_cons_of_neg (by simp [hv])]
    exact ih ((ha.of_append ws).of_append [v])
  | @named t u v ts us ht hu hv h ih =>
    have hold : ∀ w ∈ [t, u, v], w.isWord := by
      simp [Token.isWord_of_spells ht, isWord_of_isKeyOrIndex hu, hv]
    have hnew : ∀ w ∈ [Token.ofKeyword "CONSTRAINT", v, Token.ofKeyword "UNIQUE"], w.isWord := by
      simpa [Token.ofKeyword, Token.isWord] using hv
    exact (hskip hnew).trans ((ih (ha.of_append [t, u, v])).trans (hskip hold).symm)
  | @unnamed t u ts us ht hu hts h ih =>
    have ht := Token.isWord_of_spells ht
    have hold : ∀ w ∈ [t, u], w.isWord := by simp [ht, isWord_of_isKeyOrIndex hu]
    have hnew : ∀ w ∈ [t], w.isWord := by simp [ht]
    exact (hskip hnew).trans ((ih (ha.of_append [t, u])).trans (hskip hold).symm)
  | @keep t ts us ht h ih =>
    rw [List.filter_cons, List.filter_cons, ih (ha.of_append [t])]

/-! ## The list is rewritten -/

/-- An attribute goes with its argument, and also where nothing is left to be its argument. -/
theorem columnList_attribute (hks : ks ∈ attributeNames) (hws : Spelled ks ws) :
    columnList (d + 1) (ws ++ ts) = columnList (d + 1) ts.tail := by
  simp only [attributeNames, List.mem_cons, List.not_mem_nil, or_false] at hks
  rcases hks with rfl | rfl | rfl
  · obtain _ | ⟨ht, _ | ⟨hu, ⟨⟩⟩⟩ := hws
    have ht := Token.is_of_spells ht (by decide)
    have hu := Token.is_of_spells hu (by decide)
    rcases ts with _ | ⟨v, ts⟩
    · simp [columnList, ht.spells, hu.spells]
    · exact columnList_characterSet ht hu
  all_goals
    obtain _ | ⟨ht, ⟨⟩⟩ := hws
    have ht := Token.is_of_spells ht (by decide)
    rcases ts with _ | ⟨v, ts⟩
    · simp [columnList, ht.spells]
    · exact columnList_collate ht (by decide)

theorem columnList_named (ht : t.spells "UNIQUE") (hu : u.isKeyOrIndex) (hv : v.isWord) :
    columnList (d + 1) (t :: u :: v :: ts) = Token.ofKeyword "CONSTRAINT" :: v ::
      Token.ofKeyword "UNIQUE" :: columnList (d + 1) ts :=
  columnList_uniqueKey_word (Token.is_of_spells ht (by decide)) hu hv

/-- Of a unique key without a name `UNIQUE` stays. -/
theorem columnList_unnamed (ht : t.spells "UNIQUE") (hu : u.isKeyOrIndex)
    (hts : ts.head?.any Token.isWord = false) :
    columnList (d + 1) (t :: u :: ts) = t :: columnList (d + 1) ts := by
  have ht := Token.is_of_spells ht (by decide)
  rcases ts with _ | ⟨v, ts⟩
  · simp [columnList, ht.spells, hu]
  · exact columnList_uniqueKey ht hu (by simpa using hts)

theorem columnList_keep (ht : ∀ ks ∈ rewrittenWords, startsWith ks (t :: ts) = false)
    (hb : t.isBracket = false) :
    columnList (d + 1) (t :: ts) = t :: columnList (d + 1) ts := by
  have hl : t ≠ .leftParen := by
    rintro rfl
    cases hb
  have hr : t ≠ .rightParen := by
    rintro rfl
    cases hb
  simp only [rewrittenWords, attributeNames, List.cons_append, List.nil_append,
    List.forall_mem_cons, List.not_mem_nil, false_implies, implies_true, and_true,
    startsWith, Bool.and_true] at ht
  obtain ⟨hcharacter, hcharset, hcollate, hkey, hindex⟩ := ht
  rw [columnList.eq_def]
  rcases ts with _ | ⟨u, rest⟩
  · simp [hcharset, hcollate, hl, hr, columnList]
  have hset : t.spells "CHARACTER" → u.spells "SET" = false := by
    simpa [startsWith] using hcharacter
  have hunique : t.spells "UNIQUE" → u.isKeyOrIndex = false := by
    intro h
    simpa [startsWith, Token.isKeyOrIndex, h] using And.intro hkey hindex
  rcases rest with _ | ⟨v, rest⟩ <;> simp +contextual [hcharset, hcollate, hl, hr, hset, hunique]

/-- What follows a token that stays is inside one bracket more, or one fewer, if it is a bracket. -/
theorem columnList_kept (ht : ∀ ks ∈ rewrittenWords, startsWith ks (t :: ts) = false) :
    columnList (d + 1) (t :: ts) = t ::
      if t = .leftParen then columnList (d + 2) ts
      else if t = .rightParen then if d = 0 then [] else columnList d ts
      else columnList (d + 1) ts := by
  by_cases hl : t = .leftParen
  · subst hl
    rw [if_pos rfl, columnList_leftParen]
  by_cases hr : t = .rightParen
  · subst hr
    rw [if_neg hl, if_pos rfl]
    cases d with
    | zero => exact columnList_last
    | succ d => exact columnList_rightParen
  · rw [if_neg hl, if_neg hr, columnList_keep ht (isBracket_eq_false hl hr)]

theorem Closes.of_words (h : Closes e (ws ++ ts)) (hws : ∀ w ∈ ws, w.isWord) : Closes e ts := by
  have hnone : brackets ws = [] :=
    List.filter_eq_nil_iff.2 fun w hw => by simp [isBracket_of_isWord (hws w hw)]
  exact h.congr (by rw [brackets_append, hnone, List.nil_append])

/-- A token that is no word ends the words before it. -/
theorem startsWith_append (hv : v.isWord = false) :
    startsWith ks (ts ++ v :: rest) = startsWith ks ts := by
  have hspells : ∀ k, v.spells k = false := fun k =>
    Bool.eq_false_iff.2 fun h => by simp [Token.isWord_of_spells h] at hv
  induction ks generalizing ts with
  | nil => rfl
  | cons k ks ih =>
    rcases ts with _ | ⟨t, ts⟩
    · simp [startsWith, hspells]
    · rw [List.cons_append, startsWith, startsWith, ih]

theorem startsWith_cases (ts : List Token) :
    (∃ ks ∈ attributeNames, ∃ ws us, ts = ws ++ us ∧ Spelled ks ws)
      ∨ (∃ t u us, ts = t :: u :: us ∧ t.spells "UNIQUE" ∧ u.isKeyOrIndex)
      ∨ ∀ ks ∈ rewrittenWords, startsWith ks ts = false := by
  by_cases h : ∃ ks ∈ rewrittenWords, startsWith ks ts = true
  · obtain ⟨ks, hks, hts⟩ := h
    obtain ⟨ws, us, rfl, hws⟩ := startsWith_iff.1 hts
    rcases List.mem_append.1 hks with hks | hks
    · exact .inl ⟨ks, hks, ws, us, rfl, hws⟩
    · simp only [List.mem_cons, List.not_mem_nil, or_false] at hks
      rcases hks with rfl | rfl <;> obtain _ | ⟨ht, _ | ⟨hu, ⟨⟩⟩⟩ := hws
      all_goals exact .inr (.inl ⟨_, _, us, rfl, ht, by simp [Token.isKeyOrIndex, hu]⟩)
  · exact .inr (.inr (by simpa using h))

/-- Tokens are taken as the normal form takes them: an attribute with what follows it, a unique key
with its name, or one token. -/
@[elab_as_elim] theorem rewriting_induction {motive : List Token → Prop} (nil : motive [])
    (dropped : ∀ {ks ws ts}, ks ∈ attributeNames → Spelled ks ws → motive ts.tail →
      motive (ws ++ ts))
    (named : ∀ {t u v ts}, t.spells "UNIQUE" → u.isKeyOrIndex → v.isWord → motive ts →
      motive (t :: u :: v :: ts))
    (unnamed : ∀ {t u ts}, t.spells "UNIQUE" → u.isKeyOrIndex →
      ts.head?.any Token.isWord = false → motive ts → motive (t :: u :: ts))
    (keep : ∀ {t ts}, (∀ ks ∈ rewrittenWords, startsWith ks (t :: ts) = false) → motive ts →
      motive (t :: ts))
    (ts : List Token) : motive ts := by
  induction hn : ts.length using Nat.strong_induction_on generalizing ts with
  | h n ih =>
  subst hn
  rcases startsWith_cases ts with ⟨ks, hks, ws, ts, rfl, hws⟩ | ⟨t, u, ts, rfl, ht, hu⟩ | hkeep
  · have hlt : ts.tail.length < (ws ++ ts).length := by
      have hpos : ∀ ks ∈ attributeNames, 0 < ks.length := by decide
      have hks := hpos ks hks
      rw [List.length_tail, List.length_append, ← hws.length_eq]
      omega
    exact dropped hks hws (ih _ hlt _ rfl)
  · by_cases hv : ts.head?.any Token.isWord
    · rcases ts with _ | ⟨v, ts⟩
      · cases hv
      have hlt : ts.length < (t :: u :: v :: ts).length := by
        simp only [List.length_cons]
        omega
      exact named ht hu (by simpa using hv) (ih _ hlt _ rfl)
    · have hlt : ts.length < (t :: u :: ts).length := by
        simp only [List.length_cons]
        omega
      exact unnamed ht hu (by simpa using hv) (ih _ hlt _ rfl)
  · rcases ts with _ | ⟨t, ts⟩
    · exact nil
    · exact keep hkeep (ih _ (Nat.lt_succ_self _) _ rfl)

/-- Where no attribute lacks its argument, tokens are rewritten. -/
theorem exists_rewrites (ha : Argumentless q (ts ++ [t])) (ht : q t) : ∃ us, Rewrites ts us := by
  induction ts using rewriting_induction with
  | nil => exact ⟨[], .nil⟩
  | @dropped ks ws ts hks hws ih =>
    rw [List.append_assoc] at ha
    have hv := ha.head? hks hws
    rcases ts with _ | ⟨v, ts⟩
    · simp [ht] at hv
    obtain ⟨us, hus⟩ := ih ((ha.of_append ws).of_append [v])
    exact ⟨us, .dropped hks hws v hus⟩
  | @named t u v ts ht hu hv ih =>
    obtain ⟨us, hus⟩ := ih (ha.of_append [t, u, v])
    exact ⟨_, .named ht hu hv hus⟩
  | @unnamed t u ts ht hu hv ih =>
    obtain ⟨us, hus⟩ := ih (ha.of_append [t, u])
    exact ⟨_, .unnamed ht hu hv hus⟩
  | @keep t ts hkeep ih =>
    obtain ⟨us, hus⟩ := ih (ha.of_append [t])
    exact ⟨_, .keep hkeep hus⟩

/-- Tokens that close all brackets but the one around the column list are rewritten in the normal
form, and it ends with the bracket after them. -/
theorem Rewrites.columnList_eq (h : Rewrites ts us) (hts : Closes e ts)
    (ha : Argumentless Token.isBracket ts) :
    columnList (e + 1) (ts ++ .rightParen :: rest) = us ++ [.rightParen] := by
  induction h generalizing e with
  | nil =>
    obtain rfl := closes_nil.1 hts
    exact columnList_last
  | @dropped ks ws ts us hks hws v h ih =>
    have hv : v.isBracket = false := by simpa using ha.head? hks hws
    rw [List.append_assoc, List.cons_append, columnList_attribute hks hws, List.tail_cons]
    exact ih ((closes_cons_of_not hv).1 (hts.of_words (isWord_of_spelled hws)))
      ((ha.of_append ws).of_append [v])
  | @named t u v ts us ht hu hv h ih =>
    have hword : ∀ w ∈ [t, u, v], w.isWord := by
      simp [Token.isWord_of_spells ht, isWord_of_isKeyOrIndex hu, hv]
    have hlist := ih (hts.of_words hword) (ha.of_append [t, u, v])
    rw [List.cons_append, List.cons_append, List.cons_append,
      columnList_named ht hu hv, hlist]
    rfl
  | @unnamed t u ts us ht hu hv h ih =>
    have hword : ∀ w ∈ [t, u], w.isWord := by
      simp [Token.isWord_of_spells ht, isWord_of_isKeyOrIndex hu]
    have hlist := ih (hts.of_words hword) (ha.of_append [t, u])
    -- What follows the key is the next token, or the bracket when there is none.
    have hnext : (ts ++ .rightParen :: rest).head?.any Token.isWord = false := by
      cases ts with
      | nil => rfl
      | cons v ts => exact hv
    rw [List.cons_append, List.cons_append, List.cons_append, columnList_unnamed ht hu hnext, hlist]
  | @keep t ts us hkeep h ih =>
    replace ha := ha.of_append [t]
    by_cases hl : t = .leftParen
    · subst hl
      rw [List.cons_append, columnList_leftParen, ih (closes_leftParen.1 hts) ha, List.cons_append]
    by_cases hr : t = .rightParen
    · subst hr
      rcases e with _ | e
      · exact absurd hts not_closes_rightParen
      rw [List.cons_append, columnList_rightParen, ih (closes_rightParen.1 hts) ha,
        List.cons_append]
    · have hb := isBracket_eq_false hl hr
      have hkeep : ∀ ks ∈ rewrittenWords,
          startsWith ks (t :: (ts ++ .rightParen :: rest)) = false := fun ks hks => by
        rw [← List.cons_append, startsWith_append rfl]
        exact hkeep ks hks
      rw [List.cons_append, columnList_keep hkeep hb, ih ((closes_cons_of_not hb).1 hts) ha,
        List.cons_append]

end TableCapture.Sql
