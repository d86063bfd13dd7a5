import TableCapture.Proofs.Sql.Closing

/-!
# Attributes that say nothing

The normal form looks up to three tokens ahead, but only from the words that start an attribute or
the name of a key. So tokens that do not end in one of these words, or in one that may follow it
(`Settled`), are taken without a look at what comes after them: where two rests have one normal
form, they have one after such tokens too (`columnList_append_congr`). Attributes that are left out
have the normal form of nothing. So it makes no difference whether they stand after settled tokens
in a column list or not (`readChanges_insert_attributes`), whatever brackets the tokens hold.
-/

namespace TableCapture.Sql

/-- The words on which it depends what becomes of the tokens after them. -/
def steeringWords : List String :=
  ["CHARACTER", "SET", "CHARSET", "COLLATE", "UNIQUE", "KEY", "INDEX"]

/-- Whether it depends on a token what becomes of those after it. -/
def Token.steers (t : Token) : Bool :=
  steeringWords.any t.spells

/-- The last token has no say in what becomes of those after it. -/
def Settled (ts : List Token) : Prop :=
  ∀ t ∈ ts.getLast?, t.steers = false

instance (ts : List Token) : Decidable (Settled ts) :=
  decidable_of_iff (ts.getLast?.all fun t => !t.steers) (by simp [Settled, Option.all_eq_true])

/-- Attributes with their arguments, one after the other. -/
inductive LeftOut : List Token → Prop
  | nil : LeftOut []
  | cons {ks ws ts} (hks : ks ∈ attributeNames) (hws : Spelled ks ws) (v : Token)
      (h : LeftOut ts) : LeftOut (ws ++ v :: ts)

variable {t u : Token} {ts us ws pre ins post : List Token} {k : String} {ks : List String}
  {d : Nat}

theorem mem_steeringWords (hks : ks ∈ rewrittenWords) : ∀ k ∈ ks, k ∈ steeringWords := by
  revert ks
  decide

theorem mem_steeringWords_of_attribute (hks : ks ∈ attributeNames) :
    ∀ k ∈ ks, k ∈ steeringWords :=
  mem_steeringWords (List.mem_append_left _ hks)

theorem steers_of_spells (h : t.spells k) (hk : k ∈ steeringWords) : t.steers :=
  List.any_eq_true.2 ⟨k, hk, h⟩

theorem steers_of_isKeyOrIndex (h : t.isKeyOrIndex) : t.steers := by
  rcases Bool.or_eq_true_iff.1 h with h | h <;> exact steers_of_spells h (by decide)

theorem steers_of_spelled (h : Spelled ks ws) (hks : ∀ k ∈ ks, k ∈ steeringWords) :
    ∀ w ∈ ws, w.steers := by
  induction h with
  | nil => simp
  | cons hw _ ih =>
    rw [List.forall_mem_cons] at hks ⊢
    exact ⟨steers_of_spells hw hks.1, ih hks.2⟩

theorem Settled.of_append (us : List Token) (h : Settled (us ++ ts)) : Settled ts := by
  intro t ht
  refine h t ?_
  rw [List.getLast?_append, Option.mem_def.1 ht]
  rfl

/-- Settled tokens do not end in words that have a say in what follows. -/
theorem Settled.exists_cons (h : Settled (ws ++ ts)) (hws : ∀ w ∈ ws, w.steers) (hne : ws ≠ []) :
    ∃ v us, ts = v :: us := by
  rcases ts with _ | ⟨v, us⟩
  · rw [List.append_nil] at h
    have hlast := h _ (List.getLast?_eq_some_getLast hne)
    rw [hws _ (List.getLast_mem hne)] at hlast
    cases hlast
  · exact ⟨v, us, rfl⟩

theorem startsWith_append_of_le (h : ks.length ≤ ts.length) :
    startsWith ks (ts ++ us) = startsWith ks ts := by
  induction ks generalizing ts with
  | nil => rfl
  | cons k ks ih =>
    rcases ts with _ | ⟨t, ts⟩
    · cases h
    · rw [List.cons_append, startsWith, startsWith, ih (Nat.le_of_succ_le_succ h)]

/-- A settled token that stays does so whatever comes after. -/
theorem Settled.keep (h : Settled (t :: pre))
    (hkeep : ∀ ks ∈ rewrittenWords, startsWith ks (t :: pre) = false) (ts : List Token) :
    ∀ ks ∈ rewrittenWords, startsWith ks (t :: (pre ++ ts)) = false := by
  intro ks hks
  rcases pre with _ | ⟨u, pre⟩
  · have hfirst : ∀ ks ∈ rewrittenWords, ∃ k ∈ steeringWords, ks.head? = some k := by decide
    obtain ⟨k, hk, hhead⟩ := hfirst ks hks
    obtain ⟨js, rfl⟩ := List.head?_eq_some_iff.1 hhead
    have ht : t.spells k = false :=
      Bool.eq_false_iff.2 fun hs => Bool.eq_false_iff.1 (h t rfl) (steers_of_spells hs hk)
    rw [startsWith, ht, Bool.false_and]
  · have hle : ∀ ks ∈ rewrittenWords, ks.length ≤ 2 := by decide
    rw [← List.cons_append, startsWith_append_of_le ((hle ks hks).trans (by simp)), hkeep ks hks]

/-- Where two rests have one normal form, so they have after settled tokens. -/
theorem columnList_append_congr (h : Settled pre)
    (hts : ∀ e, columnList (e + 1) ts = columnList (e + 1) us) :
    columnList (d + 1) (pre ++ ts) = columnList (d + 1) (pre ++ us) := by
  induction pre using rewriting_induction generalizing d with
  | nil => exact hts d
  | @dropped ks ws pre hks hws ih =>
    have hne : ws ≠ [] := by
      rintro rfl
      cases hws
      exact absurd hks (by decide)
    have hsteer := steers_of_spelled hws (mem_steeringWords_of_attribute hks)
    -- The argument of the attribute is settled as well, so it is not to be looked for in a rest.
    obtain ⟨v, pre, rfl⟩ := h.exists_cons hsteer hne
    rw [List.append_assoc, List.append_assoc, columnList_attribute hks hws,
      columnList_attribute hks hws]
    exact ih ((h.of_append ws).of_append [v])
  | @named t u v pre ht hu hv ih =>
    rw [List.cons_append, List.cons_append, List.cons_append, columnList_named ht hu hv,
      ih (h.of_append [t, u, v])]
    exact (columnList_named ht hu hv).symm
  | @unnamed t u pre ht hu hv ih =>
    have hsteer : ∀ w ∈ [t, u], w.steers := by
      simp [steers_of_spells ht (by decide), steers_of_isKeyOrIndex hu]
    have hkey : Settled ([t, u] ++ pre) := h
    obtain ⟨v, pre, rfl⟩ := hkey.exists_cons hsteer (by simp)
    have hnext : ∀ vs, (v :: pre ++ vs).head?.any Token.isWord = false := fun _ => hv
    show columnList (d + 1) (t :: u :: (v :: pre ++ ts))
      = columnList (d + 1) (t :: u :: (v :: pre ++ us))
    rw [columnList_unnamed ht hu (hnext ts), columnList_unnamed ht hu (hnext us),
      ih (h.of_append [t, u])]
  | @keep t pre hkeep ih =>
    have hkeep := h.keep hkeep
    rw [List.cons_append, List.cons_append, columnList_kept (hkeep ts), columnList_kept (hkeep us)]
    have ih : ∀ e, columnList (e + 1) (pre ++ ts) = columnList (e + 1) (pre ++ us) :=
      fun e => ih (h.of_append [t])
    split_ifs with hl hr hd
    · rw [ih]
    -- The column list is closed, and the rests are not read.
    · rfl
    · obtain ⟨e, rfl⟩ := Nat.exists_eq_succ_of_ne_zero hd
      rw [ih]
    · rw [ih]

theorem LeftOut.columnList_eq (h : LeftOut ins) :
    columnList (d + 1) (ins ++ post) = columnList (d + 1) post := by
  induction h with
  | nil => rfl
  | @cons ks ws ts hks hws v h ih =>
    rw [List.append_assoc, columnList_attribute hks hws]
    exact ih

theorem withoutBlanks_append : withoutBlanks (ts ++ us) = withoutBlanks ts ++ withoutBlanks us :=
  List.filter_append ..

/-- Where two rests have one normal form inside brackets, so they have after an opening one. -/
theorem normalize_append_congr (hopen : .leftParen ∈ pre) (hpre : Settled (withoutBlanks pre))
    (hts : ∀ e, columnList (e + 1) (withoutBlanks ts) = columnList (e + 1) (withoutBlanks us)) :
    normalize (pre ++ ts) = normalize (pre ++ us) := by
  obtain ⟨before, body, heq, hbefore⟩ :=
    List.eq_append_cons_of_mem ((mem_withoutBlanks (by simp)).2 hopen)
  rw [heq] at hpre
  have hbody : Settled body := (hpre.of_append before).of_append [.leftParen]
  have hsplit : ∀ vs, normalize (pre ++ vs)
      = before ++ .leftParen :: columnList 1 (body ++ withoutBlanks vs) := fun vs => by
    rw [normalize, ← withoutBlanks, withoutBlanks_append, heq, List.append_assoc, List.cons_append,
      columnList_before fun t ht => ne_of_mem_of_not_mem ht hbefore]
  rw [hsplit, hsplit, columnList_append_congr hbody hts]

/-- Attributes that are left out may stand in a column list after settled tokens or not: the normal
form is the same, and so are the changes that the text makes. -/
theorem readChanges_insert_attributes (hopen : .leftParen ∈ pre)
    (hpre : Settled (withoutBlanks pre)) (hins : LeftOut (withoutBlanks ins)) (post : List Token) :
    normalize (pre ++ ins ++ post) = normalize (pre ++ post)
      ∧ ∀ text text' catalog schema, Token.scan text = some (pre ++ ins ++ post) →
        Token.scan text' = some (pre ++ post) →
        readChanges text catalog schema = readChanges text' catalog schema := by
  have hsame : normalize (pre ++ ins ++ post) = normalize (pre ++ post) := by
    rw [List.append_assoc]
    refine normalize_append_congr hopen hpre fun e => ?_
    rw [withoutBlanks_append, hins.columnList_eq]
  refine ⟨hsame, fun text text' catalog schema htext htext' => ?_⟩
  rw [readChanges, readChanges, htext, htext']
  simp only [hsame]

def lampsColumn : List Token :=
  lampsOpening ++ [.leftParen, .ofKeyword "a", .blank, .ofKeyword "varchar", .leftParen,
    .number "3" false, .rightParen]

/-- Attributes with brackets for their arguments. -/
def bracketAttributes : List Token :=
  [.blank, .ofKeyword "Character", .blank, .ofKeyword "Set", .leftParen, .ofKeyword "collate",
    .rightParen]

def lampsRest : List Token :=
  [.blank, .ofKeyword "NOT", .blank, .ofKeyword "NULL", .rightParen]

theorem readChanges_insert_attributes_lamps :
    normalize (lampsColumn ++ bracketAttributes ++ lampsRest) = normalize (lampsColumn ++ lampsRest)
      ∧ readChanges "create table lamps (a varchar(3) Character Set(collate) NOT NULL)" none none
        = readChanges "create table lamps (a varchar(3) NOT NULL)" none none := by
  have hopen : .leftParen ∈ lampsColumn := by decide +kernel
  have hpre : Settled (withoutBlanks lampsColumn) := by decide +kernel
  have hins : LeftOut (withoutBlanks bracketAttributes) := by
    have hcollate : LeftOut ([.ofKeyword "collate"] ++ .rightParen :: []) :=
      .cons (by decide : ["COLLATE"] ∈ attributeNames) (.cons (by decide) .nil) _ .nil
    exact .cons (by decide : ["CHARACTER", "SET"] ∈ attributeNames)
      (.cons (by decide) (.cons (by decide) .nil)) _ hcollate
  obtain ⟨hsame, hread⟩ := readChanges_insert_attributes hopen hpre hins lampsRest
  refine ⟨hsame, hread _ _ none none ?_ ?_⟩
  · decide +kernel
  · decide +kernel

end TableCapture.Sql
