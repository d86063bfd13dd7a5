import TableCapture.Proofs.Sql.Normalization
import TableCapture.Proofs.Sql.Values
import TableCapture.Sql.TableDefinition.Grammar

/-!
# The attributes of a column

The normal form leaves out the character set and the order of a column, and the rest of its
attributes is read one by one, with one exception. `UNIQUE KEY` takes the word after it for the name
of a key, whatever attribute the word belongs to. Of an attribute of one word nothing is left then,
and of `NOT NULL` and `DEFAULT NULL` only `NULL` (`Attribute.read`); of any other attribute the part
that is left is none, and no more is read. `readAs_of_writes` says what is read of attributes in a
row, and where that stops.
-/

namespace TableCapture.Sql

/-- An attribute of a column as a definition writes it. -/
inductive Attribute where
  | notNull
  | defaultNull
  | defaultText (value : String)
  | unique
  | uniqueKey
  | primaryKey
  | autoIncrement
  | comment (text : String)
  | characterSet (name : Word)
  | collate (name : Word)
deriving DecidableEq, Repr

namespace Attribute

/-- The tokens that write an attribute. -/
inductive Writes : Attribute → List Token → Prop
  | notNull {t u : Token} : t.spells "NOT" → u.spells "NULL" → Writes notNull [t, u]
  | defaultNull {t u : Token} : t.spells "DEFAULT" → u.spells "NULL" → Writes defaultNull [t, u]
  | defaultText {t : Token} {s : String} : t.spells "DEFAULT" →
      Writes (defaultText s) [t, .text .single s]
  | unique {t : Token} : t.spells "UNIQUE" → Writes unique [t]
  | uniqueKey {t u : Token} : t.spells "UNIQUE" → u.spells "KEY" → Writes uniqueKey [t, u]
  | primaryKey {t u : Token} : t.spells "PRIMARY" → u.spells "KEY" → Writes primaryKey [t, u]
  | autoIncrement {t : Token} : t.spells "AUTO_INCREMENT" → Writes autoIncrement [t]
  | comment {t : Token} {s : String} : t.spells "COMMENT" → Writes (comment s) [t, .text .single s]
  | characterSet {t u : Token} {w : Word} : t.spells "CHARACTER" → u.spells "SET" →
      Writes (characterSet w) [t, u, .word w]
  | collate {t : Token} {w : Word} : t.spells "COLLATE" → Writes (collate w) [t, .word w]

/-- The tokens that write attributes in a row. -/
inductive WritesAll : List Attribute → List Token → Prop
  | nil : WritesAll [] []
  | cons {a : Attribute} {as : List Attribute} {ts us : List Token} :
      a.Writes ts → WritesAll as us → WritesAll (a :: as) (ts ++ us)

/-- What is read of an attribute by itself. -/
def own : Attribute → Option ColumnAttribute
  | notNull => some .notNull
  | defaultNull | defaultText _ => some .default
  | unique | uniqueKey => some .unique
  | primaryKey => some .primaryKey
  | autoIncrement => some .autoIncrement
  | comment _ => some .comment
  | characterSet _ | collate _ => none

/-- What is read of an attribute without its first word. -/
def remainder : Attribute → Option ColumnAttribute
  | notNull | defaultNull => some .null
  | _ => none

/-- What is read of attributes in a row. -/
def read : List Attribute → List ColumnAttribute
  | [] => []
  | uniqueKey :: a :: as => .unique :: a.remainder.toList ++ read as
  | a :: as => a.own.toList ++ read as

/-- Whether something is left of an attribute without its first word that is no attribute. -/
def clashes : Attribute → Bool
  | notNull | defaultNull | unique | autoIncrement => false
  | _ => true

/-- No `UNIQUE KEY` stands right before an attribute that could not be read without its first
word. -/
def Clear (as : List Attribute) : Prop :=
  as.IsChain fun a b => a = uniqueKey → b.clashes = false

end Attribute

/-- What ends an item of a column list. -/
def Ends : List Token → Prop
  | .comma :: _ | .rightParen :: _ => True
  | _ => False

/-- The words that an attribute may start with, in normal form or not. -/
def attributeWords : List String :=
  ["CHARACTER", "CHARSET", "COLLATE", "NOT", "COMMENT", "NULL", "DEFAULT", "PRIMARY", "UNIQUE",
    "REFERENCES", "CHECK", "AUTO_INCREMENT", "AUTOINCREMENT", "ON", "GENERATED", "CONSTRAINT"]

/-- No attribute starts at a token. -/
def Token.NoAttribute (t : Token) : Prop :=
  ∀ k ∈ attributeWords, t.isKeyword k = false

/-- Tokens start with one that neither is the start of an attribute nor ends the item. -/
def Blocked (ts : List Token) : Prop :=
  ∃ t us, ts = t :: us ∧ t.Inert ∧ t.NoAttribute ∧ t ≠ .comma

/-- Attributes are read of the normal form of tokens, and what they leave is the normal form of the
tokens `left`. -/
def ReadAs (ts : List Token) (cs : List ColumnAttribute) (left : List Token) : Prop :=
  ∃ us, ∀ d rest, Ends rest →
    columnList (d + 1) (ts ++ rest) = us ++ columnList (d + 1) (left ++ rest)
      ∧ Stops (us ++ columnList (d + 1) (left ++ rest))
      ∧ ∀ n, us.length < n → attributes? n (us ++ columnList (d + 1) (left ++ rest))
        = some (cs, columnList (d + 1) (left ++ rest))

/-- Tokens in normal form are one attribute. -/
def IsAttribute (us : List Token) (c : ColumnAttribute) : Prop :=
  us ≠ [] ∧ ∀ rest, Stops rest → Stops (us ++ rest)
    ∧ ∀ n, attributes? (n + 1) (us ++ rest) =
      (attributes? n rest).map fun (cs, rest) => (c :: cs, rest)

section Reading

variable {t u : Token} {ts us rest left p q : List Token} {c : ColumnAttribute}
  {cs : List ColumnAttribute} {n d : Nat}

theorem ends_comma (ts : List Token) : Ends (.comma :: ts) :=
  trivial

theorem ends_rightParen (ts : List Token) : Ends (.rightParen :: ts) :=
  trivial

theorem Ends.exists_cons (h : Ends rest) :
    ∃ t ts, rest = t :: ts ∧ (t = .comma ∨ t = .rightParen) := by
  unfold Ends at h
  split at h
  · exact ⟨_, _, rfl, .inl rfl⟩
  · exact ⟨_, _, rfl, .inr rfl⟩
  · exact h.elim

theorem Ends.stops (h : Ends rest) : Stops rest := by
  obtain ⟨t, ts, rfl, rfl | rfl⟩ := h.exists_cons <;> trivial

theorem Ends.columnList (h : Ends rest) : Ends (columnList (d + 1) rest) := by
  obtain ⟨t, ts, rfl, rfl | rfl⟩ := h.exists_cons
  · rw [columnList_inert inert_comma]
    exact ends_comma _
  · cases d with
    | zero =>
      rw [columnList_last]
      exact ends_rightParen _
    | succ d =>
      rw [columnList_rightParen]
      exact ends_rightParen _

theorem Token.Is.noAttribute {k : String} (h : t.Is k) (hk : k ∉ attributeWords) :
    t.NoAttribute := by
  intro j hj
  rw [h.isKeyword, decide_eq_false_iff_not]
  rintro rfl
  exact hk hj

theorem attributes?_of_noAttribute (h : t.NoAttribute) :
    attributes? (n + 1) (t :: ts) = some ([], t :: ts) := by
  simp only [Token.NoAttribute, attributeWords, List.forall_mem_cons, List.not_mem_nil,
    false_implies, implies_true, and_true] at h
  simp [attributes?, attribute?, keywords?, keyword?, passKeywords, h]

theorem attributes?_of_ends (h : Ends rest) : attributes? (n + 1) rest = some ([], rest) := by
  obtain ⟨t, ts, rfl, rfl | rfl⟩ := h.exists_cons <;>
    exact attributes?_of_noAttribute fun _ _ => rfl

theorem readAs_nil : ReadAs [] [] [] := by
  refine ⟨[], fun d rest hrest => ⟨rfl, hrest.columnList.stops, fun n hn => ?_⟩⟩
  obtain ⟨n, rfl⟩ : ∃ k, n = k + 1 := ⟨n - 1, by simp at hn; omega⟩
  exact attributes?_of_ends hrest.columnList

theorem ReadAs.cons (h : ReadAs ts cs left)
    (hp : ∀ d rest, Ends rest →
      columnList (d + 1) (p ++ (ts ++ rest)) = q ++ columnList (d + 1) (ts ++ rest))
    (hq : IsAttribute q c) : ReadAs (p ++ ts) (c :: cs) left := by
  obtain ⟨us, h⟩ := h
  refine ⟨q ++ us, fun d rest hrest => ?_⟩
  obtain ⟨hnormal, hstops, hread⟩ := h d rest hrest
  rw [List.append_assoc, hp d rest hrest, hnormal, List.append_assoc]
  refine ⟨rfl, (hq.2 _ hstops).1, fun n hn => ?_⟩
  have hlen : 0 < q.length := List.length_pos_iff.2 hq.1
  rw [List.length_append] at hn
  obtain ⟨n, rfl⟩ : ∃ k, n = k + 1 := ⟨n - 1, by omega⟩
  rw [(hq.2 _ hstops).2, hread n (by omega), Option.map_some]

theorem ReadAs.skip (h : ReadAs ts cs left)
    (hp : ∀ d rest, columnList (d + 1) (p ++ rest) = columnList (d + 1) rest) :
    ReadAs (p ++ ts) cs left := by
  obtain ⟨us, h⟩ := h
  refine ⟨us, fun d rest hrest => ?_⟩
  rw [List.append_assoc, hp]
  exact h d rest hrest

theorem isAttribute_of_is {k : String} (ht : t.Is k) (hk : k ≠ "CONSTRAINT")
    (hstops : ∀ rest, Stops rest → Stops (t :: us ++ rest))
    (hread : ∀ rest, Stops rest → attribute? (t :: us ++ rest) = some (some c, rest)) :
    IsAttribute (t :: us) c := by
  refine ⟨List.cons_ne_nil _ _, fun rest hrest => ⟨hstops rest hrest, fun n => ?_⟩⟩
  have hconstraint : keyword? "CONSTRAINT" (t :: us ++ rest) = none := by
    simp [keyword?, ht.isKeyword, hk]
  simp only [attributes?, hconstraint, hread rest hrest]

end Reading

/-! ## One attribute -/

section One

variable {t u : Token} {rest : List Token} {s : String}

theorem isAttribute_notNull (ht : t.Is "NOT") (hu : u.Is "NULL") : IsAttribute [t, u] .notNull := by
  refine isAttribute_of_is ht (by decide) (fun _ _ => stops_not ht hu) fun rest _ => ?_
  simp [attribute?, keywords?, keyword?, ht.isKeyword, hu.isKeyword]

theorem isAttribute_null (ht : t.Is "NULL") : IsAttribute [t] .null := by
  refine isAttribute_of_is ht (by decide) (fun _ _ => stops_of_is ht (by simp)) fun rest _ => ?_
  simp [attribute?, keywords?, keyword?, ht.isKeyword]

theorem isAttribute_defaultNull (ht : t.Is "DEFAULT") (hu : u.Is "NULL") :
    IsAttribute [t, u] .default := by
  refine isAttribute_of_is ht (by decide) (fun _ _ => stops_of_is ht (by simp)) fun rest hs => ?_
  simp [attribute?, keywords?, keyword?, ht.isKeyword, passExpression_null hu hs]

theorem isAttribute_defaultText (ht : t.Is "DEFAULT") :
    IsAttribute [t, .text .single s] .default := by
  refine isAttribute_of_is ht (by decide) (fun _ _ => stops_of_is ht (by simp)) fun rest hs => ?_
  simp [attribute?, keywords?, keyword?, ht.isKeyword, passExpression_text s hs]

theorem isAttribute_unique (ht : t.Is "UNIQUE") : IsAttribute [t] .unique := by
  refine isAttribute_of_is ht (by decide) (fun _ _ => stops_of_is ht (by simp)) fun rest _ => ?_
  simp [attribute?, keywords?, keyword?, ht.isKeyword]

theorem isAttribute_primaryKey (ht : t.Is "PRIMARY") (hu : u.Is "KEY") :
    IsAttribute [t, u] .primaryKey := by
  refine isAttribute_of_is ht (by decide) (fun _ _ => stops_of_is ht (by simp)) fun rest _ => ?_
  simp [attribute?, keywords?, keyword?, ht.isKeyword, hu.isKeyword]

theorem isAttribute_autoIncrement (ht : t.Is "AUTO_INCREMENT") :
    IsAttribute [t] .autoIncrement := by
  refine isAttribute_of_is ht (by decide) (fun _ _ => stops_of_is ht (by simp)) fun rest _ => ?_
  simp [attribute?, keywords?, keyword?, ht.isKeyword]

theorem isAttribute_comment (ht : t.Is "COMMENT") :
    IsAttribute [t, .text .single s] .comment := by
  refine isAttribute_of_is ht (by decide) (fun _ _ => stops_of_is ht (by simp)) fun rest _ => ?_
  simp [attribute?, keywords?, keyword?, ht.isKeyword]

theorem stops_constraint : Stops (.ofKeyword "CONSTRAINT" :: rest) :=
  stops_of_is (Token.is_ofKeyword (k := "CONSTRAINT") (by decide)) (by simp)

theorem attributes?_named (ht : t.isWord) (rest : List Token) (n : Nat) :
    attributes? (n + 1) (.ofKeyword "CONSTRAINT" :: t :: .ofKeyword "UNIQUE" :: rest) =
      (attributes? n rest).map fun (cs, rest) => (.unique :: cs, rest) := by
  have hconstraint : (Token.ofKeyword "CONSTRAINT").Is "CONSTRAINT" :=
    Token.is_ofKeyword (by decide)
  have hunique : (Token.ofKeyword "UNIQUE").Is "UNIQUE" := Token.is_ofKeyword (by decide)
  cases t with
  | word w =>
    simp [attributes?, keyword?, hconstraint.isKeyword, name?, Token.name?, attribute?, keywords?,
      hunique.isKeyword]
  | _ => cases ht

theorem isAttribute_named (ht : t.isWord) :
    IsAttribute [.ofKeyword "CONSTRAINT", t, .ofKeyword "UNIQUE"] .unique :=
  ⟨List.cons_ne_nil _ _, fun rest _ => ⟨stops_constraint, attributes?_named ht rest⟩⟩

end One

/-! ## Attributes in a row -/

namespace Attribute

variable {a b : Attribute} {as : List Attribute} {p q ts rest left : List Token}
  {cs : List ColumnAttribute}

theorem clear_cons (ha : a ≠ uniqueKey) : Clear (a :: as) ↔ Clear as := by
  cases as with
  | nil => simp [Clear]
  | cons b as => simp [Clear, List.isChain_cons_cons, ha]

theorem clear_cons_cons :
    Clear (uniqueKey :: b :: as) ↔ b.clashes = false ∧ Clear (b :: as) := by
  simp [Clear, List.isChain_cons_cons]

theorem ne_uniqueKey_of_clashes (hb : b.clashes = false) : b ≠ uniqueKey := by
  rintro rfl
  cases hb

theorem clear_of_notMem (h : uniqueKey ∉ as) : Clear as := by
  induction as with
  | nil => exact .nil
  | cons a as ih =>
    rw [List.mem_cons, not_or] at h
    exact (clear_cons fun ha => h.1 ha.symm).2 (ih h.2)

theorem Writes.not_key (h : a.Writes ts) : ∃ t us, ts = t :: us ∧ t.isKeyOrIndex = false := by
  have hfirst : ∀ {t : Token} {k : String}, t.spells k → k ≠ "KEY" → k ≠ "INDEX" →
      t.isKeyOrIndex = false := by
    intro t k ht hkey hindex
    obtain ⟨w, rfl, hw⟩ := Token.exists_word_of_spells ht
    simp [Token.isKeyOrIndex, Token.spells, Word.spells_of_spells hw, hkey, hindex]
  cases h with
  | _ ht => exact ⟨_, _, rfl, hfirst ht (by decide) (by decide)⟩

theorem WritesAll.not_key (h : WritesAll as ts) (hrest : Ends rest) :
    ∃ t us, ts ++ rest = t :: us ∧ t.isKeyOrIndex = false := by
  cases h with
  | nil => obtain ⟨t, us, rfl, rfl | rfl⟩ := hrest.exists_cons <;> exact ⟨_, _, rfl, rfl⟩
  | cons ha _ =>
    obtain ⟨t, us, rfl, ht⟩ := ha.not_key
    exact ⟨t, _, rfl, ht⟩

/-- An attribute other than `UNIQUE KEY` is read by itself. -/
theorem readAs_own (ha : a.Writes p) (hne : a ≠ uniqueKey) (hw : WritesAll as ts)
    (h : ReadAs ts cs left) : ReadAs (p ++ ts) (a.own.toList ++ cs) left := by
  have hinert : ∀ {q : List Token} {c : ColumnAttribute}, (∀ t ∈ q, t.Inert) → IsAttribute q c →
      ReadAs (q ++ ts) (c :: cs) left := fun hq hc => h.cons (fun _ _ _ => columnList_inerts hq) hc
  cases ha with
  | notNull ht hu =>
    have ht := Token.is_of_spells ht (by decide)
    have hu := Token.is_of_spells hu (by decide)
    refine hinert ?_ (isAttribute_notNull ht hu)
    simp [inert_of_is ht, inert_of_is hu]
  | defaultNull ht hu =>
    have ht := Token.is_of_spells ht (by decide)
    have hu := Token.is_of_spells hu (by decide)
    refine hinert ?_ (isAttribute_defaultNull ht hu)
    simp [inert_of_is ht, inert_of_is hu]
  | defaultText ht =>
    have ht := Token.is_of_spells ht (by decide)
    refine hinert ?_ (isAttribute_defaultText ht)
    simp [inert_of_is ht, inert_text]
  | unique ht =>
    have ht := Token.is_of_spells ht (by decide)
    refine h.cons (fun d rest hrest => ?_) (isAttribute_unique ht)
    obtain ⟨u, us, hus, hu⟩ := hw.not_key hrest
    rw [hus]
    exact columnList_unique ht hu
  | uniqueKey ht hu => exact absurd rfl hne
  | primaryKey ht hu =>
    have ht := Token.is_of_spells ht (by decide)
    have hu := Token.is_of_spells hu (by decide)
    refine hinert ?_ (isAttribute_primaryKey ht hu)
    simp [inert_of_is ht, inert_of_is hu]
  | autoIncrement ht =>
    have ht := Token.is_of_spells ht (by decide)
    refine hinert ?_ (isAttribute_autoIncrement ht)
    simp [inert_of_is ht]
  | comment ht =>
    have ht := Token.is_of_spells ht (by decide)
    refine hinert ?_ (isAttribute_comment ht)
    simp [inert_of_is ht, inert_text]
  | characterSet ht hu =>
    have ht := Token.is_of_spells ht (by decide)
    have hu := Token.is_of_spells hu (by decide)
    exact h.skip fun _ _ => columnList_characterSet ht hu
  | collate ht =>
    have ht := Token.is_of_spells ht (by decide)
    exact h.skip fun _ _ => columnList_collate ht (by decide)

/-- `UNIQUE KEY` takes a word for its name. -/
theorem readAs_named {v : Token} (hk : uniqueKey.Writes p) (hv : v.isWord)
    (h : ReadAs ts cs left) : ReadAs (p ++ v :: ts) (.unique :: cs) left := by
  cases hk with
  | @uniqueKey t u ht hu =>
    have ht := Token.is_of_spells ht (by decide)
    have hu := Token.is_of_spells hu (by decide)
    have hp := h.cons (p := [t, u, v])
      (fun _ _ _ => columnList_uniqueKey_word ht (isKeyOrIndex_of_is hu) hv) (isAttribute_named hv)
    exact hp

theorem readAs_uniqueKey (hk : uniqueKey.Writes p) : ReadAs p [.unique] [] := by
  cases hk with
  | @uniqueKey t u ht hu =>
    have ht := Token.is_of_spells ht (by decide)
    have hu := Token.is_of_spells hu (by decide)
    refine readAs_nil.cons (p := [t, u]) (q := [t]) (fun d rest hrest => ?_) (isAttribute_unique ht)
    obtain ⟨v, us, rfl, rfl | rfl⟩ := hrest.exists_cons <;>
      exact columnList_uniqueKey ht (isKeyOrIndex_of_is hu) rfl

theorem readAs_remainder (hk : uniqueKey.Writes p) (hb : b.Writes q) (hclash : b.clashes = false)
    (h : ReadAs ts cs left) :
    ReadAs (p ++ (q ++ ts)) (.unique :: b.remainder.toList ++ cs) left := by
  have hnull : ∀ {u : Token}, u.spells "NULL" → ReadAs (u :: ts) (.null :: cs) left := by
    intro u hu
    have hu := Token.is_of_spells hu (by decide)
    exact h.cons (p := [u]) (fun _ _ _ => columnList_inerts (by simp [inert_of_is hu]))
      (isAttribute_null hu)
  cases hb with
  | notNull ht hu | defaultNull ht hu =>
    exact readAs_named hk (Token.isWord_of_spells ht) (hnull hu)
  | unique ht | autoIncrement ht => exact readAs_named hk (Token.isWord_of_spells ht) h
  | _ => cases hclash

theorem inert_of_noAttribute {w : Word} (hw : (Token.word w).NoAttribute) :
    (Token.word w).Inert := by
  refine ⟨fun k hk => ?_, by simp, by simp⟩
  have hcapital : k.toList.all isCapital ∧ k ∈ attributeWords := by
    simp only [List.mem_cons, List.not_mem_nil, or_false] at hk
    rcases hk with rfl | rfl | rfl | rfl <;> decide
  rw [← Bool.not_eq_true]
  intro hspells
  have his := (Token.is_of_spells hspells hcapital.1).isKeyword k
  rw [hw k hcapital.2] at his
  simp at his

theorem blocked_word {w : Word} (hw : (Token.word w).NoAttribute) (ts : List Token) :
    Blocked (.word w :: ts) :=
  ⟨_, ts, rfl, inert_of_noAttribute hw, hw, by simp⟩

theorem blocked_text (s : String) (ts : List Token) : Blocked (.text .single s :: ts) :=
  ⟨_, ts, rfl, inert_text s, fun _ _ => rfl, by simp⟩

theorem blocked_of_spells {t : Token} {k : String} (h : t.spells k)
    (hcapital : k.toList.all isCapital) (hk : k ∉ attributeWords) (ts : List Token) :
    Blocked (t :: ts) := by
  obtain ⟨w, rfl, -⟩ := Token.exists_word_of_spells h
  exact blocked_word ((Token.is_of_spells h hcapital).noAttribute hk) ts

theorem Writes.exists_blocked (ha : a.Writes q) (hclash : a.clashes)
    (hword : ∀ w, a = .collate w → (Token.word w).NoAttribute) :
    ∃ v us, q = v :: us ∧ v.isWord ∧ ∀ ts, Blocked (us ++ ts) := by
  cases ha with
  | uniqueKey ht hu | primaryKey ht hu | characterSet ht hu =>
    exact ⟨_, _, rfl, Token.isWord_of_spells ht,
      fun _ => blocked_of_spells hu (by decide) (by decide) _⟩
  | defaultText ht | comment ht =>
    exact ⟨_, _, rfl, Token.isWord_of_spells ht, fun _ => blocked_text _ _⟩
  | collate ht =>
    exact ⟨_, _, rfl, Token.isWord_of_spells ht, fun _ => blocked_word (hword _ rfl) _⟩
  | _ => cases hclash

/-- After `UNIQUE KEY` and the word that it takes nothing can be read. -/
theorem readAs_blocked {v : Token} (hk : uniqueKey.Writes p) (hv : v.isWord) (h : Blocked ts) :
    ReadAs (p ++ v :: ts) [.unique] ts := by
  obtain ⟨t, us, rfl, hinert, hno, -⟩ := h
  cases hk with
  | @uniqueKey t' u' ht hu =>
    have ht := Token.is_of_spells ht (by decide)
    have hu := Token.is_of_spells hu (by decide)
    refine ⟨[.ofKeyword "CONSTRAINT", v, .ofKeyword "UNIQUE"], fun d rest _ => ?_⟩
    refine ⟨columnList_uniqueKey_word ht (isKeyOrIndex_of_is hu) hv, stops_constraint,
      fun n hn => ?_⟩
    obtain ⟨n, rfl⟩ : ∃ k, n = k + 2 := ⟨n - 2, by simp at hn; omega⟩
    have hleft : columnList (d + 1) (t :: us ++ rest) = t :: columnList (d + 1) (us ++ rest) :=
      columnList_inert hinert
    have hread := attributes?_named hv (t :: columnList (d + 1) (us ++ rest)) (n + 1)
    rw [attributes?_of_noAttribute hno, Option.map_some] at hread
    rw [hleft]
    exact hread

/-- Attributes in a row are read to the end, or up to one that clashes with the `UNIQUE KEY` before
it. -/
theorem readAs_of_writes (hw : WritesAll as ts)
    (hwords : ¬ Clear as → ∀ w, collate w ∈ as → (Token.word w).NoAttribute) :
    Clear as ∧ ReadAs ts (read as) []
      ∨ ¬ Clear as ∧ ∃ cs left, ReadAs ts cs left ∧ Blocked left := by
  -- The cases are those of `read`: the attribute after `UNIQUE KEY` is met together with it.
  fun_induction read as generalizing ts with
  | case1 =>
    cases hw
    exact .inl ⟨.nil, readAs_nil⟩
  | case2 b as ih =>
    rcases hw with _ | ⟨hk, _ | ⟨hb, hw⟩⟩
    by_cases hclash : b.clashes
    · have hnot : ¬ Clear (uniqueKey :: b :: as) := by simp [clear_cons_cons, hclash]
      obtain ⟨v, us, rfl, hv, hblocked⟩ := hb.exists_blocked hclash fun w hw' =>
        hwords hnot w (by simp [hw'])
      exact .inr ⟨hnot, _, _, readAs_blocked hk hv (hblocked _), hblocked _⟩
    · rw [Bool.not_eq_true] at hclash
      have hclear : Clear (uniqueKey :: b :: as) ↔ Clear as := by
        rw [clear_cons_cons, clear_cons (ne_uniqueKey_of_clashes hclash), and_iff_right hclash]
      rw [hclear] at hwords ⊢
      rcases ih hw fun h w hmem => hwords h w (by simp [hmem]) with
        ⟨h, hread⟩ | ⟨h, cs, left, hread, hblocked⟩
      · exact .inl ⟨h, readAs_remainder hk hb hclash hread⟩
      · exact .inr ⟨h, _, _, readAs_remainder hk hb hclash hread, hblocked⟩
  | case3 a as hlast ih =>
    rcases hw with _ | ⟨ha, hw⟩
    by_cases hk : a = uniqueKey
    · subst hk
      cases as with
      | nil =>
        cases hw
        rw [List.append_nil]
        exact .inl ⟨.singleton _, readAs_uniqueKey ha⟩
      | cons b as => exact (hlast b as rfl rfl).elim
    · rw [clear_cons hk] at hwords ⊢
      rcases ih hw fun h w hmem => hwords h w (by simp [hmem]) with
        ⟨h, hread⟩ | ⟨h, cs, left, hread, hblocked⟩
      · exact .inl ⟨h, readAs_own ha hk hw hread⟩
      · exact .inr ⟨h, _, _, readAs_own ha hk hw hread, hblocked⟩

end Attribute

end TableCapture.Sql
