import TableCapture.Text.Decimal

/-!
# What decimal numbers write

`Decimal.Writes` is the grammar of decimal integers with the number that each text writes. Reading
accepts exactly these texts and gives exactly these numbers (`Decimal.int?_eq_some_iff`), within the
bounds of the word that is read (`Decimal.int64?_eq_some_iff`). `Decimal.Numeral` builds the same
grammar up digit by digit, so that the number does not hang on how it is computed
(`Decimal.numeral_iff_writes`). A natural number written with its digits reads back
(`Decimal.nat?_toDigits`), and an integer is written by the text that shows it
(`Decimal.writes_toString`).
-/

namespace TableCapture.Decimal

/-- Digits, after at most one sign, and the number they write. -/
def Writes (cs : List Char) (v : Int) : Prop :=
  ∃ ds : List Char, ds ≠ [] ∧ (∀ d ∈ ds, d.isDigit)
    ∧ ((cs = ds ∨ cs = '+' :: ds) ∧ v = Nat.ofDigitChars 10 ds 0
      ∨ cs = '-' :: ds ∧ v = -(Nat.ofDigitChars 10 ds 0 : Int))

variable {cs : List Char} {n : Nat} {v w : Int}

theorem nat?_eq_some_iff :
    nat? cs = some n ↔ cs ≠ [] ∧ (∀ d ∈ cs, d.isDigit) ∧ n = Nat.ofDigitChars 10 cs 0 := by
  rw [nat?, Option.ite_none_right_eq_some, Option.some.injEq, List.all_eq_true, and_assoc]
  exact and_congr_right fun _ => and_congr_right fun _ => eq_comm

theorem int?_unsigned (hp : cs.head? ≠ some '+') (hm : cs.head? ≠ some '-') :
    int? cs = (nat? cs).map Int.ofNat := by
  unfold int?
  split
  · simp at hp
  · simp at hm
  · rfl

theorem int?_eq_some_iff : int? cs = some v ↔ Writes cs v := by
  constructor
  · intro h
    unfold int? at h
    split at h
    · obtain ⟨n, hn, rfl⟩ := Option.map_eq_some_iff.1 h
      obtain ⟨hne, hds, rfl⟩ := nat?_eq_some_iff.1 hn
      exact ⟨_, hne, hds, .inl ⟨.inr rfl, rfl⟩⟩
    · obtain ⟨w, hw, rfl⟩ := Option.map_eq_some_iff.1 h
      obtain ⟨n, hn, hnw⟩ := Option.bind_eq_some_iff.1 hw
      obtain ⟨hne, hds, rfl⟩ := nat?_eq_some_iff.1 hn
      exact ⟨_, hne, hds, .inr ⟨rfl, by rw [← Option.some.inj hnw]⟩⟩
    · obtain ⟨n, hn, rfl⟩ := Option.map_eq_some_iff.1 h
      obtain ⟨hne, hds, rfl⟩ := nat?_eq_some_iff.1 hn
      exact ⟨_, hne, hds, .inl ⟨.inl rfl, rfl⟩⟩
  · rintro ⟨ds, hne, hds, ⟨rfl | rfl, rfl⟩ | ⟨rfl, rfl⟩⟩
    · have hhead : ∀ c, cs.head? = some c → c.isDigit :=
        fun c hc => hds c (List.mem_of_mem_head? hc)
      rw [int?_unsigned (fun hc => by simpa using hhead _ hc) (fun hc => by simpa using hhead _ hc),
        nat?_eq_some_iff.2 ⟨hne, hds, rfl⟩]
      rfl
    · rw [int?, nat?_eq_some_iff.2 ⟨hne, hds, rfl⟩]
      rfl
    · rw [int?, nat?_eq_some_iff.2 ⟨hne, hds, rfl⟩]
      rfl

theorem Writes.unique (h : Writes cs v) (h' : Writes cs w) : v = w :=
  Option.some.inj ((int?_eq_some_iff.2 h).symm.trans (int?_eq_some_iff.2 h'))

theorem int64?_eq_some_iff :
    int64? cs = some v ↔ Writes cs v ∧ minInt64 ≤ v ∧ v ≤ maxInt64 := by
  simp [int64?, Option.filter_eq_some_iff, int?_eq_some_iff]

theorem nat?_toDigits (n : Nat) : nat? (Nat.toDigits 10 n) = some n := by
  refine nat?_eq_some_iff.2 ⟨Nat.toDigits_ne_nil, fun d hd => ?_, ?_⟩
  · exact Nat.isDigit_of_mem_toDigits (by decide) (by decide) hd
  · rw [Nat.ofDigitChars_toDigits (by decide) (by decide)]

/-- An integer is written by its own text. -/
theorem writes_toString (v : Int) : Writes (toString v).toList v := by
  cases v with
  | ofNat n =>
    obtain ⟨hne, hds, hn⟩ := nat?_eq_some_iff.1 (nat?_toDigits n)
    have htext : (toString (Int.ofNat n)).toList = Nat.toDigits 10 n := Nat.toList_repr
    exact ⟨_, hne, hds, .inl ⟨.inl htext, congrArg _ hn⟩⟩
  | negSucc n =>
    obtain ⟨hne, hds, hn⟩ := nat?_eq_some_iff.1 (nat?_toDigits (n + 1))
    have htext : (toString (Int.negSucc n)).toList = '-' :: Nat.toDigits 10 (n + 1) := by
      show ("-" ++ Nat.repr (n + 1)).toList = _
      rw [String.toList_append, Nat.toList_repr]
      rfl
    refine ⟨_, hne, hds, .inr ⟨htext, ?_⟩⟩
    rw [← hn, Int.negSucc_eq]
    rfl

theorem uint64?_toDigits (n : UInt64) : uint64? (Nat.toDigits 10 n.toNat) = some n.toNat := by
  have hle : n.toNat ≤ maxUInt64 := Nat.le_of_lt_succ n.toNat_lt
  rw [uint64?, nat?_toDigits, Option.filter_some, if_pos (decide_eq_true hle)]

/-! ## Numerals -/

/-- Digits and the number they write: a digit at the end counts ones, and what stands before it
counts tens. -/
inductive Digits : List Char → Nat → Prop
  | one {d : Char} : d.isDigit → Digits [d] (d.toNat - '0'.toNat)
  | more {ds : List Char} {n : Nat} {d : Char} :
      Digits ds n → d.isDigit → Digits (ds ++ [d]) (10 * n + (d.toNat - '0'.toNat))

/-- At most one sign and digits, and the number they write. -/
inductive Numeral : List Char → Int → Prop
  | unsigned {ds : List Char} {n : Nat} : Digits ds n → Numeral ds n
  | plus {ds : List Char} {n : Nat} : Digits ds n → Numeral ('+' :: ds) n
  | minus {ds : List Char} {n : Nat} : Digits ds n → Numeral ('-' :: ds) (-n)

theorem Digits.append {es : List Char} (h : Digits cs n) (hes : ∀ d ∈ es, d.isDigit) :
    Digits (cs ++ es) (Nat.ofDigitChars 10 es n) := by
  induction es generalizing cs n with
  | nil => simpa using h
  | cons d es ih =>
    rw [List.forall_mem_cons] at hes
    have hmore := ih (h.more hes.1) hes.2
    rwa [List.append_assoc, List.singleton_append, ← Nat.ofDigitChars_cons] at hmore

theorem digits_iff :
    Digits cs n ↔ cs ≠ [] ∧ (∀ d ∈ cs, d.isDigit) ∧ n = Nat.ofDigitChars 10 cs 0 := by
  constructor
  · intro h
    induction h with
    | one hd => simp [hd, Nat.ofDigitChars_cons]
    | more _ hd ih =>
      obtain ⟨-, hds, rfl⟩ := ih
      refine ⟨by simp, ?_, by simp [Nat.ofDigitChars_append, Nat.ofDigitChars_cons]⟩
      simpa [or_imp, forall_and, hd] using hds
  · rintro ⟨hne, hds, rfl⟩
    obtain ⟨d, ds, rfl⟩ := List.exists_cons_of_ne_nil hne
    rw [List.forall_mem_cons] at hds
    simpa [Nat.ofDigitChars_cons] using (Digits.one hds.1).append hds.2

theorem numeral_iff_writes : Numeral cs v ↔ Writes cs v := by
  constructor
  · rintro (h | h | h) <;> obtain ⟨hne, hds, rfl⟩ := digits_iff.1 h
    · exact ⟨_, hne, hds, .inl ⟨.inl rfl, rfl⟩⟩
    · exact ⟨_, hne, hds, .inl ⟨.inr rfl, rfl⟩⟩
    · exact ⟨_, hne, hds, .inr ⟨rfl, rfl⟩⟩
  · rintro ⟨ds, hne, hds, ⟨rfl | rfl, rfl⟩ | ⟨rfl, rfl⟩⟩
    · exact .unsigned (digits_iff.2 ⟨hne, hds, rfl⟩)
    · exact .plus (digits_iff.2 ⟨hne, hds, rfl⟩)
    · exact .minus (digits_iff.2 ⟨hne, hds, rfl⟩)

end TableCapture.Decimal
