import TableCapture.Proofs.Decimal
import TableCapture.Proofs.Options.Sorting

/-!
# The values that options are read to

The options are read in the order of their declaration, and a declaration reads the text given for
its key or else its default. Reading fails with the error of the first declaration that its text
does not fit (`readValues_eq_error_iff`). Where every text fits, a key has the value of its last
declaration that read a text (`readValues_eq_ok_iff`).
-/

namespace TableCapture

namespace OptionDeclaration

/-- The text read for an option: the one given for it, or else its default. -/
def text? (o : OptionDeclaration) (raw : RawOptions) : Option String :=
  (raw.given? o.key).or o.default?

/-- What is read for an option, if anything is, fits its declaration. -/
def Fits (o : OptionDeclaration) (raw : RawOptions) : Prop :=
  ∀ text, o.text? raw = some text → ∃ v, o.parse text = .ok v

/-- A text is read for an option, and gives a value. -/
def Reads (o : OptionDeclaration) (raw : RawOptions) (v : OptionValue) : Prop :=
  ∃ text, o.text? raw = some text ∧ o.parse text = .ok v

variable {o : OptionDeclaration} {text : String} {v : OptionValue}

theorem text?_of_ne {raw : RawOptions} (h : o.key ≠ OptionKey.connector) :
    o.text? raw = (raw.get? o.key).or o.default? := by
  rw [text?, RawOptions.given?_of_ne h]

theorem parse_text (hk : o.kind = .text) : o.parse text = .ok (.text text) := by
  rw [parse, hk]

theorem parse_choice_eq_ok_iff {values : List String} (hk : o.kind = .choice values) :
    o.parse text = .ok v ↔ text ∈ values ∧ v = .choice text := by
  simp only [parse, hk]
  split <;> simp_all [eq_comm]

theorem parse_integer_eq_ok_iff {min max : Int} (hk : o.kind = .integer min max) :
    o.parse text = .ok v ↔ ∃ n, v = .integer n ∧ Decimal.Writes text.toList n
      ∧ (Decimal.minInt64 ≤ n ∧ n ≤ Decimal.maxInt64) ∧ min ≤ n ∧ n ≤ max := by
  have hread : ∀ n, ((Decimal.int64? text.toList).filter fun v => min ≤ v ∧ v ≤ max) = some n ↔
      Decimal.Writes text.toList n ∧ (Decimal.minInt64 ≤ n ∧ n ≤ Decimal.maxInt64)
        ∧ min ≤ n ∧ n ≤ max := fun n => by
    simp only [Option.filter_eq_some_iff, Decimal.int64?_eq_some_iff, decide_eq_true_eq, and_assoc]
  simp only [parse, hk, ← hread]
  rcases (Decimal.int64? text.toList).filter fun v => min ≤ v ∧ v ≤ max with _ | n
  · simp
  · simp [eq_comm]

theorem parse_integer_ok_or_error {min max : Int} (hk : o.kind = .integer min max) :
    (∃ n, o.parse text = .ok (.integer n))
      ∨ o.parse text = .error (.invalidValue o.key text none) := by
  simp only [parse, hk]
  split
  · exact .inl ⟨_, rfl⟩
  · exact .inr rfl

/-- What is read for an option that is no integer is its value's text. -/
theorem asText?_of_reads (hk : ∀ min max, o.kind ≠ .integer min max) {raw : RawOptions}
    (h : o.Reads raw v) : v.asText? = o.text? raw := by
  obtain ⟨text, htext, hparse⟩ := h
  rw [htext]
  rcases hkind : o.kind with _ | ⟨min, max⟩ | values
  · rw [parse_text hkind] at hparse
    rw [← Except.ok.inj hparse]
    rfl
  · exact absurd hkind (hk min max)
  · rw [((parse_choice_eq_ok_iff hkind).1 hparse).2]
    rfl

end OptionDeclaration

variable {raw : RawOptions} {o : OptionDeclaration} {os : List OptionDeclaration} {e : OptionError}
  {k : String} {v : OptionValue}

/-- The first declaration that its text does not fit gives this error. -/
def FirstMisfit (raw : RawOptions) (os : List OptionDeclaration) (e : OptionError) : Prop :=
  ∃ before o after text, os = before ++ o :: after ∧ (∀ p ∈ before, p.Fits raw)
    ∧ o.text? raw = some text ∧ o.parse text = .error e

/-- The last declaration of a key for which a text is read gives this value. -/
def LastRead (raw : RawOptions) (os : List OptionDeclaration) (k : String) (v : OptionValue) :
    Prop :=
  ∃ before o after, os = before ++ o :: after ∧ o.key = k ∧ o.Reads raw v
    ∧ ∀ p ∈ after, p.key = k → p.text? raw = none

theorem not_firstMisfit_nil : ¬ FirstMisfit raw [] e := by
  rintro ⟨before, o, after, text, h, -⟩
  simp at h

theorem firstMisfit_cons : FirstMisfit raw (o :: os) e ↔
    (∃ text, o.text? raw = some text ∧ o.parse text = .error e)
      ∨ (o.Fits raw ∧ FirstMisfit raw os e) := by
  constructor
  · rintro ⟨before, p, after, text, h, hfits, htext, hparse⟩
    rcases before with _ | ⟨q, before⟩
    · obtain ⟨rfl, rfl⟩ := List.cons.inj h
      exact .inl ⟨text, htext, hparse⟩
    · obtain ⟨rfl, rfl⟩ := List.cons.inj h
      rw [List.forall_mem_cons] at hfits
      exact .inr ⟨hfits.1, before, p, after, text, rfl, hfits.2, htext, hparse⟩
  · rintro (⟨text, htext, hparse⟩ | ⟨hfit, before, p, after, text, rfl, hfits, htext, hparse⟩)
    · exact ⟨[], o, os, text, rfl, by simp, htext, hparse⟩
    · exact ⟨o :: before, p, after, text, rfl, List.forall_mem_cons.2 ⟨hfit, hfits⟩, htext, hparse⟩

theorem not_lastRead_nil : ¬ LastRead raw [] k v := by
  rintro ⟨before, o, after, h, -⟩
  simp at h

theorem lastRead_cons : LastRead raw (o :: os) k v ↔
    LastRead raw os k v
      ∨ (o.key = k ∧ o.Reads raw v ∧ ∀ p ∈ os, p.key = k → p.text? raw = none) := by
  constructor
  · rintro ⟨before, p, after, h, hkey, hreads, hafter⟩
    rcases before with _ | ⟨q, before⟩
    · obtain ⟨rfl, rfl⟩ := List.cons.inj h
      exact .inr ⟨hkey, hreads, hafter⟩
    · obtain ⟨rfl, rfl⟩ := List.cons.inj h
      exact .inl ⟨before, p, after, rfl, hkey, hreads, hafter⟩
  · rintro (⟨before, p, after, rfl, hkey, hreads, hafter⟩ | ⟨hkey, hreads, hafter⟩)
    · exact ⟨o :: before, p, after, rfl, hkey, hreads, hafter⟩
    · exact ⟨[], o, os, rfl, hkey, hreads, hafter⟩

theorem LastRead.mem (h : LastRead raw os k v) : ∃ o ∈ os, o.key = k ∧ o.Reads raw v := by
  obtain ⟨before, o, after, rfl, hkey, hreads, -⟩ := h
  exact ⟨o, by simp, hkey, hreads⟩

/-- Among declarations with different keys, each reads the value of its own key. -/
theorem lastRead_iff_reads (hn : (os.map OptionDeclaration.key).Nodup) (ho : o ∈ os) :
    LastRead raw os o.key v ↔ o.Reads raw v := by
  constructor
  · intro h
    obtain ⟨p, hp, hkey, hreads⟩ := h.mem
    rwa [← List.inj_on_of_nodup_map hn hp ho hkey]
  · intro hreads
    obtain ⟨before, after, rfl⟩ := List.append_of_mem ho
    refine ⟨before, o, after, rfl, rfl, hreads, fun p hp hkey => ?_⟩
    rw [List.map_append, List.map_cons, List.nodup_append, List.nodup_cons] at hn
    exact absurd (List.mem_map.2 ⟨p, hp, hkey⟩) hn.2.1.1

theorem LastRead.imp {raw' : RawOptions} (h : LastRead raw os k v)
    (htext : ∀ o ∈ os, o.key = k → o.text? raw' = o.text? raw) : LastRead raw' os k v := by
  obtain ⟨before, o, after, rfl, hkey, ⟨text, hread, hparse⟩, hafter⟩ := h
  refine ⟨before, o, after, rfl, hkey, ⟨text, ?_, hparse⟩, fun p hp hpk => ?_⟩
  · rw [htext o (by simp) hkey, hread]
  · rw [htext p (by simp [hp]) hpk, hafter p hp hpk]

/-- The value of a key hangs on what its own declarations read. -/
theorem lastRead_congr {raw' : RawOptions}
    (htext : ∀ o ∈ os, o.key = k → o.text? raw' = o.text? raw) :
    LastRead raw' os k v ↔ LastRead raw os k v :=
  ⟨fun h => h.imp fun o ho hk => (htext o ho hk).symm, fun h => h.imp htext⟩

theorem OptionDeclaration.not_fits_of_error {text : String} (htext : o.text? raw = some text)
    (hparse : o.parse text = .error e) : ¬ o.Fits raw := by
  intro hfit
  obtain ⟨v, hv⟩ := hfit text htext
  rw [hparse] at hv
  cases hv

theorem FirstMisfit.not_fits (h : FirstMisfit raw os e) : ¬ ∀ o ∈ os, o.Fits raw := by
  obtain ⟨before, o, after, text, rfl, -, htext, hparse⟩ := h
  exact fun hfits => OptionDeclaration.not_fits_of_error htext hparse (hfits o (by simp))

/-- The first misfit stays where what fits goes on fitting and what does not fit is read again. -/
theorem FirstMisfit.imp {raw' : RawOptions} (h : FirstMisfit raw os e)
    (hfits : ∀ o ∈ os, o.Fits raw → o.Fits raw')
    (htext : ∀ o ∈ os, ¬ o.Fits raw → o.text? raw' = o.text? raw) : FirstMisfit raw' os e := by
  obtain ⟨before, o, after, text, rfl, hbefore, hread, hparse⟩ := h
  refine ⟨before, o, after, text, rfl, fun p hp => hfits p (by simp [hp]) (hbefore p hp), ?_,
    hparse⟩
  rw [htext o (by simp) (OptionDeclaration.not_fits_of_error hread hparse), hread]

theorem fits_or_firstMisfit (raw : RawOptions) (os : List OptionDeclaration) :
    (∀ o ∈ os, o.Fits raw) ∨ ∃ e, FirstMisfit raw os e := by
  induction os with
  | nil => simp
  | cons o os ih =>
    simp only [List.forall_mem_cons, firstMisfit_cons]
    by_cases ho : o.Fits raw
    · rcases ih with hos | ⟨e, he⟩
      · exact .inl ⟨ho, hos⟩
      · exact .inr ⟨e, .inr ⟨ho, he⟩⟩
    · simp only [OptionDeclaration.Fits, not_forall] at ho
      obtain ⟨text, htext, hbad⟩ := ho
      rcases hparse : o.parse text with e | v
      · exact .inr ⟨e, .inl ⟨text, htext, hparse⟩⟩
      · exact absurd ⟨v, hparse⟩ hbad

namespace OptionRegistry

variable {declared : Dict String} {values vs : Dict OptionValue}

theorem readValues_cons_of_text (hgiven : declared.get? o.key = raw.given? o.key) :
    readValues declared values (o :: os) = match o.text? raw with
      | none => readValues declared values os
      | some text =>
        match o.parse text with
        | .error e => .error e
        | .ok v => readValues declared (values.insert o.key v) os := by
  rw [readValues, hgiven]
  rfl

theorem readValues_eq_error_iff (hgiven : ∀ o ∈ os, declared.get? o.key = raw.given? o.key) :
    readValues declared values os = .error e ↔ FirstMisfit raw os e := by
  induction os generalizing values with
  | nil => simp [readValues, not_firstMisfit_nil]
  | cons o os ih =>
    rw [List.forall_mem_cons] at hgiven
    rw [readValues_cons_of_text hgiven.1, firstMisfit_cons, OptionDeclaration.Fits]
    rcases htext : o.text? raw with _ | text
    · simp [ih hgiven.2]
    · rcases hparse : o.parse text with e' | v
      · simp [hparse]
      · simp [hparse, ih hgiven.2]

theorem get?_of_readValues (hgiven : ∀ o ∈ os, declared.get? o.key = raw.given? o.key)
    (h : readValues declared values os = .ok vs) (k : String) (v : OptionValue) :
    vs.get? k = some v ↔ LastRead raw os k v
      ∨ ((∀ o ∈ os, o.key = k → o.text? raw = none) ∧ values.get? k = some v) := by
  induction os generalizing values with
  | nil =>
    obtain rfl := Except.ok.inj h
    simp [not_lastRead_nil]
  | cons o os ih =>
    rw [List.forall_mem_cons] at hgiven
    rw [readValues_cons_of_text hgiven.1] at h
    rw [lastRead_cons, List.forall_mem_cons, OptionDeclaration.Reads]
    rcases htext : o.text? raw with _ | text <;> rw [htext] at h
    · simp [ih hgiven.2 h]
    · rcases hparse : o.parse text with e | w <;> simp only [hparse] at h
      · cases h
      · rw [ih hgiven.2 h, Dict.get?_insert]
        by_cases hk : k = o.key
        · subst hk
          simp [hparse, and_comm]
        · simp [hk, Ne.symm hk]

theorem readValues_eq_ok_iff (hgiven : ∀ o ∈ os, declared.get? o.key = raw.given? o.key) :
    readValues declared ∅ os = .ok vs ↔
      (∀ o ∈ os, o.Fits raw) ∧ ∀ k v, vs.get? k = some v ↔ LastRead raw os k v := by
  have hget : ∀ {us}, readValues declared ∅ os = .ok us →
      ∀ k v, us.get? k = some v ↔ LastRead raw os k v := fun h k v => by
    simp [get?_of_readValues hgiven h, Dict.get?_empty]
  constructor
  · intro h
    refine ⟨?_, hget h⟩
    rcases fits_or_firstMisfit raw os with hfits | ⟨e, he⟩
    · exact hfits
    · rw [(readValues_eq_error_iff hgiven).2 he] at h
      cases h
  · rintro ⟨hfits, hvs⟩
    rcases h : readValues declared ∅ os with e | us
    · exact absurd hfits ((readValues_eq_error_iff hgiven).1 h).not_fits
    · rw [Dict.ext_get? fun k v => (hget h k v).trans (hvs k v).symm]

end OptionRegistry

end TableCapture
