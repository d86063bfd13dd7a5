import Mathlib.Data.Set.Function
import TableCapture.Proofs.Options.Outcome

/-!
# Nothing lost, nothing made up

Accepted options are kept in two tables, filled by two loops: the values, one for each declaration
that reads a text, and the options for the engine, one for each undeclared key with the passthrough
prefix. Together they hold just what was given. The key of an option names its place in one of the
two tables (`OptionRegistry.place`), different keys name different places (`place_injective`), and
the places that are filled are those of the keys that are given and of the defaults that stand in
(`bijOn_place`). What a place holds is the text that was given, as its declaration reads it or as it
is (`accounts_of_validate`).
-/

namespace TableCapture

/-! ## Values that fit their declaration -/

/-- The value is one that options of this kind take. -/
def OptionKind.Admits : OptionKind → OptionValue → Prop
  | text, .text _ => True
  | integer min max, .integer n => min ≤ n ∧ n ≤ max
  | choice values, .choice s => s ∈ values
  | _, _ => False

def OptionKind.IsInteger (k : OptionKind) : Prop :=
  ∃ min max, k = .integer min max

section Kinds

variable {o : OptionDeclaration} {k : OptionKind} {text : String} {v : OptionValue}

theorem OptionDeclaration.admits_of_parse (h : o.parse text = .ok v) : o.kind.Admits v := by
  rcases hk : o.kind with _ | ⟨min, max⟩ | values
  · rw [parse_text hk] at h
    obtain rfl := Except.ok.inj h
    trivial
  · obtain ⟨n, rfl, -, -, hn⟩ := (parse_integer_eq_ok_iff hk).1 h
    exact hn
  · obtain ⟨hmem, rfl⟩ := (parse_choice_eq_ok_iff hk).1 h
    exact hmem

theorem OptionKind.Admits.asInteger?_iff (h : k.Admits v) : v.asInteger? ≠ none ↔ k.IsInteger := by
  cases k <;> cases v <;>
    first | exact h.elim | simp [OptionValue.asInteger?, OptionKind.IsInteger]

theorem OptionKind.Admits.asText?_iff (h : k.Admits v) : v.asText? ≠ none ↔ ¬ k.IsInteger := by
  cases k <;> cases v <;>
    first | exact h.elim | simp [OptionValue.asText?, OptionKind.IsInteger]

end Kinds

/-! ## Places -/

/-- A place in validated options: a value, or an option for the engine. -/
inductive OptionPlace where
  | value (key : String)
  | engine (key : String)

/-- Something is kept at the place. -/
def ValidatedOptions.Fills (v : ValidatedOptions) : OptionPlace → Prop
  | .value k => v.values.get? k ≠ none
  | .engine k => v.passthrough.get? k ≠ none

namespace OptionRegistry

/-- The place of a key. A declared key is never one for the engine, whatever it starts with. -/
def place (r : OptionRegistry) (k : String) : OptionPlace :=
  match r.passthroughKey? k with
  | some j => if r.declares k then .value k else .engine j
  | none => .value k

variable {r : OptionRegistry} {raw : RawOptions} {v : ValidatedOptions} {k j : String}

theorem place_eq_engine_iff : r.place k = .engine j ↔
    j ≠ "" ∧ (∀ o ∈ r.options, o.key ≠ k) ∧ k = r.passthroughPrefix ++ j := by
  have hpass : r.passthroughKey? k = some j ↔ j ≠ "" ∧ k = r.passthroughPrefix ++ j :=
    passthroughKey?_eq_some_iff
  rw [place, ← not_declares_iff]
  rcases hi : r.passthroughKey? k with _ | i <;> rw [hi] at hpass
  · simp only [reduceCtorEq, false_iff] at hpass ⊢
    tauto
  · by_cases hd : r.declares k = true
    · simp [hd]
    · simp only [hd, Bool.false_eq_true, if_false, OptionPlace.engine.injEq, not_false_eq_true,
        true_and]
      rwa [Option.some.injEq] at hpass

theorem eq_of_place_eq_value (h : r.place k = .value j) : k = j := by
  unfold place at h
  split at h
  · split_ifs at h
    exact OptionPlace.value.inj h
  · exact OptionPlace.value.inj h

theorem place_of_declared {o : OptionDeclaration} (ho : o ∈ r.options) :
    r.place o.key = .value o.key := by
  rcases hp : r.place o.key with j | j
  · rw [eq_of_place_eq_value hp]
  · exact absurd rfl ((place_eq_engine_iff.1 hp).2.1 o ho)

/-- No two keys share a place: the prefix that is cut off is the same for all. -/
theorem place_injective (r : OptionRegistry) : Function.Injective r.place := by
  intro k k' h
  rcases hp : r.place k' with j | j <;> rw [hp] at h
  · rw [eq_of_place_eq_value h, eq_of_place_eq_value hp]
  · rw [(place_eq_engine_iff.1 h).2.2, (place_eq_engine_iff.1 hp).2.2]

/-- A declared key that is not given and has a default. -/
def Defaulted (r : OptionRegistry) (raw : RawOptions) (k : String) : Prop :=
  raw.get? k = none ∧ ∃ o ∈ r.options, o.key = k ∧ o.default? ≠ none

/-- The keys that are given, save the one that names the connector, and the keys that have a default
instead. -/
def supplied (r : OptionRegistry) (raw : RawOptions) : Set String :=
  {k | k ≠ OptionKey.connector ∧ raw.get? k ≠ none} ∪ {k | r.Defaulted raw k}

/-! ## The account -/

/-- Validated options hold what was given, and nothing else. -/
structure Accounts (r : OptionRegistry) (raw : RawOptions) (v : ValidatedOptions) : Prop where
  /-- Each supplied key has a place of its own, and no other place is filled. -/
  places : Set.BijOn r.place (r.supplied raw) {p | v.Fills p}
  declared : ∀ o ∈ r.options, ∀ text, raw.get? o.key = some text →
    ∃ w, o.parse text = .ok w ∧ v.values.get? o.key = some w
  engine : ∀ k text, k ≠ OptionKey.connector → (∀ o ∈ r.options, o.key ≠ k) →
    raw.get? k = some text →
    ∃ j ≠ "", k = r.passthroughPrefix ++ j ∧ v.passthrough.get? j = some text
  /-- No option for the engine is made up. -/
  passthrough : ∀ j text, v.passthrough.get? j = some text →
    j ≠ "" ∧ (∀ o ∈ r.options, o.key ≠ r.passthroughPrefix ++ j)
      ∧ r.passthroughPrefix ++ j ≠ OptionKey.connector
      ∧ raw.get? (r.passthroughPrefix ++ j) = some text
  defaulted : ∀ o ∈ r.options, raw.get? o.key = none → ∀ text, o.default? = some text →
    ∃ w, o.parse text = .ok w ∧ v.values.get? o.key = some w
  /-- No value is made up. -/
  values : ∀ k w, v.values.get? k = some w → ∃ o ∈ r.options, o.key = k
    ∧ ∃ text, (raw.get? k).or o.default? = some text ∧ o.parse text = .ok w
  required : ∀ o ∈ r.options, o.required = true → v.values.get? o.key ≠ none
  requirements : ∀ q ∈ r.requirements, v.text? q.key = some q.value →
    ∀ k ∈ q.requires, v.values.get? k ≠ none
  fits : ∀ o ∈ r.options, ∀ w, v.values.get? o.key = some w → o.kind.Admits w
  integer : ∀ k, v.integer? k ≠ none ↔
    v.values.get? k ≠ none ∧ ∃ o ∈ r.options, o.key = k ∧ o.kind.IsInteger
  text : ∀ k, v.text? k ≠ none ↔
    v.values.get? k ≠ none ∧ ∃ o ∈ r.options, o.key = k ∧ ¬ o.kind.IsInteger

section Accepted

variable {values : Dict OptionValue} {pass : Dict String} {o : OptionDeclaration} {text : String}
  {w : OptionValue}

theorem Admits.declared_or_engine (h : r.Admits raw) (hne : k ≠ OptionKey.connector)
    (hgiven : raw.get? k ≠ none) :
    (∃ o ∈ r.options, o.key = k) ∨ ∃ j, r.place k = .engine j := by
  by_contra hno
  push Not at hno
  refine h.known k ⟨by rwa [RawOptions.given?_of_ne hne], hno.1, fun j hj hk => ?_⟩
  exact hno.2 j (place_eq_engine_iff.2 ⟨hj, hno.1, hk⟩)

theorem PassesThrough.get?_of_place (h : r.PassesThrough raw pass) (hne : k ≠ OptionKey.connector)
    (hplace : r.place k = .engine j) : pass.get? j = raw.get? k := by
  obtain ⟨hj, hdecl, rfl⟩ := place_eq_engine_iff.1 hplace
  refine Option.ext fun text => ?_
  rw [h, RawOptions.given?_of_ne hne]
  tauto

theorem PassesThrough.place_eq (h : r.PassesThrough raw pass) (hj : pass.get? j = some text) :
    r.place (r.passthroughPrefix ++ j) = .engine j
      ∧ r.passthroughPrefix ++ j ≠ OptionKey.connector
      ∧ raw.get? (r.passthroughPrefix ++ j) = some text := by
  obtain ⟨hne, hdecl, hgiven⟩ := (h j text).1 hj
  -- The prefix may be the beginning of `connector`, but that option is kept nowhere.
  have hconn : r.passthroughPrefix ++ j ≠ OptionKey.connector := by
    intro heq
    simp [RawOptions.given?, heq] at hgiven
  rw [RawOptions.given?_of_ne hconn] at hgiven
  exact ⟨place_eq_engine_iff.2 ⟨hne, hdecl, rfl⟩, hconn, hgiven⟩

theorem ReadsTo.exists_value (h : r.ReadsTo raw values)
    (hn : (r.options.map OptionDeclaration.key).Nodup)
    (hc : ∀ o ∈ r.options, o.key ≠ OptionKey.connector) (ho : o ∈ r.options)
    (htext : (raw.get? o.key).or o.default? = some text) :
    ∃ w, o.parse text = .ok w ∧ values.get? o.key = some w :=
  h.get?_of_text hn ho (by rw [OptionDeclaration.text?_of_ne (hc o ho), htext])

theorem ReadsTo.exists_text (h : r.ReadsTo raw values)
    (hc : ∀ o ∈ r.options, o.key ≠ OptionKey.connector) (hw : values.get? k = some w) :
    ∃ o ∈ r.options, o.key = k
      ∧ ∃ text, (raw.get? k).or o.default? = some text ∧ o.parse text = .ok w := by
  obtain ⟨o, ho, rfl, text, htext, hparse⟩ := ((h.get?_iff k w).1 hw).mem
  rw [OptionDeclaration.text?_of_ne (hc o ho)] at htext
  exact ⟨o, ho, rfl, text, htext, hparse⟩

theorem mapsTo_place (hn : (r.options.map OptionDeclaration.key).Nodup)
    (hc : ∀ o ∈ r.options, o.key ≠ OptionKey.connector) (h : r.validate raw = .ok v) :
    Set.MapsTo r.place (r.supplied raw) {p | v.Fills p} := by
  obtain ⟨-, hadmits, hreads, -, hpass⟩ := accepted_of_validate h
  have hread : ∀ o ∈ r.options, ∀ text, (raw.get? o.key).or o.default? = some text →
      v.Fills (r.place o.key) := fun o ho text htext => by
    obtain ⟨w, -, hw⟩ := hreads.exists_value hn hc ho htext
    rw [place_of_declared ho, ValidatedOptions.Fills, hw]
    exact Option.some_ne_none w
  rintro k (⟨hne, hgiven⟩ | ⟨hnone, o, ho, rfl, hdef⟩)
  · obtain ⟨text, htext⟩ := Option.ne_none_iff_exists'.1 hgiven
    rcases hadmits.declared_or_engine hne hgiven with ⟨o, ho, rfl⟩ | ⟨j, hj⟩
    · exact hread o ho text (by rw [htext, Option.some_or])
    · show v.Fills (r.place k)
      rw [hj, ValidatedOptions.Fills, hpass.get?_of_place hne hj]
      exact hgiven
  · obtain ⟨text, htext⟩ := Option.ne_none_iff_exists'.1 hdef
    exact hread o ho text (by rw [hnone, Option.none_or, htext])

theorem surjOn_place (hc : ∀ o ∈ r.options, o.key ≠ OptionKey.connector)
    (h : r.validate raw = .ok v) : Set.SurjOn r.place (r.supplied raw) {p | v.Fills p} := by
  obtain ⟨-, -, hreads, -, hpass⟩ := accepted_of_validate h
  rintro (k | j) hfills
  · obtain ⟨w, hw⟩ := Option.ne_none_iff_exists'.1 hfills
    obtain ⟨o, ho, rfl, text, htext, -⟩ := hreads.exists_text hc hw
    refine ⟨o.key, ?_, place_of_declared ho⟩
    rcases hgiven : raw.get? o.key with _ | given
    · rw [hgiven, Option.none_or] at htext
      exact .inr ⟨hgiven, o, ho, rfl, by simp [htext]⟩
    · exact .inl ⟨hc o ho, by simp [hgiven]⟩
  · obtain ⟨text, htext⟩ := Option.ne_none_iff_exists'.1 hfills
    obtain ⟨hplace, hne, hgiven⟩ := hpass.place_eq htext
    exact ⟨_, .inl ⟨hne, by simp [hgiven]⟩, hplace⟩

theorem bijOn_place (hn : (r.options.map OptionDeclaration.key).Nodup)
    (hc : ∀ o ∈ r.options, o.key ≠ OptionKey.connector) (h : r.validate raw = .ok v) :
    Set.BijOn r.place (r.supplied raw) {p | v.Fills p} :=
  ⟨mapsTo_place hn hc h, r.place_injective.injOn, surjOn_place hc h⟩

/-- What is asked of the value of a key is asked of its only declaration. -/
theorem bind_ne_none_iff {β : Type} {f : OptionValue → Option β} {p : OptionDeclaration → Prop}
    (hn : (r.options.map OptionDeclaration.key).Nodup) (hreads : r.ReadsTo raw values)
    (hf : ∀ o ∈ r.options, ∀ w, values.get? o.key = some w → (f w ≠ none ↔ p o)) (k : String) :
    (values.get? k).bind f ≠ none ↔ values.get? k ≠ none ∧ ∃ o ∈ r.options, o.key = k ∧ p o := by
  rcases hw : values.get? k with _ | w
  · simp
  · obtain ⟨o, ho, rfl, -⟩ := ((hreads.get?_iff k w).1 hw).mem
    rw [Option.bind_some, hf o ho w hw]
    constructor
    · exact fun hp => ⟨Option.some_ne_none w, o, ho, rfl, hp⟩
    · rintro ⟨-, o', ho', hkey, hp⟩
      rwa [← List.inj_on_of_nodup_map hn ho' ho hkey]

end Accepted

/-- Where declared keys are different and none names the connector, accepted options are kept as
they were given. -/
theorem accounts_of_validate (hn : (r.options.map OptionDeclaration.key).Nodup)
    (hc : ∀ o ∈ r.options, o.key ≠ OptionKey.connector) (h : r.validate raw = .ok v) :
    r.Accounts raw v := by
  obtain ⟨-, hadmits, hreads, hneeds, hpass⟩ := accepted_of_validate h
  have hread : ∀ o ∈ r.options, ∀ text, (raw.get? o.key).or o.default? = some text →
      ∃ w, o.parse text = .ok w ∧ v.values.get? o.key = some w :=
    fun o ho text htext => hreads.exists_value hn hc ho htext
  have hfits : ∀ o ∈ r.options, ∀ w, v.values.get? o.key = some w → o.kind.Admits w := by
    intro o ho w hw
    obtain ⟨text, -, hparse⟩ := (hreads.get?_iff_reads hn ho).1 hw
    exact OptionDeclaration.admits_of_parse hparse
  refine
    { places := bijOn_place hn hc h
      declared := fun o ho text htext => hread o ho text (by rw [htext, Option.some_or])
      engine := ?engine
      passthrough := ?passthrough
      defaulted := fun o ho hnone text hdef => hread o ho text (by rw [hnone, Option.none_or, hdef])
      values := fun k w hw => hreads.exists_text hc hw
      required := ?required
      requirements := fun q hq happ k hk hnone =>
        hneeds k ⟨⟨q, hq, hk, Option.bind_eq_some_iff.1 happ⟩, hnone⟩
      fits := hfits
      integer := bind_ne_none_iff hn hreads fun o ho w hw => (hfits o ho w hw).asInteger?_iff
      text := bind_ne_none_iff hn hreads fun o ho w hw => (hfits o ho w hw).asText?_iff }
  case engine =>
    intro k text hne hundecl htext
    rcases hadmits.declared_or_engine hne (by simp [htext]) with ⟨o, ho, hkey⟩ | ⟨j, hj⟩
    · exact absurd hkey (hundecl o ho)
    · obtain ⟨hne', -, hkey⟩ := place_eq_engine_iff.1 hj
      exact ⟨j, hne', hkey, (hpass.get?_of_place hne hj).trans htext⟩
  case passthrough =>
    intro j text hj
    obtain ⟨hplace, hne, hgiven⟩ := hpass.place_eq hj
    obtain ⟨hne', hundecl, -⟩ := place_eq_engine_iff.1 hplace
    exact ⟨hne', hundecl, hne, hgiven⟩
  case required =>
    intro o ho hreq
    obtain ⟨text, htext⟩ := hadmits.exists_of_required ho hreq (hc o ho)
    obtain ⟨w, -, hw⟩ := hread o ho text (by rw [htext, Option.some_or])
    simp [hw]

/-- A declared key starts with the prefix, and the rest of another key is a declared one. -/
def spoolRegistry : OptionRegistry where
  connector := .mySQL
  options := [{ key := "spool.dir", kind := .text, required := true },
    { key := "size", kind := .integer 1 9, default? := some "4" },
    { key := "mode", kind := .choice ["fast", "slow"] }]
  requirements := [⟨"mode", "fast", ["size"]⟩]
  passthroughPrefix := "spool."

def spoolOptions : RawOptions :=
  .ofList [("connector", "mysql-cdc"), ("spool.dir", "/var"), ("spool.size", "4k"),
    ("mode", "fast")]

def spoolValidated : ValidatedOptions where
  connector := .mySQL
  values := .ofList [("mode", .choice "fast"), ("size", .integer 4), ("spool.dir", .text "/var")]
  passthrough := .ofList [("size", "4k")]

theorem accounts_spool : spoolRegistry.validate spoolOptions = .ok spoolValidated
    ∧ spoolRegistry.Accounts spoolOptions spoolValidated := by
  have h : spoolRegistry.validate spoolOptions = .ok spoolValidated := by decide +kernel
  exact ⟨h, accounts_of_validate (by decide) (by decide) h⟩

end OptionRegistry

end TableCapture
