import TableCapture.Proofs.Options.Values

/-!
# What validation comes to

Six things can be said of options under a registry, and the first that is true of them decides
what validation gives: they name another connector, they lack required keys, they hold keys that
nobody knows, the text of an option does not fit its declaration, the values bring along
requirements that are not met, and, where none of these is so, they are accepted. `Outcome` says
this without the order in which anything is computed, and validation gives what it says and nothing
else (`validate_eq_iff`).
-/

namespace TableCapture

/-- A list of keys in increasing order that holds exactly the keys with a property. -/
structure Lists (ks : List String) (p : String → Prop) : Prop where
  increasing : ks.Pairwise (· < ·)
  mem_iff : ∀ k, k ∈ ks ↔ p k

namespace Lists

variable {ks js : List String} {p : String → Prop}

theorem unique (h : Lists ks p) (h' : Lists js p) : ks = js := by
  have hperm : ks.Perm js := by
    rw [List.perm_ext_iff_of_nodup (h.increasing.imp String.ne_of_lt)
      (h'.increasing.imp String.ne_of_lt)]
    exact fun k => (h.mem_iff k).trans (h'.mem_iff k).symm
  exact hperm.eq_of_pairwise (fun a b _ _ hab hba => absurd hba (String.lt_asymm hab))
    h.increasing h'.increasing

theorem eq_nil_iff (h : Lists ks p) : ks = [] ↔ ∀ k, ¬ p k := by
  simp only [← h.mem_iff, List.eq_nil_iff_forall_not_mem]

theorem names {s : Names} (h : ∀ k, s.contains k ↔ p k) : Lists s.toList p :=
  ⟨s.pairwise_toList, fun k => Names.mem_toList.trans (h k)⟩

theorem namesOfList (h : ∀ k, k ∈ ks ↔ p k) : Lists (Names.ofList ks).toList p :=
  ⟨Names.pairwise_toList _, fun k => Names.mem_toList_ofList.trans (h k)⟩

end Lists

namespace OptionRegistry

variable (r : OptionRegistry) (raw : RawOptions)

/-- The options name the connector of the registry, or none. -/
def Named : Prop :=
  ∀ c, raw.get? OptionKey.connector = some c → c = r.connector.identifier

/-- A required key that is not given. -/
def Lacks (k : String) : Prop :=
  (∃ o ∈ r.options, o.required ∧ o.key = k) ∧ raw.given? k = none

/-- A given key that is not declared and is not the passthrough prefix with something after it. -/
def Unknown (k : String) : Prop :=
  raw.given? k ≠ none ∧ (∀ o ∈ r.options, o.key ≠ k) ∧ ∀ j ≠ "", k ≠ r.passthroughPrefix ++ j

/-- Nothing keeps the values of the options from being read. -/
structure Admits : Prop where
  named : r.Named raw
  complete : ∀ k, ¬ r.Lacks raw k
  known : ∀ k, ¬ r.Unknown raw k

/-- The values are those that the options are read to. -/
structure ReadsTo (values : Dict OptionValue) : Prop where
  fits : ∀ o ∈ r.options, o.Fits raw
  get?_iff : ∀ k v, values.get? k = some v ↔ LastRead raw r.options k v

namespace ReadsTo

variable {r : OptionRegistry} {raw : RawOptions} {values : Dict OptionValue} {o : OptionDeclaration}

theorem get?_iff_reads (h : r.ReadsTo raw values) (hn : (r.options.map OptionDeclaration.key).Nodup)
    (ho : o ∈ r.options) {v : OptionValue} : values.get? o.key = some v ↔ o.Reads raw v :=
  (h.get?_iff o.key v).trans (lastRead_iff_reads hn ho)

theorem get?_of_text (h : r.ReadsTo raw values) (hn : (r.options.map OptionDeclaration.key).Nodup)
    (ho : o ∈ r.options) {text : String} (htext : o.text? raw = some text) :
    ∃ v, o.parse text = .ok v ∧ values.get? o.key = some v := by
  obtain ⟨v, hparse⟩ := h.fits o ho text htext
  exact ⟨v, hparse, (h.get?_iff_reads hn ho).2 ⟨text, htext, hparse⟩⟩

theorem text?_eq (h : r.ReadsTo raw values) (hn : (r.options.map OptionDeclaration.key).Nodup)
    (ho : o ∈ r.options) (hk : ∀ min max, o.kind ≠ .integer min max) :
    (values.get? o.key).bind OptionValue.asText? = o.text? raw := by
  rcases htext : o.text? raw with _ | text
  · rcases hv : values.get? o.key with _ | v
    · rfl
    · obtain ⟨text, htext', -⟩ := (h.get?_iff_reads hn ho).1 hv
      rw [htext] at htext'
      cases htext'
  · obtain ⟨v, hparse, hv⟩ := h.get?_of_text hn ho htext
    rw [hv, Option.bind_some, OptionDeclaration.asText?_of_reads hk ⟨text, htext, hparse⟩, htext]

end ReadsTo

/-- A key without a value that a requirement brought along by the values asks for. -/
def Needs (values : Dict OptionValue) (k : String) : Prop :=
  (∃ q ∈ r.requirements, k ∈ q.requires
    ∧ ∃ v, values.get? q.key = some v ∧ v.asText? = some q.value) ∧ values.get? k = none

/-- These are the options for the engine, their prefix removed. -/
def PassesThrough (pass : Dict String) : Prop :=
  ∀ k text, pass.get? k = some text ↔ k ≠ "" ∧ (∀ o ∈ r.options, o.key ≠ r.passthroughPrefix ++ k)
    ∧ raw.given? (r.passthroughPrefix ++ k) = some text

/-- What options come to under a registry. -/
inductive Outcome : Except OptionError ValidatedOptions → Prop
  | misnamed {c : String} : raw.get? OptionKey.connector = some c → c ≠ r.connector.identifier →
    Outcome (.error (.invalidValue OptionKey.connector c (some [r.connector.identifier])))
  | lacking {ks : List String} : r.Named raw → ks ≠ [] → Lists ks (r.Lacks raw) →
    Outcome (.error (.missingRequired ks))
  | unknown {ks : List String} : r.Named raw → (∀ k, ¬ r.Lacks raw k) → ks ≠ [] →
    Lists ks (r.Unknown raw) → Outcome (.error (.unsupported r.connector.identifier ks))
  | misfit {e : OptionError} : r.Admits raw → FirstMisfit raw r.options e → Outcome (.error e)
  | needing {values : Dict OptionValue} {ks : List String} : r.Admits raw → r.ReadsTo raw values →
    ks ≠ [] → Lists ks (r.Needs values) → Outcome (.error (.missingRequired ks))
  | accepted {values : Dict OptionValue} {pass : Dict String} : r.Admits raw →
    r.ReadsTo raw values → (∀ k, ¬ r.Needs values k) → r.PassesThrough raw pass →
    Outcome (.ok ⟨r.connector, values, pass⟩)

variable {r raw}

theorem Admits.exists_of_required (h : r.Admits raw) {o : OptionDeclaration} (ho : o ∈ r.options)
    (hreq : o.required = true) (hne : o.key ≠ OptionKey.connector) :
    ∃ text, raw.get? o.key = some text := by
  refine Option.ne_none_iff_exists'.1 fun hnone => h.complete o.key ⟨⟨o, ho, hreq, rfl⟩, ?_⟩
  rw [RawOptions.given?_of_ne hne, hnone]

theorem sorts (r : OptionRegistry) (raw : RawOptions) :
    SortsInto r raw.entries (SortedOptions.ofEntries r raw.entries) :=
  sortsInto_ofEntries r raw.keys_nodup

theorem declared_get? {k : String} {o : OptionDeclaration} (ho : o ∈ r.options) (hk : o.key = k) :
    (SortedOptions.ofEntries r raw.entries).declared.get? k = raw.given? k := by
  refine Option.ext fun v => ?_
  rw [(sorts r raw).declared, RawOptions.given?_eq_some_iff]
  simp [declares_iff.2 ⟨o, ho, hk⟩]

theorem checkConnector_eq_ok_iff : r.checkConnector raw = .ok () ↔ r.Named raw := by
  unfold checkConnector Named
  rcases raw.get? OptionKey.connector with _ | c
  · simp
  · by_cases hc : c = r.connector.identifier <;> simp [hc]

theorem lists_missing :
    Lists (r.missing (SortedOptions.ofEntries r raw.entries).declared) (r.Lacks raw) := by
  refine Lists.namesOfList fun k => ?_
  simp only [List.mem_map, List.mem_filter, required, Dict.contains, Bool.not_eq_true',
    Option.isSome_eq_false_iff, Option.isNone_iff_eq_none, Lacks]
  constructor
  · rintro ⟨o, ⟨⟨ho, hreq⟩, hnone⟩, hk⟩
    exact ⟨⟨o, ho, hreq, hk⟩, by rw [← declared_get? ho hk, ← hk, hnone]⟩
  · rintro ⟨⟨o, ho, hreq, hk⟩, hnone⟩
    exact ⟨o, ⟨⟨ho, hreq⟩, by rw [declared_get? ho rfl, hk, hnone]⟩, hk⟩

theorem lists_unsupported :
    Lists (SortedOptions.ofEntries r raw.entries).unsupported.toList (r.Unknown raw) := by
  refine Lists.names fun k => ?_
  have hgiven : raw.given? k ≠ none ↔ k ≠ OptionKey.connector ∧ ∃ v, (k, v) ∈ raw.entries := by
    simp only [Option.ne_none_iff_exists', RawOptions.given?_eq_some_iff, exists_and_left]
  have hpass : r.passthroughKey? k = none ↔ ∀ j ≠ "", k ≠ r.passthroughPrefix ++ j := by
    simp only [Option.eq_none_iff_forall_ne_some, ne_eq, passthroughKey?_eq_some_iff, not_and]
  rw [(sorts r raw).unsupported, Unknown, hgiven, not_declares_iff, hpass]
  tauto

theorem readValues_eq (r : OptionRegistry) (raw : RawOptions) :
    (∀ e, readValues (SortedOptions.ofEntries r raw.entries).declared ∅ r.options = .error e
        ↔ FirstMisfit raw r.options e)
      ∧ ∀ vs, readValues (SortedOptions.ofEntries r raw.entries).declared ∅ r.options = .ok vs
        ↔ r.ReadsTo raw vs := by
  have hgiven : ∀ o ∈ r.options,
      (SortedOptions.ofEntries r raw.entries).declared.get? o.key = raw.given? o.key :=
    fun o ho => declared_get? ho rfl
  refine ⟨fun e => readValues_eq_error_iff hgiven, fun vs => ?_⟩
  rw [readValues_eq_ok_iff hgiven]
  exact ⟨fun h => ⟨h.1, h.2⟩, fun h => ⟨h.1, h.2⟩⟩

theorem lists_missingRequired (values : Dict OptionValue) :
    Lists (r.missingRequired values) (r.Needs values) := by
  refine Lists.namesOfList fun k => ?_
  simp only [List.mem_filter, List.mem_flatMap, OptionRequirement.applies, decide_eq_true_eq,
    Option.bind_eq_some_iff, Dict.contains, Bool.not_eq_true', Option.isSome_eq_false_iff,
    Option.isNone_iff_eq_none, Needs]
  constructor
  · rintro ⟨⟨q, ⟨hq, happ⟩, hk⟩, hnone⟩
    exact ⟨⟨q, hq, hk, happ⟩, hnone⟩
  · rintro ⟨⟨q, hq, hk, happ⟩, hnone⟩
    exact ⟨⟨q, ⟨hq, happ⟩, hk⟩, hnone⟩

theorem passesThrough_sorts :
    r.PassesThrough raw (SortedOptions.ofEntries r raw.entries).passthrough := by
  intro k text
  rw [(sorts r raw).passthrough, not_declares_iff, RawOptions.given?_eq_some_iff]
  tauto

theorem PassesThrough.unique {pass pass' : Dict String} (h : r.PassesThrough raw pass)
    (h' : r.PassesThrough raw pass') : pass = pass' :=
  Dict.ext_get? fun k text => (h k text).trans (h' k text).symm

theorem validate_of_named (h : r.Named raw) :
    r.validate raw = r.readSorted (SortedOptions.ofEntries r raw.entries) := by
  rw [validate, checkConnector_eq_ok_iff.2 h]

theorem validate_of_admits (h : r.Admits raw) : r.validate raw =
    match readValues (SortedOptions.ofEntries r raw.entries).declared ∅ r.options with
    | .error e => .error e
    | .ok values =>
      match r.missingRequired values with
      | k :: ks => .error (.missingRequired (k :: ks))
      | [] => .ok ⟨r.connector, values, (SortedOptions.ofEntries r raw.entries).passthrough⟩ := by
  have hsorted := validate_of_named h.named
  rw [readSorted, lists_missing.eq_nil_iff.2 h.complete, lists_unsupported.eq_nil_iff.2 h.known]
    at hsorted
  exact hsorted

theorem Outcome.validate_eq {o : Except OptionError ValidatedOptions} (h : r.Outcome raw o) :
    r.validate raw = o := by
  cases h with
  | misnamed hc hne => simp only [validate, checkConnector, hc, if_neg hne]
  | @lacking ks hn hne hks =>
    rw [validate_of_named hn, readSorted, lists_missing.unique hks]
    obtain ⟨k, ks, rfl⟩ := List.exists_cons_of_ne_nil hne
    rfl
  | @unknown ks hn hl hne hks =>
    rw [validate_of_named hn, readSorted, lists_missing.eq_nil_iff.2 hl,
      lists_unsupported.unique hks]
    obtain ⟨k, ks, rfl⟩ := List.exists_cons_of_ne_nil hne
    rfl
  | misfit ha he => rw [validate_of_admits ha, ((readValues_eq r raw).1 _).2 he]
  | @needing values ks ha hv hne hks =>
    rw [validate_of_admits ha, ((readValues_eq r raw).2 _).2 hv]
    obtain ⟨k, ks, rfl⟩ := List.exists_cons_of_ne_nil hne
    simp only [(lists_missingRequired values).unique hks]
  | @accepted values pass ha hv hneed hp =>
    rw [validate_of_admits ha, ((readValues_eq r raw).2 _).2 hv]
    simp only [(lists_missingRequired values).eq_nil_iff.2 hneed, hp.unique passesThrough_sorts]

theorem exists_outcome (r : OptionRegistry) (raw : RawOptions) : ∃ o, r.Outcome raw o := by
  by_cases hn : r.Named raw
  swap
  · simp only [Named, not_forall] at hn
    obtain ⟨c, hc, hne⟩ := hn
    exact ⟨_, .misnamed hc hne⟩
  by_cases hl : r.missing (SortedOptions.ofEntries r raw.entries).declared = []
  swap
  · exact ⟨_, .lacking hn hl lists_missing⟩
  by_cases hu : (SortedOptions.ofEntries r raw.entries).unsupported.toList = []
  swap
  · exact ⟨_, .unknown hn (lists_missing.eq_nil_iff.1 hl) hu lists_unsupported⟩
  have ha : r.Admits raw :=
    ⟨hn, lists_missing.eq_nil_iff.1 hl, lists_unsupported.eq_nil_iff.1 hu⟩
  rcases hv : readValues (SortedOptions.ofEntries r raw.entries).declared ∅ r.options
    with e | values
  · exact ⟨_, .misfit ha (((readValues_eq r raw).1 e).1 hv)⟩
  have hreads := ((readValues_eq r raw).2 values).1 hv
  by_cases hneed : r.missingRequired values = []
  · exact ⟨_, .accepted ha hreads ((lists_missingRequired values).eq_nil_iff.1 hneed)
      passesThrough_sorts⟩
  · exact ⟨_, .needing ha hreads hneed (lists_missingRequired values)⟩

theorem outcome_validate (r : OptionRegistry) (raw : RawOptions) :
    r.Outcome raw (r.validate raw) := by
  obtain ⟨o, ho⟩ := exists_outcome r raw
  rwa [ho.validate_eq]

theorem accepted_of_validate {v : ValidatedOptions} (h : r.validate raw = .ok v) :
    v.connector = r.connector ∧ r.Admits raw ∧ r.ReadsTo raw v.values
      ∧ (∀ k, ¬ r.Needs v.values k) ∧ r.PassesThrough raw v.passthrough := by
  have hout := outcome_validate r raw
  rw [h] at hout
  cases hout with
  | accepted ha hv hneed hp => exact ⟨rfl, ha, hv, hneed, hp⟩

/-- Validation gives what the options come to, and they come to one thing only. -/
theorem validate_eq_iff {o : Except OptionError ValidatedOptions} :
    r.validate raw = o ↔ r.Outcome raw o :=
  ⟨fun h => h ▸ outcome_validate r raw, Outcome.validate_eq⟩

end OptionRegistry

end TableCapture
