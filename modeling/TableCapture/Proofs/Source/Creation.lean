import TableCapture.Proofs.Options.Outcome
import TableCapture.Source.Creation

/-!
# What a source is created with

The descriptor of a source says what the options say: each text as it is given, each number as it
is written, and for an option that is not given its default. `Describes` lists this field by field.
Numbers are not cut down to the words that hold them, for their declarations keep them small
enough, and nothing is filled in by the description of validated options, for these hold whatever it
asks for (`ValidatedOptions.Complete`).
-/

namespace TableCapture

/-! ## The registries of the connectors -/

namespace Connector

/-- The port that is read where none is given. -/
def defaultPort : Connector → String
  | mySQL => "3306"
  | oracle => "1521"

/-- The keys of the texts that every source needs. -/
def neededTexts : List String :=
  [OptionKey.hostname, OptionKey.username, OptionKey.password, OptionKey.databaseName,
    OptionKey.tableName]

theorem keys_nodup (c : Connector) : (c.registry.options.map OptionDeclaration.key).Nodup := by
  cases c <;> decide

theorem declares_text (c : Connector) : ∀ key ∈ neededTexts, key ≠ OptionKey.connector
    ∧ ∃ o ∈ c.registry.options, o.key = key ∧ o.kind = .text ∧ o.required = true := by
  cases c <;> decide

theorem declares_port (c : Connector) : ∃ o ∈ c.registry.options, o.key = OptionKey.port
    ∧ o.kind = .integer 0 65535 ∧ o.default? = some c.defaultPort := by
  cases c <;> decide

theorem declares_mode (c : Connector) : ∃ o ∈ c.registry.options, o.key = OptionKey.startupMode
    ∧ o.default? = some "initial" ∧ (o.kind = .choice (StartupMode.all.map StartupMode.name)
      ∧ c = .mySQL ∨ o.kind = .choice ["initial", "latest-offset"] ∧ c = .oracle) := by
  cases c <;> decide

theorem registry_connector (c : Connector) : c.registry.connector = c := by
  cases c <;> rfl

theorem registry_prefix (c : Connector) : c.registry.passthroughPrefix = enginePrefix := by
  cases c <;> rfl

theorem ofIdentifier_eq_ok {name : String} {c : Connector} (h : ofIdentifier name = .ok c) :
    c.identifier = name := by
  unfold ofIdentifier at h
  split at h
  · rename_i c' hc
    obtain rfl := Except.ok.inj h
    simpa using List.find?_some hc
  · cases h

end Connector

/-! ## What validated options hold -/

/-- Validated options hold whatever their description asks for. -/
structure ValidatedOptions.Complete (v : ValidatedOptions) : Prop where
  texts : ∀ key ∈ Connector.neededTexts, ∃ text, v.text? key = some text
  port : ∃ n, v.integer? OptionKey.port = some n
  mode : ∃ m : StartupMode, v.text? OptionKey.startupMode = some m.name
  offset : v.text? OptionKey.startupMode = some StartupMode.specificOffset.name →
    (∃ file, v.text? OptionKey.startupFile = some file)
      ∧ ∃ n, v.integer? OptionKey.startupPosition = some n
  millis : v.text? OptionKey.startupMode = some StartupMode.timestamp.name →
    ∃ n, v.integer? OptionKey.startupMillis = some n

section Accepted

variable {c : Connector} {raw : RawOptions} {v : ValidatedOptions} {key : String}

theorem text_of_required (h : c.registry.validate raw = .ok v) {o : OptionDeclaration}
    (ho : o ∈ c.registry.options) (hk : o.kind = .text) (hreq : o.required = true)
    (hne : o.key ≠ OptionKey.connector) :
    ∃ text, raw.get? o.key = some text ∧ v.text? o.key = some text := by
  obtain ⟨-, hadmits, hreads, -, -⟩ := OptionRegistry.accepted_of_validate h
  obtain ⟨text, htext⟩ := hadmits.exists_of_required ho hreq hne
  refine ⟨text, htext, ?_⟩
  rw [ValidatedOptions.text?, hreads.text?_eq c.keys_nodup ho (by simp [hk]),
    OptionDeclaration.text?_of_ne hne, htext, Option.some_or]

theorem text_of_needed (h : c.registry.validate raw = .ok v) (hkey : key ∈ Connector.neededTexts) :
    ∃ text, raw.get? key = some text ∧ v.text? key = some text := by
  obtain ⟨hne, o, ho, rfl, hk, hreq⟩ := c.declares_text key hkey
  exact text_of_required h ho hk hreq hne

theorem port_of_validate (h : c.registry.validate raw = .ok v) :
    ∃ n, v.integer? OptionKey.port = some n ∧ 0 ≤ n ∧ n ≤ 65535
      ∧ Decimal.Writes ((raw.get? OptionKey.port).getD c.defaultPort).toList n := by
  obtain ⟨-, -, hreads, -, -⟩ := OptionRegistry.accepted_of_validate h
  obtain ⟨o, ho, hkey, hk, hdef⟩ := c.declares_port
  have htext : o.text? raw = some ((raw.get? OptionKey.port).getD c.defaultPort) := by
    rw [OptionDeclaration.text?_of_ne (by rw [hkey]; decide), hkey, hdef]
    cases raw.get? OptionKey.port <;> rfl
  obtain ⟨w, hparse, hw⟩ := hreads.get?_of_text c.keys_nodup ho htext
  obtain ⟨n, rfl, hwrites, -, hmin, hmax⟩ :=
    (OptionDeclaration.parse_integer_eq_ok_iff hk).1 hparse
  refine ⟨n, ?_, hmin, hmax, hwrites⟩
  rw [ValidatedOptions.integer?, ← hkey, hw]
  rfl

theorem mode_of_validate (h : c.registry.validate raw = .ok v) :
    ∃ m : StartupMode, v.text? OptionKey.startupMode = some m.name
      ∧ (raw.get? OptionKey.startupMode).getD "initial" = m.name
      ∧ (c = .mySQL ∨ m = .initial ∨ m = .latestOffset) := by
  obtain ⟨-, -, hreads, -, -⟩ := OptionRegistry.accepted_of_validate h
  obtain ⟨o, ho, hkey, hdef, hk⟩ := c.declares_mode
  have htext : o.text? raw = some ((raw.get? OptionKey.startupMode).getD "initial") := by
    rw [OptionDeclaration.text?_of_ne (by rw [hkey]; decide), hkey, hdef]
    cases raw.get? OptionKey.startupMode <;> rfl
  obtain ⟨w, hparse⟩ := hreads.fits o ho _ htext
  have hheld : v.text? OptionKey.startupMode = o.text? raw := by
    rw [ValidatedOptions.text?, ← hkey]
    refine hreads.text?_eq c.keys_nodup ho fun min max hint => ?_
    rcases hk with ⟨hk, -⟩ | ⟨hk, -⟩ <;> rw [hk] at hint <;> cases hint
  rw [hheld, htext]
  generalize (raw.get? OptionKey.startupMode).getD "initial" = text at hparse
  rcases hk with ⟨hk, hc⟩ | ⟨hk, -⟩
  · have hmem := ((OptionDeclaration.parse_choice_eq_ok_iff hk).1 hparse).1
    obtain ⟨m, -, rfl⟩ := List.mem_map.1 hmem
    exact ⟨m, rfl, rfl, .inl hc⟩
  · have hmem := ((OptionDeclaration.parse_choice_eq_ok_iff hk).1 hparse).1
    simp only [List.mem_cons, List.not_mem_nil, or_false] at hmem
    rcases hmem with rfl | rfl
    · exact ⟨.initial, rfl, rfl, .inr (.inl rfl)⟩
    · exact ⟨.latestOffset, rfl, rfl, .inr (.inr rfl)⟩

/-- What a requirement asks for is read from the options. -/
theorem reads_of_requirement (h : c.registry.validate raw = .ok v) {q : OptionRequirement}
    (hq : q ∈ c.registry.requirements) (happ : v.text? q.key = some q.value)
    {o : OptionDeclaration} (ho : o ∈ c.registry.options) (hmem : o.key ∈ q.requires) :
    ∃ w, v.values.get? o.key = some w ∧ o.Reads raw w := by
  obtain ⟨-, -, hreads, hneeds, -⟩ := OptionRegistry.accepted_of_validate h
  have hheld : v.values.get? o.key ≠ none := fun hnone =>
    hneeds o.key ⟨⟨q, hq, hmem, Option.bind_eq_some_iff.1 happ⟩, hnone⟩
  obtain ⟨w, hw⟩ := Option.ne_none_iff_exists'.1 hheld
  exact ⟨w, hw, (hreads.get?_iff_reads c.keys_nodup ho).1 hw⟩

theorem text_of_requirement (h : c.registry.validate raw = .ok v) {q : OptionRequirement}
    (hq : q ∈ c.registry.requirements) (happ : v.text? q.key = some q.value)
    {o : OptionDeclaration} (ho : o ∈ c.registry.options) (hmem : o.key ∈ q.requires)
    (hk : o.kind = .text) (hdef : o.default? = none) (hne : o.key ≠ OptionKey.connector) :
    ∃ text, raw.get? o.key = some text ∧ v.text? o.key = some text := by
  obtain ⟨w, hw, text, htext, hparse⟩ := reads_of_requirement h hq happ ho hmem
  rw [OptionDeclaration.parse_text hk] at hparse
  obtain rfl := Except.ok.inj hparse
  rw [OptionDeclaration.text?_of_ne hne, hdef, Option.or_none] at htext
  refine ⟨text, htext, ?_⟩
  rw [ValidatedOptions.text?, hw]
  rfl

theorem integer_of_requirement (h : c.registry.validate raw = .ok v) {q : OptionRequirement}
    (hq : q ∈ c.registry.requirements) (happ : v.text? q.key = some q.value)
    {o : OptionDeclaration} (ho : o ∈ c.registry.options) (hmem : o.key ∈ q.requires)
    (hk : o.kind = .integer 0 Decimal.maxInt64) (hdef : o.default? = none)
    (hne : o.key ≠ OptionKey.connector) :
    ∃ n text, v.integer? o.key = some n ∧ raw.get? o.key = some text
      ∧ Decimal.Writes text.toList n ∧ 0 ≤ n ∧ n ≤ Decimal.maxInt64 := by
  obtain ⟨w, hw, text, htext, hparse⟩ := reads_of_requirement h hq happ ho hmem
  obtain ⟨n, rfl, hwrites, -, hmin, hmax⟩ :=
    (OptionDeclaration.parse_integer_eq_ok_iff hk).1 hparse
  rw [OptionDeclaration.text?_of_ne hne, hdef, Option.or_none] at htext
  refine ⟨n, text, ?_, htext, hwrites, hmin, hmax⟩
  rw [ValidatedOptions.integer?, hw]
  rfl

/-- The place where reading starts, as the options of a MySQL source give it. -/
theorem offset_of_validate (h : Connector.mySQL.registry.validate raw = .ok v)
    (hmode : v.text? OptionKey.startupMode = some StartupMode.specificOffset.name) :
    (∃ file, raw.get? OptionKey.startupFile = some file
        ∧ v.text? OptionKey.startupFile = some file)
      ∧ ∃ n text, v.integer? OptionKey.startupPosition = some n
        ∧ raw.get? OptionKey.startupPosition = some text ∧ Decimal.Writes text.toList n
        ∧ 0 ≤ n ∧ n ≤ Decimal.maxInt64 := by
  have hq : ⟨OptionKey.startupMode, "specific-offset",
      [OptionKey.startupFile, OptionKey.startupPosition]⟩
      ∈ Connector.mySQL.registry.requirements := by decide
  obtain ⟨file, hfile, hkf, hkindf, hdeff⟩ : ∃ o ∈ Connector.mySQL.registry.options,
      o.key = OptionKey.startupFile ∧ o.kind = .text ∧ o.default? = none := by decide
  obtain ⟨pos, hpos, hkp, hkindp, hdefp⟩ : ∃ o ∈ Connector.mySQL.registry.options,
      o.key = OptionKey.startupPosition ∧ o.kind = .integer 0 Decimal.maxInt64
        ∧ o.default? = none := by decide
  rw [← hkf, ← hkp]
  exact ⟨text_of_requirement h hq hmode hfile (by simp [hkf]) hkindf hdeff (by rw [hkf]; decide),
    integer_of_requirement h hq hmode hpos (by simp [hkp]) hkindp hdefp (by rw [hkp]; decide)⟩

theorem millis_of_validate (h : Connector.mySQL.registry.validate raw = .ok v)
    (hmode : v.text? OptionKey.startupMode = some StartupMode.timestamp.name) :
    ∃ n text, v.integer? OptionKey.startupMillis = some n
      ∧ raw.get? OptionKey.startupMillis = some text ∧ Decimal.Writes text.toList n
      ∧ 0 ≤ n ∧ n ≤ Decimal.maxInt64 := by
  have hq : ⟨OptionKey.startupMode, "timestamp", [OptionKey.startupMillis]⟩
      ∈ Connector.mySQL.registry.requirements := by decide
  obtain ⟨o, ho, hkey, hk, hdef⟩ : ∃ o ∈ Connector.mySQL.registry.options,
      o.key = OptionKey.startupMillis ∧ o.kind = .integer 0 Decimal.maxInt64
        ∧ o.default? = none := by decide
  rw [← hkey]
  exact integer_of_requirement h hq hmode ho (by simp [hkey]) hk hdef (by rw [hkey]; decide)

theorem schemaName_of_validate (h : c.registry.validate raw = .ok v) :
    (c = .oracle ∧ ∃ name, raw.get? OptionKey.schemaName = some name
        ∧ v.text? OptionKey.schemaName = some name)
      ∨ (c = .mySQL ∧ v.text? OptionKey.schemaName = none) := by
  cases c with
  | oracle =>
    obtain ⟨o, ho, hkey, hk, hreq⟩ : ∃ o ∈ Connector.oracle.registry.options,
        o.key = OptionKey.schemaName ∧ o.kind = .text ∧ o.required = true := by decide
    rw [← hkey]
    exact .inl ⟨rfl, text_of_required h ho hk hreq (by rw [hkey]; decide)⟩
  | mySQL =>
    obtain ⟨-, -, hreads, -, -⟩ := OptionRegistry.accepted_of_validate h
    refine .inr ⟨rfl, ?_⟩
    have hnot : ∀ o ∈ Connector.mySQL.registry.options, o.key ≠ OptionKey.schemaName := by decide
    rcases hv : v.values.get? OptionKey.schemaName with _ | w
    · rw [ValidatedOptions.text?, hv]
      rfl
    · obtain ⟨o, ho, hkey, -⟩ := ((hreads.get?_iff _ _).1 hv).mem
      exact absurd hkey (hnot o ho)

theorem passthrough_of_validate (h : c.registry.validate raw = .ok v) (k text : String) :
    v.passthrough.get? k = some text ↔
      k ≠ "" ∧ raw.get? (Connector.enginePrefix ++ k) = some text := by
  obtain ⟨-, -, -, -, hpass⟩ := OptionRegistry.accepted_of_validate h
  -- No declared key starts with the prefix of the options for the engine, nor does `connector`.
  have hfar : ∀ key, ¬ Connector.enginePrefix.toList <+: key.toList →
      key ≠ Connector.enginePrefix ++ k := by
    rintro key hno rfl
    rw [String.toList_append] at hno
    exact hno (List.prefix_append _ _)
  have hdecl : ∀ o ∈ c.registry.options, o.key ≠ Connector.enginePrefix ++ k := by
    have hno : ∀ o ∈ c.registry.options, ¬ Connector.enginePrefix.toList <+: o.key.toList := by
      cases c <;> decide
    exact fun o ho => hfar o.key (hno o ho)
  rw [hpass, c.registry_prefix, RawOptions.given?_of_ne (hfar _ (by decide)).symm]
  tauto

theorem complete_of_validate (h : c.registry.validate raw = .ok v) : v.Complete := by
  obtain ⟨m, hm, -, hc⟩ := mode_of_validate h
  have hmySQL : m ≠ .initial → m ≠ .latestOffset → c = .mySQL := by tauto
  obtain ⟨n, hn, -⟩ := port_of_validate h
  refine ⟨fun key hkey => ?_, ⟨n, hn⟩, ⟨m, hm⟩, fun hmode => ?_, fun hmode => ?_⟩
  · obtain ⟨text, -, htext⟩ := text_of_needed h hkey
    exact ⟨text, htext⟩
  · obtain rfl := hmySQL (by rintro rfl; simp [hm, StartupMode.name] at hmode)
      (by rintro rfl; simp [hm, StartupMode.name] at hmode)
    obtain ⟨⟨file, -, hfile⟩, n, text, hn, -⟩ := offset_of_validate h hmode
    exact ⟨⟨file, hfile⟩, n, hn⟩
  · obtain rfl := hmySQL (by rintro rfl; simp [hm, StartupMode.name] at hmode)
      (by rintro rfl; simp [hm, StartupMode.name] at hmode)
    obtain ⟨n, text, hn, -⟩ := millis_of_validate h hmode
    exact ⟨n, hn⟩

end Accepted

/-! ## Numbers in words -/

theorem toNat_ofInt16 {n : Int} (h : 0 ≤ n) (h' : n ≤ 65535) :
    ((UInt16.ofInt n).toNat : Int) = n := by
  rw [UInt16.ofInt, UInt16.toNat_ofNat']
  omega

theorem toNat_ofInt64 {n : Int} (h : 0 ≤ n) (h' : n ≤ Decimal.maxInt64) :
    ((UInt64.ofInt n).toNat : Int) = n := by
  rw [Decimal.maxInt64] at h'
  rw [UInt64.ofInt, UInt64.toNat_ofNat']
  omega

/-! ## The descriptor -/

/-- The descriptor says what the options say. -/
structure Describes (raw : RawOptions) (s : PhysicalSchema) (d : SourceDescriptor) : Prop where
  connector : raw.get? OptionKey.connector = some d.connector.identifier
  physicalSchema : d.physicalSchema = s
  hostname : raw.get? OptionKey.hostname = some d.hostname
  username : raw.get? OptionKey.username = some d.username
  password : raw.get? OptionKey.password = some d.password
  database : raw.get? OptionKey.databaseName = some d.database
  table : raw.get? OptionKey.tableName = some d.table
  schemaName : (d.connector = .oracle ∧ ∃ name, raw.get? OptionKey.schemaName = some name
      ∧ d.schemaName = some name) ∨ (d.connector = .mySQL ∧ d.schemaName = none)
  port : Decimal.Writes ((raw.get? OptionKey.port).getD d.connector.defaultPort).toList d.port.toNat
  mode : (raw.get? OptionKey.startupMode).getD "initial" = d.startup.mode.name
  offset : ∀ file position, d.startup = .specificOffset file position →
    raw.get? OptionKey.startupFile = some file ∧ ∃ text,
      raw.get? OptionKey.startupPosition = some text ∧ Decimal.Writes text.toList position.toNat
  millis : ∀ millis, d.startup = .timestamp millis → ∃ text,
    raw.get? OptionKey.startupMillis = some text ∧ Decimal.Writes text.toList millis.toInt
  passthrough : ∀ k text, d.passthrough.get? k = some text ↔
    k ≠ "" ∧ raw.get? (Connector.enginePrefix ++ k) = some text

section Description

variable {c : Connector} {raw : RawOptions} {v : ValidatedOptions} {s : PhysicalSchema}

/-- The way to start is the one that the options name, and only a MySQL source has a place. -/
theorem startup_of_validate (h : c.registry.validate raw = .ok v) :
    ∃ m : StartupMode, v.startupMode = m ∧ v.startup.mode = m
      ∧ v.text? OptionKey.startupMode = some m.name
      ∧ (raw.get? OptionKey.startupMode).getD "initial" = m.name
      ∧ (c = .mySQL ∨ m = .initial ∨ m = .latestOffset) := by
  obtain ⟨m, hm, hname, hc⟩ := mode_of_validate h
  have hmode : v.startupMode = m := by
    rw [ValidatedOptions.startupMode, hm, Option.bind_some, StartupMode.ofName?_name]
    rfl
  refine ⟨m, hmode, ?_, hm, hname, hc⟩
  rw [ValidatedOptions.startup, hmode]
  cases m <;> rfl

theorem offset_of_startup (h : c.registry.validate raw = .ok v) {file : String} {position : UInt64}
    (hs : v.startup = .specificOffset file position) :
    raw.get? OptionKey.startupFile = some file ∧ ∃ text,
      raw.get? OptionKey.startupPosition = some text
        ∧ Decimal.Writes text.toList position.toNat := by
  obtain ⟨m, hmode, hm, htext, -, hc⟩ := startup_of_validate h
  obtain rfl : .specificOffset = m := by rw [← hm, hs]; rfl
  obtain rfl : c = .mySQL := by simpa using hc
  obtain ⟨⟨f, hf, hvf⟩, n, text, hn, htext, hwrites, hmin, hmax⟩ := offset_of_validate h htext
  rw [ValidatedOptions.startup, hmode] at hs
  simp only [StartupOptions.specificOffset.injEq, ValidatedOptions.textD, hvf, Option.getD_some,
    ValidatedOptions.integerD, hn] at hs
  obtain ⟨rfl, rfl⟩ := hs
  exact ⟨hf, text, htext, by rwa [toNat_ofInt64 hmin hmax]⟩

theorem millis_of_startup (h : c.registry.validate raw = .ok v) {millis : Int64}
    (hs : v.startup = .timestamp millis) : ∃ text,
      raw.get? OptionKey.startupMillis = some text ∧ Decimal.Writes text.toList millis.toInt := by
  obtain ⟨m, hmode, hm, htext, -, hc⟩ := startup_of_validate h
  obtain rfl : .timestamp = m := by rw [← hm, hs]; rfl
  obtain rfl : c = .mySQL := by simpa using hc
  obtain ⟨n, text, hn, htext, hwrites, hmin, hmax⟩ := millis_of_validate h htext
  rw [ValidatedOptions.startup, hmode] at hs
  simp only [StartupOptions.timestamp.injEq, ValidatedOptions.integerD, hn, Option.getD_some] at hs
  subst hs
  rw [Decimal.maxInt64] at hmax
  exact ⟨text, htext, by rwa [Int64.toInt_ofInt_of_le (by omega) (by omega)]⟩

theorem describes_of_validate (hc : raw.get? OptionKey.connector = some c.identifier)
    (h : c.registry.validate raw = .ok v) : Describes raw s (v.describe s) := by
  obtain ⟨hconn, -⟩ := OptionRegistry.accepted_of_validate h
  rw [Connector.registry_connector] at hconn
  have htext : ∀ key ∈ Connector.neededTexts, raw.get? key = some (v.textD key) := by
    intro key hkey
    obtain ⟨text, hraw, hv⟩ := text_of_needed h hkey
    rw [hraw, ValidatedOptions.textD, hv]
    rfl
  constructor
  · rwa [ValidatedOptions.describe, hconn]
  · rfl
  · exact htext _ (by simp [Connector.neededTexts])
  · exact htext _ (by simp [Connector.neededTexts])
  · exact htext _ (by simp [Connector.neededTexts])
  · exact htext _ (by simp [Connector.neededTexts])
  · exact htext _ (by simp [Connector.neededTexts])
  · simp only [ValidatedOptions.describe, hconn]
    rcases schemaName_of_validate h with ⟨hor, name, hraw, hv⟩ | ⟨hmy, hv⟩
    · exact .inl ⟨hor, name, hraw, hv⟩
    · exact .inr ⟨hmy, hv⟩
  · obtain ⟨n, hn, hmin, hmax, hwrites⟩ := port_of_validate h
    simp only [ValidatedOptions.describe, hconn, ValidatedOptions.integerD, hn, Option.getD_some]
    rwa [toNat_ofInt16 hmin hmax]
  · obtain ⟨m, -, hm, -, hname, -⟩ := startup_of_validate h
    simp only [ValidatedOptions.describe, hm, hname]
  · exact fun file position hs => offset_of_startup h hs
  · exact fun millis hs => millis_of_startup h hs
  · exact passthrough_of_validate h

end Description

/-- A source has the connector that its options name, and is described by what the options are
validated to. -/
theorem exists_validated_of_create {raw : RawOptions} {s : PhysicalSchema} {d : SourceDescriptor}
    (h : SourceDescriptor.create raw s = .ok d) :
    raw.get? OptionKey.connector = some d.connector.identifier
      ∧ ∃ v, d.connector.registry.validate raw = .ok v ∧ d = v.describe s := by
  unfold SourceDescriptor.create RawOptions.connector at h
  rcases hname : raw.get? OptionKey.connector with _ | name <;> simp only [hname] at h
  · cases h
  rcases hc : Connector.ofIdentifier name with e | c <;> simp only [hc] at h
  · cases h
  rcases hv : c.registry.validate raw with e | v <;> rw [hv] at h
  · cases h
  obtain rfl := Except.ok.inj h
  obtain rfl := Connector.ofIdentifier_eq_ok hc
  obtain ⟨hconn, -⟩ := OptionRegistry.accepted_of_validate hv
  rw [Connector.registry_connector] at hconn
  refine ⟨congrArg (some ·.identifier) hconn.symm, v, ?_, rfl⟩
  show v.connector.registry.validate raw = .ok v
  rwa [hconn]

theorem describes_of_create {raw : RawOptions} {s : PhysicalSchema} {d : SourceDescriptor}
    (h : SourceDescriptor.create raw s = .ok d) : Describes raw s d := by
  obtain ⟨hname, v, hv, hd⟩ := exists_validated_of_create h
  have hdescribes := describes_of_validate (s := s) hname hv
  rwa [← hd] at hdescribes

/-- What a source is created with is what its options say, and the options that were validated on
the way hold all that the descriptor is made of. -/
theorem create_describes {raw : RawOptions} {s : PhysicalSchema} {d : SourceDescriptor}
    (h : SourceDescriptor.create raw s = .ok d) :
    Describes raw s d ∧ ∃ v, d.connector.registry.validate raw = .ok v ∧ v.Complete
      ∧ d = v.describe s := by
  obtain ⟨-, v, hv, hd⟩ := exists_validated_of_create h
  exact ⟨describes_of_create h, v, hv, complete_of_validate hv, hd⟩

/-- The options of a source that starts in the middle of a log. -/
def toolsOptions : RawOptions :=
  .ofList [("connector", "mysql-cdc"), ("hostname", "db.internal"), ("port", "+03307"),
    ("username", "cdc"), ("password", " pass word "), ("database-name", "inventory"),
    ("table-name", "tools"), ("scan.startup.mode", "specific-offset"),
    ("scan.startup.specific-offset.file", "mysql-bin.000003"),
    ("scan.startup.specific-offset.pos", "9223372036854775807"),
    ("scan.startup.timestamp-millis", "0"), ("debezium.port", "1")]

def toolsSource : SourceDescriptor where
  connector := .mySQL
  physicalSchema := ∅
  port := 3307
  hostname := "db.internal"
  database := "inventory"
  table := "tools"
  schemaName := none
  username := "cdc"
  password := " pass word "
  passthrough := .ofList [("port", "1")]
  startup := .specificOffset "mysql-bin.000003" 9223372036854775807

theorem create_describes_tools : SourceDescriptor.create toolsOptions ∅ = .ok toolsSource
    ∧ Describes toolsOptions ∅ toolsSource := by
  have h : SourceDescriptor.create toolsOptions ∅ = .ok toolsSource := by decide +kernel
  exact ⟨h, (create_describes h).1⟩

end TableCapture
