import TableCapture.Proofs.Source.Creation

/-!
# When two sources are the same

A descriptor shows every option that it is made of and no other, so two sources are the same just
when their options agree in what a descriptor shows (`RawOptions.SameSource`, `create_eq_iff`).
Numbers may be written in different ways. Where the start is not at a place in the log, an option
that gives one does not count.
-/

namespace TableCapture

/-- Two texts write one number. -/
def Decimal.SameNumber (s t : String) : Prop :=
  ∃ n, Writes s.toList n ∧ Writes t.toList n

namespace RawOptions

/-- The way to start that options name. -/
def startName (raw : RawOptions) : String :=
  (raw.get? OptionKey.startupMode).getD StartupMode.initial.name

/-- Two options are both given and write one number. -/
def SameNumberAt (key : String) (a b : RawOptions) : Prop :=
  ∃ s t, a.get? key = some s ∧ b.get? key = some t ∧ Decimal.SameNumber s t

/-- Options of a connector agree in all that the descriptor of a source shows. -/
structure SameSource (c : Connector) (a b : RawOptions) : Prop where
  connector : a.get? OptionKey.connector = some c.identifier
    ∧ b.get? OptionKey.connector = some c.identifier
  texts : ∀ key ∈ OptionKey.schemaName :: Connector.neededTexts, a.get? key = b.get? key
  port : Decimal.SameNumber ((a.get? OptionKey.port).getD c.defaultPort)
    ((b.get? OptionKey.port).getD c.defaultPort)
  engine : ∀ k, a.get? (Connector.enginePrefix ++ k) = b.get? (Connector.enginePrefix ++ k)
  mode : a.startName = b.startName
  offset : a.startName = StartupMode.specificOffset.name →
    a.get? OptionKey.startupFile = b.get? OptionKey.startupFile
      ∧ SameNumberAt OptionKey.startupPosition a b
  millis : a.startName = StartupMode.timestamp.name → SameNumberAt OptionKey.startupMillis a b

end RawOptions

attribute [ext] SourceDescriptor

/-! ## Numbers, connectors and ways to start -/

theorem Decimal.SameNumber.eq {s t : String} {n m : Int} (h : SameNumber s t)
    (hs : Writes s.toList n) (ht : Writes t.toList m) : n = m := by
  obtain ⟨k, hks, hkt⟩ := h
  exact (hs.unique hks).trans (hkt.unique ht)

theorem Connector.identifier_injective : Function.Injective Connector.identifier := by
  intro c c' h
  cases c <;> cases c' <;> first | rfl | exact absurd h (by decide)

theorem StartupMode.name_injective : Function.Injective StartupMode.name := by
  intro m m' h
  exact Option.some.inj ((ofName?_name m).symm.trans ((congrArg ofName? h).trans (ofName?_name m')))

/-- Two ways to start are the same if their modes are, and the places if they have any. -/
theorem StartupOptions.eq_of_mode {o o' : StartupOptions} (hmode : o.mode = o'.mode)
    (hoffset : ∀ file position file' position', o = .specificOffset file position →
      o' = .specificOffset file' position' → file = file' ∧ position = position')
    (hmillis : ∀ millis millis', o = .timestamp millis → o' = .timestamp millis' →
      millis = millis') : o = o' := by
  cases o with
  | specificOffset file position =>
    cases o' with
    | specificOffset file' position' =>
      obtain ⟨rfl, rfl⟩ := hoffset _ _ _ _ rfl rfl
      rfl
    | _ => cases hmode
  | timestamp millis =>
    cases o' with
    | timestamp millis' => rw [hmillis _ _ rfl rfl]
    | _ => cases hmode
  | _ => cases o' <;> first | rfl | cases hmode

theorem StartupOptions.exists_offset {o : StartupOptions} (h : o.mode = .specificOffset) :
    ∃ file position, o = .specificOffset file position := by
  cases o <;> first | exact ⟨_, _, rfl⟩ | cases h

theorem StartupOptions.exists_millis {o : StartupOptions} (h : o.mode = .timestamp) :
    ∃ millis, o = .timestamp millis := by
  cases o <;> first | exact ⟨_, rfl⟩ | cases h

/-! ## What a connector does not know -/

section Accepted

variable {c : Connector} {raw : RawOptions} {v : ValidatedOptions} {key : String}

theorem get?_eq_none_of_validate (h : c.registry.validate raw = .ok v)
    (hne : key ≠ OptionKey.connector) (hdecl : ∀ o ∈ c.registry.options, o.key ≠ key)
    (hengine : ∀ j ≠ "", key ≠ Connector.enginePrefix ++ j) : raw.get? key = none := by
  obtain ⟨-, hadmits, -⟩ := OptionRegistry.accepted_of_validate h
  by_contra hgiven
  refine hadmits.known key ⟨?_, hdecl, ?_⟩
  · rwa [RawOptions.given?_of_ne hne]
  · rwa [Connector.registry_prefix]

theorem schemaName_eq_none_of_validate (h : Connector.mySQL.registry.validate raw = .ok v) :
    raw.get? OptionKey.schemaName = none := by
  refine get?_eq_none_of_validate h (by decide) (by decide) fun j _ hj => ?_
  have hprefix : ¬ Connector.enginePrefix.toList <+: OptionKey.schemaName.toList := by decide
  rw [hj, String.toList_append] at hprefix
  exact hprefix (List.prefix_append _ _)

/-- The prefix of the options for the engine is no option itself. -/
theorem enginePrefix_eq_none_of_validate (h : c.registry.validate raw = .ok v) :
    raw.get? (Connector.enginePrefix ++ "") = none := by
  refine get?_eq_none_of_validate h (by decide) (by cases c <;> decide) fun j hj heq => ?_
  exact hj ((String.append_right_inj _).1 heq).symm

end Accepted

/-! ## The same source -/

section Same

variable {a b : RawOptions} {p q : PhysicalSchema} {d e : SourceDescriptor}

theorem schemaName_eq_of_describes (ha : Describes a p d) (hb : Describes b q d)
    (hnone : d.connector = .mySQL →
      a.get? OptionKey.schemaName = none ∧ b.get? OptionKey.schemaName = none) :
    a.get? OptionKey.schemaName = b.get? OptionKey.schemaName := by
  rcases ha.schemaName with ⟨hor, name, hname, hd⟩ | ⟨hmy, -⟩
  · rcases hb.schemaName with ⟨-, name', hname', hd'⟩ | ⟨hmy, -⟩
    · rw [hname, hname', ← hd, hd']
    · rw [hor] at hmy
      cases hmy
  · obtain ⟨hna, hnb⟩ := hnone hmy
    rw [hna, hnb]

/-- What one descriptor says of two lists of options they agree in. -/
theorem sameSource_of_describes (ha : Describes a p d) (hb : Describes b q d)
    (hschema : a.get? OptionKey.schemaName = b.get? OptionKey.schemaName)
    (hempty : a.get? (Connector.enginePrefix ++ "") = b.get? (Connector.enginePrefix ++ "")) :
    RawOptions.SameSource d.connector a b := by
  have hmode : ∀ m : StartupMode, a.startName = m.name → d.startup.mode = m := fun m hm =>
    StartupMode.name_injective (ha.mode.symm.trans hm)
  refine
    { connector := ⟨ha.connector, hb.connector⟩
      texts := ?texts
      port := ⟨_, ha.port, hb.port⟩
      engine := ?engine
      mode := ha.mode.trans hb.mode.symm
      offset := ?offset
      millis := ?millis }
  case texts =>
    simp only [Connector.neededTexts, List.forall_mem_cons, List.not_mem_nil, false_implies,
      implies_true, and_true]
    exact ⟨hschema, ha.hostname.trans hb.hostname.symm, ha.username.trans hb.username.symm,
      ha.password.trans hb.password.symm, ha.database.trans hb.database.symm,
      ha.table.trans hb.table.symm⟩
  case engine =>
    intro k
    by_cases hk : k = ""
    · rw [hk, hempty]
    · refine Option.ext fun text => ?_
      have hka := ha.passthrough k text
      rw [hb.passthrough k text] at hka
      simpa [hk, eq_comm] using hka.symm
  case offset =>
    intro hm
    obtain ⟨file, position, hs⟩ := StartupOptions.exists_offset (hmode _ hm)
    obtain ⟨hfa, s, hsa, hwa⟩ := ha.offset file position hs
    obtain ⟨hfb, t, htb, hwb⟩ := hb.offset file position hs
    exact ⟨hfa.trans hfb.symm, s, t, hsa, htb, _, hwa, hwb⟩
  case millis =>
    intro hm
    obtain ⟨millis, hs⟩ := StartupOptions.exists_millis (hmode _ hm)
    obtain ⟨s, hsa, hwa⟩ := ha.millis millis hs
    obtain ⟨t, htb, hwb⟩ := hb.millis millis hs
    exact ⟨s, t, hsa, htb, _, hwa, hwb⟩

theorem startup_eq_of_sameSource {c : Connector} (ha : Describes a p d) (hb : Describes b q e)
    (h : RawOptions.SameSource c a b) : d.startup = e.startup := by
  have hmode : d.startup.mode = e.startup.mode :=
    StartupMode.name_injective (ha.mode.symm.trans (h.mode.trans hb.mode))
  refine StartupOptions.eq_of_mode hmode ?_ ?_
  · intro file position file' position' hd he
    obtain ⟨hfa, s, hsa, hwa⟩ := ha.offset file position hd
    obtain ⟨hfb, t, htb, hwb⟩ := hb.offset file' position' he
    obtain ⟨hfile, s', t', hs', ht', hsame⟩ := h.offset (ha.mode.trans (by rw [hd]; rfl))
    rw [hfa, hfb] at hfile
    obtain rfl := Option.some.inj (hsa.symm.trans hs')
    obtain rfl := Option.some.inj (htb.symm.trans ht')
    exact ⟨Option.some.inj hfile, UInt64.toNat_inj.1 (Int.ofNat.inj (hsame.eq hwa hwb))⟩
  · intro millis millis' hd he
    obtain ⟨s, hsa, hwa⟩ := ha.millis millis hd
    obtain ⟨t, htb, hwb⟩ := hb.millis millis' he
    obtain ⟨s', t', hs', ht', hsame⟩ := h.millis (ha.mode.trans (by rw [hd]; rfl))
    obtain rfl := Option.some.inj (hsa.symm.trans hs')
    obtain rfl := Option.some.inj (htb.symm.trans ht')
    exact Int64.toInt_inj.1 (hsame.eq hwa hwb)

theorem schemaName_eq_of_sameSource {c : Connector} (ha : Describes a p d) (hb : Describes b q e)
    (h : RawOptions.SameSource c a b) (hc : d.connector = e.connector) :
    d.schemaName = e.schemaName := by
  have hsame := h.texts OptionKey.schemaName List.mem_cons_self
  rcases ha.schemaName with ⟨hor, name, hname, hd⟩ | ⟨hmy, hd⟩ <;>
    rcases hb.schemaName with ⟨hor', name', hname', he⟩ | ⟨hmy', he⟩
  · rw [hd, he, ← hname, ← hname', hsame]
  · rw [hc, hmy'] at hor
    cases hor
  · rw [hc, hor'] at hmy
    cases hmy
  · rw [hd, he]

/-- Options that agree in what a descriptor shows are described in the same way. -/
theorem eq_of_sameSource {c : Connector} (ha : Describes a p d) (hb : Describes b p e)
    (h : RawOptions.SameSource c a b) : d = e := by
  have hd : d.connector = c :=
    Connector.identifier_injective (Option.some.inj (ha.connector.symm.trans h.connector.1))
  have he : e.connector = c :=
    Connector.identifier_injective (Option.some.inj (hb.connector.symm.trans h.connector.2))
  have htext : ∀ {key s t}, key ∈ Connector.neededTexts → a.get? key = some s →
      b.get? key = some t → s = t := fun hkey hs ht =>
    Option.some.inj (hs.symm.trans ((h.texts _ (List.mem_cons_of_mem _ hkey)).trans ht))
  have hport := h.port.eq (hd ▸ ha.port) (he ▸ hb.port)
  ext1
  case connector => rw [hd, he]
  case physicalSchema => rw [ha.physicalSchema, hb.physicalSchema]
  case port => exact UInt16.toNat_inj.1 (Int.ofNat.inj hport)
  case hostname => exact htext (by simp [Connector.neededTexts]) ha.hostname hb.hostname
  case database => exact htext (by simp [Connector.neededTexts]) ha.database hb.database
  case table => exact htext (by simp [Connector.neededTexts]) ha.table hb.table
  case schemaName => exact schemaName_eq_of_sameSource ha hb h (hd.trans he.symm)
  case username => exact htext (by simp [Connector.neededTexts]) ha.username hb.username
  case password => exact htext (by simp [Connector.neededTexts]) ha.password hb.password
  case passthrough =>
    refine Dict.ext_get? fun k text => ?_
    rw [ha.passthrough, hb.passthrough, h.engine]
  case startup => exact startup_eq_of_sameSource ha hb h

/-- Two sources are the same just when their columns are and their options agree in all that a
descriptor shows. -/
theorem create_eq_iff (ha : SourceDescriptor.create a p = .ok d)
    (hb : SourceDescriptor.create b q = .ok e) :
    d = e ↔ p = q ∧ ∃ c, RawOptions.SameSource c a b := by
  have hda := describes_of_create ha
  have hdb := describes_of_create hb
  constructor
  · rintro rfl
    obtain ⟨-, v, hv, -⟩ := exists_validated_of_create ha
    obtain ⟨-, w, hw, -⟩ := exists_validated_of_create hb
    have hschema := schemaName_eq_of_describes hda hdb fun hmy => by
      rw [hmy] at hv hw
      exact ⟨schemaName_eq_none_of_validate hv, schemaName_eq_none_of_validate hw⟩
    refine ⟨hda.physicalSchema.symm.trans hdb.physicalSchema, d.connector,
      sameSource_of_describes hda hdb hschema ?_⟩
    rw [enginePrefix_eq_none_of_validate hv, enginePrefix_eq_none_of_validate hw]
  · rintro ⟨rfl, c, h⟩
    exact eq_of_sameSource hda hdb h

end Same

/-- The same source with numbers written in another way, and without the point in time that its
start does not ask for. -/
def plainToolsOptions : RawOptions :=
  .ofList [("table-name", "tools"), ("database-name", "inventory"), ("password", " pass word "),
    ("username", "cdc"), ("port", "3307"), ("hostname", "db.internal"),
    ("scan.startup.specific-offset.pos", "+09223372036854775807"),
    ("scan.startup.specific-offset.file", "mysql-bin.000003"),
    ("scan.startup.mode", "specific-offset"), ("debezium.port", "1"), ("connector", "mysql-cdc")]

theorem create_eq_iff_tools : SourceDescriptor.create toolsOptions ∅ = .ok toolsSource
    ∧ SourceDescriptor.create plainToolsOptions ∅ = .ok toolsSource
    ∧ ∃ c, RawOptions.SameSource c toolsOptions plainToolsOptions := by
  have h : SourceDescriptor.create toolsOptions ∅ = .ok toolsSource := by decide +kernel
  have h' : SourceDescriptor.create plainToolsOptions ∅ = .ok toolsSource := by decide +kernel
  exact ⟨h, h', ((create_eq_iff h h').1 rfl).2⟩

end TableCapture
