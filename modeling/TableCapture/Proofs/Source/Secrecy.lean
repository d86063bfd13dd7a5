import TableCapture.Program
import TableCapture.Proofs.Source.Creation

/-!
# The password is not shown

An option is free when any text will do for it and no requirement hangs on it. What validation
comes to is the same whatever text a free option is given: it fails with the same error, and where
it succeeds the values are the same but for this one (`FreeText.validate_eq`). For each of the six
things that can be said of options says it of them with any other text (`FreeText.outcome`).

The password is free under every registry, so a source is created with one password just as with
another, and the descriptor shows asterisks in its place. Nothing that the program prints of a
valid configuration, and no error that it reports, tells two passwords apart (`password_hidden`).
Log lines are no part of a report, so nothing is said of them.
-/

namespace TableCapture

/-- The options `raw'` are `raw` with `text` in place of what was given for `key`. -/
structure RawOptions.Replaces (raw : RawOptions) (key text : String) (raw' : RawOptions) :
    Prop where
  given : ∃ t, raw.get? key = some t
  replaced : raw'.get? key = some text
  others : ∀ k, k ≠ key → raw'.get? k = raw.get? k

namespace OptionRegistry

/-- Any text will do for the option, and no requirement hangs on it. -/
structure FreeText (r : OptionRegistry) (key : String) : Prop where
  ne_connector : key ≠ OptionKey.connector
  distinct : (r.options.map OptionDeclaration.key).Nodup
  declared : ∃ o ∈ r.options, o.key = key ∧ o.kind = .text
  unrequired : ∀ q ∈ r.requirements, q.key ≠ key

namespace FreeText

variable {r : OptionRegistry} {raw raw' : RawOptions} {key text : String} {o : OptionDeclaration}
  {values : Dict OptionValue}

theorem kind_eq (h : r.FreeText key) (ho : o ∈ r.options) (hk : o.key = key) : o.kind = .text := by
  obtain ⟨p, hp, hpk, hkind⟩ := h.declared
  rwa [List.inj_on_of_nodup_map h.distinct ho hp (hk.trans hpk.symm)]

/-! ## What is given -/

section Given

theorem given?_eq (hr : raw.Replaces key text raw') {k : String} (hk : k ≠ key) :
    raw'.given? k = raw.given? k := by
  unfold RawOptions.given?
  rw [hr.others k hk]

theorem given?_eq_none_iff (hr : raw.Replaces key text raw') {k : String} :
    raw'.given? k = none ↔ raw.given? k = none := by
  by_cases hk : k = key
  · obtain ⟨t, ht⟩ := hr.given
    unfold RawOptions.given?
    simp [hk, ht, hr.replaced]
  · rw [given?_eq hr hk]

theorem named (h : r.FreeText key) (hr : raw.Replaces key text raw') (hn : r.Named raw) :
    r.Named raw' := by
  intro c hc
  rw [hr.others _ (Ne.symm h.ne_connector)] at hc
  exact hn c hc

theorem lacks_eq (hr : raw.Replaces key text raw') : r.Lacks raw' = r.Lacks raw := by
  funext k
  simp only [Lacks, given?_eq_none_iff hr]

theorem unknown_eq (hr : raw.Replaces key text raw') : r.Unknown raw' = r.Unknown raw := by
  funext k
  simp only [Unknown, ne_eq, given?_eq_none_iff hr]

theorem admits (h : r.FreeText key) (hr : raw.Replaces key text raw') (ha : r.Admits raw) :
    r.Admits raw' where
  named := h.named hr ha.named
  complete := by
    rw [lacks_eq hr]
    exact ha.complete
  known := by
    rw [unknown_eq hr]
    exact ha.known

theorem passesThrough (h : r.FreeText key) (hr : raw.Replaces key text raw') {pass : Dict String}
    (hp : r.PassesThrough raw pass) : r.PassesThrough raw' pass := by
  intro k t
  rw [hp]
  -- A key that is declared is not one for the engine.
  have hgiven : (∀ o ∈ r.options, o.key ≠ r.passthroughPrefix ++ k) →
      raw'.given? (r.passthroughPrefix ++ k) = raw.given? (r.passthroughPrefix ++ k) := by
    refine fun hno => given?_eq hr fun hk => ?_
    obtain ⟨o, ho, hok, -⟩ := h.declared
    exact hno o ho (hok.trans hk.symm)
  constructor
  · rintro ⟨hk, hno, ht⟩
    exact ⟨hk, hno, by rw [hgiven hno, ht]⟩
  · rintro ⟨hk, hno, ht⟩
    exact ⟨hk, hno, by rw [← hgiven hno, ht]⟩

end Given

/-! ## What is read -/

section Read

theorem text?_eq (hr : raw.Replaces key text raw') (hk : o.key ≠ key) :
    o.text? raw' = o.text? raw := by
  unfold OptionDeclaration.text?
  rw [given?_eq hr hk]

theorem fits (h : r.FreeText key) (hr : raw.Replaces key text raw') (ho : o ∈ r.options)
    (hf : o.Fits raw) : o.Fits raw' := by
  intro t ht
  by_cases hk : o.key = key
  · exact ⟨_, OptionDeclaration.parse_text (h.kind_eq ho hk)⟩
  · exact hf t (by rwa [text?_eq hr hk] at ht)

theorem firstMisfit (h : r.FreeText key) (hr : raw.Replaces key text raw') {e : OptionError}
    (he : FirstMisfit raw r.options e) : FirstMisfit raw' r.options e :=
  he.imp (fun _ ho => h.fits hr ho) fun _ ho hbad => text?_eq hr fun hk =>
    hbad fun _ _ => ⟨_, OptionDeclaration.parse_text (h.kind_eq ho hk)⟩

theorem reads_iff (h : r.FreeText key) (hr : raw.Replaces key text raw') (ho : o ∈ r.options)
    (hk : o.key = key) {v : OptionValue} : o.Reads raw' v ↔ v = .text text := by
  have ht : o.text? raw' = some text := by
    rw [OptionDeclaration.text?_of_ne (by rw [hk]; exact h.ne_connector), hk, hr.replaced,
      Option.some_or]
  simp [OptionDeclaration.Reads, ht, OptionDeclaration.parse_text (h.kind_eq ho hk), eq_comm]

theorem lastRead_iff (hr : raw.Replaces key text raw') {k : String} (hk : k ≠ key)
    {v : OptionValue} : LastRead raw' r.options k v ↔ LastRead raw r.options k v :=
  lastRead_congr fun _ _ hok => text?_eq hr (by rwa [hok])

theorem readsTo (h : r.FreeText key) (hr : raw.Replaces key text raw')
    (hv : r.ReadsTo raw values) : r.ReadsTo raw' (values.insert key (.text text)) where
  fits o ho := h.fits hr ho (hv.fits o ho)
  get?_iff k v := by
    rw [Dict.get?_insert]
    split_ifs with hk
    · obtain ⟨o, ho, hok, -⟩ := h.declared
      rw [hk, ← hok, lastRead_iff_reads h.distinct ho, h.reads_iff hr ho hok, Option.some.injEq,
        eq_comm]
    · rw [hv.get?_iff, lastRead_iff hr hk]

theorem exists_value (h : r.FreeText key) (hr : raw.Replaces key text raw')
    (hv : r.ReadsTo raw values) : ∃ v, values.get? key = some v := by
  obtain ⟨o, ho, hok, -⟩ := h.declared
  obtain ⟨t, ht⟩ := hr.given
  have htext : o.text? raw = some t := by
    rw [OptionDeclaration.text?_of_ne (by rw [hok]; exact h.ne_connector), hok, ht, Option.some_or]
  obtain ⟨v, -, hget⟩ := hv.get?_of_text h.distinct ho htext
  exact ⟨v, by rwa [hok] at hget⟩

theorem needs_eq (h : r.FreeText key) (hv : ∃ v, values.get? key = some v) :
    r.Needs (values.insert key (.text text)) = r.Needs values := by
  have hnone : ∀ k, (values.insert key (.text text)).get? k = none ↔ values.get? k = none := by
    intro k
    rw [Dict.get?_insert]
    obtain ⟨v, hv⟩ := hv
    split_ifs with hk
    · simp [hk, hv]
    · rfl
  have hsame : ∀ q ∈ r.requirements,
      (values.insert key (.text text)).get? q.key = values.get? q.key := fun q hq => by
    rw [Dict.get?_insert, if_neg (h.unrequired q hq)]
  funext k
  unfold Needs
  rw [hnone]
  refine propext (and_congr_left fun _ => exists_congr fun q => and_congr_right fun hq => ?_)
  rw [hsame q hq]

end Read

/-- Whatever can be said of options can be said of them with another text for a free option. -/
theorem outcome (h : r.FreeText key) (hr : raw.Replaces key text raw')
    {x : Except OptionError ValidatedOptions} (hx : r.Outcome raw x) :
    r.Outcome raw' (x.map fun v => { v with values := v.values.insert key (.text text) }) := by
  cases hx with
  | misnamed hc hne =>
    rw [← hr.others _ (Ne.symm h.ne_connector)] at hc
    exact .misnamed hc hne
  | lacking hn hne hks => exact .lacking (h.named hr hn) hne (by rwa [lacks_eq hr])
  | unknown hn hl hne hks =>
    exact .unknown (h.named hr hn) (by rwa [lacks_eq hr]) hne (by rwa [unknown_eq hr])
  | misfit ha he => exact .misfit (h.admits hr ha) (h.firstMisfit hr he)
  | needing ha hv hne hks =>
    exact .needing (h.admits hr ha) (h.readsTo hr hv) hne
      (by rwa [h.needs_eq (h.exists_value hr hv)])
  | accepted ha hv hneed hp =>
    exact .accepted (h.admits hr ha) (h.readsTo hr hv)
      (by rwa [h.needs_eq (h.exists_value hr hv)]) (h.passesThrough hr hp)

/-- The text of a free option shows in its own value and nowhere else. -/
theorem validate_eq (h : r.FreeText key) (hr : raw.Replaces key text raw') : r.validate raw'
    = (r.validate raw).map fun v => { v with values := v.values.insert key (.text text) } :=
  (h.outcome hr (outcome_validate r raw)).validate_eq

end FreeText

end OptionRegistry

/-! ## The password -/

theorem Connector.freeText_password (c : Connector) :
    c.registry.FreeText OptionKey.password where
  ne_connector := by decide
  distinct := c.keys_nodup
  declared := by cases c <;> decide
  unrequired := by cases c <;> decide

section Password

variable {raw raw' : RawOptions} {s : PhysicalSchema} {p p' : String}

theorem ValidatedOptions.describe_password (v : ValidatedOptions) (s : PhysicalSchema)
    (text : String) :
    describe { v with values := v.values.insert OptionKey.password (.text text) } s
      = { v.describe s with password := text } := by
  have hsame : ∀ key ≠ OptionKey.password,
      (v.values.insert OptionKey.password (.text text)).get? key = v.values.get? key :=
    fun key hkey => by rw [Dict.get?_insert, if_neg hkey]
  have hpassword : (v.values.insert OptionKey.password (.text text)).get? OptionKey.password
      = some (.text text) := by
    rw [Dict.get?_insert, if_pos rfl]
  simp only [describe, startup, startupMode, textD, integerD, text?, integer?, hpassword,
    hsame OptionKey.port (by decide), hsame OptionKey.hostname (by decide),
    hsame OptionKey.databaseName (by decide), hsame OptionKey.tableName (by decide),
    hsame OptionKey.schemaName (by decide), hsame OptionKey.username (by decide),
    hsame OptionKey.startupMode (by decide), hsame OptionKey.startupFile (by decide),
    hsame OptionKey.startupPosition (by decide), hsame OptionKey.startupMillis (by decide)]
  rfl

/-- With another password the same source is created, or the same error is given. -/
theorem create_replaces (hr : raw.Replaces OptionKey.password p' raw') :
    SourceDescriptor.create raw' s
      = (SourceDescriptor.create raw s).map fun d => { d with password := p' } := by
  have hconnector : raw'.connector = raw.connector := by
    unfold RawOptions.connector
    rw [hr.others _ (by decide)]
  unfold SourceDescriptor.create
  rw [hconnector]
  rcases raw.connector with e | c
  · rfl
  · simp only [c.freeText_password.validate_eq hr]
    rcases c.registry.validate raw with e | v
    · rfl
    · exact congrArg Except.ok (v.describe_password s p')

theorem perform_replaces (hr : raw.Replaces OptionKey.password p' raw') :
    Program.perform .validate ⟨raw', s⟩ = Program.perform .validate ⟨raw, s⟩ := by
  unfold Program.perform
  simp only [create_replaces hr]
  rcases SourceDescriptor.create raw s with e | d <;> rfl

/-- Options that differ in their passwords only give the same error, or descriptors that differ in
their passwords only and are displayed alike; and the program leaves the same behind when it
validates files that hold them. -/
theorem password_hidden (hp : raw.get? OptionKey.password = some p)
    (hp' : raw'.get? OptionKey.password = some p')
    (hsame : ∀ k, k ≠ OptionKey.password → raw'.get? k = raw.get? k) (s : PhysicalSchema) :
    ((∃ e, SourceDescriptor.create raw s = .error e ∧ SourceDescriptor.create raw' s = .error e)
        ∨ ∃ d d', SourceDescriptor.create raw s = .ok d ∧ SourceDescriptor.create raw' s = .ok d'
          ∧ d.password = p ∧ d' = { d with password := p' }
          ∧ d'.shape.oneLine = d.shape.oneLine ∧ d'.shape.indented = d.shape.indented)
      ∧ ∀ (as : List String) (c : CommandLine) (read read' : String → Option String),
        CommandLine.ofArguments as = .ok c → c.command = .validate →
        (read c.config).bind Configuration.ofText? = some ⟨raw, s⟩ →
        (read' c.config).bind Configuration.ofText? = some ⟨raw', s⟩ →
        Program.run (m := Id) read' as = Program.run (m := Id) read as := by
  have hr : raw.Replaces OptionKey.password p' raw' := ⟨⟨p, hp⟩, hp', hsame⟩
  constructor
  · have hcreate := create_replaces (s := s) hr
    rcases h : SourceDescriptor.create raw s with e | d <;> rw [h] at hcreate
    · exact .inl ⟨e, rfl, hcreate⟩
    · have hpass := (describes_of_create h).password
      rw [hp] at hpass
      exact .inr ⟨d, _, rfl, hcreate, (Option.some.inj hpass).symm, rfl, rfl, rfl⟩
  · intro as c read read' hc hvalidate hread hread'
    obtain ⟨text, htext, hg⟩ := Option.bind_eq_some_iff.1 hread
    obtain ⟨text', htext', hg'⟩ := Option.bind_eq_some_iff.1 hread'
    have hreport : Program.report c (read' c.config) = Program.report c (read c.config) := by
      unfold Program.report
      simp only [htext, htext', hg, hg', hvalidate, perform_replaces hr]
    unfold Program.run
    simp only [hc]
    exact hreport

end Password

/-- The options of a source with this password. -/
def lampsOptions (password : String) : RawOptions :=
  .ofList [("connector", "mysql-cdc"), ("hostname", "db"), ("username", "cdc"),
    ("password", password), ("database-name", "shop"), ("table-name", "lamps")]

/-- A configuration file with these options. The password is one that quotes do not change. -/
def lampsText (password : String) : String :=
  "'options':\n  'connector': 'mysql-cdc'\n  'hostname': 'db'\n  'username': 'cdc'\n"
    ++ "  'password': '" ++ password ++ "'\n  'database-name': 'shop'\n  'table-name': 'lamps'\n"

theorem password_hidden_lamps : (lampsOptions "").get? OptionKey.password = some ""
    ∧ (lampsOptions "one").get? OptionKey.password = some "one"
    ∧ (∃ d d', SourceDescriptor.create (lampsOptions "") ∅ = .ok d
      ∧ SourceDescriptor.create (lampsOptions "one") ∅ = .ok d' ∧ d ≠ d'
      ∧ d'.shape.indented = d.shape.indented)
    ∧ Configuration.ofText? (lampsText "") = some ⟨lampsOptions "", ∅⟩
    ∧ Configuration.ofText? (lampsText "one") = some ⟨lampsOptions "one", ∅⟩
    ∧ Program.run (m := Id) (fun _ => some (lampsText "one")) ["validate"]
      = Program.run (m := Id) (fun _ => some (lampsText "")) ["validate"] := by
  have hempty : (lampsOptions "").get? OptionKey.password = some "" := by decide +kernel
  have hone : (lampsOptions "one").get? OptionKey.password = some "one" := by decide +kernel
  have hsame : ∀ k, k ≠ OptionKey.password →
      (lampsOptions "one").get? k = (lampsOptions "").get? k := fun k hk => by
    have hne : k ≠ "password" := hk
    change (Dict.ofList _).get? k = (Dict.ofList _).get? k
    simp only [Dict.ofList, List.foldl_cons, List.foldl_nil, Dict.get?_insert, hne, if_false]
  have hloads : Configuration.ofText? (lampsText "") = some ⟨lampsOptions "", ∅⟩ := by
    decide +kernel
  have hloads' : Configuration.ofText? (lampsText "one") = some ⟨lampsOptions "one", ∅⟩ := by
    decide +kernel
  have hhidden := password_hidden hempty hone hsame ∅
  have hruns := hhidden.2 ["validate"] ⟨"source.yaml", .validate⟩ (fun _ => some (lampsText ""))
    (fun _ => some (lampsText "one")) rfl rfl ((Option.bind_some ..).trans hloads)
    ((Option.bind_some ..).trans hloads')
  refine ⟨hempty, hone, ?_, hloads, hloads', hruns⟩
  rcases hhidden.1 with ⟨e, he, -⟩ | ⟨d, d', hd, hd', hpass, heq, -, hshape⟩
  · have hok : (SourceDescriptor.create (lampsOptions "") ∅).isOk = true := by decide +kernel
    rw [he] at hok
    cases hok
  · refine ⟨d, d', hd, hd', fun hdd => ?_, hshape⟩
    have hpasses : "" = "one" := by
      rw [← hpass, congrArg SourceDescriptor.password (hdd.trans heq)]
    exact absurd hpasses (by decide)

end TableCapture
