import TableCapture.Proofs.Options.Accounting

/-!
# Options for the engine

The options for the engine are handed on unread. Options that differ in those for the engine only
are the same to every check: what can be said of the ones can be said of the others, with other
options to hand on (`SameButEngine.outcome`). So they are refused with the same error or accepted
with the same values, and one more option for the engine shows as one more option that is handed on
and nowhere else (`validate_inert`).
-/

namespace TableCapture

/-- The options `raw'` are `raw` with `text` given for `key`, for which nothing was given. -/
structure RawOptions.Adds (raw : RawOptions) (key text : String) (raw' : RawOptions) : Prop where
  absent : raw.get? key = none
  added : raw'.get? key = some text
  others : ∀ k, k ≠ key → raw'.get? k = raw.get? k

theorem RawOptions.adds_insert {d : Dict String} {key text : String} (h : d.get? key = none) :
    (ofDict d).Adds key text (ofDict (d.insert key text)) where
  absent := h
  added := (d.get?_insert key text key).trans (if_pos rfl)
  others k hk := (d.get?_insert key text k).trans (if_neg hk)

namespace OptionRegistry

/-- An option of this key is for the engine. -/
structure ForEngine (r : OptionRegistry) (key : String) : Prop where
  ne_connector : key ≠ OptionKey.connector
  undeclared : ∀ o ∈ r.options, o.key ≠ key
  stripped : ∃ k ≠ "", key = r.passthroughPrefix ++ k

/-- Nothing but options for the engine differs. -/
def SameButEngine (r : OptionRegistry) (raw raw' : RawOptions) : Prop :=
  ∀ key, ¬ r.ForEngine key → raw'.get? key = raw.get? key

variable {r : OptionRegistry} {raw raw' : RawOptions} {pass : Dict String} {key k text : String}

theorem not_forEngine_connector : ¬ r.ForEngine OptionKey.connector :=
  fun h => h.ne_connector rfl

theorem not_forEngine_of_declared {o : OptionDeclaration} (ho : o ∈ r.options) :
    ¬ r.ForEngine o.key :=
  fun h => h.undeclared o ho rfl

namespace SameButEngine

/-! ## What can be said of the options -/

section Said

theorem given?_eq (h : r.SameButEngine raw raw') (hkey : ¬ r.ForEngine key) :
    raw'.given? key = raw.given? key := by
  unfold RawOptions.given?
  rw [h key hkey]

theorem named (h : r.SameButEngine raw raw') (hn : r.Named raw) : r.Named raw' := by
  intro c hc
  rw [h _ not_forEngine_connector] at hc
  exact hn c hc

theorem lacks_eq (h : r.SameButEngine raw raw') : r.Lacks raw' = r.Lacks raw := by
  funext key
  refine propext (and_congr_right ?_)
  rintro ⟨o, ho, -, rfl⟩
  rw [h.given?_eq (not_forEngine_of_declared ho)]

/-- A key for the engine is known, so what differs is never among the unknown keys. -/
theorem unknown_of_unknown (h : r.SameButEngine raw raw') (hu : r.Unknown raw key) :
    r.Unknown raw' key := by
  obtain ⟨hgiven, hundecl, hpass⟩ := hu
  have hkey : ¬ r.ForEngine key := by
    rintro ⟨-, -, j, hj, hkey⟩
    exact hpass j hj hkey
  exact ⟨by rwa [h.given?_eq hkey], hundecl, hpass⟩

theorem symm (h : r.SameButEngine raw raw') : r.SameButEngine raw' raw :=
  fun key hkey => (h key hkey).symm

theorem unknown_eq (h : r.SameButEngine raw raw') : r.Unknown raw' = r.Unknown raw := by
  funext key
  exact propext ⟨h.symm.unknown_of_unknown, h.unknown_of_unknown⟩

theorem admits (h : r.SameButEngine raw raw') (ha : r.Admits raw) : r.Admits raw' where
  named := h.named ha.named
  complete := by
    rw [h.lacks_eq]
    exact ha.complete
  known := by
    rw [h.unknown_eq]
    exact ha.known

theorem text?_eq (h : r.SameButEngine raw raw') {o : OptionDeclaration} (ho : o ∈ r.options) :
    o.text? raw' = o.text? raw := by
  unfold OptionDeclaration.text?
  rw [h.given?_eq (not_forEngine_of_declared ho)]

theorem fits (h : r.SameButEngine raw raw') {o : OptionDeclaration} (ho : o ∈ r.options)
    (hf : o.Fits raw) : o.Fits raw' := by
  intro text htext
  rw [h.text?_eq ho] at htext
  exact hf text htext

theorem firstMisfit (h : r.SameButEngine raw raw') {e : OptionError}
    (he : FirstMisfit raw r.options e) : FirstMisfit raw' r.options e :=
  he.imp (fun _ ho => h.fits ho) fun _ ho _ => h.text?_eq ho

theorem readsTo (h : r.SameButEngine raw raw') {values : Dict OptionValue}
    (hv : r.ReadsTo raw values) : r.ReadsTo raw' values where
  fits o ho := h.fits ho (hv.fits o ho)
  get?_iff key v := (hv.get?_iff key v).trans (lastRead_congr fun _ ho _ => h.text?_eq ho).symm

end Said

/-- Whatever can be said of options can be said of those that differ in options for the engine
only, with the options that these hand on. -/
theorem outcome (h : r.SameButEngine raw raw') (hp : r.PassesThrough raw' pass)
    {x : Except OptionError ValidatedOptions} (hx : r.Outcome raw x) :
    r.Outcome raw' (x.map fun v => { v with passthrough := pass }) := by
  cases hx with
  | misnamed hc hne =>
    rw [← h _ not_forEngine_connector] at hc
    exact .misnamed hc hne
  | lacking hn hne hks => exact .lacking (h.named hn) hne (by rwa [h.lacks_eq])
  | unknown hn hl hne hks =>
    exact .unknown (h.named hn) (by rwa [h.lacks_eq]) hne (by rwa [h.unknown_eq])
  | misfit ha he => exact .misfit (h.admits ha) (h.firstMisfit he)
  | needing ha hv hne hks => exact .needing (h.admits ha) (h.readsTo hv) hne hks
  | accepted ha hv hneed _ => exact .accepted (h.admits ha) (h.readsTo hv) hneed hp

theorem validate_eq (h : r.SameButEngine raw raw') (hp : r.PassesThrough raw' pass) :
    r.validate raw' = (r.validate raw).map fun v => { v with passthrough := pass } :=
  (h.outcome hp (outcome_validate r raw)).validate_eq

end SameButEngine

/-! ## One more option for the engine -/

section Adds

theorem sameButEngine_of_adds (hkey : r.ForEngine key) (hadd : raw.Adds key text raw') :
    r.SameButEngine raw raw' :=
  fun k hk => hadd.others k fun heq => hk (heq ▸ hkey)

/-- The key is handed on without the prefix, so it takes the place of no other. -/
theorem passesThrough_of_adds (hk : k ≠ "") (hkey : r.ForEngine (r.passthroughPrefix ++ k))
    (hadd : raw.Adds (r.passthroughPrefix ++ k) text raw') (hp : r.PassesThrough raw pass) :
    r.PassesThrough raw' (pass.insert k text) := by
  intro j t
  rw [Dict.get?_insert]
  split_ifs with hj
  · subst hj
    rw [RawOptions.given?_of_ne hkey.ne_connector, hadd.added]
    exact ⟨fun ht => ⟨hk, hkey.undeclared, ht⟩, fun ht => ht.2.2⟩
  · have hne : r.passthroughPrefix ++ j ≠ r.passthroughPrefix ++ k := fun heq =>
      hj ((String.append_right_inj _).1 heq)
    have hgiven : raw'.given? (r.passthroughPrefix ++ j)
        = raw.given? (r.passthroughPrefix ++ j) := by
      unfold RawOptions.given?
      rw [hadd.others _ hne]
    rw [hp, hgiven]

theorem PassesThrough.get?_eq_none (hp : r.PassesThrough raw pass)
    (habsent : raw.get? (r.passthroughPrefix ++ k) = none) : pass.get? k = none := by
  refine Option.eq_none_iff_forall_ne_some.2 fun t ht => ?_
  obtain ⟨-, -, hgiven⟩ := (hp k t).1 ht
  have hgiven := RawOptions.get?_eq_some_iff.2 (RawOptions.given?_eq_some_iff.1 hgiven).2
  rw [habsent] at hgiven
  cases hgiven

end Adds

/-- One more option for the engine changes no error, and of what is accepted it changes only what is
handed on, by this one option. Options that differ in options for the engine only are both accepted,
with the same values, or both refused, with the same error. -/
theorem validate_inert (r : OptionRegistry) :
    (∀ (raw raw' : RawOptions) (k text : String), k ≠ "" →
        (∀ o ∈ r.options, o.key ≠ r.passthroughPrefix ++ k) →
        r.passthroughPrefix ++ k ≠ OptionKey.connector →
        raw.Adds (r.passthroughPrefix ++ k) text raw' →
        (∀ e, r.validate raw = .error e → r.validate raw' = .error e)
          ∧ ∀ v, r.validate raw = .ok v → v.passthrough.get? k = none
            ∧ r.validate raw' = .ok ⟨v.connector, v.values, v.passthrough.insert k text⟩)
      ∧ ∀ raw raw' : RawOptions, r.SameButEngine raw raw' →
        (∃ v v', r.validate raw = .ok v ∧ r.validate raw' = .ok v'
            ∧ v'.connector = v.connector ∧ v'.values = v.values)
          ∨ ∃ e, r.validate raw = .error e ∧ r.validate raw' = .error e := by
  constructor
  · intro raw raw' k text hk hundecl hconn hadd
    have hkey : r.ForEngine (r.passthroughPrefix ++ k) := ⟨hconn, hundecl, k, hk, rfl⟩
    have hsame := sameButEngine_of_adds hkey hadd
    constructor
    · intro e he
      rw [hsame.validate_eq passesThrough_sorts, he]
      rfl
    · intro v hv
      obtain ⟨-, -, -, -, hp⟩ := accepted_of_validate hv
      refine ⟨hp.get?_eq_none hadd.absent, ?_⟩
      rw [hsame.validate_eq (passesThrough_of_adds hk hkey hadd hp), hv]
      rfl
  · intro raw raw' hsame
    have heq := hsame.validate_eq passesThrough_sorts
    rcases h : r.validate raw with e | v <;> rw [h] at heq
    · exact .inr ⟨e, rfl, heq⟩
    · exact .inl ⟨v, _, rfl, heq, rfl, rfl⟩

/-- The key that is handed on may be that of a declared option. -/
def spoolEager : RawOptions :=
  .ofList [("connector", "mysql-cdc"), ("spool.dir", "/var"), ("spool.size", "4k"),
    ("mode", "fast"), ("spool.mode", "slow")]

theorem validate_inert_spool :
    spoolRegistry.validate spoolOptions = .ok spoolValidated
      ∧ spoolRegistry.validate spoolEager
        = .ok ⟨.mySQL, spoolValidated.values, .ofList [("mode", "slow"), ("size", "4k")]⟩
      ∧ spoolRegistry.validate (.ofList [("size", "2"), ("spool.x", "1")])
        = .error (.missingRequired ["spool.dir"])
      ∧ spoolRegistry.validate (.ofList [("size", "2")])
        = .error (.missingRequired ["spool.dir"]) := by
  have hok : spoolRegistry.validate spoolOptions = .ok spoolValidated := by decide +kernel
  have herror : spoolRegistry.validate (.ofList [("size", "2")])
      = .error (.missingRequired ["spool.dir"]) := by decide +kernel
  have hsame : spoolRegistry.SameButEngine (.ofList [("size", "2")])
      (.ofList [("size", "2"), ("spool.x", "1")]) :=
    sameButEngine_of_adds ⟨by decide, by decide, "x", by decide, by decide⟩
      (RawOptions.adds_insert (d := .ofList [("size", "2")]) (by decide))
  obtain ⟨hinert, hagree⟩ := validate_inert spoolRegistry
  refine ⟨hok, ?_, ?_, herror⟩
  · obtain ⟨-, hinert⟩ := hinert spoolOptions spoolEager "mode" "slow" (by decide) (by decide)
      (by decide) (RawOptions.adds_insert (by decide))
    exact (hinert _ hok).2
  · rcases hagree _ _ hsame with ⟨v, -, hv, -⟩ | ⟨e, he, he'⟩
    · rw [herror] at hv
      cases hv
    · rwa [he', ← he]

end OptionRegistry

end TableCapture
