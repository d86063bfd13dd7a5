import TableCapture.Proofs.Options.Accounting

/-!
# Validated options stated again

Validated options can be written out as options: every value as a text, also one that a default
gave, and every option for the engine under its prefix (`OptionRegistry.restate`). No two of them
get the same key (`nodup_restated`), and the text of a value reads as this value under the
declaration that gave it (`OptionDeclaration.parse_written`). So the options that are written out
validate to the options that they were written from (`validate_restate`).
-/

namespace TableCapture

/-- The text of a value; an integer is written in decimal digits. -/
def OptionValue.written : OptionValue → String
  | text s | choice s => s
  | integer i => toString i

theorem OptionDeclaration.parse_written {o : OptionDeclaration} {text : String} {x : OptionValue}
    (h : o.parse text = .ok x) : o.parse x.written = .ok x := by
  rcases hk : o.kind with _ | ⟨min, max⟩ | values
  · rw [parse_text hk] at h
    obtain rfl := Except.ok.inj h
    exact parse_text hk
  · obtain ⟨n, rfl, -, hword, hn⟩ := (parse_integer_eq_ok_iff hk).1 h
    exact (parse_integer_eq_ok_iff hk).2 ⟨n, rfl, Decimal.writes_toString n, hword, hn⟩
  · obtain ⟨hmem, rfl⟩ := (parse_choice_eq_ok_iff hk).1 h
    exact (parse_choice_eq_ok_iff hk).2 ⟨hmem, rfl⟩

namespace OptionRegistry

/-- The values, each with its key, and the options for the engine under their prefix. -/
def restated (r : OptionRegistry) (v : ValidatedOptions) : List (String × String) :=
  v.values.entries.map (fun e => (e.1, e.2.written))
    ++ v.passthrough.entries.map fun e => (r.passthroughPrefix ++ e.1, e.2)

/-- Validated options written out as options. -/
def restate (r : OptionRegistry) (v : ValidatedOptions) : Dict String :=
  .ofList (r.restated v)

variable {r : OptionRegistry} {raw w : RawOptions} {v : ValidatedOptions} {k j text : String}
  {o : OptionDeclaration} {x : OptionValue}

theorem mem_restated : (k, text) ∈ r.restated v ↔
    (∃ x, v.values.get? k = some x ∧ x.written = text)
      ∨ ∃ j, v.passthrough.get? j = some text ∧ r.passthroughPrefix ++ j = k := by
  rw [restated, List.mem_append, List.mem_map, List.mem_map]
  refine or_congr ?_ ?_
  · constructor
    · rintro ⟨⟨i, x⟩, hmem, heq⟩
      obtain ⟨rfl, rfl⟩ := Prod.mk.inj heq
      exact ⟨x, Dict.get?_eq_some_iff.2 hmem, rfl⟩
    · rintro ⟨x, hx, rfl⟩
      exact ⟨(k, x), Dict.get?_eq_some_iff.1 hx, rfl⟩
  · constructor
    · rintro ⟨⟨j, s⟩, hmem, heq⟩
      obtain ⟨rfl, rfl⟩ := Prod.mk.inj heq
      exact ⟨j, Dict.get?_eq_some_iff.2 hmem, rfl⟩
    · rintro ⟨j, hj, rfl⟩
      exact ⟨(j, text), Dict.get?_eq_some_iff.1 hj, rfl⟩

section Accepted

/-- An option with a default has a value. -/
theorem ReadsTo.default?_eq_none {values : Dict OptionValue} (h : r.ReadsTo raw values)
    (hn : (r.options.map OptionDeclaration.key).Nodup) (ho : o ∈ r.options)
    (hnone : values.get? o.key = none) : o.default? = none := by
  by_contra hdef
  have htext : o.text? raw ≠ none := by
    rw [OptionDeclaration.text?]
    cases raw.given? o.key with
    | none => exact hdef
    | some text => exact Option.some_ne_none text
  obtain ⟨text, htext⟩ := Option.ne_none_iff_exists'.1 htext
  obtain ⟨x, -, hx⟩ := h.get?_of_text hn ho htext
  rw [hnone] at hx
  cases hx

/-- The key of a value is declared, and that of an option for the engine is not. -/
theorem nodup_restated (h : r.validate raw = .ok v) : ((r.restated v).map Prod.fst).Nodup := by
  obtain ⟨-, -, hreads, -, hpass⟩ := accepted_of_validate h
  rw [restated, List.map_append, List.map_map, List.map_map, List.nodup_append]
  refine ⟨v.values.nodup_keys, ?_, ?_⟩
  · have hinj : Function.Injective (r.passthroughPrefix ++ ·) := fun j j' heq =>
      (String.append_right_inj _).1 heq
    have hkeys := v.passthrough.nodup_keys.map hinj
    rwa [List.map_map] at hkeys
  · intro k hk k' hk' heq
    obtain ⟨⟨k, x⟩, hx, rfl⟩ := List.mem_map.1 hk
    obtain ⟨⟨j, s⟩, hj, rfl⟩ := List.mem_map.1 hk'
    obtain ⟨o, ho, hkey, -⟩ := ((hreads.get?_iff k x).1 (Dict.get?_eq_some_iff.2 hx)).mem
    exact ((hpass j s).1 (Dict.get?_eq_some_iff.2 hj)).2.1 o ho (hkey.trans heq)

theorem get?_restate (h : r.validate raw = .ok v) : (r.restate v).get? k = some text ↔
    (∃ x, v.values.get? k = some x ∧ x.written = text)
      ∨ ∃ j, v.passthrough.get? j = some text ∧ r.passthroughPrefix ++ j = k := by
  rw [restate, Dict.get?_ofList (nodup_restated h), mem_restated]

/-- Under a declared key there is the text of its value, if it has one. -/
theorem get?_restate_declared (h : r.validate raw = .ok v) (ho : o ∈ r.options) :
    (r.restate v).get? o.key = (v.values.get? o.key).map OptionValue.written := by
  obtain ⟨-, -, -, -, hpass⟩ := accepted_of_validate h
  refine Option.ext fun text => ?_
  rw [get?_restate h, Option.map_eq_some_iff]
  refine or_iff_left ?_
  rintro ⟨j, hj, hkey⟩
  exact ((hpass j text).1 hj).2.1 o ho hkey.symm

/-- Under a key that is not declared there is an option for the engine, if any. -/
theorem get?_restate_undeclared (h : r.validate raw = .ok v) (hk : ∀ o ∈ r.options, o.key ≠ k) :
    (r.restate v).get? k = some text ↔
      ∃ j, v.passthrough.get? j = some text ∧ r.passthroughPrefix ++ j = k := by
  obtain ⟨-, -, hreads, -, -⟩ := accepted_of_validate h
  rw [get?_restate h]
  refine or_iff_right ?_
  rintro ⟨x, hx, -⟩
  obtain ⟨o, ho, hkey, -⟩ := ((hreads.get?_iff k x).1 hx).mem
  exact hk o ho hkey

end Accepted

/-! ## The options that are written out -/

section Restated

variable (hn : (r.options.map OptionDeclaration.key).Nodup) (h : r.validate raw = .ok v)
  (hw : ∀ k, w.given? k = (r.restate v).get? k)

include hn h hw in
theorem text?_restated (ho : o ∈ r.options) :
    o.text? w = (v.values.get? o.key).map OptionValue.written := by
  obtain ⟨-, -, hreads, -, -⟩ := accepted_of_validate h
  rw [OptionDeclaration.text?, hw, get?_restate_declared h ho]
  rcases hx : v.values.get? o.key with _ | x
  · exact hreads.default?_eq_none hn ho hx
  · rfl

include hn h hw in
theorem readsTo_restated : r.ReadsTo w v.values := by
  obtain ⟨-, -, hreads, -, -⟩ := accepted_of_validate h
  have hparse : ∀ o ∈ r.options, ∀ x, v.values.get? o.key = some x →
      o.parse x.written = .ok x := fun o ho x hx => by
    obtain ⟨text, -, hparse⟩ := (hreads.get?_iff_reads hn ho).1 hx
    exact OptionDeclaration.parse_written hparse
  have hreads' : ∀ o ∈ r.options, ∀ x, o.Reads w x ↔ v.values.get? o.key = some x := by
    intro o ho x
    rw [OptionDeclaration.Reads, text?_restated hn h hw ho]
    rcases hx : v.values.get? o.key with _ | y
    · simp
    · simp [hparse o ho y hx]
  refine ⟨fun o ho text htext => ?_, fun k x => ⟨fun hx => ?_, fun hlast => ?_⟩⟩
  · rw [text?_restated hn h hw ho, Option.map_eq_some_iff] at htext
    obtain ⟨x, hx, rfl⟩ := htext
    exact ⟨x, hparse o ho x hx⟩
  · obtain ⟨o, ho, rfl, -⟩ := ((hreads.get?_iff k x).1 hx).mem
    exact (lastRead_iff_reads hn ho).2 ((hreads' o ho x).2 hx)
  · obtain ⟨o, ho, rfl, hr⟩ := hlast.mem
    exact (hreads' o ho x).1 hr

include hn h hw in
theorem admits_restated (hc : ∀ o ∈ r.options, o.key ≠ OptionKey.connector)
    (hnamed : r.Named w) : r.Admits w where
  named := hnamed
  complete := by
    obtain ⟨-, hadmits, hreads, -, -⟩ := accepted_of_validate h
    rintro k ⟨⟨o, ho, hreq, rfl⟩, hnone⟩
    obtain ⟨text, hgiven⟩ := hadmits.exists_of_required ho hreq (hc o ho)
    have htext : o.text? raw = some text := by
      rw [OptionDeclaration.text?_of_ne (hc o ho), hgiven, Option.some_or]
    obtain ⟨x, -, hx⟩ := hreads.get?_of_text hn ho htext
    rw [hw, get?_restate_declared h ho, hx] at hnone
    cases hnone
  known := by
    obtain ⟨-, -, -, -, hpass⟩ := accepted_of_validate h
    rintro k ⟨hgiven, hundecl, hprefix⟩
    obtain ⟨text, htext⟩ := Option.ne_none_iff_exists'.1 hgiven
    rw [hw, get?_restate_undeclared h hundecl] at htext
    obtain ⟨j, hj, rfl⟩ := htext
    exact hprefix j ((hpass j text).1 hj).1 rfl

include h hw in
theorem passesThrough_restated : r.PassesThrough w v.passthrough := by
  obtain ⟨-, -, -, -, hpass⟩ := accepted_of_validate h
  intro j text
  rw [hw]
  constructor
  · intro hj
    obtain ⟨hne, hundecl, -⟩ := (hpass j text).1 hj
    exact ⟨hne, hundecl, (get?_restate_undeclared h hundecl).2 ⟨j, hj, rfl⟩⟩
  · rintro ⟨-, hundecl, hgiven⟩
    obtain ⟨i, hi, heq⟩ := (get?_restate_undeclared h hundecl).1 hgiven
    rwa [← (String.append_right_inj _).1 heq]

include hn h hw in
theorem validate_restated (hc : ∀ o ∈ r.options, o.key ≠ OptionKey.connector)
    (hnamed : r.Named w) : r.validate w = .ok v := by
  obtain ⟨hconn, -, -, hneeds, -⟩ := accepted_of_validate h
  have hout := Outcome.accepted (admits_restated hn h hw hc hnamed) (readsTo_restated hn h hw)
    hneeds (passesThrough_restated h hw)
  rw [hout.validate_eq, ← hconn]

end Restated

/-- The key that names the connector is not among the keys that are written out. -/
theorem restate_connector (hc : ∀ o ∈ r.options, o.key ≠ OptionKey.connector)
    (h : r.validate raw = .ok v) : (r.restate v).get? OptionKey.connector = none := by
  obtain ⟨-, -, -, -, hpass⟩ := accepted_of_validate h
  refine Option.eq_none_iff_forall_ne_some.2 fun text htext => ?_
  obtain ⟨j, hj, hkey⟩ := (get?_restate_undeclared h hc).1 htext
  have hgiven := ((hpass j text).1 hj).2.2
  rw [hkey, RawOptions.given?_eq_some_iff] at hgiven
  exact hgiven.1 rfl

/-- Where declared keys are different and none names the connector, validated options that are
written out validate to themselves, and so they do where the connector is named as well. -/
theorem validate_restate (hn : (r.options.map OptionDeclaration.key).Nodup)
    (hc : ∀ o ∈ r.options, o.key ≠ OptionKey.connector) (h : r.validate raw = .ok v) :
    (∀ w : RawOptions, (∀ k, w.get? k = (r.restate v).get? k) → r.validate w = .ok v)
      ∧ ∀ w : RawOptions, (∀ k, w.get? k = ((r.restate v).insert OptionKey.connector
          r.connector.identifier).get? k) → r.validate w = .ok v := by
  have hnone := restate_connector hc h
  constructor
  · intro w hw
    refine validate_restated hn h (fun k => ?_) hc fun c hgiven => ?_
    · rw [RawOptions.given?, hw]
      split_ifs with hk
      · rw [hk, hnone]
      · rfl
    · rw [hw, hnone] at hgiven
      cases hgiven
  · intro w hw
    refine validate_restated hn h (fun k => ?_) hc fun c hgiven => ?_
    · rw [RawOptions.given?, hw, Dict.get?_insert]
      split_ifs with hk
      · rw [hk, hnone]
      · rfl
    · rw [hw, Dict.get?_insert, if_pos rfl] at hgiven
      exact (Option.some.inj hgiven).symm

theorem validate_restate_spool : spoolRegistry.validate spoolOptions = .ok spoolValidated
    ∧ (spoolRegistry.restate spoolValidated).entries
      = [("mode", "fast"), ("size", "4"), ("spool.dir", "/var"), ("spool.size", "4k")]
    ∧ spoolRegistry.validate (.ofDict (spoolRegistry.restate spoolValidated)) = .ok spoolValidated
    ∧ spoolRegistry.validate (.ofDict ((spoolRegistry.restate spoolValidated).insert "connector"
        "mysql-cdc")) = .ok spoolValidated := by
  have h : spoolRegistry.validate spoolOptions = .ok spoolValidated := by decide +kernel
  obtain ⟨hwithout, hwith⟩ := validate_restate (by decide) (by decide) h
  exact ⟨h, by decide +kernel, hwithout _ fun _ => rfl, hwith _ fun _ => rfl⟩

end OptionRegistry

end TableCapture
