import TableCapture.Proofs.Options.Accounting
import TableCapture.Source.Creation

/-!
# The order of options does not show

Options are listed in some order, and one and the same table of options may be listed in any. What
the three places hold once the options are sorted is told by which options there are
(`SortsInto.unique`), so however they are listed, they are sorted alike. Nothing that comes after
looks at the list again, so validation and the creation of a source give the same, down to the keys
that an error lists and the option that it blames (`order_hidden`).
-/

namespace TableCapture

section Sorting

variable {r : OptionRegistry} {es es' : List (String × String)} {s s' : SortedOptions}

theorem SortsInto.of_perm (h : SortsInto r es s) (hp : es.Perm es') : SortsInto r es' s where
  declared k v := by rw [h.declared, hp.mem_iff]
  passthrough k v := by rw [h.passthrough, hp.mem_iff]
  unsupported k := by simp only [h.unsupported, hp.mem_iff]

theorem SortsInto.unique (h : SortsInto r es s) (h' : SortsInto r es s') : s = s' := by
  have hdeclared : s.declared = s'.declared :=
    Dict.ext_get? fun k v => (h.declared k v).trans (h'.declared k v).symm
  have hpassthrough : s.passthrough = s'.passthrough :=
    Dict.ext_get? fun k v => (h.passthrough k v).trans (h'.passthrough k v).symm
  have hunsupported : s.unsupported = s'.unsupported :=
    Names.ext_contains fun k => (h.unsupported k).trans (h'.unsupported k).symm
  cases s
  cases s'
  congr

theorem SortedOptions.ofEntries_eq_of_perm (r : OptionRegistry) (hp : es.Perm es')
    (hn : (es.map Prod.fst).Nodup) : ofEntries r es = ofEntries r es' := by
  have hn' : (es'.map Prod.fst).Nodup := (hp.map Prod.fst).nodup_iff.1 hn
  exact ((sortsInto_ofEntries r hn).of_perm hp).unique (sortsInto_ofEntries r hn')

end Sorting

section Options

variable {raw raw' : RawOptions}

theorem RawOptions.get?_eq_of_perm (hp : raw.entries.Perm raw'.entries) (key : String) :
    raw.get? key = raw'.get? key := by
  refine Option.ext fun text => ?_
  rw [get?_eq_some_iff, get?_eq_some_iff, hp.mem_iff]

theorem OptionRegistry.validate_eq_of_perm (r : OptionRegistry)
    (hp : raw.entries.Perm raw'.entries) : r.validate raw = r.validate raw' := by
  unfold validate checkConnector
  rw [RawOptions.get?_eq_of_perm hp, SortedOptions.ofEntries_eq_of_perm r hp raw.keys_nodup]

theorem SourceDescriptor.create_eq_of_perm (hp : raw.entries.Perm raw'.entries)
    (s : PhysicalSchema) : create raw s = create raw' s := by
  unfold create RawOptions.connector
  rw [RawOptions.get?_eq_of_perm hp]
  simp only [OptionRegistry.validate_eq_of_perm _ hp]

end Options

/-- Options with different keys that are listed in two orders are sorted alike, and validation and
the creation of a source give the same of them: the same options or source, or the same error. -/
theorem order_hidden (r : OptionRegistry) {es es' : List (String × String)} (hp : es.Perm es')
    (hn : (es.map Prod.fst).Nodup) (hn' : (es'.map Prod.fst).Nodup) :
    SortedOptions.ofEntries r es = SortedOptions.ofEntries r es'
      ∧ r.validate ⟨es, hn⟩ = r.validate ⟨es', hn'⟩
      ∧ ∀ s, SourceDescriptor.create ⟨es, hn⟩ s = SourceDescriptor.create ⟨es', hn'⟩ s :=
  ⟨SortedOptions.ofEntries_eq_of_perm r hp hn, r.validate_eq_of_perm hp,
    SourceDescriptor.create_eq_of_perm hp⟩

/-- Options of all three kinds, with two that nobody knows, the later one first. -/
def jumbledEntries : List (String × String) := [
  ("zeta", "1"), ("spool.size", "4k"), ("mode", "slow"), ("connector", "mysql-cdc"),
  ("spool.dir", "/var"), ("alpha", "2"), ("spool.mode", "fast")]

theorem order_hidden_jumbled : jumbledEntries.Perm jumbledEntries.reverse
    ∧ SortedOptions.ofEntries .spoolRegistry jumbledEntries
      = SortedOptions.ofEntries .spoolRegistry jumbledEntries.reverse
    ∧ OptionRegistry.spoolRegistry.validate ⟨jumbledEntries, by decide⟩
      = .error (.unsupported "mysql-cdc" ["alpha", "zeta"])
    ∧ OptionRegistry.spoolRegistry.validate ⟨jumbledEntries.reverse, by decide⟩
      = .error (.unsupported "mysql-cdc" ["alpha", "zeta"])
    ∧ SourceDescriptor.create ⟨jumbledEntries.reverse, by decide⟩ ∅ = .error (.missingRequired
      ["database-name", "hostname", "password", "table-name", "username"]) := by
  have hp : jumbledEntries.Perm jumbledEntries.reverse := (List.reverse_perm _).symm
  have hunknown : OptionRegistry.spoolRegistry.validate ⟨jumbledEntries, by decide⟩
      = .error (.unsupported "mysql-cdc" ["alpha", "zeta"]) := by decide +kernel
  obtain ⟨hsorted, hvalidate, hcreate⟩ := order_hidden OptionRegistry.spoolRegistry hp
    (by decide) (by decide)
  refine ⟨hp, hsorted, hunknown, hvalidate.symm.trans hunknown, ?_⟩
  rw [← hcreate]
  decide +kernel

end TableCapture
