import Mathlib.Data.List.Induction
import TableCapture.Options.Validation
import TableCapture.Proofs.Dict

/-!
# Where an option is sorted

Every option but the one that names the connector is sorted into exactly one place: it is declared,
or its key is the passthrough prefix with something after it, or nobody knows it. `SortsInto` says
what the three places hold for the options read so far, `SortsInto.add` that one more option with a
new key keeps this, and so it holds of all options together (`sortsInto_ofEntries`), whatever their
order.
-/

namespace TableCapture

namespace RawOptions

variable {raw : RawOptions} {key text : String}

/-- The text given for a key, unless the key names the connector. -/
def given? (raw : RawOptions) (key : String) : Option String :=
  if key = OptionKey.connector then none else raw.get? key

theorem given?_of_ne (h : key ≠ OptionKey.connector) : raw.given? key = raw.get? key :=
  if_neg h

theorem get?_eq_some_iff : raw.get? key = some text ↔ (key, text) ∈ raw.entries :=
  lookup_eq_some_iff_mem raw.keys_nodup

theorem given?_eq_some_iff :
    raw.given? key = some text ↔ key ≠ OptionKey.connector ∧ (key, text) ∈ raw.entries := by
  rw [given?, ← get?_eq_some_iff]
  split <;> simp_all

end RawOptions

namespace OptionRegistry

variable {r : OptionRegistry} {key k : String}

theorem declares_iff : r.declares key = true ↔ ∃ o ∈ r.options, o.key = key := by
  simp [declares, find?, List.find?_isSome]

theorem not_declares_iff : ¬ r.declares key = true ↔ ∀ o ∈ r.options, o.key ≠ key := by
  rw [declares_iff]
  push Not
  rfl

theorem passthroughKey?_eq_some_iff :
    r.passthroughKey? key = some k ↔ k ≠ "" ∧ key = r.passthroughPrefix ++ k := by
  have happend : key = r.passthroughPrefix ++ k ↔
      r.passthroughPrefix.toList.isPrefixOf? key.toList = some k.toList := by
    rw [List.isPrefixOf?_eq_some_iff_append_eq, ← String.toList_append, String.toList_inj, eq_comm]
  rw [happend, passthroughKey?]
  constructor
  · intro h
    split at h
    · rename_i c cs heq
      obtain rfl := Option.some.inj h
      refine ⟨fun hk => ?_, by rw [heq, String.toList_ofList]⟩
      have := congrArg String.toList hk
      simp at this
    · cases h
  · rintro ⟨hk, heq⟩
    rw [heq]
    rcases hcs : k.toList with _ | ⟨c, cs⟩
    · exact absurd (String.toList_inj.1 (hcs.trans (by rfl : [] = "".toList))) hk
    · simp only [← hcs, String.ofList_toList]

end OptionRegistry

open OptionKey (connector)

/-- What the places hold once some options are sorted. -/
structure SortsInto (r : OptionRegistry) (es : List (String × String)) (s : SortedOptions) :
    Prop where
  declared : ∀ k v, s.declared.get? k = some v ↔ k ≠ connector ∧ r.declares k ∧ (k, v) ∈ es
  passthrough : ∀ k v, s.passthrough.get? k = some v ↔ k ≠ ""
    ∧ r.passthroughPrefix ++ k ≠ connector ∧ ¬ r.declares (r.passthroughPrefix ++ k)
    ∧ (r.passthroughPrefix ++ k, v) ∈ es
  unsupported : ∀ k, s.unsupported.contains k ↔ k ≠ connector ∧ ¬ r.declares k
    ∧ r.passthroughKey? k = none ∧ ∃ v, (k, v) ∈ es

namespace SortsInto

variable {r : OptionRegistry} {es : List (String × String)} {s : SortedOptions} {key text : String}

theorem skip (h : SortsInto r es s) (hc : key = connector) :
    SortsInto r (es ++ [(key, text)]) s := by
  constructor
  · intro k v
    rw [h.declared]
    simp +contextual [hc]
  · intro k v
    rw [h.passthrough]
    simp +contextual [hc]
  · intro k
    rw [h.unsupported]
    simp +contextual [hc]

theorem declare (h : SortsInto r es s) (hnew : ∀ v, (key, v) ∉ es) (hc : key ≠ connector)
    (hd : r.declares key = true) :
    SortsInto r (es ++ [(key, text)]) { s with declared := s.declared.insert key text } := by
  have hne : ∀ {k}, ¬ r.declares k → k ≠ key := fun hnd heq => hnd (heq ▸ hd)
  constructor
  · intro k v
    rw [Dict.get?_insert]
    by_cases hk : k = key
    · subst hk
      simp [hc, hd, hnew, eq_comm]
    · simp [hk, h.declared]
  · intro k v
    rw [h.passthrough]
    simp +contextual [hne]
  · intro k
    rw [h.unsupported]
    simp +contextual [hne]

theorem pass (h : SortsInto r es s) (hnew : ∀ v, (key, v) ∉ es) (hc : key ≠ connector)
    (hd : ¬ r.declares key) {j : String} (hp : r.passthroughKey? key = some j) :
    SortsInto r (es ++ [(key, text)]) { s with passthrough := s.passthrough.insert j text } := by
  obtain ⟨hj, hkey⟩ := OptionRegistry.passthroughKey?_eq_some_iff.1 hp
  constructor
  · intro k v
    rw [h.declared]
    have hne : r.declares k = true → k ≠ key := fun hkd heq => hd (heq ▸ hkd)
    simp +contextual [hne]
  · intro k v
    rw [Dict.get?_insert]
    by_cases hk : k = j
    · subst hk
      simp [hj, ← hkey, hc, hd, hnew, eq_comm]
    · have hne : r.passthroughPrefix ++ k ≠ key := fun heq => by
        rw [hkey] at heq
        exact hk ((String.append_right_inj _).1 heq)
      simp [hk, hne, h.passthrough]
  · intro k
    rw [h.unsupported]
    have hne : r.passthroughKey? k = none → k ≠ key := fun hn heq => by
      rw [heq, hp] at hn
      cases hn
    simp +contextual [hne]

theorem refuse (h : SortsInto r es s) (hc : key ≠ connector) (hd : ¬ r.declares key)
    (hp : r.passthroughKey? key = none) :
    SortsInto r (es ++ [(key, text)]) { s with unsupported := s.unsupported.add key } := by
  constructor
  · intro k v
    rw [h.declared]
    have hne : r.declares k = true → k ≠ key := fun hkd heq => hd (heq ▸ hkd)
    simp +contextual [hne]
  · intro k v
    rw [h.passthrough]
    have hne : k ≠ "" → r.passthroughPrefix ++ k ≠ key := fun hk heq => by
      rw [OptionRegistry.passthroughKey?_eq_some_iff.2 ⟨hk, heq.symm⟩] at hp
      cases hp
    simp +contextual [hne]
  · intro k
    rw [Names.contains_add]
    by_cases hk : k = key
    · subst hk
      simp [hc, hd, hp]
    · simp [hk, h.unsupported]

/-- One more option with a new key goes where it belongs. -/
theorem add (h : SortsInto r es s) {e : String × String} (hnew : ∀ v, (e.1, v) ∉ es) :
    SortsInto r (es ++ [e]) (s.add r e) := by
  unfold SortedOptions.add
  split_ifs with hc hd
  · exact h.skip hc
  · exact h.declare hnew hc hd
  · split
    · rename_i j hp
      exact h.pass hnew hc hd hp
    · rename_i hp
      exact h.refuse hc hd hp

end SortsInto

theorem sortsInto_ofEntries (r : OptionRegistry) {es : List (String × String)}
    (h : (es.map Prod.fst).Nodup) :
    SortsInto r es (SortedOptions.ofEntries r es) := by
  -- From the end: the last option sorted is the one whose key is new.
  induction es using List.reverseRecOn with
  | nil =>
    constructor
    · intro k v
      simp [SortedOptions.ofEntries, Dict.get?_empty]
    · intro k v
      simp [SortedOptions.ofEntries, Dict.get?_empty]
    · intro k
      simp [SortedOptions.ofEntries, Dict.contains, Dict.get?_empty]
  | append_singleton es e ih =>
    rw [List.map_append, List.nodup_append] at h
    rw [SortedOptions.ofEntries, List.foldl_append]
    refine (ih h.1).add fun v hv => ?_
    exact h.2.2 e.1 (List.mem_map.2 ⟨_, hv, rfl⟩) e.1 (by simp) rfl

end TableCapture
