import Mathlib.Data.List.Induction
import Mathlib.Data.List.Sort
import TableCapture.Dict

/-!
# What a dictionary holds

A dictionary shows under a key what its entry there says (`Dict.get?_eq_some_iff`), so two
dictionaries that show the same under every key are equal (`Dict.ext_get?`). Entries with different
keys are all stored (`Dict.get?_ofList`). A set of names lists them in increasing order
(`Names.pairwise_toList`), and a set made of a list lists the names of that list
(`Names.mem_toList_ofList`).
-/

namespace TableCapture

universe u

variable {α : Type u}

theorem lookup_eq_some_iff_mem {es : List (String × α)} (h : (es.map Prod.fst).Nodup) {k : String}
    {v : α} : es.lookup k = some v ↔ (k, v) ∈ es := by
  induction es with
  | nil => simp
  | cons e es ih =>
    rw [List.map_cons, List.nodup_cons] at h
    rw [List.lookup_cons, List.mem_cons]
    by_cases hk : k = e.1
    · have hnot : (k, v) ∉ es := fun hmem => h.1 (List.mem_map.2 ⟨_, hmem, hk⟩)
      simp [hk, Prod.ext_iff, eq_comm, hk ▸ hnot]
    · have hne : (k, v) ≠ e := fun he => hk (by rw [← he])
      simp [beq_false_of_ne hk, hne, ih h.2]

theorem lookup_map_snd {κ β γ : Type*} [BEq κ] {f : β → γ} {k : κ} (es : List (κ × β)) :
    (es.map fun e => (e.1, f e.2)).lookup k = (es.lookup k).map f := by
  induction es with
  | nil => rfl
  | cons e es ih =>
    rw [List.map_cons, List.lookup_cons, List.lookup_cons, ih]
    cases k == e.1 <;> rfl

namespace Dict

variable {d e : Dict α} {k : String} {v : α}

theorem nodup_keys (d : Dict α) : (d.entries.map Prod.fst).Nodup :=
  (List.pairwise_map.2 d.sorted).imp fun h => String.ne_of_lt h

theorem pairwise_keys (d : Dict α) : d.keys.Pairwise (· < ·) :=
  List.pairwise_map.2 d.sorted

theorem get?_eq_some_iff : d.get? k = some v ↔ (k, v) ∈ d.entries :=
  lookup_eq_some_iff_mem d.nodup_keys

theorem mem_keys : k ∈ d.keys ↔ d.contains k = true := by
  rw [contains, Option.isSome_iff_exists, keys, List.mem_map]
  constructor
  · rintro ⟨⟨j, v⟩, hmem, rfl⟩
    exact ⟨v, get?_eq_some_iff.2 hmem⟩
  · rintro ⟨v, hv⟩
    exact ⟨(k, v), get?_eq_some_iff.1 hv, rfl⟩

/-- A list in which no key is repeated is stored as it is. -/
theorem get?_ofList {es : List (String × α)} (h : (es.map Prod.fst).Nodup) :
    (ofList es).get? k = some v ↔ (k, v) ∈ es := by
  induction es using List.reverseRecOn with
  | nil => simp [ofList, get?_empty]
  | append_singleton es e ih =>
    rw [List.map_append, List.nodup_append] at h
    have hsnoc : ofList (es ++ [e]) = (ofList es).insert e.1 e.2 := by
      rw [ofList, List.foldl_append]
      rfl
    rw [hsnoc, get?_insert, List.mem_append, List.mem_singleton]
    split_ifs with hk
    · subst hk
      have hnot : (e.1, v) ∉ es := fun hmem =>
        h.2.2 e.1 (List.mem_map.2 ⟨_, hmem, rfl⟩) e.1 (by simp) rfl
      simp [hnot, Prod.ext_iff, eq_comm]
    · have hne : (k, v) ≠ e := fun he => hk (by rw [← he])
      simp [ih h.1, hne]

theorem ext_get? (h : ∀ k v, d.get? k = some v ↔ e.get? k = some v) : d = e := by
  have hperm : d.entries.Perm e.entries := by
    rw [List.perm_ext_iff_of_nodup d.nodup_keys.of_map e.nodup_keys.of_map]
    rintro ⟨k, v⟩
    rw [← get?_eq_some_iff, ← get?_eq_some_iff, h]
  refine ext (hperm.eq_of_pairwise (fun a b _ _ hab hba => ?_) d.sorted e.sorted)
  exact absurd hba (String.lt_asymm hab)

section Map

variable {β : Type u} (f : α → β)

/-- The dictionary with other values under the same keys. -/
def map (d : Dict α) : Dict β where
  entries := d.entries.map fun e => (e.1, f e.2)
  sorted := by
    rw [Sorted, List.pairwise_map]
    exact d.sorted

theorem get?_map : (d.map f).get? k = (d.get? k).map f :=
  lookup_map_snd d.entries

theorem contains_map : (d.map f).contains k = d.contains k := by
  rw [contains, contains, get?_map, Option.isSome_map]

theorem map_insert : (d.insert k v).map f = (d.map f).insert k (f v) := by
  have hlist : ∀ es : List (String × α), (insertEntry k v es).map (fun e => (e.1, f e.2))
      = insertEntry k (f v) (es.map fun e => (e.1, f e.2)) := by
    intro es
    induction es with
    | nil => rfl
    | cons e es ih =>
      rw [insertEntry, List.map_cons, insertEntry]
      split
      · rfl
      · split
        · rfl
        · rw [List.map_cons, ih]
  exact ext (hlist d.entries)

end Map

end Dict

namespace Names

theorem pairwise_toList (s : Names) : s.toList.Pairwise (· < ·) :=
  s.pairwise_keys

theorem mem_toList {s : Names} {k : String} : k ∈ s.toList ↔ s.contains k = true :=
  Dict.mem_keys

theorem get?_eq_some_iff {s : Names} {k : String} {u : Unit} :
    s.get? k = some u ↔ s.contains k = true := by
  rw [Dict.contains]
  rcases s.get? k with _ | _ <;> simp

theorem ext_contains {s t : Names} (h : ∀ k, s.contains k = true ↔ t.contains k = true) : s = t :=
  Dict.ext_get? fun k _ => get?_eq_some_iff.trans ((h k).trans get?_eq_some_iff.symm)

theorem contains_add (s : Names) (j k : String) :
    (s.add j).contains k = (k = j || s.contains k) :=
  Dict.contains_insert s j () k

theorem mem_toList_ofList {ks : List String} {k : String} : k ∈ (ofList ks).toList ↔ k ∈ ks := by
  have hfold : ∀ (s : Names) (ks : List String),
      (ks.foldl add s).contains k = true ↔ s.contains k = true ∨ k ∈ ks := by
    intro s ks
    induction ks generalizing s with
    | nil => simp
    | cons j ks ih =>
      rw [List.foldl_cons, ih, contains_add, List.mem_cons, Bool.or_eq_true, decide_eq_true_iff]
      tauto
  rw [mem_toList, ofList, hfold]
  exact or_iff_right (by simp [Dict.contains, Dict.get?_empty])

end Names

end TableCapture
