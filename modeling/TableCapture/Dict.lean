/-!
# Dictionaries with text keys

A `Dict` holds its entries in the order of their keys (by code point), each key once. So the order
in which entries arrive never shows: two dictionaries with the same entries are equal.
-/

namespace TableCapture

universe u

variable {α : Type u}

namespace Dict

/-- Puts an entry at its place; an entry with the same key gives way. -/
def insertEntry (k : String) (v : α) : List (String × α) → List (String × α)
  | [] => [(k, v)]
  | e :: es =>
    if k < e.1 then (k, v) :: e :: es
    else if k = e.1 then (k, v) :: es
    else e :: insertEntry k v es

/-- The keys of `insertEntry` are the new key and the old ones. -/
theorem fst_of_mem_insertEntry {k : String} {v : α} {e : String × α} :
    ∀ {es : List (String × α)}, e ∈ insertEntry k v es → e.1 = k ∨ e ∈ es
  | [], h => by
    simp only [insertEntry, List.mem_singleton] at h
    exact Or.inl (by rw [h])
  | a :: es, h => by
    unfold insertEntry at h
    split at h
    · rcases List.mem_cons.1 h with rfl | h
      · exact Or.inl rfl
      · exact Or.inr h
    · split at h
      · rcases List.mem_cons.1 h with rfl | h
        · exact Or.inl rfl
        · exact Or.inr (List.mem_cons_of_mem _ h)
      · rcases List.mem_cons.1 h with rfl | h
        · exact Or.inr List.mem_cons_self
        · rcases fst_of_mem_insertEntry h with h | h
          · exact Or.inl h
          · exact Or.inr (List.mem_cons_of_mem _ h)

/-- Entries in strictly increasing key order. -/
def Sorted (es : List (String × α)) : Prop :=
  es.Pairwise fun a b => a.1 < b.1

theorem sorted_insertEntry {k : String} {v : α} :
    ∀ {es : List (String × α)}, Sorted es → Sorted (insertEntry k v es)
  | [], _ => List.pairwise_singleton _ _
  | a :: es, h => by
    obtain ⟨ha, hes⟩ := List.pairwise_cons.1 h
    unfold insertEntry
    split
    · rename_i hk
      refine List.pairwise_cons.2 ⟨fun b hb => ?_, h⟩
      rcases List.mem_cons.1 hb with rfl | hb
      · exact hk
      · exact String.lt_trans hk (ha b hb)
    · split
      · rename_i hk
        exact List.pairwise_cons.2 ⟨fun b hb => hk ▸ ha b hb, hes⟩
      · rename_i hlt hne
        refine List.pairwise_cons.2 ⟨fun b hb => ?_, sorted_insertEntry hes⟩
        rcases fst_of_mem_insertEntry hb with hb | hb
        · have hle : a.1 ≤ k := String.not_lt.1 hlt
          rw [hb]
          exact Decidable.byContradiction fun hn =>
            hne (String.le_antisymm (String.not_lt.1 hn) hle)
        · exact ha b hb

end Dict

/-- Entries in strictly increasing key order. -/
structure Dict (α : Type u) where
  entries : List (String × α)
  sorted : Dict.Sorted entries
deriving DecidableEq

namespace Dict

instance : EmptyCollection (Dict α) := ⟨⟨[], List.Pairwise.nil⟩⟩

instance : Inhabited (Dict α) := ⟨∅⟩

/-- The value stored under a key. -/
def get? (d : Dict α) (k : String) : Option α :=
  d.entries.lookup k

/-- Whether a key has a value. -/
def contains (d : Dict α) (k : String) : Bool :=
  (d.get? k).isSome

/-- Stores a value under a key, in place of the one it had. -/
def insert (d : Dict α) (k : String) (v : α) : Dict α :=
  ⟨insertEntry k v d.entries, sorted_insertEntry d.sorted⟩

theorem get?_empty (k : String) : (∅ : Dict α).get? k = none := rfl

theorem lookup_insertEntry (k : String) (v : α) (j : String) :
    ∀ es : List (String × α),
      (insertEntry k v es).lookup j = if j = k then some v else es.lookup j
  | [] => by
    by_cases h : j = k
    · simp [insertEntry, h]
    · simp [insertEntry, List.lookup_cons, beq_false_of_ne h, h]
  | (a, b) :: es => by
    have ih := lookup_insertEntry k v j es
    unfold insertEntry
    split
    · by_cases h : j = k
      · simp [h]
      · simp [List.lookup_cons, beq_false_of_ne h, h]
    · split
      · rename_i hk
        subst hk
        by_cases h : j = k
        · simp [h]
        · simp [List.lookup_cons, beq_false_of_ne h, h]
      · rename_i hne
        simp only [List.lookup_cons, ih]
        by_cases h : j = k
        · subst h
          simp only [beq_false_of_ne hne, if_true]
        · simp only [h, if_false]

/-- An insertion shows at its key and nowhere else. -/
theorem get?_insert (d : Dict α) (k : String) (v : α) (j : String) :
    (d.insert k v).get? j = if j = k then some v else d.get? j :=
  lookup_insertEntry k v j d.entries

theorem contains_insert (d : Dict α) (k : String) (v : α) (j : String) :
    (d.insert k v).contains j = (j = k || d.contains j) := by
  unfold contains
  rw [get?_insert]
  by_cases h : j = k <;> simp [h]

/-- The keys in increasing order. -/
def keys (d : Dict α) : List String :=
  d.entries.map Prod.fst

/-- Entries stored one after the other, so the last of one key stays. -/
def ofList (es : List (String × α)) : Dict α :=
  es.foldl (fun d e => d.insert e.1 e.2) ∅

@[ext] theorem ext {d e : Dict α} (h : d.entries = e.entries) : d = e := by
  cases d; cases e; cases h; rfl

end Dict

/-- A set of names, kept as the dictionary that stores nothing under each. -/
abbrev Names := Dict Unit

namespace Names

/-- The set with one more name. -/
def add (s : Names) (k : String) : Names :=
  Dict.insert s k ()

/-- The names of a list, each once and in order. -/
def ofList (ks : List String) : Names :=
  ks.foldl add ∅

/-- The names in increasing order. -/
def toList (s : Names) : List String :=
  s.keys

end Names

end TableCapture
