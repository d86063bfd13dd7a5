import Mathlib.Data.Finset.Card
import TableCapture.Proofs.SchemaCache.Retention

/-!
# What the cache holds

Seen from outside, a cache is a finite map from tables to schemas, and an action changes it in two
ways only: a query that ends with a schema stores it for the table that still has the cell where
the query is awaited (`Stores`), and an invalidation takes the schema of its table away. Whatever
else happens leaves the map as it is (`WellFormed.cached_step_iff`), a call that fails on a cell
that its table has lost included.

The size of the cache is the number of tables in this map (`WellFormed.size_eq_card`). So it goes
up by one with a schema that is stored, down by one with a schema that is taken away, and not
otherwise (`kept_until_invalidated`).
-/

namespace TableCapture

namespace SchemaCache

/-- The action ends a query with this schema, on a cell that the table still has. -/
def Stores (k : SchemaCache) (a : CacheAction) (t : TableId) (s : SharedSchema) : Prop :=
  ∃ e i c w, a = .settle s.query e ∧ e.schema t = .ok s.schema ∧ (t, i) ∈ k.entries
    ∧ k.cells[i]? = some ⟨t, .resolving c s.query w⟩

section Step

variable {k : SchemaCache} {a : CacheAction} {t u : TableId} {s r : SharedSchema}

theorem Stores.not_cached (hk : k.WellFormed) (h : Stores k a t s) : k.cached t = none := by
  obtain ⟨e, i, c, w, -, -, hmem, hi⟩ := h
  refine Option.eq_none_iff_forall_ne_some.2 fun r hr => ?_
  obtain ⟨j, hmem', hj⟩ := hk.cached_iff.1 hr
  rw [hk.entry_unique hmem hmem'] at hi
  cases (table_unique hi hj).2

theorem WellFormed.resolving_unique (hk : k.WellFormed) {i j c d q : Nat} {w v : List Nat}
    (hi : k.cells[i]? = some ⟨t, .resolving c q w⟩)
    (hj : k.cells[j]? = some ⟨u, .resolving d q v⟩) : u = t := by
  have hij := hk.cell_of_query hi
  rw [hk.cell_of_query hj] at hij
  cases hij
  exact (table_unique hj hi).1

theorem Stores.unique (hk : k.WellFormed) (h : Stores k a t s) (h' : Stores k a u r) :
    u = t ∧ r = s := by
  obtain ⟨e, i, c, w, rfl, he, -, hi⟩ := h
  obtain ⟨e', j, d, v, ha, he', -, hj⟩ := h'
  obtain ⟨hq, rfl⟩ := CacheAction.settle.inj ha
  cases s
  cases r
  cases hq
  obtain rfl := hk.resolving_unique hi hj
  rw [he] at he'
  cases Except.ok.inj he'
  exact ⟨rfl, rfl⟩

theorem not_stores (ha : ∀ q e, a ≠ .settle q e) : ¬ Stores k a t s := by
  rintro ⟨e, i, c, w, rfl, -⟩
  exact ha _ _ rfl

theorem WellFormed.not_stores_of_error (hk : k.WellFormed) {i c q : Nat} {w : List Nat} {e : Ending}
    {err : SchemaError} (hi : k.cells[i]? = some ⟨t, .resolving c q w⟩)
    (he : e.schema t = .error err) : ¬ Stores k (.settle q e) u s := by
  rintro ⟨e', j, d, v, ha, he', -, hj⟩
  obtain ⟨rfl, rfl⟩ := CacheAction.settle.inj ha
  obtain rfl := hk.resolving_unique hi hj
  rw [he] at he'
  cases he'

/-- What a table has after an action was stored by it, or was there before. -/
theorem WellFormed.cached_step_iff (hk : k.WellFormed) :
    (k.step a).1.cached t = some s
      ↔ Stores k a t s ∨ k.cached t = some s ∧ a ≠ .invalidate t := by
  have ht := hk.step_transition a
  constructor
  · intro hs
    obtain ⟨i, hmem, hi⟩ := (hk.step a).cached_iff.1 hs
    -- The cell is an old one, for the new ones are not filled yet.
    have hold : ∀ {y}, k.cells[i]? = some ⟨t, y⟩ → (t, i) ∈ k.entries := fun hy =>
      (ht.grows.entry _ hmem).resolve_right (Nat.not_le.2 (lt_of_cell hy))
    rcases ht.filled_cell hi with hi | ⟨e, c, w, ha, he, hi, -⟩
    · refine .inr ⟨hk.cached_iff.2 ⟨i, hold hi, hi⟩, ?_⟩
      rintro rfl
      simp [SchemaCache.step, invalidate] at hmem
    · exact .inl ⟨e, i, c, w, ha, he, hold hi, hi⟩
  · rintro (⟨e, i, c, w, rfl, he, hmem, hi⟩ | ⟨hs, ha⟩)
    · refine (hk.step _).cached_iff.2 ⟨i, ?_, hk.settle_ok hi he⟩
      rw [SchemaCache.step, hk.settle_of_ok hi he]
      exact hmem
    · exact ht.keeps_cached hk hs ha

theorem Stores.cached_step (hk : k.WellFormed) (h : Stores k a t s) :
    (k.step a).1.cached = Function.update k.cached t (some s) := by
  have ha : ∀ u, a ≠ .invalidate u := by
    obtain ⟨e, i, c, w, rfl, -⟩ := h
    simp
  funext u
  refine Option.ext fun r => ?_
  rw [hk.cached_step_iff, Function.update_apply]
  split_ifs with hu
  · subst hu
    rw [h.not_cached hk, Option.some.injEq]
    constructor
    · rintro (h' | ⟨h', -⟩)
      · exact (h.unique hk h').2.symm
      · cases h'
    · rintro rfl
      exact .inl h
  · exact ⟨fun h' => (h'.resolve_left fun h' => hu (h.unique hk h').1).1, fun h' => .inr ⟨h', ha u⟩⟩

theorem WellFormed.cached_step (hk : k.WellFormed) (hs : ∀ t s, ¬ Stores k a t s)
    (ha : ∀ t, a ≠ .invalidate t) : (k.step a).1.cached = k.cached := by
  funext t
  refine Option.ext fun s => ?_
  rw [hk.cached_step_iff]
  exact ⟨fun h => (h.resolve_left (hs t s)).1, fun h => .inr ⟨h, ha t⟩⟩

theorem WellFormed.cached_call (hk : k.WellFormed) :
    (k.step (.call t)).1.cached = k.cached :=
  hk.cached_step (fun _ _ => not_stores (by simp)) (by simp)

theorem WellFormed.cached_drop (hk : k.WellFormed) (c : Nat) :
    (k.step (.drop c)).1.cached = k.cached :=
  hk.cached_step (fun _ _ => not_stores (by simp)) (by simp)

theorem WellFormed.cached_invalidate (hk : k.WellFormed) :
    (k.invalidate t).cached = Function.update k.cached t none := by
  funext u
  refine Option.ext fun s => ?_
  have hno : ¬ Stores k (.invalidate t) u s := not_stores (by simp)
  have hiff : (k.invalidate t).cached u = some s ↔ Stores k (.invalidate t) u s
      ∨ k.cached u = some s ∧ CacheAction.invalidate t ≠ .invalidate u := by
    rw [← hk.cached_step_iff, SchemaCache.step]
  rw [hiff, or_iff_right hno, Function.update_apply]
  split_ifs with hu
  · simp [hu]
  · simp [Ne.symm hu]

end Step

/-! ## Size -/

section Size

variable {k k' : SchemaCache} {t : TableId} {s : SharedSchema}

/-- The tables with a schema. -/
def kept (k : SchemaCache) : Finset TableId :=
  ((k.entries.filter fun e => (k.cells[e.2]?.bind fun c => c.content.schema?).isSome).map
    Prod.fst).toFinset

theorem WellFormed.mem_kept (hk : k.WellFormed) : t ∈ k.kept ↔ k.cached t ≠ none := by
  simp only [kept, List.mem_toFinset, List.mem_map, List.mem_filter, Prod.exists,
    exists_and_right, exists_eq_right, Option.isSome_iff_exists, Option.bind_eq_some_iff,
    CellContent.schema?_eq_some, Option.ne_none_iff_exists', hk.cached_iff]
  constructor
  · rintro ⟨i, hmem, s, ⟨u, y⟩, hi, rfl⟩
    obtain ⟨y, hy⟩ := hk.entry_cell t i hmem
    rw [(table_unique hy hi).1] at hmem ⊢
    exact ⟨s, i, hmem, hi⟩
  · rintro ⟨s, i, hmem, hi⟩
    exact ⟨i, hmem, s, _, hi, rfl⟩

theorem WellFormed.size_eq_card (hk : k.WellFormed) : k.size = k.kept.card := by
  have hn : ((k.entries.filter fun e =>
      (k.cells[e.2]?.bind fun c => c.content.schema?).isSome).map Prod.fst).Nodup :=
    hk.entries_nodup.sublist (List.filter_sublist.map _)
  rw [kept, List.toFinset_card_of_nodup hn, List.length_map, ← List.countP_eq_length_filter, size]

/-- The size depends on what the tables have, and on nothing else. -/
theorem WellFormed.size_eq_of_mem (hk : k.WellFormed) {ts : Finset TableId}
    (h : ∀ t, t ∈ ts ↔ k.cached t ≠ none) : k.size = ts.card := by
  rw [hk.size_eq_card, Finset.ext fun t => hk.mem_kept.trans (h t).symm]

theorem WellFormed.size_of_update_some (hk : k.WellFormed) (hk' : k'.WellFormed)
    (h : k'.cached = Function.update k.cached t (some s)) (ht : k.cached t = none) :
    k'.size = k.size + 1 := by
  have hnot : t ∉ k.kept := fun hmem => hk.mem_kept.1 hmem ht
  rw [hk.size_eq_card, ← Finset.card_insert_of_notMem hnot]
  refine hk'.size_eq_of_mem fun u => ?_
  rw [h, Finset.mem_insert, hk.mem_kept, Function.update_apply]
  split_ifs with hu <;> simp [hu]

theorem WellFormed.size_of_update_none (hk : k.WellFormed) (hk' : k'.WellFormed)
    (h : k'.cached = Function.update k.cached t none) (ht : k.cached t = some s) :
    k'.size + 1 = k.size := by
  have hmem : t ∈ k.kept := hk.mem_kept.2 (by simp [ht])
  rw [hk.size_eq_card, ← Finset.card_erase_add_one hmem, Nat.add_right_cancel_iff]
  refine hk'.size_eq_of_mem fun u => ?_
  rw [h, Finset.mem_erase, hk.mem_kept, Function.update_apply]
  split_ifs with hu <;> simp [hu]

theorem WellFormed.size_congr (hk : k.WellFormed) (hk' : k'.WellFormed)
    (h : k'.cached = k.cached) : k'.size = k.size := by
  rw [hk.size_eq_card]
  refine hk'.size_eq_of_mem fun t => ?_
  rw [h, hk.mem_kept]

theorem Stores.size_step {a : CacheAction} (hk : k.WellFormed) (h : Stores k a t s) :
    (k.step a).1.size = k.size + 1 :=
  hk.size_of_update_some (hk.step a) (h.cached_step hk) (h.not_cached hk)

theorem WellFormed.size_invalidate (hk : k.WellFormed) (h : k.cached t = some s) :
    (k.invalidate t).size + 1 = k.size :=
  hk.size_of_update_none (hk.step (.invalidate t)) hk.cached_invalidate h

theorem WellFormed.size_step (hk : k.WellFormed) {a : CacheAction} (hs : ∀ t s, ¬ Stores k a t s)
    (ha : ∀ t s, a = .invalidate t → k.cached t ≠ some s) : (k.step a).1.size = k.size := by
  refine hk.size_congr (hk.step a) ?_
  by_cases hinv : ∃ t, a = .invalidate t
  · obtain ⟨t, rfl⟩ := hinv
    have hnone : k.cached t = none :=
      Option.eq_none_iff_forall_ne_some.2 fun s => ha t s rfl
    rw [SchemaCache.step, hk.cached_invalidate, ← hnone, Function.update_eq_self]
  · push Not at hinv
    exact hk.cached_step hs hinv

theorem WellFormed.size_step_iff (hk : k.WellFormed) (a : CacheAction) :
    ((k.step a).1.size = k.size + 1 ↔ ∃ t s, Stores k a t s)
      ∧ ((k.step a).1.size + 1 = k.size ↔ ∃ t s, a = .invalidate t ∧ k.cached t = some s)
      ∧ ((k.step a).1.size = k.size + 1 ∨ (k.step a).1.size + 1 = k.size
        ∨ (k.step a).1.size = k.size) := by
  have hup : (∃ t s, Stores k a t s) → (k.step a).1.size = k.size + 1 := by
    rintro ⟨t, s, hs⟩
    exact hs.size_step hk
  have hdown : (∃ t s, a = .invalidate t ∧ k.cached t = some s) →
      (k.step a).1.size + 1 = k.size := by
    rintro ⟨t, s, rfl, hs⟩
    exact hk.size_invalidate hs
  by_cases hs : ∃ t s, Stores k a t s
  · have := hup hs
    refine ⟨⟨fun _ => hs, hup⟩, ⟨fun h => ?_, hdown⟩, .inl this⟩
    omega
  by_cases ha : ∃ t s, a = .invalidate t ∧ k.cached t = some s
  · have := hdown ha
    refine ⟨⟨fun h => ?_, hup⟩, ⟨fun _ => ha, hdown⟩, .inr (.inl this)⟩
    omega
  · have hstay : (k.step a).1.size = k.size :=
      hk.size_step (fun t s h => hs ⟨t, s, h⟩) fun t s hat h => ha ⟨t, s, hat, h⟩
    refine ⟨⟨fun h => ?_, hup⟩, ⟨fun h => ?_, hdown⟩, .inr (.inr hstay)⟩ <;> omega

end Size

/-! ## Histories -/

/-- After the history, the action ends a query in flight for the table with a schema, on a cell
that the table still has. -/
def EndsAtEntry (as : List CacheAction) (a : CacheAction) (t : TableId) : Prop :=
  ∃ q e c i schema, a = .settle q e ∧ Resolving as q c t ∧ e.schema t = .ok schema
    ∧ (after as).calls[c]? = some i ∧ (t, i) ∈ (after as).entries

theorem endsAtEntry_iff {as : List CacheAction} {a : CacheAction} {t : TableId} :
    EndsAtEntry as a t ↔ ∃ s, Stores (after as) a t s := by
  constructor
  · rintro ⟨q, e, c, i, schema, rfl, hq, he, hc, hmem⟩
    obtain ⟨w, hi⟩ := cell_of_resolving hq hc
    exact ⟨⟨q, schema⟩, e, i, c, w, rfl, he, hmem, hi⟩
  · rintro ⟨s, e, i, c, w, rfl, he, hmem, hi⟩
    have hc := ((wellFormed_after as).fits _ _ _ hi).call_of_mem List.mem_cons_self
    exact ⟨s.query, e, c, i, s.schema, rfl, resolving_of_cell hi, he, hc, hmem⟩

/-- The schema that a table has stays the same under every action but an invalidation of this
table, which gives this schema back and leaves the other tables their cells. The size goes up by
one exactly when a query ends with a schema on a cell that its table still has, down by one exactly
when a table with a schema is invalidated, and stays the same otherwise. -/
theorem kept_until_invalidated (as : List CacheAction) :
    (∀ t s, (after as).cached t = some s →
        (∀ a, a ≠ .invalidate t → (after (as ++ [a])).cached t = some s)
          ∧ ((after as).step (.invalidate t)).2 = [.found (some s)])
      ∧ (∀ t, (after (as ++ [.invalidate t])).cells = (after as).cells
        ∧ ∀ u, u ≠ t → (after (as ++ [.invalidate t])).entries.lookup u
          = (after as).entries.lookup u)
      ∧ ∀ a, ((after (as ++ [a])).size = (after as).size + 1 ↔ ∃ t, EndsAtEntry as a t)
        ∧ ((after (as ++ [a])).size + 1 = (after as).size
          ↔ ∃ t s, a = .invalidate t ∧ (after as).cached t = some s)
        ∧ ((after (as ++ [a])).size = (after as).size + 1
          ∨ (after (as ++ [a])).size + 1 = (after as).size
          ∨ (after (as ++ [a])).size = (after as).size) := by
  have hk := wellFormed_after as
  refine ⟨fun t s hs => ⟨fun a ha => ?_, ?_⟩, fun t => ⟨?_, fun u hu => ?_⟩, fun a => ?_⟩
  · rw [after_concat]
    exact hk.cached_step_iff.2 (.inr ⟨hs, ha⟩)
  · rw [step, hs]
  · rw [after_concat]
    rfl
  · rw [after_concat]
    refine Option.ext fun i => ?_
    rw [(hk.step _).lookup_iff, hk.lookup_iff]
    simp [step, invalidate, hu]
  · simp only [endsAtEntry_iff]
    rw [after_concat]
    exact hk.size_step_iff a

/-- A call that fails on a cell from before an invalidation leaves the schema that is there by then,
and the query that gave this schema had made the cache one larger. -/
theorem kept_lamps :
    (after ([.call lamps, .invalidate lamps, .call lamps, .settle 1 lampsReply]
        ++ [.settle 0 (.reply (.rows []))])).cached lamps = some ⟨1, lampsSchema⟩
      ∧ EndsAtEntry [.call lamps, .invalidate lamps, .call lamps] (.settle 1 lampsReply) lamps
      ∧ (after ([.call lamps, .invalidate lamps, .call lamps] ++ [.settle 1 lampsReply])).size
        = (after [.call lamps, .invalidate lamps, .call lamps]).size + 1 := by
  have hends : EndsAtEntry [.call lamps, .invalidate lamps, .call lamps] (.settle 1 lampsReply)
      lamps :=
    ⟨1, lampsReply, 1, 1, lampsSchema, rfl, by decide +kernel, by decide +kernel,
      by decide +kernel, by decide +kernel⟩
  refine ⟨?_, hends, ?_⟩
  · exact ((kept_until_invalidated _).1 lamps _ (by decide +kernel)).1 _ (by decide)
  · exact ((kept_until_invalidated _).2.2 (.settle 1 lampsReply)).1.2 ⟨lamps, hends⟩

end SchemaCache

end TableCapture
