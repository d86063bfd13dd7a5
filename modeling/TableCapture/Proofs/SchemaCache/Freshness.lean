import TableCapture.Proofs.SchemaCache.History

/-!
# After an invalidation

An invalidated table has no cell, and it never gets an old one back. So the cells that the table
has later, and those of its later calls, are all new (`cell_of_entry`, `cell_of_later_call`), and
what is in a new cell comes from a query that was asked there, after the invalidation
(`fresh_of_filled`). A query that was in flight when the table was invalidated belongs to an old
cell (`old_cell`). It reaches only the calls at this cell, which are older than the invalidation
(`called_of_old_query`).
-/

namespace TableCapture

namespace SchemaCache

/-- After the history `as`, in the course of `bs`, a query for the table was asked and stayed in
flight until it ended with this schema. -/
def Fresh (as bs : List CacheAction) (t : TableId) (s : SharedSchema) : Prop :=
  ∃ cs b ds e es c, bs = cs ++ b :: ds ++ .settle s.query e :: es
    ∧ .asked s.query c t ∈ ((after (as ++ cs)).step b).2
    ∧ Resolving (as ++ (cs ++ b :: ds)) s.query c t ∧ e.schema t = .ok s.schema

/-- A schema is in the cell of the call that asked its query. -/
theorem call_of_filled {as : List CacheAction} {t u : TableId} {i c : Nat} {s : SharedSchema}
    (hi : (after as).cells[i]? = some ⟨t, .filled s⟩) (hq : .asked s.query c u ∈ log as) :
    (after as).calls[c]? = some i := by
  obtain ⟨d, hd, hdi⟩ := (wellFormed_after as).fits _ _ _ hi
  obtain ⟨hc, -⟩ := (recorded_after as).asked_query _ _ _ hq
  rw [hc] at hd
  cases hd
  exact hdi

/-! ## Tables without a cell -/

section Free

variable {as bs : List CacheAction} {t : TableId} {i c : Nat} {s : SharedSchema}

/-- What is in a new cell was resolved there. -/
theorem fresh_of_filled (hi : (after (as ++ bs)).cells[i]? = some ⟨t, .filled s⟩)
    (hnew : (after as).cells.length ≤ i) : Fresh as bs t s := by
  rcases filled_before_or_by hi with hold | ⟨cs, e, es, c, w, rfl, he, hres⟩
  · exact absurd (lt_of_cell hold) (Nat.not_lt.2 hnew)
  · have hflight := resolving_of_cell hres
    rcases mem_log_split hflight.1 with hold | ⟨cs, b, ds, rfl, hasked⟩
    · -- A call that had asked before is not at a new cell.
      obtain ⟨-, j, y, hj, hy⟩ := (recorded_after as).asked_query _ _ _ hold
      have hij := ((wellFormed_after _).fits _ _ _ hres).call_of_mem List.mem_cons_self
      rw [(grows_append as cs).call hj] at hij
      cases hij
      exact absurd (lt_of_cell hy) (Nat.not_lt.2 hnew)
    · exact ⟨cs, b, ds, e, es, c, rfl, hasked, hflight, he⟩

/-- The schema of an old query is in the old cell of its call, if it is anywhere. -/
theorem old_cell (hq : .asked s.query c t ∈ log as) {u : TableId}
    (hi : (after (as ++ bs)).cells[i]? = some ⟨u, .filled s⟩) :
    u = t ∧ ∃ y, (after as).cells[i]? = some ⟨t, y⟩ := by
  obtain ⟨-, j, y, hcj, hy⟩ := (recorded_after as).asked_query _ _ _ hq
  have hci := call_of_filled hi (mem_log_append hq bs)
  rw [(grows_append as bs).call hcj] at hci
  cases hci
  exact ⟨((grows_append as bs).table_eq hy hi).symm, y, hy⟩

variable (hfree : ∀ i, (t, i) ∉ (after as).entries)
include hfree

/-- A table that has no cell gets new ones only. -/
theorem cell_of_entry (h : (t, i) ∈ (after (as ++ bs)).entries) :
    (after as).cells.length ≤ i :=
  ((grows_append as bs).entry _ h).resolve_left (hfree i)

/-- The calls that come while a table has no cell, and later, are at new cells. -/
theorem cell_of_later_call {y : CellContent} (hlate : (called as).length ≤ c)
    (hc : (after (as ++ bs)).calls[c]? = some i)
    (hi : (after (as ++ bs)).cells[i]? = some ⟨t, y⟩) : (after as).cells.length ≤ i := by
  induction bs using List.reverseRecOn generalizing y with
  | nil =>
    rw [length_called] at hlate
    rw [List.append_nil] at hc
    exact absurd hc (not_call_length hlate)
  | append_singleton bs b ih =>
    have hmem : ∀ j, (t, j) ∈ (after (as ++ (bs ++ [b]))).entries →
        (after as).cells.length ≤ j := fun j hj => cell_of_entry hfree hj
    rw [← List.append_assoc] at hc hi hmem
    have ht := transition_after (as ++ bs) b
    have hk := wellFormed_after (as ++ bs)
    rcases Nat.lt_or_ge c (after (as ++ bs)).calls.length with hlt | hle
    · have hold := ht.grows.call_of_lt hlt hc
      obtain ⟨u, z, hz⟩ := hk.cell_of_call hold
      have hut : u = t := ht.grows.table_eq hz hi
      exact ih hold (hut ▸ hz)
    · by_cases hb : ∃ u, b = .call u
      · obtain ⟨u, rfl⟩ := hb
        obtain ⟨j, k₁, he, hg, hentries, -, hcalls⟩ := ht.of_call
        rw [hcalls] at hc
        obtain ⟨-, rfl⟩ := eq_of_getElem?_concat hc hle
        obtain ⟨z, hz⟩ := hk.enter_cell he
        have hut : u = t := hg.table_eq hz hi
        subst hut
        refine hmem j ?_
        rw [hentries]
        exact enter_mem he
      · rw [ht.calls_eq fun u hu => hb ⟨u, hu⟩] at hc
        exact absurd hc (not_call_length hle)

theorem fresh_of_cached (hs : (after (as ++ bs)).cached t = some s) : Fresh as bs t s := by
  obtain ⟨i, hmem, hi⟩ := (wellFormed_after _).cached_iff.1 hs
  exact fresh_of_filled hi (cell_of_entry hfree hmem)

theorem fresh_of_answered (hlate : (called as).length ≤ c)
    (hc : (called (as ++ bs))[c]? = some t) (hs : .answered c (.ok s) ∈ log (as ++ bs)) :
    Fresh as bs t s := by
  obtain ⟨i, y, hci, hy⟩ := called_iff.1 hc
  exact fresh_of_filled (filled_of_answered hs hci hy) (cell_of_later_call hfree hlate hci hy)

theorem called_of_old_query (hq : .asked s.query c t ∈ log as) {d : Nat}
    (hd : .answered d (.ok s) ∈ log (as ++ bs)) : (called as)[d]? = some t := by
  obtain ⟨j, u, hdj, hj⟩ := (recorded_after _).ok_cell d s hd
  obtain ⟨rfl, y, hy⟩ := old_cell hq hj
  have hlt : d < (called as).length := by
    by_contra hlate
    have hnew := cell_of_later_call hfree (Nat.not_lt.1 hlate) hdj hj
    exact Nat.not_lt.2 hnew (lt_of_cell hy)
  rw [length_called] at hlt
  exact called_iff.2 ⟨j, y, (grows_append as bs).call_of_lt hlt hdj, hy⟩

theorem not_cached_of_old_query (hq : .asked s.query c t ∈ log as) (u : TableId) :
    (after (as ++ bs)).cached u ≠ some s := by
  intro hs
  obtain ⟨j, hmem, hj⟩ := (wellFormed_after _).cached_iff.1 hs
  obtain ⟨rfl, y, hy⟩ := old_cell hq hj
  exact Nat.not_lt.2 (cell_of_entry hfree hmem) (lt_of_cell hy)

end Free

/-! ## Invalidated tables -/

theorem invalidated_free (as : List CacheAction) (t : TableId) (i : Nat) :
    (t, i) ∉ (after (as ++ [.invalidate t])).entries := by
  simp [after_concat, step, invalidate]

/-- After a table was invalidated, whatever is looked at or taken away for it, and whatever its
later calls are answered with, comes from a query that was asked since. A query that was asked
before and is still in flight reaches only calls for the table that were made before, and no table
ever has its schema. -/
theorem fresh_after_invalidate (as bs : List CacheAction) (t : TableId) :
    (∀ a s, a = .cached t ∨ a = .invalidate t →
        .found (some s) ∈ ((after (as ++ .invalidate t :: bs)).step a).2 →
        Fresh (as ++ [.invalidate t]) bs t s)
      ∧ (∀ c s, (called as).length ≤ c → (called (as ++ .invalidate t :: bs))[c]? = some t →
        .answered c (.ok s) ∈ log (as ++ .invalidate t :: bs) →
        Fresh (as ++ [.invalidate t]) bs t s)
      ∧ ∀ c s, Resolving as s.query c t →
        (∀ d, .answered d (.ok s) ∈ log (as ++ .invalidate t :: bs) → (called as)[d]? = some t)
          ∧ ∀ u, (after (as ++ .invalidate t :: bs)).cached u ≠ some s := by
  rw [List.append_cons]
  have hcalled : called (as ++ [.invalidate t]) = called as := by
    simp [called, CacheAction.called?]
  have hfree := invalidated_free as t
  refine ⟨fun a s ha hs => ?_, fun c s hlate hc hs => ?_, fun c s hq => ?_⟩
  · refine fresh_of_cached hfree ?_
    rcases ha with rfl | rfl <;> simpa [step, eq_comm] using hs
  · rw [← hcalled] at hlate
    exact fresh_of_answered hfree hlate hc hs
  · have hold := mem_log_append hq.1 [.invalidate t]
    rw [← hcalled]
    exact ⟨fun d hd => called_of_old_query hfree hold hd, not_cached_of_old_query hfree hold⟩

/-- A query is in flight when the table is invalidated, and another one is asked afterwards. -/
theorem fresh_lamps :
    Fresh [.call lamps, .invalidate lamps]
        [.call lamps, .settle 0 lampsReply, .settle 1 lampsReply] lamps ⟨1, lampsSchema⟩
      ∧ (called [.call lamps])[0]? = some lamps
      ∧ (after [.call lamps, .invalidate lamps, .call lamps, .settle 0 lampsReply,
        .settle 1 lampsReply]).cached lamps ≠ some ⟨0, lampsSchema⟩ := by
  have h := fresh_after_invalidate [.call lamps]
    [.call lamps, .settle 0 lampsReply, .settle 1 lampsReply] lamps
  obtain ⟨hcalled, hcached⟩ := h.2.2 0 ⟨0, lampsSchema⟩ (by decide +kernel)
  exact ⟨h.1 (.cached lamps) _ (.inl rfl) (by decide +kernel), hcalled 0 (by decide +kernel),
    hcached lamps⟩

end SchemaCache

end TableCapture
