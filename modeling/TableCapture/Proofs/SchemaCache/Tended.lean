import TableCapture.Proofs.SchemaCache.Freshness

/-!
# Nothing is left behind

A table has an idle cell only where a call was dropped. As long as this has not happened, each
cell that a table has holds a schema, or some call resolves there (`Tended`): a call that gets an
error takes its cell from the table, so the cell that is then handed on is one that no table has.

So once all calls are over, the tables with a cell are those with a schema, and a table whose
calls all got errors has no cell (`nothing_left_behind`). The calls that came before an
invalidation of the table do not count, for they are at other cells.
-/

namespace TableCapture

namespace SchemaCache

/-- No table has an idle cell. -/
def Tended (k : SchemaCache) : Prop :=
  ∀ t i, (t, i) ∈ k.entries → k.cells[i]? ≠ some ⟨t, .idle⟩

section Step

variable {k k' k₁ : SchemaCache} {a : CacheAction} {es : List CacheEvent} {t u : TableId}
  {i j : Nat} {y : CellContent}

theorem cells_passOn_of_ne {w : List Nat} (hij : i ≠ j) :
    (k.passOn i t w).1.cells[j]? = k.cells[j]? := by
  cases w with
  | nil => simp [passOn_nil, put, hij]
  | cons c w => simp [passOn_cons, ask, put, hij]

/-- A cell that a call gets may be idle, but no other cell that a table has. -/
theorem Tended.enter (h : k.Tended) (hk : k.WellFormed) (he : k.enter t = (i, k₁)) (u : TableId)
    (j : Nat) (hmem : (u, j) ∈ (k₁.enroll i).entries) (hij : i ≠ j) :
    (k₁.enroll i).cells[j]? ≠ some ⟨u, .idle⟩ := by
  rcases enter_cases he with ⟨-, rfl⟩ | ⟨-, rfl, rfl⟩
  · exact h u j hmem
  · rcases List.mem_cons.1 hmem with heq | hmem
    · exact absurd (congrArg Prod.snd heq).symm hij
    · obtain ⟨y, hy⟩ := hk.entry_cell u j hmem
      have hold := h u j hmem
      have hsame : (k.cells ++ [⟨t, .idle⟩])[j]? = k.cells[j]? :=
        List.getElem?_append_left (lt_of_cell hy)
      rwa [← hsame] at hold

theorem tended_put (h : ∀ u j, (u, j) ∈ k.entries → i ≠ j → k.cells[j]? ≠ some ⟨u, .idle⟩)
    (hy : y ≠ .idle) : (k.put i y).Tended := by
  intro u j hmem hidle
  rcases cells_put.1 hidle with ⟨-, hidle, -⟩ | ⟨hij, hidle⟩
  · exact hy hidle
  · exact h u j hmem hij hidle

theorem Transition.tended (h : Transition k a k' es) (hk : k.WellFormed) (ht : k.Tended)
    (hes : ∀ c, .dropped c ∉ es) : k'.Tended := by
  cases h with
  | @hit t i k₁ s he hi =>
    intro u j hmem
    by_cases hij : i = j
    · subst hij
      intro hidle
      cases (table_unique hi hidle).2
    · exact ht.enter hk he u j hmem hij
  | began he hi | joined he hi => exact tended_put (ht.enter hk he) (by simp)
  | filled hi he => exact tended_put (fun u j hmem _ => ht u j hmem) (by simp)
  | @failed q e i t c w err hi he =>
    intro u j hmem
    rw [passOn_entries] at hmem
    -- The cell may be idle now, but no table has it any longer.
    obtain ⟨hmem, hij⟩ := List.mem_filter.1 hmem
    have hij : i ≠ j := Ne.symm (by simpa using hij)
    rw [cells_passOn_of_ne hij]
    exact ht u j hmem
  | resigned hi => exact absurd List.mem_cons_self (hes _)
  | left hi hc => exact absurd List.mem_cons_self (hes _)
  | invalidated t => exact fun u j hmem => ht u j (List.mem_of_mem_filter hmem)
  | late | absent | seen | counted => exact ht

end Step

section Histories

variable {as : List CacheAction} {t : TableId} {i : Nat}

theorem tended_after (h : ∀ c, .dropped c ∉ log as) : (after as).Tended := by
  induction as using List.reverseRecOn with
  | nil => simp [Tended, after, run, empty]
  | append_singleton as a ih =>
    simp only [log_concat, List.mem_append, not_or] at h
    exact (transition_after as a).tended (wellFormed_after as) (ih fun c => (h c).1)
      fun c => (h c).2

/-- Without calls that were dropped, the cell that a table has is filled, or a call resolves
there. -/
theorem filled_or_resolving (h : ∀ c, .dropped c ∉ log as) (hmem : (t, i) ∈ (after as).entries) :
    (∃ s, (after as).cells[i]? = some ⟨t, .filled s⟩)
      ∨ ∃ q c, Resolving as q c t ∧ (after as).calls[c]? = some i := by
  obtain ⟨y, hy⟩ := (wellFormed_after as).entry_cell t i hmem
  cases y with
  | idle => exact absurd hy (tended_after h t i hmem)
  | resolving c q w =>
    have hc := ((wellFormed_after as).fits _ _ _ hy).call_of_mem List.mem_cons_self
    exact .inr ⟨q, c, resolving_of_cell hy, hc⟩
  | filled s => exact .inl ⟨s, hy⟩

theorem exists_call_of_entry (h : ∀ c, .dropped c ∉ log as) (hmem : (t, i) ∈ (after as).entries) :
    ∃ c : Nat, (after as).calls[c]? = some i := by
  rcases filled_or_resolving h hmem with ⟨s, hi⟩ | ⟨q, c, -, hc⟩
  · obtain ⟨c, -, hc⟩ := (wellFormed_after as).fits i t _ hi
    exact ⟨c, hc⟩
  · exact ⟨c, hc⟩

theorem cached_of_entry (h : ∀ c, .dropped c ∉ log as)
    (hover : ∀ c < (called as).length, Ended (log as) c) (hmem : (t, i) ∈ (after as).entries) :
    ∃ s, (after as).cells[i]? = some ⟨t, .filled s⟩ := by
  rcases filled_or_resolving h hmem with hfull | ⟨q, c, hq, hc⟩
  · exact hfull
  · refine absurd (hover c ?_) hq.2
    rw [length_called]
    exact (List.getElem?_eq_some_iff.1 hc).1

theorem size_of_over (h : ∀ c, .dropped c ∉ log as)
    (hover : ∀ c < (called as).length, Ended (log as) c) :
    (after as).entries.length = (after as).size := by
  rw [size, eq_comm, List.countP_eq_length]
  rintro ⟨t, i⟩ hmem
  obtain ⟨s, hs⟩ := cached_of_entry h hover hmem
  simp [hs, CellContent.schema?]

/-- A table that had no cell, and whose calls since then all got errors, has none. -/
theorem no_entry_of_errors {bs : List CacheAction} (h : ∀ c, .dropped c ∉ log (as ++ bs))
    (hfree : ∀ i, (t, i) ∉ (after as).entries)
    (herr : ∀ c, (called as).length ≤ c → (called (as ++ bs))[c]? = some t →
      ∃ err, .answered c (.error err) ∈ log (as ++ bs)) (i : Nat) :
    (t, i) ∉ (after (as ++ bs)).entries := by
  intro hmem
  obtain ⟨c, hc⟩ := exists_call_of_entry h hmem
  obtain ⟨y, hy⟩ := (wellFormed_after _).entry_cell t i hmem
  -- The call came after the table had lost its cell, or else the cell would be an old one.
  have hlate : (called as).length ≤ c := by
    by_contra hlt
    rw [length_called, Nat.not_le] at hlt
    have hold := (wellFormed_after as).call_lt i
      (List.mem_of_getElem? ((grows_append as bs).call_of_lt hlt hc))
    exact Nat.not_lt.2 (cell_of_entry hfree hmem) hold
  obtain ⟨err, herr⟩ := herr c hlate (called_iff.2 ⟨i, y, hc, hy⟩)
  exact (recorded_after _).error_cell c err herr i hc t hmem

end Histories

/-- In a history without dropped calls, each cell that a table has holds a schema or has a call
that resolves there. When all calls are over, a table has a cell exactly when it has a schema, and
the size of the cache is their number. A table has no cell if all its calls, or all since it was
invalidated, got errors. -/
theorem nothing_left_behind (as : List CacheAction) (h : ∀ c, .dropped c ∉ log as) :
    (∀ t i, (t, i) ∈ (after as).entries →
        (∃ s, (after as).cells[i]? = some ⟨t, .filled s⟩)
          ∨ ∃ q c, Resolving as q c t ∧ (after as).calls[c]? = some i)
      ∧ ((∀ c < (called as).length, Ended (log as) c) →
        (∀ t, t ∈ (after as).entries.map Prod.fst ↔ ∃ s, (after as).cached t = some s)
          ∧ ((after as).entries.map Prod.fst).Nodup
          ∧ ((after as).entries.map Prod.fst).length = (after as).size)
      ∧ ∀ bs cs t, as = bs ++ cs → (bs = [] ∨ ∃ ds, bs = ds ++ [.invalidate t]) →
        (∀ c, (called bs).length ≤ c → (called as)[c]? = some t →
          ∃ err, .answered c (.error err) ∈ log as) →
        t ∉ (after as).entries.map Prod.fst := by
  have hk := wellFormed_after as
  refine ⟨fun t i => filled_or_resolving h, fun hover => ⟨fun t => ?_, hk.entries_nodup, ?_⟩, ?_⟩
  · simp only [List.mem_map, Prod.exists, exists_and_right, exists_eq_right, hk.cached_iff]
    constructor
    · rintro ⟨i, hmem⟩
      obtain ⟨s, hs⟩ := cached_of_entry h hover hmem
      exact ⟨s, i, hmem, hs⟩
    · rintro ⟨s, i, hmem, -⟩
      exact ⟨i, hmem⟩
  · rw [List.length_map, size_of_over h hover]
  · rintro bs cs t rfl hbs herr hmem
    have hfree : ∀ i, (t, i) ∉ (after bs).entries := by
      rcases hbs with rfl | ⟨ds, rfl⟩
      · simp [after, run, empty]
      · exact invalidated_free ds t
    obtain ⟨⟨t, i⟩, hti, rfl⟩ := List.mem_map.1 hmem
    exact no_entry_of_errors h hfree herr i hti

/-- A schema is taken away, and then two calls at one cell fail. -/
def lampsFail : List CacheAction :=
  [.call lamps, .settle 0 lampsReply, .invalidate lamps, .call lamps, .call lamps,
    .settle 1 (.reply (.rows [])), .settle 2 (.timedOut (.ofSeconds 1 0))]

theorem nothing_left_lamps : (∀ c, .dropped c ∉ log lampsFail)
    ∧ (∀ c < (called lampsFail).length, Ended (log lampsFail) c)
    ∧ (after lampsFail).entries.length = (after lampsFail).size
    ∧ lamps ∉ (after lampsFail).entries.map Prod.fst := by
  have hlog : log lampsFail = [.asked 0 0 lamps, .answered 0 (.ok ⟨0, lampsSchema⟩),
      .found (some ⟨0, lampsSchema⟩), .asked 1 1 lamps,
      .answered 1 (.error ⟨lamps, lamps.statement, .notFound⟩), .asked 2 2 lamps,
      .answered 2 (.error ⟨lamps, lamps.statement, .timedOut (.ofSeconds 1 0)⟩)] := by
    decide +kernel
  have hover : ∀ c < (called lampsFail).length, Ended (log lampsFail) c := by decide +kernel
  have hkept : ∀ c, .dropped c ∉ log lampsFail := by simp [hlog]
  have h := nothing_left_behind lampsFail hkept
  refine ⟨hkept, hover, by simpa using (h.2.1 hover).2.2, ?_⟩
  refine h.2.2 ([.call lamps, .settle 0 lampsReply] ++ [.invalidate lamps]) _ lamps rfl
    (.inr ⟨_, rfl⟩) fun c hlate hc => ?_
  obtain rfl | rfl : c = 1 ∨ c = 2 := by
    have hlt : c < 3 := (List.getElem?_eq_some_iff.1 hc).1
    have hle : 1 ≤ c := hlate
    omega
  · exact ⟨⟨lamps, lamps.statement, .notFound⟩, by simp [hlog]⟩
  · exact ⟨⟨lamps, lamps.statement, .timedOut (.ofSeconds 1 0)⟩, by simp [hlog]⟩

/-- A call that is dropped leaves its cell with the table. -/
example : (after [.call lamps, .drop 0]).cells = [⟨lamps, .idle⟩]
    ∧ (after [.call lamps, .drop 0]).entries = [(lamps, 0)] := by
  decide +kernel

end SchemaCache

end TableCapture
