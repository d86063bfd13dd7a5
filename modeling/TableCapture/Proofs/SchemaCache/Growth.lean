import TableCapture.Proofs.SchemaCache.Transition

/-!
# What stays

Whatever happens to a cache, its calls keep their cells, its queries their calls and its cells
their tables, and a schema in a cell stays there. A table that gets a cell gets a new one: a cell
that was taken away from its table is never given back (`Grows`).

A cell leaves its table in two ways only: the table is invalidated, or a call at this cell gets an
error (`Transition.taken`). A cell that is new goes to a table that had none
(`Transition.new_cell`). A cell is filled when the query ends that the call which resolves there
has asked (`Transition.filled_cell`).
-/

namespace TableCapture

namespace SchemaCache

/-- One cache may come later than another. -/
structure Grows (k k' : SchemaCache) : Prop where
  calls : k.calls <+: k'.calls
  queries : k.queries <+: k'.queries
  length_le : k.cells.length ≤ k'.cells.length
  cell : ∀ (i : Nat) t y, k.cells[i]? = some ⟨t, y⟩ →
    ∃ y', k'.cells[i]? = some ⟨t, y'⟩ ∧ ∀ s, y = .filled s → y' = .filled s
  entry : ∀ e ∈ k'.entries, e ∈ k.entries ∨ k.cells.length ≤ e.2

theorem getElem?_of_prefix {α : Type*} {l l' : List α} (h : l <+: l') {n : Nat} {a : α}
    (hn : l[n]? = some a) : l'[n]? = some a := by
  obtain ⟨r, rfl⟩ := h
  exact getElem?_append_of_some hn

namespace Grows

variable {k k' k'' : SchemaCache} {i : Nat} {t : TableId} {x y : CellContent}

theorem refl (k : SchemaCache) : Grows k k :=
  ⟨List.prefix_rfl, List.prefix_rfl, Nat.le_refl _, fun _ _ y hi => ⟨y, hi, fun _ hs => hs⟩,
    fun _ he => .inl he⟩

theorem trans (h : Grows k k') (h' : Grows k' k'') : Grows k k'' where
  calls := h.calls.trans h'.calls
  queries := h.queries.trans h'.queries
  length_le := Nat.le_trans h.length_le h'.length_le
  cell i t y hi := by
    obtain ⟨y', hy', hs'⟩ := h.cell i t y hi
    obtain ⟨y'', hy'', hs''⟩ := h'.cell i t y' hy'
    exact ⟨y'', hy'', fun s hs => hs'' s (hs' s hs)⟩
  entry e he := by
    rcases h'.entry e he with he | he
    · exact h.entry e he
    · exact .inr (Nat.le_trans h.length_le he)

theorem call (h : Grows k k') {c : Nat} (hc : k.calls[c]? = some i) : k'.calls[c]? = some i :=
  getElem?_of_prefix h.calls hc

theorem call_of_lt (h : Grows k k') {c : Nat} (hlt : c < k.calls.length)
    (hc : k'.calls[c]? = some i) : k.calls[c]? = some i := by
  rw [← hc, h.call (List.getElem?_eq_getElem hlt), List.getElem?_eq_getElem hlt]

theorem query (h : Grows k k') {q c : Nat} (hq : k.queries[q]? = some c) :
    k'.queries[q]? = some c :=
  getElem?_of_prefix h.queries hq

theorem filled (h : Grows k k') {s : SharedSchema} (hi : k.cells[i]? = some ⟨t, .filled s⟩) :
    k'.cells[i]? = some ⟨t, .filled s⟩ := by
  obtain ⟨y', hy', hs⟩ := h.cell i t _ hi
  rw [hy', hs s rfl]

theorem table (h : Grows k k') (hi : i < k.cells.length) :
    k'.cells[i]?.map SchemaCell.table = k.cells[i]?.map SchemaCell.table := by
  obtain ⟨t, y, hy⟩ := cell_of_lt hi
  obtain ⟨y', hy', -⟩ := h.cell i t y hy
  rw [hy, hy']
  rfl

theorem table_eq {u : TableId} (h : Grows k k') (hi : k.cells[i]? = some ⟨t, x⟩)
    (hi' : k'.cells[i]? = some ⟨u, y⟩) : t = u := by
  obtain ⟨y', hy', -⟩ := h.cell i t x hi
  exact (table_unique hy' hi').1

theorem filter (k : SchemaCache) (p : TableId × Nat → Bool) :
    Grows k { k with entries := k.entries.filter p } :=
  ⟨List.prefix_rfl, List.prefix_rfl, Nat.le_refl _, fun _ _ y hi => ⟨y, hi, fun _ hs => hs⟩,
    fun _ he => .inl (List.mem_of_mem_filter he)⟩

theorem enroll (k : SchemaCache) (i : Nat) : Grows k (k.enroll i) :=
  ⟨List.prefix_append _ _, List.prefix_rfl, Nat.le_refl _, fun _ _ y hi => ⟨y, hi, fun _ hs => hs⟩,
    fun _ he => .inl he⟩

theorem enter {k₁ : SchemaCache} (h : k.enter t = (i, k₁)) : Grows k k₁ := by
  rcases enter_cases h with ⟨-, rfl⟩ | ⟨-, rfl, rfl⟩
  · exact refl _
  · refine ⟨List.prefix_rfl, List.prefix_rfl, by simp, fun j u y hj => ?_, fun e he => ?_⟩
    · exact ⟨y, getElem?_append_of_some hj, fun _ hs => hs⟩
    · rcases List.mem_cons.1 he with rfl | he
      · exact .inr (Nat.le_refl _)
      · exact .inl he

theorem put (hi : k.cells[i]? = some ⟨t, x⟩) (hx : x.schema? = none) : Grows k (k.put i y) := by
  refine ⟨List.prefix_rfl, List.prefix_rfl, Nat.le_of_eq cells_put_length.symm, fun j u z hj => ?_,
    fun _ he => .inl he⟩
  by_cases hij : i = j
  · subst hij
    obtain ⟨rfl, rfl⟩ := table_unique hi hj
    refine ⟨y, cells_put_self hi, fun s hs => ?_⟩
    rw [hs] at hx
    cases hx
  · exact ⟨z, cells_put.2 (.inr ⟨hij, hj⟩), fun _ hs => hs⟩

theorem ask {c : Nat} {w : List Nat} (hi : k.cells[i]? = some ⟨t, x⟩) (hx : x.schema? = none) :
    Grows k (k.ask i t c w).1 := by
  obtain ⟨hcalls, -, hlen, hcell, hentry⟩ := put (y := .resolving c k.queries.length w) hi hx
  exact ⟨hcalls, List.prefix_append _ _, hlen, hcell, hentry⟩

theorem passOn {w : List Nat} (hi : k.cells[i]? = some ⟨t, x⟩) (hx : x.schema? = none) :
    Grows k (k.passOn i t w).1 := by
  cases w with
  | nil => exact put hi hx
  | cons c w => exact ask hi hx

end Grows

section Steps

variable {k k' : SchemaCache} {a : CacheAction} {es : List CacheEvent}

theorem Transition.grows (h : Transition k a k' es) : Grows k k' := by
  cases h with
  | hit he hi => exact (Grows.enter he).trans (Grows.enroll _ _)
  | began he hi => exact (Grows.enter he).trans ((Grows.enroll _ _).trans (Grows.ask hi rfl))
  | joined he hi => exact (Grows.enter he).trans ((Grows.enroll _ _).trans (Grows.put hi rfl))
  | filled hi he => exact Grows.put hi rfl
  | failed hi he => exact (Grows.filter k _).trans (Grows.passOn hi rfl)
  | resigned hi => exact Grows.passOn hi rfl
  | left hi hc => exact Grows.put hi rfl
  | invalidated t => exact Grows.filter k _
  | late | absent | seen | counted => exact Grows.refl _

theorem WellFormed.grows (hk : k.WellFormed) (a : CacheAction) : Grows k (k.step a).1 :=
  (hk.step_transition a).grows

theorem passOn_entries {i : Nat} {t : TableId} {w : List Nat} :
    (k.passOn i t w).1.entries = k.entries := by
  cases w <;> rfl

theorem passOn_calls {i : Nat} {t : TableId} {w : List Nat} :
    (k.passOn i t w).1.calls = k.calls := by
  cases w <;> rfl

theorem passOn_length {i : Nat} {t : TableId} {w : List Nat} :
    (k.passOn i t w).1.cells.length = k.cells.length := by
  cases w with
  | nil => exact cells_put_length
  | cons c w => exact cells_put_length

/-- A cell leaves its table when the table is invalidated, and when the call that resolves at the
cell gets an error. -/
theorem Transition.taken (h : Transition k a k' es) (hk : k.WellFormed) {t : TableId} {i : Nat}
    (hi : (t, i) ∈ k.entries) (hi' : (t, i) ∉ k'.entries) :
    a = .invalidate t ∨ ∃ q e c w err, a = .settle q e
      ∧ k.cells[i]? = some ⟨t, .resolving c q w⟩ ∧ .answered c (.error err) ∈ es := by
  cases h with
  | hit he _ | began he _ | joined he _ =>
    -- A call at most adds an entry.
    refine absurd ?_ hi'
    rcases enter_cases he with ⟨-, rfl⟩ | ⟨-, -, rfl⟩
    · exact hi
    · exact List.mem_cons_of_mem _ hi
  | @failed q e j u c w err hj he =>
    rw [passOn_entries] at hi'
    have hij : i = j := by
      by_contra hne
      exact hi' (List.mem_filter.2 ⟨hi, by simpa using hne⟩)
    subst hij
    obtain ⟨x, hx⟩ := hk.entry_cell t i hi
    obtain ⟨rfl, -⟩ := table_unique hx hj
    exact .inr ⟨q, e, c, w, err, rfl, hj, List.mem_cons_self⟩
  | resigned hj =>
    rw [passOn_entries] at hi'
    exact absurd hi hi'
  | invalidated u =>
    have htu : t = u := by
      by_contra hne
      exact hi' (List.mem_filter.2 ⟨hi, by simpa using hne⟩)
    exact .inl (by rw [htu])
  | filled | left | late | absent | seen | counted => exact absurd hi hi'

/-- A call gives its table a cell, if it has none, and gets this cell. -/
theorem Transition.of_call {t : TableId} (h : Transition k (.call t) k' es) :
    ∃ i k₁, k.enter t = (i, k₁) ∧ Grows k₁ k' ∧ k'.entries = k₁.entries
      ∧ k'.cells.length = k₁.cells.length ∧ k'.calls = k.calls ++ [i] := by
  cases h with
  | @hit _ i k₁ _ he hi =>
    exact ⟨i, k₁, he, Grows.enroll _ _, rfl, rfl, by rw [← (enter_calls he).1]; rfl⟩
  | @began _ i k₁ he hi =>
    exact ⟨i, k₁, he, (Grows.enroll _ _).trans (Grows.ask hi rfl), rfl, cells_put_length,
      by rw [← (enter_calls he).1]; rfl⟩
  | @joined _ i k₁ _ _ _ he hi =>
    exact ⟨i, k₁, he, (Grows.enroll _ _).trans (Grows.put hi rfl), rfl, cells_put_length,
      by rw [← (enter_calls he).1]; rfl⟩

theorem Transition.length_eq (h : Transition k a k' es) (ha : ∀ t, a ≠ .call t) :
    k'.cells.length = k.cells.length := by
  cases h with
  | hit | began | joined => exact absurd rfl (ha _)
  | filled | left => exact cells_put_length
  | failed | resigned => exact passOn_length
  | late | absent | seen | counted | invalidated => rfl

theorem Transition.calls_eq (h : Transition k a k' es) (ha : ∀ t, a ≠ .call t) :
    k'.calls = k.calls := by
  cases h with
  | hit | began | joined => exact absurd rfl (ha _)
  | failed | resigned => exact passOn_calls
  | filled | left | late | absent | seen | counted | invalidated => rfl

/-- A new cell is the next one, and goes to a table that had none and that somebody calls for. -/
theorem Transition.new_cell (h : Transition k a k' es) {t : TableId} {i : Nat} {y : CellContent}
    (hi : k'.cells[i]? = some ⟨t, y⟩) (hlt : k.cells.length ≤ i) :
    i = k.cells.length ∧ a = .call t ∧ k.entries.lookup t = none ∧ (t, i) ∈ k'.entries := by
  have hlen : i < k'.cells.length := lt_of_cell hi
  by_cases ha : ∃ u, a = .call u
  · obtain ⟨u, rfl⟩ := ha
    obtain ⟨j, k₁, he, hg, hentries, hcells, -⟩ := h.of_call
    rcases enter_cases he with ⟨-, rfl⟩ | ⟨hnone, rfl, rfl⟩
    · omega
    · have hlast : i = k.cells.length := by
        rw [hcells, List.length_append, List.length_singleton] at hlen
        omega
      subst hlast
      have htu : u = t := hg.table_eq List.getElem?_concat_length hi
      subst htu
      exact ⟨rfl, rfl, hnone, by rw [hentries]; exact List.mem_cons_self⟩
  · have := h.length_eq fun u hu => ha ⟨u, hu⟩
    omega

/-! ## How a cell is filled -/

section Filled

variable {i j : Nat} {t u : TableId} {s : SharedSchema}

theorem filled_of_put {x : CellContent} (hx : x.schema? = none)
    (h : (k.put j x).cells[i]? = some ⟨t, .filled s⟩) : k.cells[i]? = some ⟨t, .filled s⟩ := by
  rcases cells_put.1 h with ⟨-, rfl, -⟩ | ⟨-, h⟩
  · cases hx
  · exact h

theorem filled_of_passOn {w : List Nat}
    (h : (k.passOn j u w).1.cells[i]? = some ⟨t, .filled s⟩) :
    k.cells[i]? = some ⟨t, .filled s⟩ := by
  cases w with
  | nil => exact filled_of_put rfl h
  | cons c w => exact filled_of_put rfl h

/-- A cell that a table has just got is idle. -/
theorem cell_of_enter {k₁ : SchemaCache} {y : CellContent} (he : k.enter u = (j, k₁))
    (h : k₁.cells[i]? = some ⟨t, y⟩) (hy : y ≠ .idle) : k.cells[i]? = some ⟨t, y⟩ := by
  rcases enter_cases he with ⟨-, rfl⟩ | ⟨-, -, rfl⟩
  · exact h
  · rcases Nat.lt_or_ge i k.cells.length with hlt | hle
    · rwa [List.getElem?_append_left hlt] at h
    · cases (eq_of_getElem?_concat h hle).2
      exact absurd rfl hy

/-- A cell gets its schema from the query that the call which resolves there has asked, and all
the calls at the cell get this schema with it. -/
theorem Transition.filled_cell (h : Transition k a k' es)
    (hi : k'.cells[i]? = some ⟨t, .filled s⟩) :
    k.cells[i]? = some ⟨t, .filled s⟩ ∨ ∃ e c w, a = .settle s.query e
      ∧ e.schema t = .ok s.schema ∧ k.cells[i]? = some ⟨t, .resolving c s.query w⟩
      ∧ es = (c :: w).map fun x => .answered x (.ok s) := by
  cases h with
  | hit he _ => exact .inl (cell_of_enter he hi (by simp))
  | began he _ => exact .inl (cell_of_enter he (filled_of_put rfl hi) (by simp))
  | joined he _ => exact .inl (cell_of_enter he (filled_of_put rfl hi) (by simp))
  | @filled q e j u c w schema hj he =>
    rcases cells_put.1 hi with ⟨rfl, hs, z, hz⟩ | ⟨-, hi⟩
    · obtain ⟨rfl, -⟩ := table_unique hj hz
      cases hs
      exact .inr ⟨e, c, w, rfl, he, hj, rfl⟩
    · exact .inl hi
  | failed | resigned =>
    have hi := filled_of_passOn hi
    exact .inl hi
  | left => exact .inl (filled_of_put rfl hi)
  | late | absent | seen | counted | invalidated => exact .inl hi

/-- A query that somebody waits for fills the cell when it gives a schema. -/
theorem WellFormed.settle_ok (hk : k.WellFormed) {c q : Nat} {w : List Nat} {e : Ending}
    {schema : TableSchema} (hi : k.cells[i]? = some ⟨t, .resolving c q w⟩)
    (he : e.schema t = .ok schema) :
    (k.step (.settle q e)).1.cells[i]? = some ⟨t, .filled ⟨q, schema⟩⟩ := by
  rw [SchemaCache.step, hk.settle_of_ok hi he]
  exact cells_put_self hi

end Filled

end Steps

end SchemaCache

end TableCapture
