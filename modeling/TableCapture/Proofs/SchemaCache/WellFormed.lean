import Mathlib.Data.List.Nodup
import TableCapture.SchemaCache.Basic

/-!
# Caches in good order

In a cache in good order each table has at most one cell, which was made for it. A call has one
cell for its whole life, and the calls at a cell, that is, the one that resolves there and those
in line behind it, are different calls that were all given this cell. The one that resolves has
asked the query it waits for; those in line have asked nothing yet.

The empty cache is in good order, and every small change that an action is made of keeps it:
giving a table a cell (`WellFormed.enter`), giving a call a cell (`WellFormed.enroll`), putting
something that fits into a cell (`WellFormed.put`), asking a query (`WellFormed.ask`), handing the
cell on (`WellFormed.passOn`), and taking cells away (`WellFormed.filter`).
-/

namespace TableCapture

/-- The calls at a cell: the one that resolves, and those in line behind it. -/
def CellContent.callers : CellContent → List Nat
  | resolving call _ waiting => call :: waiting
  | _ => []

theorem CellContent.schema?_eq_some {y : CellContent} {s : SharedSchema} :
    y.schema? = some s ↔ y = .filled s := by
  cases y <;> simp [schema?]

namespace SchemaCache

/-- What is in a cell agrees with the calls and the queries there were. -/
def Fits (k : SchemaCache) (i : Nat) : CellContent → Prop
  | .idle => True
  | .resolving call q waiting =>
    k.queries[q]? = some call ∧ (call :: waiting).Nodup
      ∧ (∀ c ∈ call :: waiting, k.calls[c]? = some i) ∧ ∀ c ∈ waiting, c ∉ k.queries
  | .filled s => ∃ c, k.queries[s.query]? = some c ∧ k.calls[c]? = some i

/-- A cache in good order. -/
structure WellFormed (k : SchemaCache) : Prop where
  entries_nodup : (k.entries.map Prod.fst).Nodup
  entry_cell : ∀ t i, (t, i) ∈ k.entries → ∃ y, k.cells[i]? = some ⟨t, y⟩
  call_lt : ∀ i ∈ k.calls, i < k.cells.length
  query_lt : ∀ c ∈ k.queries, c < k.calls.length
  queries_nodup : k.queries.Nodup
  fits : ∀ i t y, k.cells[i]? = some ⟨t, y⟩ → k.Fits i y

/-- A call is given a cell. -/
def enroll (k : SchemaCache) (i : Nat) : SchemaCache :=
  { k with calls := k.calls ++ [i] }

/-! ## Cells -/

section Cells

variable {k : SchemaCache} {t : TableId} {i j : Nat} {x y : CellContent}

theorem cells_put : (k.put i x).cells[j]? = some ⟨t, y⟩ ↔
    (i = j ∧ x = y ∧ ∃ z, k.cells[j]? = some ⟨t, z⟩) ∨ (i ≠ j ∧ k.cells[j]? = some ⟨t, y⟩) := by
  by_cases hij : i = j
  · subst hij
    rcases hc : k.cells[i]? with _ | ⟨u, z⟩ <;> simp [put, hc, and_comm]
  · simp [put, hij]

theorem cells_put_self {z : CellContent} (h : k.cells[i]? = some ⟨t, z⟩) :
    (k.put i y).cells[i]? = some ⟨t, y⟩ :=
  cells_put.2 (.inl ⟨rfl, rfl, z, h⟩)

theorem cells_put_same (h : k.cells[i]? = some ⟨t, y⟩) : (k.put i y).cells = k.cells := by
  refine List.ext_getElem? fun j => ?_
  by_cases hij : i = j
  · subst hij
    rw [cells_put_self h, h]
  · simp [put, hij]

theorem cells_put_length : (k.put i x).cells.length = k.cells.length := by
  simp [put]

/-- A cell is for one table only. -/
theorem table_unique {u : TableId} (h : k.cells[i]? = some ⟨t, x⟩)
    (h' : k.cells[i]? = some ⟨u, y⟩) : t = u ∧ x = y := by
  rw [h] at h'
  simpa using h'

theorem lt_of_cell (h : k.cells[i]? = some ⟨t, y⟩) : i < k.cells.length :=
  (List.getElem?_eq_some_iff.1 h).1

theorem cell_of_lt (h : i < k.cells.length) : ∃ t y, k.cells[i]? = some ⟨t, y⟩ :=
  ⟨_, _, List.getElem?_eq_getElem h⟩

theorem cells_ask {c : Nat} {w : List Nat} : (k.ask i t c w).1.cells
    = (k.put i (.resolving c k.queries.length w)).cells := rfl

theorem passOn_nil : k.passOn i t [] = (k.put i .idle, []) := rfl

theorem passOn_cons {c : Nat} {w : List Nat} : k.passOn i t (c :: w) = k.ask i t c w := rfl

end Cells

/-! ## Entries -/

theorem mem_of_lookup {t : TableId} {i : Nat} :
    ∀ {es : List (TableId × Nat)}, es.lookup t = some i → (t, i) ∈ es
  | [], h => by simp at h
  | (u, j) :: es, h => by
    rw [List.lookup_cons] at h
    split at h
    · rename_i hu
      simp only [Option.some.injEq] at h
      rw [beq_iff_eq.1 hu, h]
      exact List.mem_cons_self
    · exact List.mem_cons_of_mem _ (mem_of_lookup h)

theorem lookup_of_mem {t : TableId} {i : Nat} :
    ∀ {es : List (TableId × Nat)}, (es.map Prod.fst).Nodup → (t, i) ∈ es → es.lookup t = some i
  | [], _, h => by simp at h
  | (u, j) :: es, hn, h => by
    rw [List.map_cons, List.nodup_cons] at hn
    rcases List.mem_cons.1 h with heq | hmem
    · simp only [Prod.mk.injEq] at heq
      rw [heq.1, heq.2, List.lookup_cons_self]
    · have hne : t ≠ u := by
        rintro rfl
        exact hn.1 (List.mem_map.2 ⟨_, hmem, rfl⟩)
      rw [List.lookup_cons, beq_false_of_ne hne]
      exact lookup_of_mem hn.2 hmem

/-! ## What fits into a cell -/

section Fits

variable {k : SchemaCache} {i : Nat} {y : CellContent}

theorem getElem?_append_of_some {α : Type*} {l l' : List α} {n : Nat} {a : α}
    (h : l[n]? = some a) : (l ++ l')[n]? = some a := by
  rw [List.getElem?_append_left (List.getElem?_eq_some_iff.1 h).1, h]

/-- What has a place behind a list is the one thing put there. -/
theorem eq_of_getElem?_concat {α : Type*} {l : List α} {n : Nat} {a b : α}
    (h : (l ++ [a])[n]? = some b) (hn : l.length ≤ n) : n = l.length ∧ a = b := by
  rw [List.getElem?_append_right hn, List.getElem?_singleton] at h
  split at h
  · exact ⟨by omega, Option.some.inj h⟩
  · cases h

theorem Fits.call_of_mem (h : k.Fits i y) {c : Nat} (hc : c ∈ y.callers) :
    k.calls[c]? = some i := by
  cases y with
  | resolving d q w => exact h.2.2.1 c hc
  | _ => simp [CellContent.callers] at hc

theorem Fits.callers_nodup (h : k.Fits i y) : y.callers.Nodup := by
  cases y with
  | resolving d q w => exact h.2.1
  | _ => simp [CellContent.callers]

theorem Fits.enroll (h : k.Fits i y) (j : Nat) : (k.enroll j).Fits i y := by
  cases y with
  | idle => trivial
  | resolving d q w =>
    exact ⟨h.1, h.2.1, fun c hc => getElem?_append_of_some (h.2.2.1 c hc), h.2.2.2⟩
  | filled s =>
    obtain ⟨c, hq, hc⟩ := h
    exact ⟨c, hq, getElem?_append_of_some hc⟩

theorem Fits.ask (h : k.Fits i y) {j c : Nat} {t : TableId} {w : List Nat}
    (hc : c ∉ y.callers) : (k.ask j t c w).1.Fits i y := by
  cases y with
  | idle => trivial
  | resolving d q v =>
    refine ⟨getElem?_append_of_some h.1, h.2.1, h.2.2.1, fun x hx => ?_⟩
    simp only [SchemaCache.ask, List.mem_append, List.mem_singleton, not_or]
    refine ⟨h.2.2.2 x hx, ?_⟩
    rintro rfl
    exact hc (List.mem_cons_of_mem _ hx)
  | filled s =>
    obtain ⟨d, hq, hd⟩ := h
    exact ⟨d, getElem?_append_of_some hq, hd⟩

end Fits

namespace WellFormed

variable {k : SchemaCache} {t : TableId} {i : Nat}

theorem lookup_iff (h : k.WellFormed) : k.entries.lookup t = some i ↔ (t, i) ∈ k.entries :=
  ⟨mem_of_lookup, lookup_of_mem h.entries_nodup⟩

theorem lookup_none_iff (h : k.WellFormed) :
    k.entries.lookup t = none ↔ ∀ i, (t, i) ∉ k.entries := by
  simp only [← h.lookup_iff, Option.eq_none_iff_forall_ne_some]

theorem entry_unique (h : k.WellFormed) {j : Nat} (hi : (t, i) ∈ k.entries)
    (hj : (t, j) ∈ k.entries) : i = j := by
  rw [← h.lookup_iff] at hi hj
  exact Option.some.inj (hi.symm.trans hj)

theorem query_unique (h : k.WellFormed) {p q c : Nat} (hp : k.queries[p]? = some c)
    (hq : k.queries[q]? = some c) : p = q :=
  (List.getElem?_inj (List.getElem?_eq_some_iff.1 hp).1 h.queries_nodup).1 (hp.trans hq.symm)

theorem cell_of_call (h : k.WellFormed) {c : Nat} (hc : k.calls[c]? = some i) :
    ∃ t y, k.cells[i]? = some ⟨t, y⟩ :=
  cell_of_lt (h.call_lt i (List.mem_of_getElem? hc))

/-- The cell where a query is awaited is found by its number. -/
theorem cell_of_query (h : k.WellFormed) {c q : Nat} {w : List Nat}
    (hi : k.cells[i]? = some ⟨t, .resolving c q w⟩) :
    k.queries[q]?.bind (k.calls[·]?) = some i := by
  obtain ⟨hq, -, hcalls, -⟩ := h.fits i t _ hi
  rw [hq]
  exact hcalls c List.mem_cons_self

/-- The schema that is kept for a table is in the cell that the table has. -/
theorem cached_iff (h : k.WellFormed) {s : SharedSchema} :
    k.cached t = some s ↔ ∃ i, (t, i) ∈ k.entries ∧ k.cells[i]? = some ⟨t, .filled s⟩ := by
  simp only [cached, cell?, Option.bind_eq_some_iff, h.lookup_iff, CellContent.schema?_eq_some]
  constructor
  · rintro ⟨⟨u, y⟩, ⟨i, hi, hy⟩, rfl⟩
    obtain ⟨z, hz⟩ := h.entry_cell t i hi
    obtain ⟨rfl, -⟩ := table_unique hz hy
    exact ⟨i, hi, hy⟩
  · rintro ⟨i, hi, hy⟩
    exact ⟨_, ⟨i, hi, hy⟩, rfl⟩

/-- A schema is in one cell only, because its query was asked at one cell only. -/
theorem filled_unique (h : k.WellFormed) {j : Nat} {u : TableId} {s : SharedSchema}
    (hi : k.cells[i]? = some ⟨t, .filled s⟩) (hj : k.cells[j]? = some ⟨u, .filled s⟩) : i = j := by
  obtain ⟨c, hc, hci⟩ := h.fits i t _ hi
  obtain ⟨d, hd, hdj⟩ := h.fits j u _ hj
  rw [hc] at hd
  cases hd
  rw [hci] at hdj
  exact Option.some.inj hdj

theorem empty : WellFormed .empty where
  entries_nodup := by simp [SchemaCache.empty]
  entry_cell := by simp [SchemaCache.empty]
  call_lt := by simp [SchemaCache.empty]
  query_lt := by simp [SchemaCache.empty]
  queries_nodup := List.nodup_nil
  fits := by simp [SchemaCache.empty]

/-! ## Small changes -/

theorem filter (h : k.WellFormed) (p : TableId × Nat → Bool) :
    WellFormed { k with entries := k.entries.filter p } where
  entries_nodup := h.entries_nodup.sublist (List.filter_sublist.map _)
  entry_cell t i hti := h.entry_cell t i (List.mem_of_mem_filter hti)
  call_lt := h.call_lt
  query_lt := h.query_lt
  queries_nodup := h.queries_nodup
  fits := h.fits

theorem enter (h : k.WellFormed) (t : TableId) : WellFormed (k.enter t).2 := by
  unfold SchemaCache.enter
  split
  · exact h
  · rename_i hnone
    rw [h.lookup_none_iff] at hnone
    refine ⟨?_, ?_, ?_, h.query_lt, h.queries_nodup, ?_⟩
    · simp only [List.map_cons, List.nodup_cons, List.mem_map, not_exists, not_and]
      refine ⟨?_, h.entries_nodup⟩
      rintro ⟨u, i⟩ hi rfl
      exact hnone i hi
    · intro u i hi
      rcases List.mem_cons.1 hi with hi | hi
      · simp only [Prod.mk.injEq] at hi
        obtain ⟨rfl, rfl⟩ := hi
        exact ⟨.idle, by simp⟩
      · obtain ⟨y, hy⟩ := h.entry_cell u i hi
        exact ⟨y, getElem?_append_of_some hy⟩
    · intro i hi
      have := h.call_lt i hi
      simp only [List.length_append, List.length_singleton]
      omega
    · intro i u y hi
      rcases Nat.lt_or_ge i k.cells.length with hlt | hle
      · rw [List.getElem?_append_left hlt] at hi
        exact h.fits i u y hi
      · cases (eq_of_getElem?_concat hi hle).2
        trivial

theorem enroll (h : k.WellFormed) (hi : i < k.cells.length) : WellFormed (k.enroll i) where
  entries_nodup := h.entries_nodup
  entry_cell := h.entry_cell
  call_lt j hj := by
    rcases List.mem_append.1 hj with hj | hj
    · exact h.call_lt j hj
    · rw [List.mem_singleton.1 hj]
      exact hi
  query_lt c hc := by
    have := h.query_lt c hc
    simp only [SchemaCache.enroll, List.length_append]
    omega
  queries_nodup := h.queries_nodup
  fits j u y hj := (h.fits j u y hj).enroll i

theorem put {y : CellContent} (h : k.WellFormed) (hy : k.Fits i y) : WellFormed (k.put i y) where
  entries_nodup := h.entries_nodup
  entry_cell u j hj := by
    obtain ⟨z, hz⟩ := h.entry_cell u j hj
    by_cases hij : i = j
    · exact ⟨y, cells_put.2 (.inl ⟨hij, rfl, z, hz⟩)⟩
    · exact ⟨z, cells_put.2 (.inr ⟨hij, hz⟩)⟩
  call_lt j hj := by
    rw [cells_put_length]
    exact h.call_lt j hj
  query_lt := h.query_lt
  queries_nodup := h.queries_nodup
  fits j u z hj := by
    rcases cells_put.1 hj with ⟨rfl, rfl, -⟩ | ⟨-, hj⟩
    · exact hy
    · exact h.fits j u z hj

theorem ask {c : Nat} {w : List Nat} (h : k.WellFormed) (hn : (c :: w).Nodup)
    (hw : ∀ x ∈ c :: w, k.calls[x]? = some i ∧ x ∉ k.queries) : WellFormed (k.ask i t c w).1 := by
  obtain ⟨hc, hcq⟩ := hw c List.mem_cons_self
  have hput : (k.put i .idle).WellFormed := h.put trivial
  refine ⟨h.entries_nodup, ?_, ?_, ?_, ?_, ?_⟩
  · intro u j hj
    obtain ⟨z, hz⟩ := hput.entry_cell u j hj
    rcases cells_put.1 hz with ⟨rfl, -, z', hz'⟩ | ⟨hij, hz⟩
    · exact ⟨_, cells_put_self hz'⟩
    · exact ⟨z, cells_put.2 (.inr ⟨hij, hz⟩)⟩
  · intro j hj
    rw [cells_ask, cells_put_length]
    exact h.call_lt j hj
  · intro x hx
    rcases List.mem_append.1 hx with hx | hx
    · exact h.query_lt x hx
    · rw [List.mem_singleton.1 hx]
      exact (List.getElem?_eq_some_iff.1 hc).1
  · exact h.queries_nodup.append (List.nodup_singleton c) (by simpa using hcq)
  · intro j u y hj
    rw [cells_ask] at hj
    rcases cells_put.1 hj with ⟨rfl, rfl, -⟩ | ⟨hij, hj⟩
    · refine ⟨List.getElem?_concat_length, hn, fun x hx => (hw x hx).1, fun x hx => ?_⟩
      simp only [SchemaCache.ask, List.mem_append, List.mem_singleton, not_or]
      refine ⟨(hw x (List.mem_cons_of_mem _ hx)).2, ?_⟩
      rintro rfl
      exact (List.nodup_cons.1 hn).1 hx
    · -- The asking call is not in line at another cell.
      refine (h.fits j u y hj).ask fun hcy => hij ?_
      have := (h.fits j u y hj).call_of_mem hcy
      rw [hc] at this
      exact Option.some.inj this

/-- The cell of a call that resolves is handed on. -/
theorem passOn {c q : Nat} {w : List Nat} (h : k.WellFormed)
    (hi : k.cells[i]? = some ⟨t, .resolving c q w⟩) : WellFormed (k.passOn i t w).1 := by
  obtain ⟨-, hn, hcalls, hw⟩ := h.fits i t _ hi
  cases w with
  | nil => exact h.put trivial
  | cons d w =>
    exact h.ask (List.nodup_cons.1 hn).2
      fun x hx => ⟨hcalls x (List.mem_cons_of_mem _ hx), hw x hx⟩

end WellFormed

end SchemaCache

end TableCapture
