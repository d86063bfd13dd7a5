import TableCapture.Proofs.SchemaCache.WellFormed

/-!
# What an action can do

In a cache in good order an action does one of twelve things (`step_transition`). A call finds a
schema, asks a query, or gets in line. A query that ends fills its cell, or fails and leaves the
cell to the next in line, or comes too late. A call that is dropped leaves the cell to the next in
line, or gets out of the line, or is over already. The rest looks at the cache, or takes a cell
away from its table. All of it keeps the good order (`WellFormed.step`).
-/

namespace TableCapture

namespace SchemaCache

/-- What an action can do, the cache it leaves, and what comes of it. -/
inductive Transition (k : SchemaCache) : CacheAction → SchemaCache → List CacheEvent → Prop where
  /-- A call finds a schema. -/
  | hit {t i k₁ s} (he : k.enter t = (i, k₁)) (hi : k₁.cells[i]? = some ⟨t, .filled s⟩) :
    Transition k (.call t) (k₁.enroll i) [.answered k.calls.length (.ok s)]
  /-- A call finds nobody at the cell. -/
  | began {t i k₁} (he : k.enter t = (i, k₁)) (hi : k₁.cells[i]? = some ⟨t, .idle⟩) :
    Transition k (.call t) ((k₁.enroll i).ask i t k.calls.length []).1
      [.asked k.queries.length k.calls.length t]
  /-- A call gets in line. -/
  | joined {t i k₁ d q w} (he : k.enter t = (i, k₁))
      (hi : k₁.cells[i]? = some ⟨t, .resolving d q w⟩) :
    Transition k (.call t) ((k₁.enroll i).put i (.resolving d q (w ++ [k.calls.length]))) []
  /-- A query gives a schema. -/
  | filled {q e i t c w schema} (hi : k.cells[i]? = some ⟨t, .resolving c q w⟩)
      (he : e.schema t = .ok schema) :
    Transition k (.settle q e) (k.put i (.filled ⟨q, schema⟩))
      ((c :: w).map fun x => .answered x (.ok ⟨q, schema⟩))
  /-- A query gives an error. -/
  | failed {q e i t c w err} (hi : k.cells[i]? = some ⟨t, .resolving c q w⟩)
      (he : e.schema t = .error err) :
    Transition k (.settle q e) ((k.detach i).passOn i t w).1
      (.answered c (.error err) :: ((k.detach i).passOn i t w).2)
  /-- A query ends that nobody waits for. -/
  | late {q e} (h : ∀ (i : Nat) t c w, k.cells[i]? ≠ some ⟨t, .resolving c q w⟩) :
    Transition k (.settle q e) k []
  /-- The call that resolves is dropped. -/
  | resigned {i t c q w} (hi : k.cells[i]? = some ⟨t, .resolving c q w⟩) :
    Transition k (.drop c) (k.passOn i t w).1 (.dropped c :: (k.passOn i t w).2)
  /-- A call in line is dropped. -/
  | left {i t d q w c} (hi : k.cells[i]? = some ⟨t, .resolving d q w⟩) (hc : c ∈ w) :
    Transition k (.drop c) (k.put i (.resolving d q (w.erase c))) [.dropped c]
  /-- A call is dropped that is at no cell. -/
  | absent {c} (h : ∀ (i : Nat) t y, k.cells[i]? = some ⟨t, y⟩ → c ∉ y.callers) :
    Transition k (.drop c) k []
  /-- The cell of a table is looked at. -/
  | seen (t) : Transition k (.cached t) k [.found (k.cached t)]
  /-- The cell of a table is taken away. -/
  | invalidated (t) : Transition k (.invalidate t) (k.invalidate t) [.found (k.cached t)]
  /-- The tables with a schema are counted. -/
  | counted : Transition k .size k [.counted k.size]

section Enter

variable {k k₁ : SchemaCache} {t : TableId} {i : Nat}

/-- Either the table has a cell, or it gets the next one, which is idle. -/
theorem enter_cases (h : k.enter t = (i, k₁)) :
    (k.entries.lookup t = some i ∧ k₁ = k) ∨ (k.entries.lookup t = none ∧ i = k.cells.length
      ∧ k₁ = { k with cells := k.cells ++ [⟨t, .idle⟩], entries := (t, i) :: k.entries }) := by
  unfold enter at h
  split at h
  · rename_i j hj
    simp only [Prod.mk.injEq] at h
    obtain ⟨rfl, rfl⟩ := h
    exact .inl ⟨hj, rfl⟩
  · rename_i hnone
    simp only [Prod.mk.injEq] at h
    obtain ⟨rfl, rfl⟩ := h
    exact .inr ⟨hnone, rfl, rfl⟩

theorem enter_calls (h : k.enter t = (i, k₁)) : k₁.calls = k.calls ∧ k₁.queries = k.queries := by
  rcases enter_cases h with ⟨-, rfl⟩ | ⟨-, -, rfl⟩ <;> exact ⟨rfl, rfl⟩

theorem enter_mem (h : k.enter t = (i, k₁)) : (t, i) ∈ k₁.entries := by
  rcases enter_cases h with ⟨hl, rfl⟩ | ⟨-, -, rfl⟩
  · exact mem_of_lookup hl
  · exact List.mem_cons_self

theorem WellFormed.of_enter (hk : k.WellFormed) (h : k.enter t = (i, k₁)) : k₁.WellFormed := by
  have := hk.enter t
  rwa [h] at this

/-- A call gets a cell that was made for its table. -/
theorem WellFormed.enter_cell (hk : k.WellFormed) (h : k.enter t = (i, k₁)) :
    ∃ y, k₁.cells[i]? = some ⟨t, y⟩ :=
  (hk.of_enter h).entry_cell t i (enter_mem h)

end Enter

/-! ## Inversion -/

section Inversion

variable {k : SchemaCache}

section Call

variable {k₁ : SchemaCache} {t : TableId} {i : Nat}

theorem call_at_filled (he : k.enter t = (i, k₁)) {s : SharedSchema}
    (hi : k₁.cells[i]? = some ⟨t, .filled s⟩) :
    k.call t = (k₁.enroll i, [.answered k.calls.length (.ok s)]) := by
  simp only [call, he, hi, (enter_calls he).1, SchemaCache.enroll]

theorem call_at_idle (he : k.enter t = (i, k₁)) (hi : k₁.cells[i]? = some ⟨t, .idle⟩) :
    k.call t = (((k₁.enroll i).ask i t k.calls.length []).1,
      [.asked k.queries.length k.calls.length t]) := by
  simp only [call, he, hi, (enter_calls he).1, ← (enter_calls he).2, SchemaCache.enroll,
    SchemaCache.ask, SchemaCache.put]

theorem call_at_resolving (he : k.enter t = (i, k₁)) {d q : Nat} {w : List Nat}
    (hi : k₁.cells[i]? = some ⟨t, .resolving d q w⟩) :
    k.call t = ((k₁.enroll i).put i (.resolving d q (w ++ [k.calls.length])), []) := by
  simp only [call, he, hi, (enter_calls he).1, SchemaCache.enroll]

end Call

theorem WellFormed.call_transition (hk : k.WellFormed) (t : TableId) :
    Transition k (.call t) (k.call t).1 (k.call t).2 := by
  rcases he : k.enter t with ⟨i, k₁⟩
  obtain ⟨y, hy⟩ := hk.enter_cell he
  cases y with
  | filled s =>
    rw [call_at_filled he hy]
    exact .hit he hy
  | idle =>
    rw [call_at_idle he hy]
    exact .began he hy
  | resolving d q w =>
    rw [call_at_resolving he hy]
    exact .joined he hy

section Resolving

variable {i c q : Nat} {t : TableId} {w : List Nat}

theorem WellFormed.settle_of_ok (hk : k.WellFormed) (hi : k.cells[i]? = some ⟨t, .resolving c q w⟩)
    {e : Ending} {schema : TableSchema} (he : e.schema t = .ok schema) :
    k.settle q e = (k.put i (.filled ⟨q, schema⟩),
      (c :: w).map fun x => .answered x (.ok ⟨q, schema⟩)) := by
  simp only [settle, hk.cell_of_query hi, hi, he, if_true]

/-- The cell of a failing call is empty, so its table loses it. -/
theorem discardEmpty_of_resolving (hi : k.cells[i]? = some ⟨t, .resolving c q w⟩) :
    k.discardEmpty i = k.detach i := by
  unfold discardEmpty
  rw [hi]
  rfl

theorem WellFormed.settle_of_error (hk : k.WellFormed)
    (hi : k.cells[i]? = some ⟨t, .resolving c q w⟩) {e : Ending} {err : SchemaError}
    (he : e.schema t = .error err) :
    k.settle q e = (((k.detach i).passOn i t w).1,
      .answered c (.error err) :: ((k.detach i).passOn i t w).2) := by
  simp only [settle, hk.cell_of_query hi, hi, he, if_true, discardEmpty_of_resolving hi]

theorem WellFormed.drop_of_resolving (hk : k.WellFormed)
    (hi : k.cells[i]? = some ⟨t, .resolving c q w⟩) :
    k.drop c = ((k.passOn i t w).1, .dropped c :: (k.passOn i t w).2) := by
  have hcall := (hk.fits i t _ hi).call_of_mem List.mem_cons_self
  simp only [drop, hcall, hi, if_true]

theorem WellFormed.drop_of_waiting (hk : k.WellFormed)
    (hi : k.cells[i]? = some ⟨t, .resolving c q w⟩) {d : Nat} (hd : d ∈ w) :
    k.drop d = (k.put i (.resolving c q (w.erase d)), [.dropped d]) := by
  have hfits := hk.fits i t _ hi
  have hcall := hfits.call_of_mem (List.mem_cons_of_mem c hd)
  have hne : c ≠ d := by
    rintro rfl
    exact (List.nodup_cons.1 hfits.callers_nodup).1 hd
  simp only [drop, hcall, hi, hne, hd, if_false, if_true]

end Resolving

/-- The ending of a query that nobody waits for has no effect. -/
theorem settle_of_late {q : Nat}
    (h : ∀ (i : Nat) t c w, k.cells[i]? ≠ some ⟨t, .resolving c q w⟩) (e : Ending) :
    k.settle q e = (k, []) := by
  unfold settle
  split
  · rfl
  · split
    · rename_i hi
      split_ifs with hq
      · subst hq
        exact absurd hi (h _ _ _ _)
      · rfl
    · rfl

/-- A call that is at no cell is not dropped. -/
theorem drop_of_absent {c : Nat}
    (h : ∀ (i : Nat) t y, k.cells[i]? = some ⟨t, y⟩ → c ∉ y.callers) : k.drop c = (k, []) := by
  unfold drop
  split
  · rfl
  · split
    · rename_i hi
      have := h _ _ _ hi
      simp only [CellContent.callers, List.mem_cons, not_or] at this
      rw [if_neg (Ne.symm this.1), if_neg this.2]
    · rfl

theorem WellFormed.settle_transition (hk : k.WellFormed) (q : Nat) (e : Ending) :
    Transition k (.settle q e) (k.settle q e).1 (k.settle q e).2 := by
  by_cases h : ∃ (i : Nat) (t : TableId) (c : Nat) (w : List Nat),
      k.cells[i]? = some ⟨t, .resolving c q w⟩
  · obtain ⟨i, t, c, w, hi⟩ := h
    rcases he : e.schema t with err | schema
    · rw [hk.settle_of_error hi he]
      exact .failed hi he
    · rw [hk.settle_of_ok hi he]
      exact .filled hi he
  · have hlate : ∀ (i : Nat) t c w, k.cells[i]? ≠ some ⟨t, .resolving c q w⟩ :=
      fun i t c w hi => h ⟨i, t, c, w, hi⟩
    rw [settle_of_late hlate]
    exact .late hlate

theorem WellFormed.drop_transition (hk : k.WellFormed) (c : Nat) :
    Transition k (.drop c) (k.drop c).1 (k.drop c).2 := by
  by_cases h : ∃ (i : Nat) (t : TableId) (y : CellContent),
      k.cells[i]? = some ⟨t, y⟩ ∧ c ∈ y.callers
  · obtain ⟨i, t, y, hi, hc⟩ := h
    cases y with
    | resolving d q w =>
      rcases List.mem_cons.1 hc with rfl | hw
      · rw [hk.drop_of_resolving hi]
        exact .resigned hi
      · rw [hk.drop_of_waiting hi hw]
        exact .left hi hw
    | _ => simp [CellContent.callers] at hc
  · have habsent : ∀ (i : Nat) t y, k.cells[i]? = some ⟨t, y⟩ → c ∉ y.callers :=
      fun i t y hi hc => h ⟨i, t, y, hi, hc⟩
    rw [drop_of_absent habsent]
    exact .absent habsent

/-- In a cache in good order an action does one of twelve things. -/
theorem WellFormed.step_transition (hk : k.WellFormed) (a : CacheAction) :
    Transition k a (k.step a).1 (k.step a).2 := by
  cases a with
  | call t => exact hk.call_transition t
  | settle q e => exact hk.settle_transition q e
  | drop c => exact hk.drop_transition c
  | cached t => exact .seen t
  | invalidate t => exact .invalidated t
  | size => exact .counted

end Inversion

/-! ## Good order is kept -/

section Order

variable {k k' : SchemaCache} {a : CacheAction} {es : List CacheEvent}

/-- A new call fits behind those in line. -/
theorem Fits.join {i d q : Nat} {w : List Nat} (hk : k.WellFormed)
    (h : k.Fits i (.resolving d q w)) :
    (k.enroll i).Fits i (.resolving d q (w ++ [k.calls.length])) := by
  obtain ⟨hq, hn, hcalls, hw⟩ := h.enroll i
  have hnew : k.calls.length ∉ d :: w := fun hmem => by
    have := (List.getElem?_eq_some_iff.1 (h.2.2.1 _ hmem)).1
    omega
  refine ⟨hq, ?_, fun c hc => ?_, fun c hc => ?_⟩
  · rw [← List.cons_append]
    exact hn.append (List.nodup_singleton _) (by simpa using hnew)
  · rw [← List.cons_append] at hc
    rcases List.mem_append.1 hc with hc | hc
    · exact hcalls c hc
    · rw [List.mem_singleton.1 hc]
      exact List.getElem?_concat_length
  · rcases List.mem_append.1 hc with hc | hc
    · exact hw c hc
    · rw [List.mem_singleton.1 hc]
      exact fun hmem => Nat.lt_irrefl _ (hk.query_lt _ hmem)

/-- What is at a cell still fits without one of those in line. -/
theorem Fits.leave {i d q : Nat} {w : List Nat} (h : k.Fits i (.resolving d q w)) (c : Nat) :
    k.Fits i (.resolving d q (w.erase c)) := by
  obtain ⟨hq, hn, hcalls, hw⟩ := h
  have hsub : (d :: w.erase c).Sublist (d :: w) := List.erase_sublist.cons_cons d
  exact ⟨hq, hn.sublist hsub, fun x hx => hcalls x (hsub.subset hx),
    fun x hx => hw x (List.mem_of_mem_erase hx)⟩

theorem Transition.wellFormed (h : Transition k a k' es) (hk : k.WellFormed) :
    k'.WellFormed := by
  cases h with
  | hit he hi => exact (hk.of_enter he).enroll (lt_of_cell hi)
  | @began t i k₁ he hi =>
    have hcalls := (enter_calls he).1
    refine ((hk.of_enter he).enroll (lt_of_cell hi)).ask (List.nodup_singleton _) fun x hx => ?_
    rw [List.mem_singleton.1 hx, ← hcalls]
    refine ⟨List.getElem?_concat_length, fun hmem => ?_⟩
    have := (hk.of_enter he).query_lt _ hmem
    omega
  | joined he hi =>
    have hk₁ := hk.of_enter he
    have := ((hk₁.fits _ _ _ hi).join hk₁)
    rw [(enter_calls he).1] at this
    exact (hk₁.enroll (lt_of_cell hi)).put this
  | filled hi he =>
    obtain ⟨hq, -, hcalls, -⟩ := hk.fits _ _ _ hi
    exact hk.put ⟨_, hq, hcalls _ List.mem_cons_self⟩
  | failed hi he => exact (hk.filter _).passOn hi
  | resigned hi => exact hk.passOn hi
  | left hi hc => exact hk.put ((hk.fits _ _ _ hi).leave _)
  | invalidated t => exact hk.filter _
  | late | absent | seen | counted => exact hk

/-- Actions keep the good order. -/
theorem WellFormed.step (hk : k.WellFormed) (a : CacheAction) : (k.step a).1.WellFormed :=
  (hk.step_transition a).wellFormed hk

end Order

end SchemaCache

end TableCapture
