import TableCapture.Proofs.SchemaCache.History

/-!
# What is kept

A schema that a table has is kept until the table is invalidated (`cached_append`), and a call for
the table is answered with it at once (`keeps_of_cached`).

Not every schema that a call is answered with comes to be one that the table has. An error takes
the cell of its call from the table, although others may still wait there. They go on to resolve
on this cell, and the first of them whose query succeeds fills it; but no table has it any longer.
So what is kept of a call that was answered with a schema is decided by the errors for other calls
at its cell: if there was none, the schema is kept, and if there was one, it is lost for good
(`keeps_or_loses`).
-/

namespace TableCapture

namespace SchemaCache

/-- The schema of the table is there to be looked at, and a call is answered with it and asks no
query. -/
def Keeps (k : SchemaCache) (t : TableId) (s : SharedSchema) : Prop :=
  k.cached t = some s ∧ (k.step (.call t)).2 = [.answered k.calls.length (.ok s)]

section Steps

variable {k k' : SchemaCache} {a : CacheAction} {es : List CacheEvent} {t : TableId}
  {s : SharedSchema}

theorem keeps_of_cached (hk : k.WellFormed) (h : k.cached t = some s) : Keeps k t s := by
  refine ⟨h, ?_⟩
  obtain ⟨i, hmem, hi⟩ := hk.cached_iff.1 h
  simp only [step, call, enter, hk.lookup_iff.2 hmem, hi]

/-- Only an invalidation takes a cell with a schema from its table. -/
theorem Transition.keeps_entry (h : Transition k a k' es) (hk : k.WellFormed) {i : Nat}
    (hmem : (t, i) ∈ k.entries) (hi : k.cells[i]? = some ⟨t, .filled s⟩)
    (ha : a ≠ .invalidate t) : (t, i) ∈ k'.entries := by
  by_contra hgone
  rcases h.taken hk hmem hgone with hinv | ⟨q, e, c, w, err, -, hres, -⟩
  · exact ha hinv
  · cases (table_unique hi hres).2

theorem Transition.keeps_cached (h : Transition k a k' es) (hk : k.WellFormed)
    (hs : k.cached t = some s) (ha : a ≠ .invalidate t) : k'.cached t = some s := by
  obtain ⟨i, hmem, hi⟩ := hk.cached_iff.1 hs
  exact (h.wellFormed hk).cached_iff.2 ⟨i, h.keeps_entry hk hmem hi ha, h.grows.filled hi⟩

/-- A call that is answered at once leaves the schema with the table. -/
theorem Transition.cached_of_call (h : Transition k (.call t) k' es) (hk : k.WellFormed) {d : Nat}
    (hd : .answered d (.ok s) ∈ es) : k'.cached t = some s := by
  have hk' := h.wellFormed hk
  cases h with
  | @hit _ i k₁ s' he hi =>
    simp only [List.mem_singleton, CacheEvent.answered.injEq, Except.ok.injEq] at hd
    have hmem := enter_mem he
    rw [hd.2]
    exact hk'.cached_iff.2 ⟨i, hmem, hi⟩
  | began | joined => simp at hd

end Steps

section Histories

variable {as : List CacheAction} {t : TableId} {s : SharedSchema} {c : Nat}

/-- A schema that a table has stays until the table is invalidated. -/
theorem cached_append (h : (after as).cached t = some s) (bs : List CacheAction)
    (hbs : .invalidate t ∉ bs) : (after (as ++ bs)).cached t = some s := by
  induction bs using List.reverseRecOn with
  | nil => rwa [List.append_nil]
  | append_singleton bs b ih =>
    rw [List.mem_append, not_or, List.mem_singleton] at hbs
    rw [← List.append_assoc]
    exact (transition_after (as ++ bs) b).keeps_cached (wellFormed_after _) (ih hbs.1)
      (Ne.symm hbs.2)

/-- Without errors at its cell, a call that is answered leaves the schema with its table. -/
theorem cached_of_no_error (hno : .invalidate t ∉ as) (hc : (called as)[c]? = some t)
    (hok : .answered c (.ok s) ∈ log as)
    (herr : ∀ d err, .answered d (.error err) ∈ log as →
      (after as).calls[d]? ≠ (after as).calls[c]?) : (after as).cached t = some s := by
  obtain ⟨i, y, hci, hy⟩ := called_iff.1 hc
  have hi := filled_of_answered hok hci hy
  rcases mem_entries_or_taken hi with hmem | ⟨bs, a, ds, rfl, htakes⟩
  · exact (wellFormed_after as).cached_iff.2 ⟨i, hmem, hi⟩
  · exfalso
    rcases htakes.recorded ds with rfl | ⟨d, err, hd, hdi⟩
    · exact hno (by simp)
    · exact herr d err hd (hdi.trans hci.symm)

/-- After an error at its cell, no table has the schema that a call is answered with. -/
theorem not_cached_of_error {d : Nat} {err : SchemaError} (hok : .answered c (.ok s) ∈ log as)
    (herr : .answered d (.error err) ∈ log as)
    (hd : (after as).calls[d]? = (after as).calls[c]?) : (after as).cached t ≠ some s := by
  intro hs
  obtain ⟨i, u, hci, hi⟩ := (recorded_after as).ok_cell c s hok
  obtain ⟨j, hmem, hj⟩ := (wellFormed_after as).cached_iff.1 hs
  have hij : i = j := (wellFormed_after as).filled_unique hi hj
  rw [← hij] at hmem
  exact (recorded_after as).error_cell d err herr i (hd.trans hci) t hmem

/-- While its table is not invalidated, the schema that a call is answered with is kept from then
on if no call at the same cell got an error, and if one did, it is lost from then on: it is never
looked at, and no later call is answered with it. -/
theorem keeps_or_loses (hno : .invalidate t ∉ as) (hc : (called as)[c]? = some t)
    (hok : .answered c (.ok s) ∈ log as) :
    ((∀ d err, .answered d (.error err) ∈ log as → (after as).calls[d]? ≠ (after as).calls[c]?) →
        ∀ bs, .invalidate t ∉ bs → Keeps (after (as ++ bs)) t s)
      ∧ ((∃ d err, .answered d (.error err) ∈ log as
          ∧ (after as).calls[d]? = (after as).calls[c]?) →
        ∀ bs, (after (as ++ bs)).cached t ≠ some s
          ∧ ∀ d, .answered d (.ok s) ∉ ((after (as ++ bs)).step (.call t)).2) := by
  constructor
  · intro herr bs hbs
    exact keeps_of_cached (wellFormed_after _)
      (cached_append (cached_of_no_error hno hc hok herr) bs hbs)
  · rintro ⟨d, err, herr, hd⟩
    obtain ⟨i, y, hci, -⟩ := called_iff.1 hc
    have hlost : ∀ bs, (after (as ++ bs)).cached t ≠ some s := fun bs => by
      have hg := grows_append as bs
      refine not_cached_of_error (mem_log_append hok bs) (mem_log_append herr bs) ?_
      rw [hg.call hci, hg.call (hd.trans hci)]
    refine fun bs => ⟨hlost bs, fun e he => ?_⟩
    have := (transition_after (as ++ bs) (.call t)).cached_of_call (wellFormed_after _) he
    rw [List.append_assoc] at this
    exact hlost _ this

end Histories

/-- A call fails, and the next one is answered at another cell. -/
def lampsRetried : List CacheAction :=
  [.call lamps, .settle 0 (.reply (.rows [])), .call lamps, .settle 1 lampsReply]

/-- A call fails while the next one waits at its cell, and is answered there. -/
def lampsOvertaken : List CacheAction :=
  [.call lamps, .call lamps, .settle 0 (.reply (.rows [])), .settle 1 lampsReply]

theorem keeps_lamps :
    (.invalidate lamps ∉ lampsRetried
      ∧ .answered 0 (.error ⟨lamps, lamps.statement, .notFound⟩) ∈ log lampsRetried
      ∧ .answered 1 (.ok ⟨1, lampsSchema⟩) ∈ log lampsRetried
      ∧ Keeps (after (lampsRetried ++ [.drop 0])) lamps ⟨1, lampsSchema⟩)
    ∧ .invalidate lamps ∉ lampsOvertaken
      ∧ .answered 0 (.error ⟨lamps, lamps.statement, .notFound⟩) ∈ log lampsOvertaken
      ∧ .answered 1 (.ok ⟨1, lampsSchema⟩) ∈ log lampsOvertaken
      ∧ (after (lampsOvertaken ++ [.call lamps])).cached lamps ≠ some ⟨1, lampsSchema⟩
      ∧ ∀ d, .answered d (.ok ⟨1, lampsSchema⟩)
        ∉ ((after (lampsOvertaken ++ [.call lamps])).step (.call lamps)).2 := by
  have hretried : log lampsRetried = [.asked 0 0 lamps,
      .answered 0 (.error ⟨lamps, lamps.statement, .notFound⟩), .asked 1 1 lamps,
      .answered 1 (.ok ⟨1, lampsSchema⟩)] := by decide +kernel
  have hovertaken : log lampsOvertaken = [.asked 0 0 lamps,
      .answered 0 (.error ⟨lamps, lamps.statement, .notFound⟩), .asked 1 1 lamps,
      .answered 1 (.ok ⟨1, lampsSchema⟩)] := by decide +kernel
  have hok : .answered 1 (.ok ⟨1, lampsSchema⟩) ∈ log lampsRetried := by simp [hretried]
  have hok' : .answered 1 (.ok ⟨1, lampsSchema⟩) ∈ log lampsOvertaken := by simp [hovertaken]
  have hno : .invalidate lamps ∉ lampsRetried := by simp [lampsRetried]
  have hno' : .invalidate lamps ∉ lampsOvertaken := by simp [lampsOvertaken]
  have hcells : (after lampsRetried).calls = [0, 1] := by decide +kernel
  have hcells' : (after lampsOvertaken).calls = [0, 0] := by decide +kernel
  have hapart : ∀ d err, .answered d (.error err) ∈ log lampsRetried →
      (after lampsRetried).calls[d]? ≠ (after lampsRetried).calls[1]? := by
    intro d err hd
    obtain ⟨rfl, -⟩ : d = 0 ∧ _ := by simpa [hretried] using hd
    simp [hcells]
  have hkept := (keeps_or_loses hno rfl hok).1 hapart [.drop 0] (by simp)
  have hlost := (keeps_or_loses hno' rfl hok').2
    ⟨0, ⟨lamps, lamps.statement, .notFound⟩, by simp [hovertaken], by simp [hcells']⟩ [.call lamps]
  exact ⟨⟨hno, by simp [hretried], hok, hkept⟩, hno', by simp [hovertaken], hok', hlost⟩

/-- Not every schema is kept, even if no call is dropped and no table invalidated: the first call
fails while the second waits at its cell. -/
theorem schema_lost :
    ¬ ∀ (as bs : List CacheAction) (t : TableId) (c : Nat) (s : SharedSchema),
      (∀ a ∈ as ++ bs, (∀ d, a ≠ .drop d) ∧ a ≠ .invalidate t) → (called as)[c]? = some t →
      .answered c (.ok s) ∈ log as → Keeps (after (as ++ bs)) t s := by
  intro h
  have hkept := h
    [.call lamps, .call lamps, .settle 0 (.reply (.rows [])), .settle 1 lampsReply] [] lamps 1
    ⟨1, lampsSchema⟩ (by simp) rfl (by decide +kernel)
  exact absurd hkept.1 (by decide +kernel)

end SchemaCache

end TableCapture
