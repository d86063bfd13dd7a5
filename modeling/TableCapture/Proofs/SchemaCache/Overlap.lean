import TableCapture.Proofs.SchemaCache.History

/-!
# Queries for one table

Two queries for one table that are in flight together belong to two cells, and the table lost the
older cell before it got the newer one, by an invalidation or by an error (`taken_of_resolving`).
So a table that is not invalidated, and whose calls get no errors, has one cell for good
(`one_cell`), whatever calls are dropped: at most one query is in flight for it, at most one
succeeds, and all its calls are answered with one schema (`overlap`).
-/

namespace TableCapture

namespace SchemaCache

/-- A query for the table was in flight and ended with a schema. -/
def Succeeds (as : List CacheAction) (q : Nat) (t : TableId) : Prop :=
  ∃ bs e ds c schema, as = bs ++ .settle q e :: ds ∧ Resolving bs q c t
    ∧ e.schema t = .ok schema

section Overlap

variable {as : List CacheAction} {t : TableId} {q c : Nat}

/-- Two queries in flight for one table are at two cells, and the older one was taken before the
newer one was made. -/
theorem taken_of_resolving {p d : Nat} (h : Resolving as q c t) (h' : Resolving as p d t)
    (hne : q ≠ p) : ∃ i j, (after as).calls[c]? = some i ∧ (after as).calls[d]? = some j
      ∧ i ≠ j ∧ TakenBetween as t (min i j) (max i j) := by
  obtain ⟨i, w, hc, hi⟩ := cell_of_in_flight h
  obtain ⟨j, v, hd, hj⟩ := cell_of_in_flight h'
  have hij : i ≠ j := by
    rintro rfl
    cases (table_unique hi hj).2
    exact hne rfl
  refine ⟨i, j, hc, hd, hij, ?_⟩
  rcases Nat.lt_or_gt_of_ne hij with hlt | hgt
  · rw [Nat.min_eq_left (Nat.le_of_lt hlt), Nat.max_eq_right (Nat.le_of_lt hlt)]
    exact taken_between hi hj hlt
  · rw [Nat.min_eq_right (Nat.le_of_lt hgt), Nat.max_eq_left (Nat.le_of_lt hgt)]
    exact taken_between hj hi hgt

theorem filled_of_succeeds (h : Succeeds as q t) :
    ∃ (i : Nat) (schema : TableSchema),
      (after as).cells[i]? = some ⟨t, .filled ⟨q, schema⟩⟩ := by
  obtain ⟨bs, e, ds, c, schema, rfl, hq, he⟩ := h
  obtain ⟨i, w, -, hi⟩ := cell_of_in_flight hq
  have hfull := (wellFormed_after bs).settle_ok hi he
  rw [← after_concat] at hfull
  rw [List.append_cons]
  exact ⟨i, schema, (grows_append _ ds).filled hfull⟩

section Quiet

variable (hno : .invalidate t ∉ as)
  (herr : ∀ c err, .answered c (.error err) ∈ log as → (called as)[c]? ≠ some t)
include hno herr

theorem not_taken {bs ds : List CacheAction} {a : CacheAction} {i : Nat}
    (has : as = bs ++ a :: ds) : ¬ Takes bs a t i := by
  intro htakes
  subst has
  rcases htakes.recorded ds with rfl | ⟨c, err, hc, hci⟩
  · exact hno (by simp)
  · obtain ⟨y, hy⟩ := (wellFormed_after bs).entry_cell t i htakes.mem
    obtain ⟨y', hy', -⟩ := (grows_append bs (a :: ds)).cell i t y hy
    exact herr c err hc (called_iff.2 ⟨i, y', hci, hy'⟩)

/-- A table that is not invalidated, and whose calls get no errors, has one cell only. -/
theorem one_cell {i j : Nat} {y z : CellContent} (hi : (after as).cells[i]? = some ⟨t, y⟩)
    (hj : (after as).cells[j]? = some ⟨t, z⟩) : i = j ∧ y = z := by
  have hnot : ∀ {i j : Nat} {y z : CellContent}, (after as).cells[i]? = some ⟨t, y⟩ →
      (after as).cells[j]? = some ⟨t, z⟩ → ¬ i < j := by
    intro i j y z hi hj hlt
    obtain ⟨bs, cs, a, ds, es, has, -, htakes, -⟩ := taken_between hi hj hlt
    rw [List.append_assoc _ (a :: ds), List.cons_append] at has
    exact not_taken hno herr has htakes
  have hij : i = j := Nat.le_antisymm (Nat.not_lt.1 (hnot hj hi)) (Nat.not_lt.1 (hnot hi hj))
  subst hij
  exact ⟨rfl, (table_unique hi hj).2⟩

theorem in_flight_unique {bs : List CacheAction} (hbs : bs <+: as) {p d : Nat}
    (h : Resolving bs q c t) (h' : Resolving bs p d t) : q = p ∧ c = d := by
  obtain ⟨i, w, -, hi⟩ := cell_of_in_flight h
  obtain ⟨j, v, -, hj⟩ := cell_of_in_flight h'
  obtain ⟨ds, rfl⟩ := hbs
  obtain ⟨y, hy, -⟩ := (grows_append bs ds).cell i t _ hi
  obtain ⟨z, hz, -⟩ := (grows_append bs ds).cell j t _ hj
  obtain ⟨rfl, -⟩ := one_cell hno herr hy hz
  cases (table_unique hi hj).2
  exact ⟨rfl, rfl⟩

theorem success_unique {p : Nat} (h : Succeeds as q t) (h' : Succeeds as p t) : q = p := by
  obtain ⟨i, schema, hi⟩ := filled_of_succeeds h
  obtain ⟨j, schema', hj⟩ := filled_of_succeeds h'
  cases (one_cell hno herr hi hj).2
  rfl

theorem answer_unique {d : Nat} {r s : SharedSchema} (hc : (called as)[c]? = some t)
    (hr : .answered c (.ok r) ∈ log as) (hd : (called as)[d]? = some t)
    (hs : .answered d (.ok s) ∈ log as) : r = s := by
  obtain ⟨i, y, hci, hy⟩ := called_iff.1 hc
  obtain ⟨j, z, hdj, hz⟩ := called_iff.1 hd
  cases (one_cell hno herr (filled_of_answered hr hci hy) (filled_of_answered hs hdj hz)).2
  rfl

end Quiet

end Overlap

/-- Two queries for one table are in flight together only if the table has lost the cell of the
older one in between. So in a history that does not invalidate the table and gives its calls no
error, at most one query for it is ever in flight, at most one succeeds, and all its calls get one
schema. -/
theorem overlap (as : List CacheAction) (t : TableId) :
    (∀ q c p d, Resolving as q c t → Resolving as p d t → q ≠ p →
        ∃ i j, (after as).calls[c]? = some i ∧ (after as).calls[d]? = some j ∧ i ≠ j
          ∧ TakenBetween as t (min i j) (max i j))
      ∧ (.invalidate t ∉ as →
        (∀ c err, .answered c (.error err) ∈ log as → (called as)[c]? ≠ some t) →
        (∀ bs, bs <+: as → ∀ q c p d, Resolving bs q c t → Resolving bs p d t → q = p ∧ c = d)
          ∧ (∀ q p, Succeeds as q t → Succeeds as p t → q = p)
          ∧ ∀ c d r s, (called as)[c]? = some t → .answered c (.ok r) ∈ log as →
            (called as)[d]? = some t → .answered d (.ok s) ∈ log as → r = s) := by
  refine ⟨fun q c p d => taken_of_resolving, fun hno herr => ⟨?_, ?_, ?_⟩⟩
  · exact fun bs hbs q c p d => in_flight_unique hno herr hbs
  · exact fun q p => success_unique hno herr
  · exact fun c d r s => answer_unique hno herr

/-- Two queries in flight after an invalidation; and a query whose call was dropped, and another
one that ended. -/
theorem overlap_lamps :
    (∃ i j, (after [.call lamps, .invalidate lamps, .call lamps]).calls[0]? = some i
        ∧ (after [.call lamps, .invalidate lamps, .call lamps]).calls[1]? = some j ∧ i ≠ j
        ∧ TakenBetween [.call lamps, .invalidate lamps, .call lamps] lamps (min i j) (max i j))
      ∧ ∀ q, Succeeds [.call lamps, .call lamps, .drop 0, .settle 1 lampsReply] q lamps →
        1 = q := by
  refine ⟨(overlap _ lamps).1 0 0 1 1 (by decide +kernel) (by decide +kernel) (by decide),
    fun q hq => ?_⟩
  have hlog : log [.call lamps, .call lamps, .drop 0, .settle 1 lampsReply]
      = [.asked 0 0 lamps, .dropped 0, .asked 1 1 lamps, .answered 1 (.ok ⟨1, lampsSchema⟩)] := by
    decide +kernel
  refine ((overlap _ lamps).2 (by decide) fun c err hc => ?_).2.1 1 q ?_ hq
  · simp [hlog] at hc
  · exact ⟨[.call lamps, .call lamps, .drop 0], lampsReply, [], 1, lampsSchema, rfl,
      by decide +kernel, by decide +kernel⟩

end SchemaCache

end TableCapture
