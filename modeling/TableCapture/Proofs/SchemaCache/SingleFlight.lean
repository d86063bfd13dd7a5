import TableCapture.Proofs.SchemaCache.History

/-!
# One query at a time

At every cell, whether a table still has it or not, at most one call resolves, and the others that
are not over wait in line for this one: nobody waits at a cell where nobody resolves. The schema
that a cell gets is given to all who are there at that moment, and stays. No query is asked on
this cell afterwards, and whoever has it or comes to it is answered with this schema
(`singleFlight`).
-/

namespace TableCapture

namespace SchemaCache

section Filled

variable {as : List CacheAction} {i c : Nat} {t : TableId} {s : SharedSchema}

/-- On a cell with a schema nothing is asked any more. -/
theorem asked_before_filled (h : (after as).cells[i]? = some ⟨t, .filled s⟩)
    (bs : List CacheAction) {q : Nat} {u : TableId} (hq : .asked q c u ∈ log (as ++ bs))
    (hc : (after (as ++ bs)).calls[c]? = some i) : .asked q c u ∈ log as := by
  induction bs using List.reverseRecOn with
  | nil => rwa [List.append_nil] at hq
  | append_singleton bs b ih =>
    rw [← List.append_assoc] at hq hc
    have ht := transition_after (as ++ bs) b
    rw [log_concat] at hq
    rcases List.mem_append.1 hq with hq | hq
    · obtain ⟨-, j, y, hj, -⟩ := (recorded_after _).asked_query q c u hq
      have hij : j = i := by
        have := ht.grows.call hj
        rw [hc] at this
        exact (Option.some.inj this).symm
      exact ih hq (hij ▸ hj)
    · -- The cell of a call that asks is one where somebody resolves afterwards.
      rcases ht.asks (wellFormed_after _) with ⟨-, hno⟩ | ⟨d, v, j, w, -, hd, hj, hiff⟩
      · exact absurd hq (hno q c u)
      · obtain ⟨-, rfl, -⟩ := (hiff q c u).1 hq
        rw [hc] at hd
        cases hd
        have hi := ht.grows.filled ((grows_append as bs).filled h)
        cases (table_unique hi hj).2

/-- Nobody is left at a cell with a schema. -/
theorem ended_of_filled (h : (after as).cells[i]? = some ⟨t, .filled s⟩)
    (hc : (after as).calls[c]? = some i) : Ended (log as) c := by
  by_contra hopen
  obtain ⟨u, y, hy, hcy⟩ := (recorded_after as).open_caller c i hc hopen
  rw [← (table_unique h hy).2] at hcy
  exact List.not_mem_nil hcy

theorem answered_or_dropped (h : Ended (log as) c) :
    (∃ r, .answered c r ∈ log as) ∨ .dropped c ∈ log as := by
  obtain ⟨e, he, hc⟩ := h
  cases e with
  | answered d r =>
    cases hc
    exact .inl ⟨r, he⟩
  | dropped d =>
    cases hc
    exact .inr he
  | asked | found | counted => cases hc

end Filled

/-- How the calls at a cell share its queries. -/
structure SingleFlight (as : List CacheAction) (i : Nat) : Prop where
  /-- At most one call resolves at the cell. -/
  resolves : ∀ q c t p d u, Resolving as q c t → (after as).calls[c]? = some i →
    Resolving as p d u → (after as).calls[d]? = some i → q = p ∧ c = d
  /-- A call waits only while the cell is empty, and while exactly one other call resolves. -/
  waits : ∀ c, Waiting as c → (after as).calls[c]? = some i →
    (∃ x, (after as).cells[i]? = some x ∧ x.content.schema? = none)
      ∧ ∃! d, d ≠ c ∧ (after as).calls[d]? = some i ∧ ∃ q t, Resolving as q d t
  /-- A schema stays in the cell, and no query is asked there any more. -/
  stays : ∀ t s, (after as).cells[i]? = some ⟨t, .filled s⟩ → ∀ bs,
    (after (as ++ bs)).cells[i]? = some ⟨t, .filled s⟩
      ∧ ∀ q c u, .asked q c u ∈ log (as ++ bs) → (after (as ++ bs)).calls[c]? = some i →
        .asked q c u ∈ log as
  /-- Whoever resolves or waits when the cell gets its schema is answered with it. -/
  answers : ∀ a t s y, (after as).cells[i]? = some ⟨t, y⟩ → y.schema? = none →
    (after (as ++ [a])).cells[i]? = some ⟨t, .filled s⟩ →
    ∀ c, (after as).calls[c]? = some i → ¬ Ended (log as) c →
      .answered c (.ok s) ∈ ((after as).step a).2
  /-- All calls at a cell with a schema are over. Those that were not dropped and got no error
  were answered with this schema. -/
  ends : ∀ t s, (after as).cells[i]? = some ⟨t, .filled s⟩ →
    ∀ c, (after as).calls[c]? = some i →
      (.answered c (.ok s) ∈ log as ∨ (∃ err, .answered c (.error err) ∈ log as)
        ∨ .dropped c ∈ log as)
      ∧ ∀ r, .answered c (.ok r) ∈ log as → r = s

/-- At most one query is in flight for a cell, and all who wait there share its schema. -/
theorem singleFlight (as : List CacheAction) (i : Nat) : SingleFlight as i where
  resolves q c t p d u hq hc hp hd := by
    obtain ⟨w, hi⟩ := cell_of_resolving hq hc
    obtain ⟨w', hi'⟩ := cell_of_resolving hp hd
    obtain ⟨-, heq⟩ := table_unique hi hi'
    cases heq
    exact ⟨rfl, rfl⟩
  waits c hw hc := by
    obtain ⟨t, d, q, w, hi, hcw⟩ := cell_of_waiting hw hc
    have hfits := (wellFormed_after as).fits _ _ _ hi
    have hd := resolving_of_cell hi
    refine ⟨⟨_, hi, rfl⟩, d, ⟨?_, ?_, q, t, hd⟩, ?_⟩
    · rintro rfl
      exact (List.nodup_cons.1 hfits.callers_nodup).1 hcw
    · exact hfits.call_of_mem List.mem_cons_self
    · rintro e ⟨-, he, p, u, hp⟩
      obtain ⟨w', hi'⟩ := cell_of_resolving hp he
      cases (table_unique hi hi').2
      rfl
  stays t s hi bs := ⟨(grows_append as bs).filled hi, fun q c u => asked_before_filled hi bs⟩
  answers a t s y hi hy hi' c hc hopen := by
    rcases (transition_after as a).filled_cell hi' with hfull | ⟨e, d, w, -, -, hres, hes⟩
    · cases (table_unique hi hfull).2
      cases hy
    · obtain ⟨u, z, hz, hcz⟩ := (recorded_after as).open_caller c i hc hopen
      rw [← (table_unique hres hz).2] at hcz
      rw [hes]
      exact List.mem_map_of_mem hcz
  ends t s hi c hc := by
    have hshared : ∀ r, .answered c (.ok r) ∈ log as → r = s := fun r hr => by
      cases (table_unique hi (filled_of_answered hr hc hi)).2
      rfl
    refine ⟨?_, hshared⟩
    rcases answered_or_dropped (ended_of_filled hi hc) with ⟨r, hr⟩ | hdrop
    · cases r with
      | error err => exact .inr (.inl ⟨err, hr⟩)
      | ok r =>
        rw [hshared r hr] at hr
        exact .inl hr
    · exact .inr (.inr hdrop)

/-- The first of three calls fails. The third waits for the second, and gets its schema. -/
theorem singleFlight_three :
    (∃! d, d ≠ 2
        ∧ (after [.call lamps, .call lamps, .call lamps, .settle 0 (.reply (.rows []))]).calls[d]?
          = some 0
        ∧ ∃ q t, Resolving [.call lamps, .call lamps, .call lamps, .settle 0 (.reply (.rows []))]
          q d t)
      ∧ .answered 2 (.ok ⟨1, lampsSchema⟩)
        ∈ ((after [.call lamps, .call lamps, .call lamps, .settle 0 (.reply (.rows []))]).step
          (.settle 1 lampsReply)).2 := by
  have h := singleFlight
    [.call lamps, .call lamps, .call lamps, .settle 0 (.reply (.rows []))] 0
  refine ⟨(h.waits 2 ⟨by decide, fun q t hq => ?_, by decide +kernel⟩ (by decide +kernel)).2, ?_⟩
  · have hmem := List.mem_of_getElem? ((recorded_after _).asked_query q 2 t hq).1
    exact absurd hmem (by decide +kernel)
  · exact h.answers (.settle 1 lampsReply) lamps _ (.resolving 1 1 [2]) (by decide +kernel) rfl
      (by decide +kernel) 2 (by decide +kernel) (by decide +kernel)

end SchemaCache

end TableCapture
