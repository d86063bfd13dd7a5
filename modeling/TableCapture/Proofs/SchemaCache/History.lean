import Mathlib.Data.List.Induction
import TableCapture.Proofs.SchemaCache.Record

/-!
# Histories

A history is a list of actions, done one after the other from the empty cache on: `after as` is
the cache then, and `log as` what came of them. Calls are numbered in the order in which they were
made, so that the call with the number `c` is for the table `(called as)[c]`.

After every history the cache is in good order and agrees with its record (`wellFormed_after`,
`recorded_after`). A call that has asked a query and is not over is the one that resolves at its
cell (`cell_of_resolving`), and a call that has asked nothing and is not over is in line there
(`cell_of_waiting`).

A cell that its table has no longer was taken from it at some moment, by an invalidation of the
table or by an error for a call at the cell (`mem_entries_or_taken`). The next cell of the table
is made after that (`taken_between`).
-/

namespace TableCapture

/-- The table that an action calls for. -/
def CacheAction.called? : CacheAction → Option TableId
  | call t => some t
  | _ => none

namespace SchemaCache

/-- The cache after a history. -/
def after (as : List CacheAction) : SchemaCache :=
  (empty.run as).1

/-- What came of a history. -/
def log (as : List CacheAction) : List CacheEvent :=
  (empty.run as).2

/-- The tables that the calls of a history are for. -/
def called (as : List CacheAction) : List TableId :=
  as.filterMap CacheAction.called?

/-- After the history the call `c` for `t` waits for the query `q` that it has asked. -/
def Resolving (as : List CacheAction) (q c : Nat) (t : TableId) : Prop :=
  .asked q c t ∈ log as ∧ ¬ Ended (log as) c

instance (as : List CacheAction) (q c : Nat) (t : TableId) : Decidable (Resolving as q c t) :=
  inferInstanceAs (Decidable (.asked q c t ∈ log as ∧ ¬ Ended (log as) c))

/-- After the history the call `c` has asked nothing and is not over. -/
def Waiting (as : List CacheAction) (c : Nat) : Prop :=
  c < (called as).length ∧ (∀ q t, .asked q c t ∉ log as) ∧ ¬ Ended (log as) c

/-! ## Histories in parts -/

theorem run_append (k : SchemaCache) : ∀ as bs : List CacheAction,
    k.run (as ++ bs) = (((k.run as).1.run bs).1, (k.run as).2 ++ ((k.run as).1.run bs).2)
  | [], bs => by simp [run]
  | a :: as, bs => by simp [run, run_append _ as bs]

theorem after_append (as bs : List CacheAction) : after (as ++ bs) = ((after as).run bs).1 := by
  simp only [after, run_append]

theorem after_concat (as : List CacheAction) (a : CacheAction) :
    after (as ++ [a]) = ((after as).step a).1 := by
  simp only [after_append, run]

theorem log_concat (as : List CacheAction) (a : CacheAction) :
    log (as ++ [a]) = log as ++ ((after as).step a).2 := by
  simp only [log, after, run_append, run, List.append_nil]

theorem mem_log_append {as : List CacheAction} {e : CacheEvent} (h : e ∈ log as)
    (bs : List CacheAction) : e ∈ log (as ++ bs) := by
  simp only [log, run_append]
  exact List.mem_append_left _ h

/-- What is recorded is recorded at some moment. -/
theorem mem_log_split {as bs : List CacheAction} {e : CacheEvent} (h : e ∈ log (as ++ bs)) :
    e ∈ log as ∨ ∃ cs b ds, bs = cs ++ b :: ds ∧ e ∈ ((after (as ++ cs)).step b).2 := by
  induction bs using List.reverseRecOn with
  | nil =>
    rw [List.append_nil] at h
    exact .inl h
  | append_singleton bs b ih =>
    rw [← List.append_assoc, log_concat] at h
    rcases List.mem_append.1 h with h | h
    · rcases ih h with hold | ⟨cs, a, ds, rfl, hnew⟩
      · exact .inl hold
      · exact .inr ⟨cs, a, ds ++ [b], by simp, hnew⟩
    · exact .inr ⟨bs, b, [], rfl, h⟩

theorem called_append (as bs : List CacheAction) : called (as ++ bs) = called as ++ called bs :=
  List.filterMap_append

theorem wellFormed_after (as : List CacheAction) : (after as).WellFormed := by
  induction as using List.reverseRecOn with
  | nil => exact WellFormed.empty
  | append_singleton as a ih =>
    rw [after_concat]
    exact ih.step a

theorem transition_after (as : List CacheAction) (a : CacheAction) :
    Transition (after as) a (after (as ++ [a])) ((after as).step a).2 := by
  rw [after_concat]
  exact (wellFormed_after as).step_transition a

theorem recorded_after (as : List CacheAction) : Recorded (after as) (log as) := by
  induction as using List.reverseRecOn with
  | nil => exact Recorded.empty
  | append_singleton as a ih =>
    rw [log_concat]
    exact ih.transition (wellFormed_after as) (transition_after as a)

theorem grows_append (as bs : List CacheAction) : Grows (after as) (after (as ++ bs)) := by
  induction bs using List.reverseRecOn with
  | nil =>
    rw [List.append_nil]
    exact Grows.refl _
  | append_singleton bs b ih =>
    rw [← List.append_assoc]
    exact ih.trans (transition_after (as ++ bs) b).grows

/-! ## Calls -/

/-- The cells that the calls were given were made for the tables they are for. -/
theorem calls_map_table (as : List CacheAction) :
    (after as).calls.map (fun i => (after as).cells[i]?.map SchemaCell.table)
      = (called as).map some := by
  induction as using List.reverseRecOn with
  | nil => rfl
  | append_singleton as a ih =>
    have ht := transition_after as a
    have hold : (after as).calls.map (fun i => (after (as ++ [a])).cells[i]?.map SchemaCell.table)
        = (called as).map some := by
      rw [← ih]
      exact List.map_congr_left fun i hi =>
        ht.grows.table ((wellFormed_after as).call_lt i hi)
    rw [called_append]
    by_cases ha : ∃ t, a = .call t
    · obtain ⟨t, rfl⟩ := ha
      obtain ⟨i, k₁, he, hg, -, -, hcalls⟩ := ht.of_call
      obtain ⟨y, hy⟩ := (wellFormed_after as).enter_cell he
      obtain ⟨y', hy', -⟩ := hg.cell i t y hy
      rw [hcalls, List.map_append, List.map_append, hold]
      simp [hy', called, CacheAction.called?]
    · rw [ht.calls_eq fun t hat => ha ⟨t, hat⟩, hold]
      cases a with
      | call t => exact absurd ⟨t, rfl⟩ ha
      | settle | drop | cached | invalidate | size => simp [called, CacheAction.called?]

theorem length_called (as : List CacheAction) : (called as).length = (after as).calls.length := by
  have := congrArg List.length (calls_map_table as)
  simpa using this.symm

theorem called_iff {as : List CacheAction} {c : Nat} {t : TableId} :
    (called as)[c]? = some t
      ↔ ∃ i y, (after as).calls[c]? = some i ∧ (after as).cells[i]? = some ⟨t, y⟩ := by
  have := congrArg (·[c]?) (calls_map_table as)
  simp only [List.getElem?_map] at this
  constructor
  · intro hc
    rw [hc] at this
    obtain ⟨i, hi, htable⟩ := Option.map_eq_some_iff.1 this
    obtain ⟨⟨u, y⟩, hy, rfl⟩ := Option.map_eq_some_iff.1 htable
    exact ⟨i, y, hi, hy⟩
  · rintro ⟨i, y, hi, hy⟩
    rw [hi] at this
    simp only [Option.map_some, hy] at this
    obtain ⟨u, hu, htable⟩ := Option.map_eq_some_iff.1 this.symm
    rw [hu, ← Option.some.inj htable]

/-! ## Calls that are not over -/

section Open

variable {as : List CacheAction} {c i : Nat}

/-- A call that waits for a query resolves at its cell. -/
theorem cell_of_resolving {q : Nat} {t : TableId} (h : Resolving as q c t)
    (hc : (after as).calls[c]? = some i) :
    ∃ w, (after as).cells[i]? = some ⟨t, .resolving c q w⟩ := by
  have hr := recorded_after as
  obtain ⟨hq, j, z, hj, hz⟩ := hr.asked_query q c t h.1
  rw [hc] at hj
  cases hj
  obtain ⟨u, y, hy, hcy⟩ := hr.open_caller c i hc h.2
  obtain ⟨rfl, rfl⟩ := table_unique hz hy
  cases z with
  | resolving d p w =>
    obtain ⟨hp, -, -, hw⟩ := (wellFormed_after as).fits _ _ _ hy
    -- Those in line have asked nothing.
    have hcd : c = d := by
      rcases List.mem_cons.1 hcy with hcd | hcw
      · exact hcd
      · exact absurd (List.mem_of_getElem? hq) (hw c hcw)
    subst hcd
    have hpq : p = q := (wellFormed_after as).query_unique hp hq
    subst hpq
    exact ⟨w, hy⟩
  | idle | filled => simp [CellContent.callers] at hcy

theorem cell_of_in_flight {q : Nat} {t : TableId} (h : Resolving as q c t) :
    ∃ (i : Nat) (w : List Nat), (after as).calls[c]? = some i
      ∧ (after as).cells[i]? = some ⟨t, .resolving c q w⟩ := by
  obtain ⟨-, i, -, hc, -⟩ := (recorded_after as).asked_query _ _ _ h.1
  obtain ⟨w, hi⟩ := cell_of_resolving h hc
  exact ⟨i, w, hc, hi⟩

theorem resolving_of_cell {q : Nat} {t : TableId} {w : List Nat}
    (h : (after as).cells[i]? = some ⟨t, .resolving c q w⟩) : Resolving as q c t := by
  have hr := recorded_after as
  obtain ⟨hq, -, hcalls, -⟩ := (wellFormed_after as).fits _ _ _ h
  obtain ⟨u, hu⟩ := hr.query_asked q c hq
  obtain ⟨-, j, z, hj, hz⟩ := hr.asked_query q c u hu
  rw [hcalls c List.mem_cons_self] at hj
  cases hj
  rw [(table_unique h hz).1]
  exact ⟨hu, hr.caller_open _ _ _ h c List.mem_cons_self⟩

/-- A call that has asked nothing and is not over is in line at its cell. -/
theorem cell_of_waiting (h : Waiting as c) (hc : (after as).calls[c]? = some i) :
    ∃ t d q w, (after as).cells[i]? = some ⟨t, .resolving d q w⟩ ∧ c ∈ w := by
  have hr := recorded_after as
  obtain ⟨t, y, hy, hcy⟩ := hr.open_caller c i hc h.2.2
  cases y with
  | resolving d q w =>
    rcases List.mem_cons.1 hcy with rfl | hcw
    · exact absurd (resolving_of_cell hy).1 (h.2.1 q t)
    · exact ⟨t, d, q, w, hy, hcw⟩
  | idle | filled => simp [CellContent.callers] at hcy

end Open

/-- A call that was answered with a schema has it in the cell of its table. -/
theorem filled_of_answered {as : List CacheAction} {c i : Nat} {s : SharedSchema} {t : TableId}
    {y : CellContent} (h : .answered c (.ok s) ∈ log as) (hc : (after as).calls[c]? = some i)
    (hi : (after as).cells[i]? = some ⟨t, y⟩) : (after as).cells[i]? = some ⟨t, .filled s⟩ := by
  obtain ⟨j, u, hj, hs⟩ := (recorded_after as).ok_cell c s h
  rw [hc] at hj
  cases hj
  rwa [(table_unique hi hs).1]

/-! ## Cells that come and go -/

/-- After the history `bs`, the action `a` makes the cell `i` for the table `t`. -/
structure Makes (bs : List CacheAction) (a : CacheAction) (t : TableId) (i : Nat) : Prop where
  call : a = .call t
  free : (after bs).entries.lookup t = none
  next : (after bs).cells.length = i
  mem : (t, i) ∈ (after (bs ++ [a])).entries

/-- After the history `bs`, the action `a` takes the cell `i` from the table `t`: it invalidates
the table, or it gives an error to the call that resolves at the cell. -/
structure Takes (bs : List CacheAction) (a : CacheAction) (t : TableId) (i : Nat) : Prop where
  mem : (t, i) ∈ (after bs).entries
  not_mem : (t, i) ∉ (after (bs ++ [a])).entries
  cause : a = .invalidate t ∨ ∃ q e c w err, a = .settle q e
    ∧ (after bs).cells[i]? = some ⟨t, .resolving c q w⟩
    ∧ .answered c (.error err) ∈ ((after bs).step a).2

/-- The table got the cell `i` and lost it, and then got the cell `j`. -/
def TakenBetween (as : List CacheAction) (t : TableId) (i j : Nat) : Prop :=
  ∃ bs cs a ds es, as = bs ++ .call t :: cs ++ a :: ds ++ .call t :: es
    ∧ Makes bs (.call t) t i ∧ Takes (bs ++ .call t :: cs) a t i
    ∧ Makes (bs ++ .call t :: cs ++ a :: ds) (.call t) t j

/-- The error for which a cell was taken is on record, with a call at the cell. -/
theorem Takes.recorded {bs : List CacheAction} {a : CacheAction} {t : TableId} {i : Nat}
    (h : Takes bs a t i) (ds : List CacheAction) :
    a = .invalidate t ∨ ∃ c err, .answered c (.error err) ∈ log (bs ++ a :: ds)
      ∧ (after (bs ++ a :: ds)).calls[c]? = some i := by
  rcases h.cause with ha | ⟨q, e, c, w, err, -, hi, herr⟩
  · exact .inl ha
  · have hlog : .answered c (.error err) ∈ log (bs ++ [a]) := by
      rw [log_concat]
      exact List.mem_append_right _ herr
    have hcall := ((wellFormed_after bs).fits _ _ _ hi).call_of_mem List.mem_cons_self
    refine .inr ⟨c, err, ?_, (grows_append bs (a :: ds)).call hcall⟩
    rw [List.append_cons]
    exact mem_log_append hlog ds

section Cells

variable {as : List CacheAction} {t : TableId} {i : Nat} {y : CellContent}

theorem made (h : (after as).cells[i]? = some ⟨t, y⟩) :
    ∃ bs ds, as = bs ++ .call t :: ds ∧ Makes bs (.call t) t i := by
  induction as using List.reverseRecOn generalizing y with
  | nil => simp [after, run, empty] at h
  | append_singleton as a ih =>
    have ht := transition_after as a
    rcases Nat.lt_or_ge i (after as).cells.length with hlt | hle
    · obtain ⟨u, x, hx⟩ := cell_of_lt hlt
      have hut : u = t := ht.grows.table_eq hx h
      subst hut
      obtain ⟨bs, ds, rfl, hmakes⟩ := ih hx
      exact ⟨bs, ds ++ [a], by simp, hmakes⟩
    · obtain ⟨hi, rfl, hfree, hmem⟩ := ht.new_cell h hle
      exact ⟨as, [], rfl, rfl, hfree, hi.symm, hmem⟩

/-- A cell that its table has no longer was taken from it. -/
theorem mem_entries_or_taken (h : (after as).cells[i]? = some ⟨t, y⟩) :
    (t, i) ∈ (after as).entries ∨ ∃ bs a ds, as = bs ++ a :: ds ∧ Takes bs a t i := by
  induction as using List.reverseRecOn generalizing y with
  | nil => simp [after, run, empty] at h
  | append_singleton as a ih =>
    have ht := transition_after as a
    rcases Nat.lt_or_ge i (after as).cells.length with hlt | hle
    · obtain ⟨u, x, hx⟩ := cell_of_lt hlt
      have hut : u = t := ht.grows.table_eq hx h
      subst hut
      rcases ih hx with hmem | ⟨bs, b, ds, rfl, htakes⟩
      · by_cases hmem' : (u, i) ∈ (after (as ++ [a])).entries
        · exact .inl hmem'
        · exact .inr ⟨as, a, [], rfl, hmem, hmem', ht.taken (wellFormed_after as) hmem hmem'⟩
      · exact .inr ⟨bs, b, ds ++ [a], by simp, htakes⟩
    · exact .inl (ht.new_cell h hle).2.2.2

/-- A cell that holds a schema holds it from before, or was given it by a query. -/
theorem filled_before_or_by {s : SharedSchema} {bs : List CacheAction}
    (h : (after (as ++ bs)).cells[i]? = some ⟨t, .filled s⟩) :
    (after as).cells[i]? = some ⟨t, .filled s⟩ ∨ ∃ cs e ds c w,
      bs = cs ++ .settle s.query e :: ds ∧ e.schema t = .ok s.schema
      ∧ (after (as ++ cs)).cells[i]? = some ⟨t, .resolving c s.query w⟩ := by
  induction bs using List.reverseRecOn with
  | nil =>
    rw [List.append_nil] at h
    exact .inl h
  | append_singleton bs b ih =>
    rw [← List.append_assoc] at h
    rcases (transition_after (as ++ bs) b).filled_cell h with h | ⟨e, c, w, rfl, he, hi, -⟩
    · rcases ih h with hold | ⟨cs, e, ds, c, w, rfl, he, hi⟩
      · exact .inl hold
      · exact .inr ⟨cs, e, ds ++ [b], c, w, by simp, he, hi⟩
    · exact .inr ⟨bs, e, [], c, w, rfl, he, hi⟩

/-- Of two cells of one table the first was taken before the second was made. -/
theorem taken_between {j : Nat} {z : CellContent} (hi : (after as).cells[i]? = some ⟨t, y⟩)
    (hj : (after as).cells[j]? = some ⟨t, z⟩) (hij : i < j) : TakenBetween as t i j := by
  obtain ⟨as, es, rfl, hmakes⟩ := made hj
  -- The first cell was there when the second was made, but the table had it no longer.
  have hlt : i < (after as).cells.length := by
    rw [hmakes.next]
    exact hij
  obtain ⟨u, x, hx⟩ := cell_of_lt hlt
  have hut : u = t := (grows_append as _).table_eq hx hi
  subst hut
  have hnot : (u, i) ∉ (after as).entries :=
    (wellFormed_after as).lookup_none_iff.1 hmakes.free i
  obtain ⟨as, a, ds, rfl, htakes⟩ := (mem_entries_or_taken hx).resolve_left hnot
  obtain ⟨x', hx'⟩ := (wellFormed_after as).entry_cell u i htakes.mem
  obtain ⟨bs, cs, rfl, hfirst⟩ := made hx'
  exact ⟨bs, cs, a, ds, es, rfl, hfirst, htakes, hmakes⟩

end Cells

/-! ## A table for examples -/

def lamps : TableId :=
  ⟨none, none, "lamps"⟩

def lampsReply : Ending :=
  .reply (.rows [[some "lamps", some "CREATE TABLE lamps (watt int)"]])

def lampsSchema : TableSchema :=
  ⟨lamps, [⟨"watt", "INT", true⟩], []⟩

end SchemaCache

end TableCapture
