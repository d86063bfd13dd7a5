import TableCapture.Proofs.Resolution
import TableCapture.Proofs.SchemaCache.Memo

/-!
# Where schemas come from

A schema is only ever computed by a resolution: a call for a table asks a query, and the schema of
this very table is read from the reply. It fills the cell where the call resolves, which is a cell
of the same table. So whatever is handed out for a table, to a call or to somebody who looks at it
or takes it away, was resolved for this table before (`resolved_of_filled`).

The queries are the calls that asked them, in order (`askers_log`), and no call is there twice, so
each call asks at most one query. A query is over when it gives a schema, so no two resolutions
give the same schema (`ResolvedAt.unique`), and its caller gets the schema at once
(`ResolvedAt.handed`). Hence there are as many schemas as there were resolutions (`provenance`).
-/

namespace TableCapture

namespace Ending

variable {e : Ending} {t : TableId} {s : TableSchema} {err : SchemaError}

theorem schema_eq_ok (h : e.schema t = .ok s) : ∃ r, e = .reply r ∧ r.schema t = .ok s := by
  cases e with
  | reply r => exact ⟨r, rfl, h⟩
  | timedOut limit => cases h

theorem error_of_schema (h : e.schema t = .error err) :
    err.table = t ∧ err.statement = t.statement := by
  cases e with
  | reply r => exact Reply.error_of_schema h
  | timedOut limit =>
    cases h
    exact ⟨rfl, rfl⟩

end Ending

theorem CacheEvent.schema?_eq_some {e : CacheEvent} {s : SharedSchema} (h : e.schema? = some s) :
    (∃ c, e = .answered c (.ok s)) ∨ e = .found (some s) := by
  cases e with
  | answered c r =>
    rcases r with err | s'
    · cases h
    · cases h
      exact .inl ⟨c, rfl⟩
  | found r =>
    cases h
    exact .inr rfl
  | asked | dropped | counted => cases h

/-- The call that asks a query. -/
def CacheEvent.asker? : CacheEvent → Option Nat
  | asked _ c _ => some c
  | _ => none

namespace SchemaCache

/-- After the history, the action hands out a schema for a table: to a call for the table, or to
somebody who looks at the table or takes it away. -/
def HandsOut (as : List CacheAction) (a : CacheAction) (t : TableId) (s : SharedSchema) : Prop :=
  (∃ c : Nat, (called (as ++ [a]))[c]? = some t ∧ .answered c (.ok s) ∈ ((after as).step a).2)
    ∨ (a = .cached t ∨ a = .invalidate t) ∧ .found (some s) ∈ ((after as).step a).2

/-- The `n`-th action is the reply to a query that a call for `t` has asked and still waits for,
and the schema is what comes of resolving `t` by the one statement that gets this reply. -/
def ResolvedAt (as : List CacheAction) (n : Nat) (t : TableId) (s : SharedSchema) : Prop :=
  ∃ r c, as[n]? = some (.settle s.query (.reply r)) ∧ Resolving (as.take n) s.query c t
    ∧ (called (as.take n))[c]? = some t
    ∧ (resolveRecorded (fun _ => r) Sql.readChanges t).1 = .ok s.schema
    ∧ (resolveRecorded (fun _ => r) Sql.readChanges t).2.statements
      = ["SHOW CREATE TABLE " ++ t.quoted]

/-- Whether the action ends a query that is waited for, and a schema comes of it. -/
def succeeds (log : List CacheEvent) : CacheAction → Bool
  | .settle q e => log.any fun
    | .asked p c t => decide (p = q ∧ ¬ Ended log c) && (e.schema t).isOk
    | _ => false
  | _ => false

/-- The places of the resolutions that succeed. -/
def successes (as : List CacheAction) : Finset Nat :=
  (Finset.range as.length).filter fun n => as[n]?.any (succeeds (log (as.take n)))

/-- All schemas handed out. -/
def handedOut (as : List CacheAction) : Finset SharedSchema :=
  ((log as).filterMap CacheEvent.schema?).toFinset

/-! ## Queries -/

section Queries

variable {k k' : SchemaCache} {a : CacheAction} {es : List CacheEvent}

theorem askers_passOn (k : SchemaCache) (i : Nat) (t : TableId) (w : List Nat) :
    (k.passOn i t w).1.queries = k.queries ++ (k.passOn i t w).2.filterMap CacheEvent.asker? := by
  cases w with
  | nil => simp [passOn, put]
  | cons c w => simp [passOn, ask, CacheEvent.asker?]

theorem Transition.askers (h : Transition k a k' es) :
    k'.queries = k.queries ++ es.filterMap CacheEvent.asker? := by
  cases h with
  | hit he | joined he => simp [SchemaCache.enroll, put, (enter_calls he).2, CacheEvent.asker?]
  | began he => simp [ask, SchemaCache.enroll, put, (enter_calls he).2, CacheEvent.asker?]
  | @filled q e i t c w schema hi he =>
    have hno : CacheEvent.asker? ∘ (fun x => CacheEvent.answered x (.ok ⟨q, schema⟩))
        = fun _ => none := rfl
    rw [List.filterMap_map, hno, List.filterMap_none, List.append_nil]
    rfl
  | failed => exact askers_passOn _ _ _ _
  | resigned => exact askers_passOn _ _ _ _
  | left | late | absent | seen | invalidated | counted =>
    simp [put, invalidate, CacheEvent.asker?]

/-- Only who looks at a table or takes it away finds something. -/
theorem Transition.found (h : Transition k a k' es) {r : Option SharedSchema}
    (hr : .found r ∈ es) : ∃ t, a = .cached t ∨ a = .invalidate t := by
  cases h with
  | seen t => exact ⟨t, .inl rfl⟩
  | invalidated t => exact ⟨t, .inr rfl⟩
  | @failed q e i t c w => cases w <;> simp [passOn_nil, passOn_cons, ask] at hr
  | @resigned i t c q w => cases w <;> simp [passOn_nil, passOn_cons, ask] at hr
  | hit | began | joined | filled | late | left | absent | counted => simp at hr

/-- The queries are the calls that asked them, in order. -/
theorem askers_log (as : List CacheAction) :
    (log as).filterMap CacheEvent.asker? = (after as).queries := by
  induction as using List.reverseRecOn with
  | nil => rfl
  | append_singleton as a ih =>
    rw [log_concat, List.filterMap_append, ih, (transition_after as a).askers]

/-- A query is asked by one call, for one table. -/
theorem asked_unique {as : List CacheAction} {q c d : Nat} {t u : TableId}
    (h : .asked q c t ∈ log as) (h' : .asked q d u ∈ log as) : c = d ∧ t = u := by
  obtain ⟨hc, i, y, hi, hy⟩ := (recorded_after as).asked_query _ _ _ h
  obtain ⟨hd, j, z, hj, hz⟩ := (recorded_after as).asked_query _ _ _ h'
  rw [hc] at hd
  cases hd
  rw [hi] at hj
  cases hj
  exact ⟨rfl, (table_unique hy hz).1⟩

end Queries

/-! ## Resolutions -/

section Resolutions

variable {as bs : List CacheAction} {a : CacheAction} {i m n : Nat} {t u : TableId}
  {s : SharedSchema}

theorem succeeds_iff : succeeds (log as) a ↔ ∃ q e c t s, a = .settle q e
    ∧ Resolving as q c t ∧ e.schema t = .ok s := by
  constructor
  · intro h
    cases a with
    | settle q e =>
      obtain ⟨x, hx, hok⟩ := List.any_eq_true.1 h
      cases x with
      | asked p c t =>
        rw [Bool.and_eq_true, decide_eq_true_iff] at hok
        obtain ⟨⟨rfl, hopen⟩, hok⟩ := hok
        rcases hs : e.schema t with err | s
        · rw [hs] at hok
          cases hok
        · exact ⟨p, e, c, t, s, rfl, ⟨hx, hopen⟩, hs⟩
      | answered | dropped | found | counted => cases hok
    | call | drop | cached | invalidate | size => cases h
  · rintro ⟨q, e, c, t, s, rfl, ⟨hasked, hopen⟩, hs⟩
    refine List.any_eq_true.2 ⟨_, hasked, ?_⟩
    simp [hopen, hs, Except.isOk, Except.toBool]

theorem resolvedAt_of_schema {ds : List CacheAction} {e : Ending} {c : Nat}
    (h : Resolving bs s.query c t) (he : e.schema t = .ok s.schema) :
    ResolvedAt (bs ++ .settle s.query e :: ds) bs.length t s := by
  obtain ⟨r, rfl, hr⟩ := Ending.schema_eq_ok he
  obtain ⟨j, w, hc, hj⟩ := cell_of_in_flight h
  refine ⟨r, c, by simp, by rwa [List.take_left], ?_, ?_, Reply.statements_eq r _ t⟩
  · rw [List.take_left]
    exact called_iff.2 ⟨j, _, hc, hj⟩
  · rw [← Reply.schema_eq_recorded, hr]

/-- What is in a cell was resolved for the table of the cell. -/
theorem resolved_of_filled (h : (after as).cells[i]? = some ⟨t, .filled s⟩) :
    s.schema.id = t ∧ ∃ n < as.length, ResolvedAt as n t s := by
  have hnew : (after ([] ++ as)).cells[i]? = some ⟨t, .filled s⟩ := h
  rcases filled_before_or_by hnew with hold | ⟨cs, e, ds, c, w, rfl, he, hi⟩
  · cases hold
  · obtain ⟨r, rfl, hr⟩ := Ending.schema_eq_ok he
    exact ⟨Reply.id_of_schema hr, cs.length, by simp,
      resolvedAt_of_schema (resolving_of_cell hi) he⟩

theorem filled_of_handsOut (h : HandsOut as a t s) :
    ∃ i : Nat, (after (as ++ [a])).cells[i]? = some ⟨t, .filled s⟩ := by
  rcases h with ⟨c, hc, hs⟩ | ⟨ha, hs⟩
  · obtain ⟨i, y, hi, hy⟩ := called_iff.1 hc
    have hlog : .answered c (.ok s) ∈ log (as ++ [a]) := by
      rw [log_concat]
      exact List.mem_append_right _ hs
    exact ⟨i, filled_of_answered hlog hi hy⟩
  · have hcached : (after as).cached t = some s := by
      rcases ha with rfl | rfl <;> simpa [step, eq_comm] using hs
    obtain ⟨i, -, hi⟩ := (wellFormed_after as).cached_iff.1 hcached
    exact ⟨i, (grows_append as [a]).filled hi⟩

theorem ResolvedAt.exists_split (h : ResolvedAt as n t s) : ∃ bs r c ds,
    as = bs ++ .settle s.query (.reply r) :: ds ∧ bs.length = n ∧ Resolving bs s.query c t
      ∧ r.schema t = .ok s.schema := by
  obtain ⟨r, c, hn, hres, -, hs, -⟩ := h
  obtain ⟨hlt, hget⟩ := List.getElem?_eq_some_iff.1 hn
  refine ⟨as.take n, r, c, as.drop (n + 1), ?_, by simp [Nat.le_of_lt hlt], hres, ?_⟩
  · rw [← hget, List.cons_getElem_drop_succ, List.take_append_drop]
  · rw [Reply.schema_eq_recorded, hs]

/-- The caller gets the schema at once. -/
theorem ResolvedAt.answered (h : ResolvedAt as n t s) : ∃ bs ds c, as = bs ++ ds
    ∧ bs.length = n + 1 ∧ .asked s.query c t ∈ log bs ∧ .answered c (.ok s) ∈ log bs := by
  obtain ⟨bs, r, c, ds, rfl, rfl, hres, hs⟩ := h.exists_split
  obtain ⟨j, w, -, hj⟩ := cell_of_in_flight hres
  refine ⟨bs ++ [.settle s.query (.reply r)], ds, c, by simp, by simp,
    mem_log_append hres.1 _, ?_⟩
  rw [log_concat, step, (wellFormed_after bs).settle_of_ok (e := .reply r) hj hs]
  exact List.mem_append_right _ List.mem_cons_self

theorem ResolvedAt.handed (h : ResolvedAt as n t s) : s ∈ handedOut as := by
  obtain ⟨bs, ds, c, rfl, -, -, hans⟩ := h.answered
  rw [handedOut, List.mem_toFinset, List.mem_filterMap]
  exact ⟨_, mem_log_append hans ds, rfl⟩

theorem ResolvedAt.schema_unique {s' : SharedSchema} (h : ResolvedAt as n t s)
    (h' : ResolvedAt as n u s') : s = s' := by
  obtain ⟨r, c, hn, hres, -, hs, -⟩ := h
  obtain ⟨r', c', hn', hres', -, hs', -⟩ := h'
  cases s
  cases s'
  rw [hn] at hn'
  cases hn'
  obtain rfl := (asked_unique hres.1 hres'.1).2
  rw [hs] at hs'
  cases hs'
  rfl

/-- A query that has given a schema gives no other, for its call is over. -/
theorem ResolvedAt.not_lt (h : ResolvedAt as n t s) (h' : ResolvedAt as m u s) : ¬ n < m := by
  intro hlt
  obtain ⟨bs, ds, c, rfl, hlen, hasked, hans⟩ := h.answered
  obtain ⟨-, d, -, hres, -⟩ := h'
  rw [List.take_append, List.take_of_length_le (by omega)] at hres
  obtain ⟨rfl, -⟩ := asked_unique (mem_log_append hasked _) hres.1
  exact hres.2 (ended_of_answered (mem_log_append hans _))

theorem ResolvedAt.unique (h : ResolvedAt as n t s) (h' : ResolvedAt as m u s) : n = m :=
  Nat.le_antisymm (Nat.not_lt.1 (h'.not_lt h)) (Nat.not_lt.1 (h.not_lt h'))

theorem mem_successes_iff : n ∈ successes as ↔ ∃ t s, ResolvedAt as n t s := by
  rw [successes, Finset.mem_filter, Finset.mem_range]
  constructor
  · rintro ⟨hlt, h⟩
    rw [List.getElem?_eq_getElem hlt, Option.any_some] at h
    obtain ⟨q, e, c, t, s, ha, hres, he⟩ := succeeds_iff.1 h
    have hsplit : as = as.take n ++ .settle q e :: as.drop (n + 1) := by
      rw [← ha, List.cons_getElem_drop_succ, List.take_append_drop]
    have hr : ResolvedAt (as.take n ++ .settle q e :: as.drop (n + 1)) (as.take n).length t
        ⟨q, s⟩ := resolvedAt_of_schema (s := ⟨q, s⟩) hres he
    rw [← hsplit, List.length_take_of_le (Nat.le_of_lt hlt)] at hr
    exact ⟨t, _, hr⟩
  · rintro ⟨t, s, h⟩
    obtain ⟨bs, r, c, ds, rfl, rfl, hres, hs⟩ := h.exists_split
    refine ⟨by simp, ?_⟩
    rw [List.take_left, List.getElem?_append_right (Nat.le_refl _), Nat.sub_self,
      List.getElem?_cons_zero, Option.any_some]
    exact succeeds_iff.2 ⟨_, _, c, t, _, rfl, hres, hs⟩

theorem ResolvedAt.append (h : ResolvedAt as n t s) (ds : List CacheAction) :
    ResolvedAt (as ++ ds) n t s := by
  obtain ⟨bs, r, c, cs, rfl, rfl, hres, hs⟩ := h.exists_split
  rw [List.append_assoc, List.cons_append]
  exact resolvedAt_of_schema hres hs

/-- The schemas handed out are those that some action hands out for some table. -/
theorem mem_handedOut_iff :
    s ∈ handedOut as ↔ ∃ bs a ds t, as = bs ++ a :: ds ∧ HandsOut bs a t s := by
  rw [handedOut, List.mem_toFinset, List.mem_filterMap]
  constructor
  · rintro ⟨e, he, hs⟩
    have hlog : e ∈ log ([] ++ as) := he
    obtain hold | ⟨bs, a, ds, rfl, hnew⟩ := mem_log_split hlog
    · cases hold
    have ht := transition_after bs a
    rcases CacheEvent.schema?_eq_some hs with ⟨c, rfl⟩ | rfl
    · obtain ⟨i, t, hc, hi⟩ := ht.ok_cell (wellFormed_after bs) hnew
      exact ⟨bs, a, ds, t, rfl, .inl ⟨c, called_iff.2 ⟨i, _, hc, hi⟩, hnew⟩⟩
    · obtain ⟨t, ha⟩ := ht.found hnew
      exact ⟨bs, a, ds, t, rfl, .inr ⟨ha, hnew⟩⟩
  · rintro ⟨bs, a, ds, t, rfl, h⟩
    have hlog : ∀ e ∈ ((after bs).step a).2, e ∈ log (bs ++ a :: ds) := fun e he => by
      rw [List.append_cons]
      refine mem_log_append ?_ ds
      rw [log_concat]
      exact List.mem_append_right _ he
    rcases h with ⟨c, -, hs⟩ | ⟨-, hs⟩
    · exact ⟨_, hlog _ hs, rfl⟩
    · exact ⟨_, hlog _ hs, rfl⟩

/-- There are as many schemas as there were resolutions. -/
theorem card_handedOut (as : List CacheAction) : (handedOut as).card = (successes as).card := by
  have hof : ∀ n ∈ successes as, ∃ s, ∃ t, ResolvedAt as n t s := fun n hn => by
    obtain ⟨t, s, h⟩ := mem_successes_iff.1 hn
    exact ⟨s, t, h⟩
  choose f hf using hof
  refine (Finset.card_bij f (fun n hn => ?_) (fun m hm n hn heq => ?_) fun s hs => ?_).symm
  · obtain ⟨t, h⟩ := hf n hn
    exact h.handed
  · obtain ⟨t, h⟩ := hf m hm
    obtain ⟨u, h'⟩ := hf n hn
    rw [heq] at h
    exact h.unique h'
  · obtain ⟨bs, a, ds, t, rfl, h⟩ := mem_handedOut_iff.1 hs
    obtain ⟨i, hi⟩ := filled_of_handsOut h
    obtain ⟨-, n, -, hn⟩ := resolved_of_filled hi
    have hn' := hn.append ds
    rw [List.append_assoc, List.singleton_append] at hn'
    have hmem := mem_successes_iff.2 ⟨t, s, hn'⟩
    obtain ⟨u, h'⟩ := hf n hmem
    exact ⟨n, hmem, h'.schema_unique hn'⟩

end Resolutions

/-! ## Errors -/

theorem Transition.error_origin {k k' : SchemaCache} {a : CacheAction} {es : List CacheEvent}
    (h : Transition k a k' es) {c : Nat} {err : SchemaError} (hc : .answered c (.error err) ∈ es) :
    ∃ (e : Ending) (t : TableId) (i q : Nat) (w : List Nat), a = .settle q e
      ∧ k.cells[i]? = some ⟨t, .resolving c q w⟩ ∧ e.schema t = .error err := by
  cases h with
  | @failed q e i t d w err' hi he =>
    have hd : c = d ∧ err = err' := by
      cases w <;> simpa [passOn_nil, passOn_cons, ask] using hc
    obtain ⟨rfl, rfl⟩ := hd
    exact ⟨e, t, i, q, w, rfl, hi, he⟩
  | @resigned i t d q w => cases w <;> simp [passOn_nil, passOn_cons, ask] at hc
  | hit | began | joined | filled | late | left | absent | seen | invalidated | counted =>
    simp at hc

/-- An error names the table that the call is for, and its statement. -/
theorem error_of_answered {as : List CacheAction} {c : Nat} {t : TableId} {err : SchemaError}
    (hc : (called as)[c]? = some t) (herr : .answered c (.error err) ∈ log as) :
    err.table = t ∧ err.statement = t.statement := by
  have hlog : .answered c (.error err) ∈ log ([] ++ as) := herr
  obtain hold | ⟨bs, a, ds, rfl, hnew⟩ := mem_log_split hlog
  · cases hold
  obtain ⟨e, u, i, q, w, -, hi, he⟩ := (transition_after bs a).error_origin hnew
  have hcall := ((wellFormed_after bs).fits _ _ _ hi).call_of_mem List.mem_cons_self
  obtain ⟨j, y, hj, hy⟩ := called_iff.1 hc
  have hg := grows_append bs (a :: ds)
  rw [hg.call hcall] at hj
  cases hj
  rw [← hg.table_eq hi hy]
  exact Ending.error_of_schema he

/-- What is handed out in a history, and where it comes from. -/
structure Provenance (as : List CacheAction) : Prop where
  /-- A schema handed out for a table is one of this table, and was resolved for it. -/
  schema : ∀ bs a ds t s, as = bs ++ a :: ds → HandsOut bs a t s →
    s.schema.id = t ∧ ∃ n ≤ bs.length, ResolvedAt as n t s
  /-- An error names the table that the call is for, and its statement. -/
  error : ∀ c t err, (called as)[c]? = some t → .answered c (.error err) ∈ log as →
    err.table = t ∧ err.statement = "SHOW CREATE TABLE " ++ t.quoted
  /-- A call asks at most one query. -/
  asks : ∀ c, ((log as).filterMap CacheEvent.asker?).count c ≤ 1
  /-- Each resolution that succeeds gives one new schema, and there are no others. -/
  counts : (handedOut as).card = (successes as).card

/-- Every schema and every error belongs to the table that was asked for. -/
theorem provenance (as : List CacheAction) : Provenance as where
  schema bs a ds t s has h := by
    obtain ⟨i, hi⟩ := filled_of_handsOut h
    obtain ⟨hid, n, hlt, hn⟩ := resolved_of_filled hi
    rw [List.length_append, List.length_singleton] at hlt
    have hn' := hn.append ds
    rw [List.append_assoc, List.singleton_append, ← has] at hn'
    exact ⟨hid, n, Nat.le_of_lt_succ hlt, hn'⟩
  error c t err := error_of_answered
  asks c := by
    rw [askers_log]
    exact List.nodup_iff_count_le_one.1 (wellFormed_after as).queries_nodup c
  counts := card_handedOut as

/-- A call that times out, two that share a schema, and one after the schema was taken away. -/
def lampsShared : List CacheAction :=
  [.call lamps, .settle 0 (.timedOut (.ofSeconds 1 0)), .call lamps, .call lamps,
    .settle 1 lampsReply, .invalidate lamps, .call lamps, .settle 2 lampsReply]

theorem provenance_lamps :
    HandsOut (lampsShared.take 5) (.invalidate lamps) lamps ⟨1, lampsSchema⟩
      ∧ (∃ n ≤ 5, ResolvedAt lampsShared n lamps ⟨1, lampsSchema⟩)
      ∧ .answered 0 (.error ⟨lamps, lamps.statement, .timedOut (.ofSeconds 1 0)⟩) ∈ log lampsShared
      ∧ (handedOut lampsShared).card = 2 := by
  have h := provenance lampsShared
  have hout : HandsOut (lampsShared.take 5) (.invalidate lamps) lamps ⟨1, lampsSchema⟩ :=
    .inr ⟨.inr rfl, by decide +kernel⟩
  refine ⟨hout, (h.schema _ _ (lampsShared.drop 6) _ _ rfl hout).2, by decide +kernel, ?_⟩
  rw [h.counts]
  decide +kernel

end SchemaCache

end TableCapture
