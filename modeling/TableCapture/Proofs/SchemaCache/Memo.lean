import Mathlib.Data.Finmap
import TableCapture.Proofs.SchemaCache.Contents

/-!
# One call at a time

When every call is over before anything else is done, a cache is a table of schemas and no more: a
call is answered from the table, or asks one query and puts the schema that it gives into the
table. `Memo` is this table, with the numbers of the calls and the queries so far, and a cache
does to the letter what the table does (`visits_eq_memo`), whatever cells the calls that were
dropped have left in it. For nobody resolves and nobody waits between two visits (`Quiet`), so the
next call for a table without a schema finds an idle cell or makes one, and asks its query there
(`Quiet.call_asks`).
-/

namespace TableCapture

/-- Something done with a cache that is over before the next thing is done. -/
inductive Visit where
  /-- A call, and how the query ends if the call asks one. -/
  | get (t : TableId) (e : Ending)
  /-- A call that is dropped if it has to wait for a query. -/
  | leave (t : TableId)
  | cached (t : TableId)
  | invalidate (t : TableId)
  | size

/-- The schema that an event hands out. -/
def CacheEvent.schema? : CacheEvent → Option SharedSchema
  | answered _ (.ok s) => some s
  | found s => s
  | _ => none

/-- Does one thing after the other, and tells what came of each. -/
def inTurn {σ α β : Type} (f : σ → α → σ × β) (s : σ) : List α → σ × List β
  | [] => (s, [])
  | a :: as => ((inTurn f (f s a).1 as).1, (f s a).2 :: (inTurn f (f s a).1 as).2)

/-- What a visit comes to. The next query ends, or the next call is dropped, without effect where
the call was answered at once. -/
def Visit.actions (k : SchemaCache) : Visit → List CacheAction
  | get t e => [.call t, .settle k.queries.length e]
  | leave t => [.call t, .drop k.calls.length]
  | cached t => [.cached t]
  | invalidate t => [.invalidate t]
  | size => [.size]

def SchemaCache.visit (k : SchemaCache) (v : Visit) : SchemaCache × List CacheEvent :=
  k.run (v.actions k)

/-- The schemas of tables, and how many calls and queries there were. -/
structure Memo where
  schemas : Finmap fun _ : TableId => SharedSchema
  calls : Nat
  queries : Nat

namespace Memo

def empty : Memo :=
  ⟨∅, 0, 0⟩

/-- A schema is looked up for a call. -/
def hit (m : Memo) (s : SharedSchema) : Memo × List CacheEvent :=
  ({ m with calls := m.calls + 1 }, [.answered m.calls (.ok s)])

/-- A query is asked for a call. Its number is a new one, and so is the schema that comes of it. -/
def miss (m : Memo) : Memo :=
  { m with calls := m.calls + 1, queries := m.queries + 1 }

def visit (m : Memo) : Visit → Memo × List CacheEvent
  | .get t e =>
    match m.schemas.lookup t with
    | some s => m.hit s
    | none =>
      match e.schema t with
      | .ok schema =>
        ({ m.miss with schemas := m.schemas.insert t ⟨m.queries, schema⟩ },
          [.asked m.queries m.calls t, .answered m.calls (.ok ⟨m.queries, schema⟩)])
      | .error err =>
        (m.miss, [.asked m.queries m.calls t, .answered m.calls (.error err)])
  | .leave t =>
    match m.schemas.lookup t with
    | some s => m.hit s
    | none => (m.miss, [.asked m.queries m.calls t, .dropped m.calls])
  | .cached t => (m, [.found (m.schemas.lookup t)])
  | .invalidate t => ({ m with schemas := m.schemas.erase t }, [.found (m.schemas.lookup t)])
  | .size => (m, [.counted m.schemas.keys.card])

/-! ## New schemas -/

/-- The schemas in the table come from queries there were. -/
def Numbered (m : Memo) : Prop :=
  ∀ t s, m.schemas.lookup t = some s → s.query < m.queries

theorem Numbered.insert {m : Memo} (h : m.Numbered) (t : TableId) (schema : TableSchema) :
    Numbered { m.miss with schemas := m.schemas.insert t ⟨m.queries, schema⟩ } := by
  intro u s hs
  by_cases hu : u = t
  · subst hu
    rw [Finmap.lookup_insert] at hs
    cases hs
    exact Nat.lt_succ_self _
  · rw [Finmap.lookup_insert_of_ne _ hu] at hs
    exact Nat.lt_succ_of_lt (h u s hs)

theorem Numbered.erase {m : Memo} (h : m.Numbered) (t : TableId) :
    Numbered { m with schemas := m.schemas.erase t } := by
  intro u s hs
  by_cases hu : u = t
  · subst hu
    simp at hs
  · rw [Finmap.lookup_erase_ne hu] at hs
    exact h u s hs

theorem Numbered.visit {m : Memo} (h : m.Numbered) (v : Visit) :
    (m.visit v).1.Numbered ∧ m.queries ≤ (m.visit v).1.queries
      ∧ ∀ e ∈ (m.visit v).2, ∀ s, e.schema? = some s → s.query < (m.visit v).1.queries := by
  have hmiss : m.miss.Numbered := fun t s hs => Nat.lt_succ_of_lt (h t s hs)
  cases v with
  | get t e =>
    simp only [Memo.visit]
    rcases hs : m.schemas.lookup t with _ | s
    · rcases he : e.schema t with err | schema
      · exact ⟨hmiss, Nat.le_succ _, by simp [CacheEvent.schema?]⟩
      · exact ⟨h.insert t schema, Nat.le_succ _, by simp [CacheEvent.schema?, miss]⟩
    · exact ⟨h, Nat.le_refl _, by simpa [CacheEvent.schema?, hit] using h t s hs⟩
  | leave t =>
    simp only [Memo.visit]
    rcases hs : m.schemas.lookup t with _ | s
    · exact ⟨hmiss, Nat.le_succ _, by simp [CacheEvent.schema?]⟩
    · exact ⟨h, Nat.le_refl _, by simpa [CacheEvent.schema?, hit] using h t s hs⟩
  | cached t => exact ⟨h, Nat.le_refl _, by simpa [Memo.visit, CacheEvent.schema?] using h t⟩
  | invalidate t =>
    exact ⟨h.erase t, Nat.le_refl _, by simpa [Memo.visit, CacheEvent.schema?] using h t⟩
  | size => exact ⟨h, Nat.le_refl _, by simp [Memo.visit, CacheEvent.schema?]⟩

/-- All schemas handed out so far come from queries there were, so the next query gives a new
one. -/
theorem Numbered.visits {m : Memo} (h : m.Numbered) (vs : List Visit) :
    m.queries ≤ (inTurn Memo.visit m vs).1.queries
      ∧ ∀ es ∈ (inTurn Memo.visit m vs).2, ∀ e ∈ es, ∀ s, e.schema? = some s →
        s.query < (inTurn Memo.visit m vs).1.queries := by
  induction vs generalizing m with
  | nil => simp [inTurn]
  | cons v vs ih =>
    obtain ⟨hv, hle, hes⟩ := h.visit v
    obtain ⟨hle', hess⟩ := ih hv
    rw [inTurn]
    refine ⟨Nat.le_trans hle hle', fun es hmem e he s hs => ?_⟩
    rcases List.mem_cons.1 hmem with rfl | hmem
    · exact Nat.lt_of_lt_of_le (hes e he s hs) hle'
    · exact hess es hmem e he s hs

end Memo

namespace SchemaCache

/-- Nobody resolves and nobody waits. -/
def Quiet (k : SchemaCache) : Prop :=
  ∀ (i : Nat) t y, k.cells[i]? = some ⟨t, y⟩ → ∀ c, c ∉ y.callers

/-- At most this call is not over. -/
def Alone (k : SchemaCache) (c : Nat) : Prop :=
  ∀ (i : Nat) t y, k.cells[i]? = some ⟨t, y⟩ → ∀ d ∈ y.callers, d = c

/-! ## Between two visits -/

section Quiet

variable {k : SchemaCache} {a : CacheAction} {t : TableId} {s : SharedSchema} {c q : Nat}

theorem Quiet.alone (h : k.Quiet) (hk : k.WellFormed) (t : TableId) :
    (k.step (.call t)).1.Alone k.calls.length := by
  have ht := hk.step_transition (.call t)
  obtain ⟨i, k₁, -, -, -, -, hcalls⟩ := ht.of_call
  intro j u y hj d hd
  rcases ((ht.callers hk j u y hj d).1 hd).1 with ⟨z, hz, hdz⟩ | ⟨hle, hd⟩
  · exact absurd hdz (h j u z hz d)
  · rw [hcalls] at hd
    exact (eq_of_getElem?_concat hd hle).1

theorem Alone.quiet (h : k.Alone c) (hk : k.WellFormed) (ha : ∀ t, a ≠ .call t)
    (hend : Ended (k.step a).2 c) : (k.step a).1.Quiet := by
  have ht := hk.step_transition a
  intro j u y hj d hd
  obtain ⟨hold, hopen⟩ := (ht.callers hk j u y hj d).1 hd
  rcases hold with ⟨z, hz, hdz⟩ | ⟨hle, hd⟩
  · rw [h j u z hz d hdz] at hopen
    exact hopen hend
  · rw [ht.calls_eq ha] at hd
    exact not_call_length hle hd

theorem Quiet.quiet_call (h : k.Quiet) (hk : k.WellFormed)
    (hend : Ended (k.step (.call t)).2 k.calls.length) : (k.step (.call t)).1.Quiet := by
  intro j u y hj d hd
  have hopen := ((hk.step_transition (.call t)).callers hk j u y hj d).1 hd
  rw [h.alone hk t j u y hj d hd] at hopen
  exact hopen.2 hend

theorem Quiet.settle_eq (h : k.Quiet) (hk : k.WellFormed) (q : Nat) (e : Ending) :
    k.step (.settle q e) = (k, []) := by
  have ht := hk.step_transition (.settle q e)
  rcases hstep : k.step (.settle q e) with ⟨k', es⟩
  rw [hstep] at ht
  cases ht with
  | filled hi he | failed hi he => exact absurd List.mem_cons_self (h _ _ _ hi _)
  | late => rfl

theorem Quiet.drop_eq (h : k.Quiet) (hk : k.WellFormed) (c : Nat) :
    k.step (.drop c) = (k, []) := by
  have ht := hk.step_transition (.drop c)
  rcases hstep : k.step (.drop c) with ⟨k', es⟩
  rw [hstep] at ht
  cases ht with
  | resigned hi => exact absurd List.mem_cons_self (h _ _ _ hi _)
  | left hi hc => exact absurd (List.mem_cons_of_mem _ hc) (h _ _ _ hi _)
  | absent => rfl

/-- A call for a table without a schema asks a query at once, at the cell of the table. -/
theorem Quiet.call_asks (h : k.Quiet) (hk : k.WellFormed) (hnone : k.cached t = none) :
    (k.step (.call t)).2 = [.asked k.queries.length k.calls.length t]
      ∧ ∃ i, (t, i) ∈ (k.step (.call t)).1.entries ∧ (k.step (.call t)).1.cells[i]?
        = some ⟨t, .resolving k.calls.length k.queries.length []⟩ := by
  have ht := hk.step_transition (.call t)
  have hcached : ((k.step (.call t)).1).cached t = none := by
    rw [hk.cached_call, hnone]
  rcases hstep : k.step (.call t) with ⟨k', es⟩
  rw [hstep] at ht hcached
  -- An answer would have come from a schema that the table had.
  have hanswer : ∀ d s, .answered d (.ok s) ∉ es := fun d s hd => by
    rw [ht.cached_of_call hk hd] at hcached
    cases hcached
  cases ht with
  | hit he hi => exact absurd List.mem_cons_self (hanswer _ _)
  | @began _ i k₁ he hi =>
    have hmem : (t, i) ∈ k₁.entries := enter_mem he
    refine ⟨rfl, i, hmem, ?_⟩
    rw [← (enter_calls he).2]
    exact cells_put_self hi
  | joined he hi =>
    obtain ⟨y, hy, hc⟩ := (enter_callers he).1 ⟨_, hi, List.mem_cons_self⟩
    exact absurd hc (h _ _ _ hy _)

end Quiet

/-! ## What a visit does -/

theorem WellFormed.queries_eq {k : SchemaCache} (hk : k.WellFormed) {a : CacheAction}
    (h : ∀ q c t, .asked q c t ∉ (k.step a).2) : (k.step a).1.queries = k.queries := by
  rcases (hk.step_transition a).asks hk with ⟨hq, -⟩ | ⟨c, t, i, w, -, -, -, hiff⟩
  · exact hq
  · exact absurd ((hiff _ _ _).2 ⟨rfl, rfl, rfl⟩) (h _ _ _)

theorem WellFormed.queries_length_of_asked {k : SchemaCache} (hk : k.WellFormed) {a : CacheAction}
    {q c : Nat} {t : TableId} (h : .asked q c t ∈ (k.step a).2) :
    (k.step a).1.queries.length = k.queries.length + 1 := by
  rcases (hk.step_transition a).asks hk with ⟨-, hno⟩ | ⟨c, t, i, w, hq, -⟩
  · exact absurd h (hno _ _ _)
  · rw [hq, List.length_append, List.length_singleton]

theorem WellFormed.calls_length_call {k : SchemaCache} (hk : k.WellFormed) (t : TableId) :
    (k.step (.call t)).1.calls.length = k.calls.length + 1 := by
  obtain ⟨i, k₁, -, -, -, -, hcalls⟩ := (hk.step_transition (.call t)).of_call
  rw [hcalls, List.length_append, List.length_singleton]

/-- The cache shows what the table holds. -/
structure Agrees (k : SchemaCache) (m : Memo) : Prop where
  wellFormed : k.WellFormed
  quiet : k.Quiet
  calls : k.calls.length = m.calls
  queries : k.queries.length = m.queries
  cached : ∀ t, k.cached t = m.schemas.lookup t

namespace Agrees

variable {k : SchemaCache} {m : Memo} {t : TableId} {s : SharedSchema} {a b : CacheAction}

theorem empty : Agrees .empty .empty where
  wellFormed := WellFormed.empty
  quiet i t y hi := by simp [SchemaCache.empty] at hi
  calls := rfl
  queries := rfl
  cached t := rfl

theorem size_eq (h : Agrees k m) : k.size = m.schemas.keys.card := by
  refine h.wellFormed.size_eq_of_mem fun t => ?_
  rw [h.cached, Finmap.mem_keys, Finmap.mem_iff, Option.ne_none_iff_exists']

theorem isEmpty_iff (h : Agrees k m) : k.isEmpty ↔ m.schemas = ∅ := by
  rw [isEmpty, decide_eq_true_iff, h.size_eq, Finset.card_eq_zero]
  constructor
  · intro hkeys
    refine Finmap.ext_lookup fun t => ?_
    rw [Finmap.lookup_empty, Finmap.lookup_eq_none, ← Finmap.mem_keys, hkeys]
    exact Finset.notMem_empty t
  · rintro hm
    rw [hm, Finmap.keys_empty]

theorem hit (h : Agrees k m) (hs : m.schemas.lookup t = some s)
    (ha : ∀ k : SchemaCache, k.WellFormed → k.Quiet → k.step a = (k, [])) :
    Agrees (k.run [.call t, a]).1 (m.hit s).1 ∧ (k.run [.call t, a]).2 = (m.hit s).2 := by
  have hk := h.wellFormed
  have hanswer := (keeps_of_cached hk ((h.cached t).trans hs)).2
  have hquiet : (k.step (.call t)).1.Quiet := by
    refine h.quiet.quiet_call hk ?_
    rw [hanswer]
    exact ended_cons.2 (.inl rfl)
  -- The call is over, so the query or the call that the visit names next is not there.
  have hlast := ha _ (hk.step (.call t)) hquiet
  simp only [run, hlast, hanswer, Memo.hit, List.append_nil, ← h.calls, and_true]
  refine ⟨hk.step (.call t), hquiet, ?_, ?_, fun u => ?_⟩
  · exact hk.calls_length_call t
  · rw [hk.queries_eq (by simp [hanswer]), h.queries]
  · rw [hk.cached_call, h.cached]

/-- A call that asks a query and is over by what comes next counts one call and one query. -/
theorem miss (h : Agrees k m) (hnone : m.schemas.lookup t = none) (ha : ∀ u, a ≠ .call u)
    {x : CacheEvent} (hx : ((k.step (.call t)).1.step a).2 = [x]) (hend : x.ended? = some m.calls)
    {schemas : Finmap fun _ : TableId => SharedSchema}
    (hs : ∀ u, ((k.step (.call t)).1.step a).1.cached u = schemas.lookup u) :
    Agrees (k.run [.call t, a]).1 { m.miss with schemas }
      ∧ (k.run [.call t, a]).2 = [.asked m.queries m.calls t, x] := by
  have hk := h.wellFormed
  have hk' := hk.step (.call t)
  have hasks := (h.quiet.call_asks hk ((h.cached t).trans hnone)).1
  have hno : ∀ q c u, .asked q c u ∉ ((k.step (.call t)).1.step a).2 := by
    intro q c u hmem
    rw [hx, List.mem_singleton] at hmem
    rw [← hmem] at hend
    cases hend
  have hend : Ended ((k.step (.call t)).1.step a).2 k.calls.length := by
    rw [hx, h.calls]
    exact ended_cons.2 (.inl hend)
  refine ⟨⟨hk'.step a, (h.quiet.alone hk t).quiet hk' ha hend, ?_, ?_, hs⟩, ?_⟩
  · show ((k.step (.call t)).1.step a).1.calls.length = m.calls + 1
    rw [(hk'.step_transition a).calls_eq ha, hk.calls_length_call, h.calls]
  · show ((k.step (.call t)).1.step a).1.queries.length = m.queries + 1
    rw [hk'.queries_eq hno, hk.queries_length_of_asked (by rw [hasks]; exact List.mem_cons_self),
      h.queries]
  · simp only [run, hasks, hx, h.calls, h.queries, List.append_nil, List.singleton_append]

theorem exists_asking (h : Agrees k m) (hnone : m.schemas.lookup t = none) :
    ∃ i, (t, i) ∈ (k.step (.call t)).1.entries
      ∧ (k.step (.call t)).1.cells[i]? = some ⟨t, .resolving m.calls m.queries []⟩ := by
  rw [← h.calls, ← h.queries]
  exact (h.quiet.call_asks h.wellFormed ((h.cached t).trans hnone)).2

theorem store (h : Agrees k m) (hnone : m.schemas.lookup t = none) {e : Ending}
    {schema : TableSchema} (he : e.schema t = .ok schema) :
    Agrees (k.run [.call t, .settle m.queries e]).1 (m.visit (.get t e)).1
      ∧ (k.run [.call t, .settle m.queries e]).2 = (m.visit (.get t e)).2 := by
  have hk' := h.wellFormed.step (.call t)
  obtain ⟨i, hmem, hi⟩ := h.exists_asking hnone
  have hstores : Stores (k.step (.call t)).1 (.settle m.queries e) t ⟨m.queries, schema⟩ :=
    ⟨e, i, _, [], rfl, he, hmem, hi⟩
  have hanswer : ((k.step (.call t)).1.step (.settle m.queries e)).2
      = [.answered m.calls (.ok ⟨m.queries, schema⟩)] :=
    congrArg Prod.snd (hk'.settle_of_ok hi he)
  simp only [Memo.visit, hnone, he]
  refine h.miss hnone (by simp) hanswer rfl fun u => ?_
  rw [hstores.cached_step hk', h.wellFormed.cached_call, Function.update_apply]
  split_ifs with hu
  · rw [hu, Finmap.lookup_insert]
  · rw [Finmap.lookup_insert_of_ne _ hu, h.cached]

theorem fail (h : Agrees k m) (hnone : m.schemas.lookup t = none) {e : Ending}
    {err : SchemaError} (he : e.schema t = .error err) :
    Agrees (k.run [.call t, .settle m.queries e]).1 (m.visit (.get t e)).1
      ∧ (k.run [.call t, .settle m.queries e]).2 = (m.visit (.get t e)).2 := by
  have hk' := h.wellFormed.step (.call t)
  obtain ⟨i, -, hi⟩ := h.exists_asking hnone
  have hanswer : ((k.step (.call t)).1.step (.settle m.queries e)).2
      = [.answered m.calls (.error err)] :=
    congrArg Prod.snd (hk'.settle_of_error hi he)
  simp only [Memo.visit, hnone, he]
  refine h.miss hnone (by simp) hanswer rfl fun u => ?_
  rw [hk'.cached_step (fun _ _ => hk'.not_stores_of_error hi he) (by simp),
    h.wellFormed.cached_call, h.cached]

theorem leave (h : Agrees k m) (hnone : m.schemas.lookup t = none) :
    Agrees (k.run [.call t, .drop m.calls]).1 (m.visit (.leave t)).1
      ∧ (k.run [.call t, .drop m.calls]).2 = (m.visit (.leave t)).2 := by
  have hk' := h.wellFormed.step (.call t)
  obtain ⟨i, -, hi⟩ := h.exists_asking hnone
  have hdropped : ((k.step (.call t)).1.step (.drop m.calls)).2 = [.dropped m.calls] :=
    congrArg Prod.snd (hk'.drop_of_resolving hi)
  simp only [Memo.visit, hnone]
  refine h.miss hnone (by simp) hdropped rfl fun u => ?_
  rw [hk'.cached_drop, h.wellFormed.cached_call, h.cached]

theorem invalidate (h : Agrees k m) (t : TableId) :
    Agrees (k.invalidate t) { m with schemas := m.schemas.erase t } := by
  refine ⟨h.wellFormed.step (.invalidate t), h.quiet, h.calls, h.queries, fun u => ?_⟩
  rw [h.wellFormed.cached_invalidate, Function.update_apply]
  split_ifs with hu
  · rw [hu, Finmap.lookup_erase]
  · rw [Finmap.lookup_erase_ne hu, h.cached]

theorem visit (h : Agrees k m) (v : Visit) :
    Agrees (k.visit v).1 (m.visit v).1 ∧ (k.visit v).2 = (m.visit v).2 := by
  unfold SchemaCache.visit
  cases v with
  | get t e =>
    rw [Visit.actions, h.queries]
    rcases hs : m.schemas.lookup t with _ | s
    · rcases he : e.schema t with err | schema
      · exact h.fail hs he
      · exact h.store hs he
    · simp only [Memo.visit, hs]
      exact h.hit hs fun k hk hq => hq.settle_eq hk _ e
  | leave t =>
    rw [Visit.actions, h.calls]
    rcases hs : m.schemas.lookup t with _ | s
    · exact h.leave hs
    · simp only [Memo.visit, hs]
      exact h.hit hs fun k hk hq => hq.drop_eq hk _
  | cached t =>
    refine ⟨h, ?_⟩
    rw [Memo.visit, ← h.cached]
    rfl
  | invalidate t =>
    refine ⟨h.invalidate t, ?_⟩
    rw [Memo.visit, ← h.cached]
    rfl
  | size =>
    refine ⟨h, ?_⟩
    rw [Memo.visit, ← h.size_eq]
    rfl

theorem visits (h : Agrees k m) (vs : List Visit) :
    Agrees (inTurn SchemaCache.visit k vs).1 (inTurn Memo.visit m vs).1
      ∧ (inTurn SchemaCache.visit k vs).2 = (inTurn Memo.visit m vs).2 := by
  induction vs generalizing k m with
  | nil => exact ⟨h, rfl⟩
  | cons v vs ih =>
    obtain ⟨hv, hes⟩ := h.visit v
    obtain ⟨hvs, hess⟩ := ih hv
    exact ⟨hvs, by rw [inTurn, inTurn, hes, hess]⟩

end Agrees

/-- Where each call is over before anything else is done, everything that comes of a cache, the
queries that are asked included, comes of a table of schemas: the cache is empty when the table is,
and what the next query gives has not been handed out before. -/
theorem visits_eq_memo (vs : List Visit) :
    (inTurn visit empty vs).2 = (inTurn Memo.visit .empty vs).2
      ∧ ((inTurn visit empty vs).1.isEmpty ↔ (inTurn Memo.visit .empty vs).1.schemas = ∅)
      ∧ ∀ es ∈ (inTurn Memo.visit .empty vs).2, ∀ e ∈ es, ∀ s, e.schema? = some s →
        s.query < (inTurn Memo.visit .empty vs).1.queries := by
  obtain ⟨h, hes⟩ := Agrees.empty.visits vs
  have hn : Memo.empty.Numbered := fun t s hs => by simp [Memo.empty] at hs
  exact ⟨hes, h.isEmpty_iff, (hn.visits vs).2⟩

/-- A call that is dropped leaves an idle cell, where the next call fails; two calls share a schema
that is then taken away. -/
def lampsVisits : List Visit :=
  [.leave lamps, .size, .get lamps (.reply (.rows [])), .get lamps lampsReply, .leave lamps, .size,
    .invalidate lamps, .cached lamps, .get lamps lampsReply]

theorem visits_lamps : (inTurn Memo.visit .empty lampsVisits).2
    = [[.asked 0 0 lamps, .dropped 0], [.counted 0],
      [.asked 1 1 lamps, .answered 1 (.error ⟨lamps, lamps.statement, .notFound⟩)],
      [.asked 2 2 lamps, .answered 2 (.ok ⟨2, lampsSchema⟩)], [.answered 3 (.ok ⟨2, lampsSchema⟩)],
      [.counted 1], [.found (some ⟨2, lampsSchema⟩)], [.found none],
      [.asked 3 4 lamps, .answered 4 (.ok ⟨3, lampsSchema⟩)]] :=
  (visits_eq_memo lampsVisits).1.symm.trans (by decide +kernel)

end SchemaCache

end TableCapture
