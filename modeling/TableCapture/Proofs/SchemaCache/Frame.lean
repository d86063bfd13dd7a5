import TableCapture.Proofs.SchemaCache.Growth
import TableCapture.Proofs.SchemaCache.Naming

/-!
# What an action leaves alone

An action is about one table at most: the one it names, or the one that the call or the query is
for which it names. Nothing that a cache holds of other tables is changed by it, and nothing is
added (`WellFormed.leaves_step`), for an action changes one cell, which was made for its table, and
adds calls, queries and entries of this table only. What comes of it is about this table as well
(`Transition.named`).
-/

namespace TableCapture

/-- All names in an event are those of a table and of calls and queries for it. -/
def CacheEvent.Named (k : SchemaCache) (t : TableId) : CacheEvent → Prop
  | asked q c u => u = t ∧ k.queryTable? q = some t ∧ k.callTable? c = some t
  | answered c r => k.callTable? c = some t ∧ ∀ s, r = .ok s → k.queryTable? s.query = some t
  | dropped c => k.callTable? c = some t
  | found s => ∀ r, s = some r → k.queryTable? r.query = some t
  | counted _ => True

namespace SchemaCache

/-- The table gets the next cell. -/
def make (k : SchemaCache) (t : TableId) : SchemaCache :=
  { k with cells := k.cells ++ [⟨t, .idle⟩], entries := (t, k.cells.length) :: k.entries }

/-- A query of the call is noted down. -/
def note (k : SchemaCache) (c : Nat) : SchemaCache :=
  { k with queries := k.queries ++ [c] }

/-! ## Tables after small changes -/

section Tables

variable {k : SchemaCache} {i j c q : Nat} {t : TableId} {y : CellContent}

theorem cellTable?_put : (k.put i y).cellTable? = k.cellTable? := by
  funext j
  refine Option.ext fun t => ?_
  rw [cellTable?_eq_some, cellTable?_eq_some]
  constructor
  · rintro ⟨x, hx⟩
    rcases cells_put.1 hx with ⟨-, -, z, hz⟩ | ⟨-, hx⟩
    · exact ⟨z, hz⟩
    · exact ⟨x, hx⟩
  · rintro ⟨x, hx⟩
    by_cases hij : i = j
    · exact ⟨y, cells_put.2 (.inl ⟨hij, rfl, x, hx⟩)⟩
    · exact ⟨x, cells_put.2 (.inr ⟨hij, hx⟩)⟩

theorem callTable?_put : (k.put i y).callTable? = k.callTable? := by
  funext c
  unfold callTable?
  rw [cellTable?_put]
  rfl

theorem queryTable?_put : (k.put i y).queryTable? = k.queryTable? := by
  funext q
  unfold queryTable?
  rw [callTable?_put]
  rfl

theorem cellTable?_make (h : i < k.cells.length) : (k.make t).cellTable? i = k.cellTable? i := by
  unfold cellTable? make
  rw [List.getElem?_append_left h]

theorem callTable?_make (hk : k.WellFormed) : (k.make t).callTable? = k.callTable? := by
  funext c
  unfold callTable?
  exact Option.bind_congr fun i hi => cellTable?_make (hk.call_lt i (List.mem_of_getElem? hi))

theorem queryTable?_make (hk : k.WellFormed) : (k.make t).queryTable? = k.queryTable? := by
  funext q
  unfold queryTable?
  rw [callTable?_make hk]
  rfl

theorem callTable?_enroll_of_lt (h : c < k.calls.length) :
    (k.enroll i).callTable? c = k.callTable? c := by
  unfold callTable? SchemaCache.enroll
  rw [List.getElem?_append_left h]
  rfl

theorem queryTable?_enroll (hk : k.WellFormed) : (k.enroll i).queryTable? = k.queryTable? := by
  funext q
  unfold queryTable?
  exact Option.bind_congr fun c hc =>
    callTable?_enroll_of_lt (hk.query_lt c (List.mem_of_getElem? hc))

theorem queryTable?_note_of_lt (h : q < k.queries.length) :
    (k.note c).queryTable? q = k.queryTable? q := by
  unfold queryTable? note
  rw [List.getElem?_append_left h]
  rfl

theorem eq_length_of_callTable? (h : (k.enroll i).callTable? c = some t)
    (hc : k.calls.length ≤ c) : c = k.calls.length := by
  have := callTable?_lt h
  simp only [SchemaCache.enroll, List.length_append, List.length_singleton] at this
  omega

theorem eq_length_of_queryTable? (h : (k.note c).queryTable? q = some t)
    (hq : k.queries.length ≤ q) : q = k.queries.length := by
  have := queryTable?_lt h
  simp only [note, List.length_append, List.length_singleton] at this
  omega

end Tables

/-- The table that an action is about. -/
def about (k : SchemaCache) : CacheAction → Option TableId
  | .call t | .cached t | .invalidate t => some t
  | .settle q _ => k.queryTable? q
  | .drop c => k.callTable? c
  | .size => none

/-- The second cache holds of some tables what the first one does, and no more. -/
structure Leaves (p : TableId → Prop) (k k' : SchemaCache) : Prop where
  cell : ∀ (i : Nat) t y, p t → (k'.cells[i]? = some ⟨t, y⟩ ↔ k.cells[i]? = some ⟨t, y⟩)
  entry : ∀ t i, p t → ((t, i) ∈ k'.entries ↔ (t, i) ∈ k.entries)
  call : ∀ (c : Nat) t i, p t → k.cellTable? i = some t →
    (k'.calls[c]? = some i ↔ k.calls[c]? = some i)
  query : ∀ (q : Nat) t c, p t → k.callTable? c = some t →
    (k'.queries[q]? = some c ↔ k.queries[q]? = some c)

namespace Leaves

variable {p : TableId → Prop} {k k' k'' : SchemaCache} {t u : TableId} {i c q : Nat}
  {x y : CellContent}

theorem cellTable (h : Leaves p k k') (ht : p t) :
    k'.cellTable? i = some t ↔ k.cellTable? i = some t := by
  simp only [cellTable?_eq_some, h.cell i t _ ht]

theorem callTable (h : Leaves p k k') (ht : p t) :
    k'.callTable? c = some t ↔ k.callTable? c = some t := by
  simp only [callTable?_eq_some, h.cellTable ht]
  exact exists_congr fun i => and_congr_left fun hi => h.call c t i ht hi

theorem queryTable (h : Leaves p k k') (ht : p t) :
    k'.queryTable? q = some t ↔ k.queryTable? q = some t := by
  simp only [queryTable?_eq_some, h.callTable ht]
  exact exists_congr fun c => and_congr_left fun hc => h.query q t c ht hc

theorem refl (p : TableId → Prop) (k : SchemaCache) : Leaves p k k :=
  ⟨fun _ _ _ _ => Iff.rfl, fun _ _ _ => Iff.rfl, fun _ _ _ _ _ => Iff.rfl,
    fun _ _ _ _ _ => Iff.rfl⟩

theorem trans (h : Leaves p k k') (h' : Leaves p k' k'') : Leaves p k k'' where
  cell i t y ht := (h'.cell i t y ht).trans (h.cell i t y ht)
  entry t i ht := (h'.entry t i ht).trans (h.entry t i ht)
  call c t i ht hi := (h'.call c t i ht ((h.cellTable ht).2 hi)).trans (h.call c t i ht hi)
  query q t c ht hc := (h'.query q t c ht ((h.callTable ht).2 hc)).trans (h.query q t c ht hc)

theorem embeds (h : Leaves p k k') : Embeds .same .same p k k' where
  cell i t y ht hi := by
    rw [CellContent.rename_same]
    exact ⟨(h.cell i t y ht).2 hi, rfl⟩
  entry t i ht hi := (h.entry t i ht).2 hi
  call c t i ht hc hi := by
    obtain ⟨j, hj, htable⟩ := callTable?_eq_some.1 hc
    rw [hi] at hj
    cases hj
    exact ⟨(h.call c t i ht htable).2 hi, rfl⟩
  query q t c ht hq hc := by
    obtain ⟨d, hd, htable⟩ := queryTable?_eq_some.1 hq
    rw [hc] at hd
    cases hd
    exact ⟨(h.query q t c ht htable).2 hc, rfl⟩
  call_lt c d t _ _ _ hlt := hlt
  query_lt q r t u _ _ _ _ _ hlt := hlt

theorem symm (h : Leaves p k k') : Leaves p k' k where
  cell i t y ht := (h.cell i t y ht).symm
  entry t i ht := (h.entry t i ht).symm
  call c t i ht hi := (h.call c t i ht ((h.cellTable ht).1 hi)).symm
  query q t c ht hc := (h.query q t c ht ((h.callTable ht).1 hc)).symm

theorem alike (h : Leaves p k k') : Alike .same .same p k k' :=
  ⟨h.embeds, h.symm.embeds⟩

/-! ## Small changes -/

theorem put (hi : k.cellTable? i = some u) (hu : ¬ p u) : Leaves p k (k.put i x) := by
  obtain ⟨z, hz⟩ := cellTable?_eq_some.1 hi
  refine ⟨fun j t y ht => ?_, fun _ _ _ => Iff.rfl, fun _ _ _ _ _ => Iff.rfl,
    fun _ _ _ _ _ => Iff.rfl⟩
  have hij : ∀ {y}, k.cells[j]? = some ⟨t, y⟩ → i ≠ j := by
    rintro y hy rfl
    obtain rfl := (table_unique hz hy).1
    exact hu ht
  rw [cells_put]
  constructor
  · rintro (⟨rfl, -, y', hy'⟩ | ⟨-, hy⟩)
    · exact absurd rfl (hij hy')
    · exact hy
  · exact fun hy => .inr ⟨hij hy, hy⟩

theorem enroll (hi : k.cellTable? i = some u) (hu : ¬ p u) : Leaves p k (k.enroll i) := by
  refine ⟨fun _ _ _ _ => Iff.rfl, fun _ _ _ => Iff.rfl, fun c t j ht hj => ⟨fun hc => ?_, fun hc =>
    getElem?_append_of_some hc⟩, fun _ _ _ _ _ => Iff.rfl⟩
  rcases Nat.lt_or_ge c k.calls.length with hlt | hle
  · rwa [SchemaCache.enroll, List.getElem?_append_left hlt] at hc
  · obtain ⟨-, rfl⟩ := eq_of_getElem?_concat hc hle
    rw [hi] at hj
    cases hj
    exact absurd ht hu

theorem ask {w : List Nat} (hi : k.cellTable? i = some u) (hc : k.callTable? c = some u)
    (hu : ¬ p u) : Leaves p k (k.ask i t c w).1 := by
  have hput : Leaves p k (k.put i (.resolving c k.queries.length w)) := put hi hu
  refine ⟨hput.cell, hput.entry, hput.call, fun q v d hv hd => ⟨fun hq => ?_, fun hq =>
    getElem?_append_of_some hq⟩⟩
  rcases Nat.lt_or_ge q k.queries.length with hlt | hle
  · rwa [SchemaCache.ask, List.getElem?_append_left hlt] at hq
  · obtain ⟨-, rfl⟩ := eq_of_getElem?_concat hq hle
    rw [hc] at hd
    cases hd
    exact absurd hv hu

theorem passOn {w : List Nat} (hi : k.cellTable? i = some u)
    (hw : ∀ c ∈ w, k.callTable? c = some u) (hu : ¬ p u) : Leaves p k (k.passOn i t w).1 := by
  cases w with
  | nil => exact put hi hu
  | cons c w => exact ask hi (hw c List.mem_cons_self) hu

theorem filter {f : TableId × Nat → Bool} (hf : ∀ e ∈ k.entries, p e.1 → f e = true) :
    Leaves p k { k with entries := k.entries.filter f } :=
  ⟨fun _ _ _ _ => Iff.rfl,
    fun _ _ ht => ⟨List.mem_of_mem_filter, fun h => List.mem_filter.2 ⟨h, hf _ h ht⟩⟩,
    fun _ _ _ _ _ => Iff.rfl, fun _ _ _ _ _ => Iff.rfl⟩

theorem enter (he : k.enter u = (i, k')) (hu : ¬ p u) : Leaves p k k' := by
  rcases enter_cases he with ⟨-, rfl⟩ | ⟨-, -, rfl⟩
  · exact refl _ _
  refine ⟨fun j t y ht => ⟨fun hj => ?_, fun hj => getElem?_append_of_some hj⟩,
    fun t j ht => ⟨fun hj => ?_, fun hj => List.mem_cons_of_mem _ hj⟩, fun _ _ _ _ _ => Iff.rfl,
    fun _ _ _ _ _ => Iff.rfl⟩
  · rcases Nat.lt_or_ge j k.cells.length with hlt | hle
    · rwa [List.getElem?_append_left hlt] at hj
    · cases (eq_of_getElem?_concat hj hle).2
      exact absurd ht hu
  · rcases List.mem_cons.1 hj with hj | hj
    · cases hj
      exact absurd ht hu
    · exact hj

end Leaves

section Step

variable {p : TableId → Prop} {k k' : SchemaCache} {a : CacheAction} {es : List CacheEvent}

theorem callTable?_enroll {i : Nat} {t : TableId} (hi : k.cellTable? i = some t) :
    (k.enroll i).callTable? k.calls.length = some t :=
  callTable?_eq_some.2 ⟨i, List.getElem?_concat_length, hi⟩

theorem Transition.leaves (h : Transition k a k' es) (hk : k.WellFormed)
    (ha : ∀ u, k.about a = some u → ¬ p u) : Leaves p k k' := by
  cases h with
  | hit he hi =>
    have hcell := cellTable?_eq_some.2 ⟨_, hi⟩
    exact (Leaves.enter he (ha _ rfl)).trans (Leaves.enroll hcell (ha _ rfl))
  | @began t i k₁ he hi =>
    have hcell := cellTable?_eq_some.2 ⟨_, hi⟩
    have hcall := callTable?_enroll hcell
    rw [(enter_calls he).1] at hcall
    exact ((Leaves.enter he (ha _ rfl)).trans (Leaves.enroll hcell (ha _ rfl))).trans
      (Leaves.ask hcell hcall (ha _ rfl))
  | joined he hi =>
    have hcell := cellTable?_eq_some.2 ⟨_, hi⟩
    exact ((Leaves.enter he (ha _ rfl)).trans (Leaves.enroll hcell (ha _ rfl))).trans
      (Leaves.put hcell (ha _ rfl))
  | filled hi he =>
    have hu := ha _ ((hk.names hi).2 _ rfl)
    exact Leaves.put (cellTable?_eq_some.2 ⟨_, hi⟩) hu
  | @failed q e i t c w err hi he =>
    have hu := ha _ ((hk.names hi).2 _ rfl)
    have hfilter : Leaves p k (k.detach i) := Leaves.filter fun e he hp => by
      obtain ⟨y, hy⟩ := hk.entry_cell e.1 e.2 he
      refine decide_eq_true fun hei => hu ?_
      rw [hei] at hy
      rwa [(table_unique hi hy).1]
    exact hfilter.trans (Leaves.passOn (cellTable?_eq_some.2 ⟨_, hi⟩)
      (fun d hd => (hk.names hi).1 d (List.mem_cons_of_mem _ hd)) hu)
  | resigned hi =>
    have hu := ha _ ((hk.names hi).1 _ List.mem_cons_self)
    exact Leaves.passOn (cellTable?_eq_some.2 ⟨_, hi⟩)
      (fun d hd => (hk.names hi).1 d (List.mem_cons_of_mem _ hd)) hu
  | left hi hc =>
    have hu := ha _ ((hk.names hi).1 _ (List.mem_cons_of_mem _ hc))
    exact Leaves.put (cellTable?_eq_some.2 ⟨_, hi⟩) hu
  | invalidated u =>
    refine Leaves.filter fun e _ hp => decide_eq_true ?_
    rintro rfl
    exact ha _ rfl hp
  | late | absent | seen | counted => exact Leaves.refl _ _

/-- Nothing changes at the tables that an action is not about. -/
theorem WellFormed.leaves_step (hk : k.WellFormed) (ha : ∀ u, k.about a = some u → ¬ p u) :
    Leaves p k (k.step a).1 :=
  (hk.step_transition a).leaves hk ha

end Step

/-! ## Names of events -/

section Named

variable {k k' : SchemaCache} {a : CacheAction} {es : List CacheEvent} {e : CacheEvent}
  {t : TableId} {i c q : Nat}

theorem Grows.cellTable (h : Grows k k') (hi : k.cellTable? i = some t) :
    k'.cellTable? i = some t := by
  rw [← hi]
  exact h.table (cellTable?_lt hi)

theorem Grows.callTable (h : Grows k k') (hc : k.callTable? c = some t) :
    k'.callTable? c = some t := by
  obtain ⟨i, hi, htable⟩ := callTable?_eq_some.1 hc
  exact callTable?_eq_some.2 ⟨i, h.call hi, h.cellTable htable⟩

theorem Grows.queryTable (h : Grows k k') (hq : k.queryTable? q = some t) :
    k'.queryTable? q = some t := by
  obtain ⟨c, hc, htable⟩ := queryTable?_eq_some.1 hq
  exact queryTable?_eq_some.2 ⟨c, h.query hc, h.callTable htable⟩

theorem Grows.named (h : Grows k k') (he : e.Named k t) : e.Named k' t := by
  cases e with
  | asked q c u => exact ⟨he.1, h.queryTable he.2.1, h.callTable he.2.2⟩
  | answered c r => exact ⟨h.callTable he.1, fun s hs => h.queryTable (he.2 s hs)⟩
  | dropped c => exact h.callTable he
  | found s => exact fun r hr => h.queryTable (he r hr)
  | counted n => trivial

theorem named_passOn {w : List Nat} (hw : ∀ d ∈ w, k.callTable? d = some t) :
    ∀ e ∈ (k.passOn i t w).2, e.Named (k.passOn i t w).1 t := by
  intro e he
  cases w with
  | nil => cases he
  | cons d w =>
    rw [passOn_cons, ask, List.mem_singleton] at he
    subst he
    have hd := hw d List.mem_cons_self
    rw [← callTable?_put (i := i) (y := .resolving d k.queries.length w)] at hd
    exact ⟨rfl, queryTable?_eq_some.2 ⟨d, List.getElem?_concat_length, hd⟩, hd⟩

theorem WellFormed.named_cached (hk : k.WellFormed) :
    (CacheEvent.found (k.cached t)).Named k t := by
  intro s hs
  obtain ⟨i, -, hi⟩ := hk.cached_iff.1 hs
  exact (hk.names hi).2 _ rfl

theorem Transition.named (h : Transition k a k' es) (hk : k.WellFormed) (ha : k.about a = some t) :
    ∀ e ∈ es, e.Named k' t := by
  have hg := h.grows
  intro e he
  cases h with
  | @hit u i k₁ s hen hi =>
    cases ha
    rw [List.mem_singleton] at he
    subst he
    have hc := callTable?_enroll (cellTable?_eq_some.2 ⟨_, hi⟩)
    rw [(enter_calls hen).1] at hc
    refine ⟨hc, fun r hr => ?_⟩
    cases hr
    rw [queryTable?_enroll (hk.of_enter hen)]
    exact ((hk.of_enter hen).names hi).2 _ rfl
  | @began u i k₁ hen hi =>
    cases ha
    rw [List.mem_singleton] at he
    subst he
    have hc := callTable?_enroll (cellTable?_eq_some.2 ⟨_, hi⟩)
    rw [(enter_calls hen).1] at hc
    rw [← (enter_calls hen).2]
    exact named_passOn (w := [k.calls.length]) (by simpa using hc) _ List.mem_cons_self
  | joined => cases he
  | @filled q e' i u c w schema hi hs =>
    obtain ⟨hcallers, hquery⟩ := hk.names hi
    obtain rfl : t = u := Option.some.inj (ha.symm.trans (hquery q rfl))
    obtain ⟨d, hd, rfl⟩ := List.mem_map.1 he
    refine ⟨hg.callTable (hcallers d hd), fun r hr => ?_⟩
    cases hr
    exact hg.queryTable (hquery q rfl)
  | @failed q e' i u c w err hi hs =>
    obtain ⟨hcallers, hquery⟩ := hk.names hi
    obtain rfl : t = u := Option.some.inj (ha.symm.trans (hquery q rfl))
    rcases List.mem_cons.1 he with rfl | he
    · exact ⟨hg.callTable (hcallers c List.mem_cons_self), by simp⟩
    · exact named_passOn (k := k.detach i) (fun d hd => hcallers d (List.mem_cons_of_mem _ hd)) e he
  | @resigned i u c q w hi =>
    obtain ⟨hcallers, hquery⟩ := hk.names hi
    have hc := hcallers c List.mem_cons_self
    obtain rfl : t = u := Option.some.inj (ha.symm.trans hc)
    rcases List.mem_cons.1 he with rfl | he
    · exact hg.callTable hc
    · exact named_passOn (fun d hd => hcallers d (List.mem_cons_of_mem _ hd)) e he
  | left =>
    rw [List.mem_singleton] at he
    subst he
    exact hg.callTable ha
  | late | absent => cases he
  | seen u =>
    cases ha
    rw [List.mem_singleton] at he
    subst he
    exact hk.named_cached
  | invalidated u =>
    cases ha
    rw [List.mem_singleton] at he
    subst he
    exact hg.named hk.named_cached
  | counted => cases ha

end Named

end SchemaCache

end TableCapture
