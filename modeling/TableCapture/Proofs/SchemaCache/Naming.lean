import TableCapture.Proofs.SchemaCache.Transition

/-!
# Caches that are the same but for names

The cells, the calls and the queries of a cache are known by their numbers, which say no more than
in what order they were made. Two caches are alike at some tables (`Alike`) when, by new names for
the cells, the calls and the queries of these tables, what the one holds of these tables is what
the other holds of them: `F` gives the names in the second cache, and `G` takes them back. The
calls for one table keep their order, and so do the queries with one statement, so a name can be
told by its place among these.

Only the names matter that are there (`Alike.congr`). Where a statement belongs to one of two kinds
of tables as a whole, caches that are alike at each kind are alike at all tables (`Alike.glue`).
-/

namespace TableCapture

/-- New names for cells, calls and queries. -/
structure Naming where
  cell : Nat → Nat
  call : Nat → Nat
  query : Nat → Nat

namespace Naming

/-- Everything keeps its name. -/
def same : Naming :=
  ⟨fun n => n, fun n => n, fun n => n⟩

/-- New names for those that another naming gives. -/
def comp (F' F : Naming) : Naming :=
  ⟨fun n => F'.cell (F.cell n), fun n => F'.call (F.call n), fun n => F'.query (F.query n)⟩

end Naming

def SharedSchema.rename (F : Naming) (s : SharedSchema) : SharedSchema :=
  { s with query := F.query s.query }

def CellContent.rename (F : Naming) : CellContent → CellContent
  | idle => idle
  | resolving c q w => resolving (F.call c) (F.query q) (w.map F.call)
  | filled s => filled (s.rename F)

def CacheAction.rename (F : Naming) : CacheAction → CacheAction
  | settle q e => settle (F.query q) e
  | drop c => drop (F.call c)
  | a => a

def CacheEvent.rename (F : Naming) : CacheEvent → CacheEvent
  | asked q c t => asked (F.query q) (F.call c) t
  | answered c r => answered (F.call c) (r.map (SharedSchema.rename F))
  | dropped c => dropped (F.call c)
  | found s => found (s.map (SharedSchema.rename F))
  | counted n => counted n

/-- The query that a cell waits for or was filled by. -/
def CellContent.query? : CellContent → Option Nat
  | idle => none
  | resolving _ q _ => some q
  | filled s => some s.query

section Rename

variable {F F' : Naming} {y : CellContent}

@[simp]
theorem CellContent.rename_same : y.rename .same = y := by
  cases y with
  | resolving c q w => simp [rename, Naming.same]
  | idle | filled => rfl

theorem CellContent.rename_rename : (y.rename F).rename F' = y.rename (F'.comp F) := by
  cases y with
  | resolving c q w => simp [rename, Naming.comp]
  | idle | filled => rfl

theorem CellContent.rename_congr (hc : ∀ c ∈ y.callers, F.call c = F'.call c)
    (hq : ∀ q, y.query? = some q → F.query q = F'.query q) : y.rename F = y.rename F' := by
  cases y with
  | idle => rfl
  | resolving c q w =>
    simp only [rename, hc c List.mem_cons_self, hq q rfl,
      List.map_congr_left fun d hd => hc d (List.mem_cons_of_mem _ hd)]
  | filled s => simp only [rename, SharedSchema.rename, hq s.query rfl]

/-- A naming that takes back the names in a cell takes back the cell. -/
theorem CellContent.rename_back (hc : ∀ c ∈ y.callers, F'.call (F.call c) = c)
    (hq : ∀ q, y.query? = some q → F'.query (F.query q) = q) : (y.rename F).rename F' = y := by
  have hsame : y.rename (F'.comp F) = y.rename .same := rename_congr hc hq
  rw [rename_rename, hsame, rename_same]

theorem CellContent.callers_rename : (y.rename F).callers = y.callers.map F.call := by
  cases y <;> rfl

@[simp]
theorem CacheAction.rename_same {a : CacheAction} : a.rename .same = a := by
  cases a <;> rfl

end Rename

namespace SchemaCache

/-- The table that a cell was made for. -/
def cellTable? (k : SchemaCache) (i : Nat) : Option TableId :=
  k.cells[i]?.map SchemaCell.table

/-- The table that a call is for. -/
def callTable? (k : SchemaCache) (c : Nat) : Option TableId :=
  k.calls[c]?.bind k.cellTable?

/-- The table that a query is for. -/
def queryTable? (k : SchemaCache) (q : Nat) : Option TableId :=
  k.queries[q]?.bind k.callTable?

section Tables

variable {k : SchemaCache} {i c q : Nat} {t : TableId}

theorem cellTable?_eq_some : k.cellTable? i = some t ↔ ∃ y, k.cells[i]? = some ⟨t, y⟩ := by
  unfold cellTable?
  rw [Option.map_eq_some_iff]
  constructor
  · rintro ⟨⟨u, y⟩, hi, rfl⟩
    exact ⟨y, hi⟩
  · rintro ⟨y, hi⟩
    exact ⟨_, hi, rfl⟩

theorem callTable?_eq_some :
    k.callTable? c = some t ↔ ∃ i, k.calls[c]? = some i ∧ k.cellTable? i = some t :=
  Option.bind_eq_some_iff

theorem queryTable?_eq_some :
    k.queryTable? q = some t ↔ ∃ c, k.queries[q]? = some c ∧ k.callTable? c = some t :=
  Option.bind_eq_some_iff

theorem cellTable?_lt (h : k.cellTable? i = some t) : i < k.cells.length := by
  obtain ⟨y, hi⟩ := cellTable?_eq_some.1 h
  exact lt_of_cell hi

theorem callTable?_lt (h : k.callTable? c = some t) : c < k.calls.length := by
  obtain ⟨i, hc, -⟩ := callTable?_eq_some.1 h
  exact (List.getElem?_eq_some_iff.1 hc).1

theorem queryTable?_lt (h : k.queryTable? q = some t) : q < k.queries.length := by
  obtain ⟨c, hq, -⟩ := queryTable?_eq_some.1 h
  exact (List.getElem?_eq_some_iff.1 hq).1

/-- The names in a cell are those of calls and of a query for the table of the cell. -/
theorem WellFormed.names (hk : k.WellFormed) {y : CellContent} (hi : k.cells[i]? = some ⟨t, y⟩) :
    (∀ c ∈ y.callers, k.callTable? c = some t)
      ∧ ∀ q, y.query? = some q → k.queryTable? q = some t := by
  have hfits := hk.fits i t y hi
  have hcall : ∀ c, k.calls[c]? = some i → k.callTable? c = some t := fun c hc =>
    callTable?_eq_some.2 ⟨i, hc, cellTable?_eq_some.2 ⟨y, hi⟩⟩
  refine ⟨fun c hc => hcall c (hfits.call_of_mem hc), fun q hq => queryTable?_eq_some.2 ?_⟩
  cases y with
  | idle => cases hq
  | resolving c p w =>
    cases hq
    exact ⟨c, hfits.1, hcall c (hfits.call_of_mem List.mem_cons_self)⟩
  | filled s =>
    cases hq
    obtain ⟨c, hq, hc⟩ := hfits
    exact ⟨c, hq, hcall c hc⟩

end Tables

/-- What `k` holds of some tables is in `k'` under new names, which `G` takes back. -/
structure Embeds (F G : Naming) (p : TableId → Prop) (k k' : SchemaCache) : Prop where
  cell : ∀ (i : Nat) t y, p t → k.cells[i]? = some ⟨t, y⟩ →
    k'.cells[F.cell i]? = some ⟨t, y.rename F⟩ ∧ G.cell (F.cell i) = i
  entry : ∀ t i, p t → (t, i) ∈ k.entries → (t, F.cell i) ∈ k'.entries
  call : ∀ c t i, p t → k.callTable? c = some t → k.calls[c]? = some i →
    k'.calls[F.call c]? = some (F.cell i) ∧ G.call (F.call c) = c
  query : ∀ q t c, p t → k.queryTable? q = some t → k.queries[q]? = some c →
    k'.queries[F.query q]? = some (F.call c) ∧ G.query (F.query q) = q
  call_lt : ∀ c d t, p t → k.callTable? c = some t → k.callTable? d = some t → c < d →
    F.call c < F.call d
  query_lt : ∀ q r t u, p t → p u → k.queryTable? q = some t → k.queryTable? r = some u →
    t.statement = u.statement → q < r → F.query q < F.query r

/-- The two caches hold the same of some tables but for names. -/
structure Alike (F G : Naming) (p : TableId → Prop) (k k' : SchemaCache) : Prop where
  forth : Embeds F G p k k'
  back : Embeds G F p k' k

/-- Two namings give the same names to what a cache holds of some tables. -/
structure SameNames (F F' : Naming) (p : TableId → Prop) (k : SchemaCache) : Prop where
  cell : ∀ i t, p t → k.cellTable? i = some t → F.cell i = F'.cell i
  call : ∀ c t, p t → k.callTable? c = some t → F.call c = F'.call c
  query : ∀ q t, p t → k.queryTable? q = some t → F.query q = F'.query q

section Embeds

variable {F G F' G' : Naming} {p p' : TableId → Prop} {k k' k'' : SchemaCache} {i c q : Nat}
  {t : TableId}

namespace Embeds

theorem cellTable (h : Embeds F G p k k') (ht : p t) (hi : k.cellTable? i = some t) :
    k'.cellTable? (F.cell i) = some t ∧ G.cell (F.cell i) = i := by
  obtain ⟨y, hy⟩ := cellTable?_eq_some.1 hi
  exact ⟨cellTable?_eq_some.2 ⟨_, (h.cell i t y ht hy).1⟩, (h.cell i t y ht hy).2⟩

theorem callTable (h : Embeds F G p k k') (ht : p t) (hc : k.callTable? c = some t) :
    k'.callTable? (F.call c) = some t ∧ G.call (F.call c) = c := by
  obtain ⟨i, hi, htable⟩ := callTable?_eq_some.1 hc
  obtain ⟨hi', hback⟩ := h.call c t i ht hc hi
  exact ⟨callTable?_eq_some.2 ⟨_, hi', (h.cellTable ht htable).1⟩, hback⟩

theorem queryTable (h : Embeds F G p k k') (ht : p t) (hq : k.queryTable? q = some t) :
    k'.queryTable? (F.query q) = some t ∧ G.query (F.query q) = q := by
  obtain ⟨c, hc, htable⟩ := queryTable?_eq_some.1 hq
  obtain ⟨hc', hback⟩ := h.query q t c ht hq hc
  exact ⟨queryTable?_eq_some.2 ⟨_, hc', (h.callTable ht htable).1⟩, hback⟩

/-- The names in a cell come back. -/
theorem rename_back (h : Embeds F G p k k') (hk : k.WellFormed) (ht : p t) {y : CellContent}
    (hi : k.cells[i]? = some ⟨t, y⟩) : (y.rename F).rename G = y := by
  obtain ⟨hcalls, hquery⟩ := hk.names hi
  exact CellContent.rename_back (fun c hc => (h.callTable ht (hcalls c hc)).2)
    fun q hq => (h.queryTable ht (hquery q hq)).2

theorem same (k : SchemaCache) (p : TableId → Prop) : Embeds .same .same p k k where
  cell i t y _ hi := ⟨by rwa [CellContent.rename_same], rfl⟩
  entry t i _ hi := hi
  call c t i _ _ hc := ⟨hc, rfl⟩
  query q t c _ _ hq := ⟨hq, rfl⟩
  call_lt c d t _ _ _ hlt := hlt
  query_lt q r t u _ _ _ _ _ hlt := hlt

theorem trans (h : Embeds F G p k k') (h' : Embeds F' G' p k' k'') :
    Embeds (F'.comp F) (G.comp G') p k k'' where
  cell i t y ht hi := by
    obtain ⟨hi', hback⟩ := h.cell i t y ht hi
    obtain ⟨hi'', hback'⟩ := h'.cell _ t _ ht hi'
    rw [CellContent.rename_rename] at hi''
    exact ⟨hi'', (congrArg G.cell hback').trans hback⟩
  entry t i ht hi := h'.entry t _ ht (h.entry t i ht hi)
  call c t i ht hc hi := by
    obtain ⟨hi', hback⟩ := h.call c t i ht hc hi
    obtain ⟨hi'', hback'⟩ := h'.call _ t _ ht (h.callTable ht hc).1 hi'
    exact ⟨hi'', (congrArg G.call hback').trans hback⟩
  query q t c ht hq hc := by
    obtain ⟨hc', hback⟩ := h.query q t c ht hq hc
    obtain ⟨hc'', hback'⟩ := h'.query _ t _ ht (h.queryTable ht hq).1 hc'
    exact ⟨hc'', (congrArg G.query hback').trans hback⟩
  call_lt c d t ht hc hd hlt :=
    h'.call_lt _ _ t ht (h.callTable ht hc).1 (h.callTable ht hd).1 (h.call_lt c d t ht hc hd hlt)
  query_lt q r t u ht hu hq hr hs hlt :=
    h'.query_lt _ _ t u ht hu (h.queryTable ht hq).1 (h.queryTable hu hr).1 hs
      (h.query_lt q r t u ht hu hq hr hs hlt)

theorem congr (h : Embeds F G p k k') (hk : k.WellFormed) (hF : SameNames F F' p k)
    (hG : SameNames G G' p k') : Embeds F' G' p k k' where
  cell i t y ht hi := by
    have htable := cellTable?_eq_some.2 ⟨y, hi⟩
    have hnames := hk.names hi
    obtain ⟨hi', hback⟩ := h.cell i t y ht hi
    rw [← hF.cell i t ht htable, ← hG.cell _ t ht (h.cellTable ht htable).1,
      ← CellContent.rename_congr (fun c hc => hF.call c t ht (hnames.1 c hc))
        fun q hq => hF.query q t ht (hnames.2 q hq)]
    exact ⟨hi', hback⟩
  entry t i ht hi := by
    obtain ⟨y, hy⟩ := hk.entry_cell t i hi
    rw [← hF.cell i t ht (cellTable?_eq_some.2 ⟨y, hy⟩)]
    exact h.entry t i ht hi
  call c t i ht hc hi := by
    obtain ⟨j, hj, htable⟩ := callTable?_eq_some.1 hc
    rw [hi] at hj
    cases hj
    rw [← hF.call c t ht hc, ← hF.cell i t ht htable, ← hG.call _ t ht (h.callTable ht hc).1]
    exact h.call c t i ht hc hi
  query q t c ht hq hc := by
    obtain ⟨d, hd, htable⟩ := queryTable?_eq_some.1 hq
    rw [hc] at hd
    cases hd
    rw [← hF.query q t ht hq, ← hF.call c t ht htable, ← hG.query _ t ht (h.queryTable ht hq).1]
    exact h.query q t c ht hq hc
  call_lt c d t ht hc hd hlt := by
    rw [← hF.call c t ht hc, ← hF.call d t ht hd]
    exact h.call_lt c d t ht hc hd hlt
  query_lt q r t u ht hu hq hr hs hlt := by
    rw [← hF.query q t ht hq, ← hF.query r u hu hr]
    exact h.query_lt q r t u ht hu hq hr hs hlt

theorem mono (h : Embeds F G p k k') (hp : ∀ t, p' t → p t) : Embeds F G p' k k' where
  cell i t y ht := h.cell i t y (hp t ht)
  entry t i ht := h.entry t i (hp t ht)
  call c t i ht := h.call c t i (hp t ht)
  query q t c ht := h.query q t c (hp t ht)
  call_lt c d t ht := h.call_lt c d t (hp t ht)
  query_lt q r t u ht hu := h.query_lt q r t u (hp t ht) (hp u hu)

/-- Of two kinds of tables that share no statement, both are embedded. -/
theorem union (h : Embeds F G p k k') (h' : Embeds F G p' k k')
    (hs : ∀ t u, p t → p' u → t.statement ≠ u.statement) :
    Embeds F G (fun t => p t ∨ p' t) k k' where
  cell i t y ht := ht.elim (h.cell i t y) (h'.cell i t y)
  entry t i ht := ht.elim (h.entry t i) (h'.entry t i)
  call c t i ht := ht.elim (h.call c t i) (h'.call c t i)
  query q t c ht := ht.elim (h.query q t c) (h'.query q t c)
  call_lt c d t ht := ht.elim (h.call_lt c d t) (h'.call_lt c d t)
  query_lt q r t u ht hu hq hr hstatement := by
    rcases ht with ht | ht <;> rcases hu with hu | hu
    · exact h.query_lt q r t u ht hu hq hr hstatement
    · exact absurd hstatement (hs t u ht hu)
    · exact absurd hstatement.symm (hs u t hu ht)
    · exact h'.query_lt q r t u ht hu hq hr hstatement

end Embeds

namespace Alike

theorem symm (h : Alike F G p k k') : Alike G F p k' k :=
  ⟨h.back, h.forth⟩

theorem same (k : SchemaCache) (p : TableId → Prop) : Alike .same .same p k k :=
  ⟨Embeds.same k p, Embeds.same k p⟩

theorem trans (h : Alike F G p k k') (h' : Alike F' G' p k' k'') :
    Alike (F'.comp F) (G.comp G') p k k'' :=
  ⟨h.forth.trans h'.forth, h'.back.trans h.back⟩

theorem mono (h : Alike F G p k k') (hp : ∀ t, p' t → p t) : Alike F G p' k k' :=
  ⟨h.forth.mono hp, h.back.mono hp⟩

theorem congr (h : Alike F G p k k') (hk : k.WellFormed) (hk' : k'.WellFormed)
    (hF : SameNames F F' p k) (hG : SameNames G G' p k') : Alike F' G' p k k' :=
  ⟨h.forth.congr hk hF hG, h.back.congr hk' hG hF⟩

end Alike

end Embeds

/-! ## Two kinds of tables -/

section Glue

open Classical in
/-- The names that one naming gives to what a cache holds of some tables, and another to the
rest. -/
noncomputable def glue (k : SchemaCache) (p : TableId → Prop) (F F' : Naming) : Naming where
  cell i := if ∃ t, k.cellTable? i = some t ∧ p t then F.cell i else F'.cell i
  call c := if ∃ t, k.callTable? c = some t ∧ p t then F.call c else F'.call c
  query q := if ∃ t, k.queryTable? q = some t ∧ p t then F.query q else F'.query q

variable {F G F' G' : Naming} {p : TableId → Prop} {k k' : SchemaCache}

theorem sameNames_glue : SameNames F (k.glue p F F') p k where
  cell _ t ht hi := (if_pos ⟨t, hi, ht⟩).symm
  call _ t ht hc := (if_pos ⟨t, hc, ht⟩).symm
  query _ t ht hq := (if_pos ⟨t, hq, ht⟩).symm

theorem sameNames_glue_not : SameNames F' (k.glue p F F') (fun t => ¬ p t) k := by
  have hno : ∀ {o : Option TableId} {t}, ¬ p t → o = some t → ¬ ∃ u, o = some u ∧ p u := by
    rintro o t ht rfl ⟨u, hu, hp⟩
    cases hu
    exact ht hp
  exact ⟨fun i t ht hi => (if_neg (hno ht hi)).symm, fun c t ht hc => (if_neg (hno ht hc)).symm,
    fun q t ht hq => (if_neg (hno ht hq)).symm⟩

theorem Embeds.glue (h : Embeds F G p k k') (h' : Embeds F' G' (fun t => ¬ p t) k k')
    (hk : k.WellFormed) (hp : ∀ t u : TableId, t.statement = u.statement → p t → p u) :
    Embeds (k.glue p F F') (k'.glue p G G') (fun _ => True) k k' := by
  have hall : Embeds (k.glue p F F') (k'.glue p G G') (fun t => p t ∨ ¬ p t) k k' :=
    (h.congr hk sameNames_glue sameNames_glue).union
      (h'.congr hk sameNames_glue_not sameNames_glue_not) fun t u ht hu hs => hu (hp t u hs ht)
  have htrue : (fun t => p t ∨ ¬ p t) = fun _ => True := by
    funext t
    exact propext (iff_true_intro (em _))
  rwa [htrue] at hall

/-- Caches that are alike at the tables of some statements and at the other tables are alike. -/
theorem Alike.glue (h : Alike F G p k k') (h' : Alike F' G' (fun t => ¬ p t) k k')
    (hk : k.WellFormed) (hk' : k'.WellFormed)
    (hp : ∀ t u : TableId, t.statement = u.statement → p t → p u) :
    Alike (k.glue p F F') (k'.glue p G G') (fun _ => True) k k' :=
  ⟨h.forth.glue h'.forth hk hp, h.back.glue h'.back hk' hp⟩

end Glue

end SchemaCache

end TableCapture
