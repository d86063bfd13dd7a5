import Mathlib.Data.Finset.Card
import TableCapture.Proofs.SchemaCache.Memo
import TableCapture.Proofs.SchemaCache.Renaming

/-!
# Tables do not affect each other

All tables share one cache and one connection. What the connection answers to a query may depend on
the queries with the same statement that came before. A move is something that is done for one
table, and names a call by its place among the calls for this table: a call starts, its query is
answered or times out, it is dropped, or the cell of the table is looked at or taken away.

A move for one table leaves alone what the cache holds of the others, and does the same to caches
that are alike at the tables with the statement of its own (`Alike.move`). So two moves for tables
with different statements can be made in either order: each of them gives the same in both, and the
caches that they leave are alike (`moves_commute`). And what comes of the moves for one table is
the same, but for names, when those for other tables are left out (`moves_alone`).
-/

namespace TableCapture

open SchemaCache

/-- What a connection answers to a statement, when so many queries with this statement came
before. -/
abbrev Connection := String → Nat → Reply

/-- Something done for a table. A call is named by its place among the calls for the table. -/
inductive Move where
  | start (t : TableId)
  /-- The query of a call is answered. -/
  | finish (t : TableId) (n : Nat)
  | timeOut (t : TableId) (n : Nat) (limit : Duration)
  | drop (t : TableId) (n : Nat)
  | cached (t : TableId)
  | invalidate (t : TableId)

def Move.table : Move → TableId
  | start t | finish t _ | timeOut t _ _ | drop t _ | cached t | invalidate t => t

namespace SchemaCache

/-- The calls for a table, in order. -/
def callsFor (k : SchemaCache) (t : TableId) : List Nat :=
  (List.range k.calls.length).filter fun c => k.callTable? c = some t

/-- The query that the `n`-th call for a table has asked. -/
def queryFor? (k : SchemaCache) (t : TableId) (n : Nat) : Option Nat :=
  (k.callsFor t)[n]?.bind fun c => k.queries.findIdx? (· = c)

/-- The statement of a query. -/
def statement? (k : SchemaCache) (q : Nat) : Option String :=
  (k.queryTable? q).map TableId.statement

/-- The number of queries with the same statement that came before. -/
def turn (k : SchemaCache) (q : Nat) : Nat :=
  ((Finset.range q).filter fun r => k.statement? r = k.statement? q).card

/-- The action that a move comes to. A call that is not there, or that has asked no query, is not
answered. -/
def action? (k : SchemaCache) (answer : Connection) : Move → Option CacheAction
  | .start t => some (.call t)
  | .finish t n => (k.queryFor? t n).map fun q => .settle q (.reply (answer t.statement (k.turn q)))
  | .timeOut t n limit => (k.queryFor? t n).map fun q => .settle q (.timedOut limit)
  | .drop t n => (k.callsFor t)[n]?.map .drop
  | .cached t => some (.cached t)
  | .invalidate t => some (.invalidate t)

/-- Makes a move. One that comes to nothing changes nothing. -/
def move (answer : Connection) (k : SchemaCache) (m : Move) : SchemaCache × List CacheEvent :=
  match k.action? answer m with
  | none => (k, [])
  | some a => k.step a

end SchemaCache

namespace SchemaCache

/-! ## Names of events -/

section Named

variable {k k' : SchemaCache} {a : CacheAction} {es : List CacheEvent} {e : CacheEvent}
  {t : TableId} {i c q : Nat} {p : TableId → Prop}

/-- An event does not show which of two namings is used where these give the same names. -/
theorem SameNames.rename_event {F F' : Naming} (h : SameNames F F' p k) (ht : p t)
    (he : e.Named k t) : e.rename F = e.rename F' := by
  cases e with
  | asked q c u => simp only [CacheEvent.rename, h.query q t ht he.2.1, h.call c t ht he.2.2]
  | answered c r =>
    rcases r with err | s
    · simp only [CacheEvent.rename, h.call c t ht he.1, Except.map]
    · simp only [CacheEvent.rename, h.call c t ht he.1, Except.map, SharedSchema.rename,
        h.query s.query t ht (he.2 s rfl)]
  | dropped c => simp only [CacheEvent.rename, h.call c t ht he]
  | found s =>
    rcases s with _ | s
    · rfl
    · simp only [CacheEvent.rename, Option.map_some, SharedSchema.rename,
        h.query s.query t ht (he s rfl)]
  | counted n => rfl

end Named

/-! ## Moves -/

section Moves

variable {F G : Naming} {p : TableId → Prop} {k k' : SchemaCache} {t : TableId} {c n q : Nat}
  {a : CacheAction} {m : Move} {answer : Connection}

theorem mem_callsFor : c ∈ k.callsFor t ↔ k.callTable? c = some t := by
  simp only [callsFor, List.mem_filter, List.mem_range, decide_eq_true_iff]
  exact ⟨And.right, fun h => ⟨callTable?_lt h, h⟩⟩

theorem pairwise_callsFor (k : SchemaCache) (t : TableId) : (k.callsFor t).Pairwise (· < ·) :=
  List.pairwise_lt_range.filter _

theorem WellFormed.findIdx?_queries (hk : k.WellFormed) :
    k.queries.findIdx? (· = c) = some q ↔ k.queries[q]? = some c := by
  rw [List.findIdx?_eq_some_iff_getElem]
  constructor
  · rintro ⟨hlt, hq, -⟩
    rw [List.getElem?_eq_getElem hlt, of_decide_eq_true hq]
  · intro hq
    obtain ⟨hlt, rfl⟩ := List.getElem?_eq_some_iff.1 hq
    refine ⟨hlt, by simp, fun r hr hc => ?_⟩
    have := (hk.queries_nodup.getElem_inj_iff).1 (of_decide_eq_true hc)
    omega

theorem WellFormed.queryFor?_eq_some (hk : k.WellFormed) : k.queryFor? t n = some q ↔
    ∃ c, (k.callsFor t)[n]? = some c ∧ k.queries[q]? = some c := by
  simp only [queryFor?, Option.bind_eq_some_iff, hk.findIdx?_queries]

theorem WellFormed.queryTable_of_queryFor (hk : k.WellFormed) (h : k.queryFor? t n = some q) :
    k.queryTable? q = some t := by
  obtain ⟨c, hc, hq⟩ := hk.queryFor?_eq_some.1 h
  exact queryTable?_eq_some.2 ⟨c, hq, mem_callsFor.1 (List.mem_of_getElem? hc)⟩

/-- A move is about its table. -/
theorem WellFormed.about_action (hk : k.WellFormed) (ha : k.action? answer m = some a) :
    k.about a = some m.table := by
  cases m with
  | start t | cached t | invalidate t =>
    cases ha
    rfl
  | finish t n | timeOut t n limit =>
    obtain ⟨q, hq, rfl⟩ := Option.map_eq_some_iff.1 ha
    exact hk.queryTable_of_queryFor hq
  | drop t n =>
    obtain ⟨c, hc, rfl⟩ := Option.map_eq_some_iff.1 ha
    exact mem_callsFor.1 (List.mem_of_getElem? hc)

theorem WellFormed.move (hk : k.WellFormed) (answer : Connection) (m : Move) :
    (k.move answer m).1.WellFormed := by
  unfold SchemaCache.move
  split
  · exact hk
  · exact hk.step _

theorem WellFormed.grows_move (hk : k.WellFormed) (answer : Connection) (m : Move) :
    Grows k (k.move answer m).1 := by
  unfold SchemaCache.move
  split
  · exact Grows.refl _
  · exact hk.grows _

theorem WellFormed.leaves_move (hk : k.WellFormed) (answer : Connection) (hm : ¬ p m.table) :
    Leaves p k (k.move answer m).1 := by
  unfold SchemaCache.move
  split
  · exact Leaves.refl _ _
  · rename_i a ha
    refine hk.leaves_step fun u hu => ?_
    rw [hk.about_action ha] at hu
    cases hu
    exact hm

theorem WellFormed.named_move (hk : k.WellFormed) (answer : Connection) (m : Move) :
    ∀ e ∈ (k.move answer m).2, e.Named (k.move answer m).1 m.table := by
  unfold SchemaCache.move
  split
  · simp
  · rename_i a ha
    exact (hk.step_transition a).named hk (hk.about_action ha)

/-! ## The names in a move -/

namespace Alike

theorem callsFor_eq (h : Alike F G p k k') (ht : p t) :
    k'.callsFor t = (k.callsFor t).map F.call := by
  have hmap : ((k.callsFor t).map F.call).Pairwise (· < ·) := by
    refine List.pairwise_map.2 ((pairwise_callsFor k t).imp_of_mem fun hc hd hlt => ?_)
    exact h.forth.call_lt _ _ t ht (mem_callsFor.1 hc) (mem_callsFor.1 hd) hlt
  have hperm : (k'.callsFor t).Perm ((k.callsFor t).map F.call) := by
    rw [List.perm_ext_iff_of_nodup ((pairwise_callsFor k' t).imp Nat.ne_of_lt)
      (hmap.imp Nat.ne_of_lt)]
    intro c
    rw [mem_callsFor, List.mem_map]
    constructor
    · intro hc
      obtain ⟨hc', hback⟩ := h.back.callTable ht hc
      exact ⟨G.call c, mem_callsFor.2 hc', hback⟩
    · rintro ⟨d, hd, rfl⟩
      exact (h.forth.callTable ht (mem_callsFor.1 hd)).1
  exact hperm.eq_of_pairwise (fun a b _ _ hab hba => absurd hba (Nat.lt_asymm hab))
    (pairwise_callsFor k' t) hmap

theorem queryFor?_eq (h : Alike F G p k k') (hk : k.WellFormed) (hk' : k'.WellFormed) (ht : p t) :
    k'.queryFor? t n = (k.queryFor? t n).map F.query := by
  have hforth : ∀ {F G : Naming} {k k' : SchemaCache}, Alike F G p k k' → k.WellFormed →
      k'.WellFormed → ∀ q, k.queryFor? t n = some q → k'.queryFor? t n = some (F.query q) := by
    intro F G k k' h hk hk' q hq
    obtain ⟨c, hc, hqc⟩ := hk.queryFor?_eq_some.1 hq
    refine hk'.queryFor?_eq_some.2 ⟨F.call c, ?_, ?_⟩
    · rw [h.callsFor_eq ht, List.getElem?_map, hc]
      rfl
    · exact (h.forth.query q t c ht (hk.queryTable_of_queryFor hq) hqc).1
  rcases hq : k.queryFor? t n with _ | q
  · refine Option.eq_none_iff_forall_ne_some.2 fun q hq' => ?_
    rw [hforth h.symm hk' hk q hq'] at hq
    cases hq
  · exact hforth h hk hk' q hq

/-- Queries with the statement of a query are for tables where the caches are alike. -/
theorem exists_table (hp : ∀ t u : TableId, t.statement = u.statement → p t → p u) (ht : p t)
    (hq : k.queryTable? q = some t) {r : Nat} (hr : k.statement? r = k.statement? q) :
    ∃ u, k.queryTable? r = some u ∧ p u ∧ u.statement = t.statement := by
  rw [statement?, statement?, hq] at hr
  obtain ⟨u, hu, hs⟩ := Option.map_eq_some_iff.1 hr
  exact ⟨u, hu, hp t u hs.symm ht, hs⟩

theorem mem_turn (h : Embeds F G p k k')
    (hp : ∀ t u : TableId, t.statement = u.statement → p t → p u) (ht : p t)
    (hq : k.queryTable? q = some t) {r : Nat} (hlt : r < q)
    (hr : k.statement? r = k.statement? q) :
    F.query r < F.query q ∧ k'.statement? (F.query r) = k'.statement? (F.query q)
      ∧ G.query (F.query r) = r := by
  obtain ⟨u, hu, hpu, hs⟩ := exists_table hp ht hq hr
  obtain ⟨hu', hback⟩ := h.queryTable hpu hu
  refine ⟨h.query_lt r q u t hpu ht hu hq hs hlt, ?_, hback⟩
  rw [statement?, statement?, hu', (h.queryTable ht hq).1, Option.map_some, Option.map_some, hs]

/-- A query has the same turn in both, where the queries with its statement are all alike. -/
theorem turn_eq (h : Alike F G p k k') (hp : ∀ t u : TableId, t.statement = u.statement → p t → p u)
    (ht : p t) (hq : k.queryTable? q = some t) : k'.turn (F.query q) = k.turn q := by
  obtain ⟨hq', hback⟩ := h.forth.queryTable ht hq
  symm
  refine Finset.card_bij (fun r _ => F.query r) (fun r hr => ?_) (fun r hr r' hr' heq => ?_)
    fun r hr => ?_
  · rw [Finset.mem_filter, Finset.mem_range] at hr ⊢
    obtain ⟨hlt, hs, -⟩ := mem_turn h.forth hp ht hq hr.1 hr.2
    exact ⟨hlt, hs⟩
  · rw [Finset.mem_filter, Finset.mem_range] at hr hr'
    rw [← (mem_turn h.forth hp ht hq hr.1 hr.2).2.2, heq,
      (mem_turn h.forth hp ht hq hr'.1 hr'.2).2.2]
  · rw [Finset.mem_filter, Finset.mem_range] at hr
    obtain ⟨hlt, hs, hr'⟩ := mem_turn h.back hp ht hq' hr.1 hr.2
    rw [hback] at hlt hs
    exact ⟨G.query r, Finset.mem_filter.2 ⟨Finset.mem_range.2 hlt, hs⟩, hr'⟩

theorem action?_eq (h : Alike F G p k k') (hk : k.WellFormed) (hk' : k'.WellFormed)
    (hp : ∀ t u : TableId, t.statement = u.statement → p t → p u) (hm : p m.table) :
    k'.action? answer m = (k.action? answer m).map (CacheAction.rename F) := by
  cases m with
  | start t | cached t | invalidate t => rfl
  | timeOut t n limit =>
    rw [action?, action?, h.queryFor?_eq (t := t) hk hk' hm, Option.map_map, Option.map_map]
    rfl
  | finish t n =>
    rw [action?, action?, h.queryFor?_eq (t := t) hk hk' hm]
    rcases hq : k.queryFor? t n with _ | q
    · rfl
    · have hturn := h.turn_eq (t := t) hp hm (hk.queryTable_of_queryFor hq)
      simp only [Option.map_some, CacheAction.rename, hturn]
  | drop t n =>
    rw [action?, action?, h.callsFor_eq (t := t) hm, List.getElem?_map, Option.map_map,
      Option.map_map]
    rfl

/-- A move does the same to caches that are alike at the tables with its statement. -/
theorem move (h : Alike F G p k k') (hk : k.WellFormed) (hk' : k'.WellFormed)
    (hp : ∀ t u : TableId, t.statement = u.statement → p t → p u) (answer : Connection)
    (hm : p m.table) :
    ∃ F' G', Alike F' G' p (k.move answer m).1 (k'.move answer m).1 ∧ SameNames F F' p k
      ∧ (k'.move answer m).2 = (k.move answer m).2.map (CacheEvent.rename F') := by
  unfold SchemaCache.move
  rw [h.action?_eq hk hk' hp hm]
  rcases ha : k.action? answer m with _ | a
  · exact ⟨F, G, h, ⟨fun _ _ _ _ => rfl, fun _ _ _ _ => rfl, fun _ _ _ _ => rfl⟩, rfl⟩
  · obtain ⟨hstep, hevents⟩ := h.step_grow hk hk' hm (hk.about_action ha)
    exact ⟨_, _, hstep, sameNames_grow F p k k', hevents⟩

end Alike

/-- Tables that have a statement. -/
def Sharing (s : String) (t : TableId) : Prop :=
  t.statement = s

theorem sharing_closed {s : String} (t u : TableId) (h : t.statement = u.statement)
    (ht : Sharing s t) : Sharing s u :=
  h.symm.trans ht

theorem not_sharing_closed {s : String} (t u : TableId) (h : t.statement = u.statement)
    (ht : ¬ Sharing s t) : ¬ Sharing s u :=
  fun hu => ht (h.trans hu)

/-- Two moves for tables with different statements can be made in either order. -/
theorem WellFormed.moves_commute (hk : k.WellFormed) (answer : Connection) {l : Move}
    (hs : m.table.statement ≠ l.table.statement) :
    ∃ F G, Alike F G (fun _ => True) ((k.move answer m).1.move answer l).1
        ((k.move answer l).1.move answer m).1
      ∧ ((k.move answer l).1.move answer m).2 = (k.move answer m).2.map (CacheEvent.rename F)
      ∧ (k.move answer l).2
        = ((k.move answer m).1.move answer l).2.map (CacheEvent.rename F) := by
  have hkm := hk.move answer m
  have hkl := hk.move answer l
  -- At the tables with the statement of `m` only `m` counts, at the others only `l`.
  let p := Sharing m.table.statement
  have hm : p m.table := rfl
  have hm' : ¬ ¬ p m.table := not_not.2 hm
  have hl : ¬ p l.table := fun h => hs h.symm
  have hml := hkm.leaves_move answer hl
  obtain ⟨F, G, hF, -, hmevents⟩ :=
    (hk.leaves_move answer hl).alike.move hk hkl sharing_closed answer hm
  have hlm := hkl.leaves_move (p := fun t => ¬ p t) answer hm'
  obtain ⟨F', G', hF', -, hlevents⟩ :=
    (hk.leaves_move (p := fun t => ¬ p t) answer hm').symm.alike.move hkm hk not_sharing_closed
      answer hl
  refine ⟨_, _, (hml.symm.alike.trans hF).glue (hF'.trans hlm.alike) (hkm.move answer l)
    (hkl.move answer m) sharing_closed, ?_, ?_⟩
  · rw [hmevents]
    refine List.map_congr_left fun e he => ?_
    refine sameNames_glue.rename_event hm ((hkm.grows_move answer l).named ?_)
    exact hk.named_move answer m e he
  · rw [hlevents]
    refine List.map_congr_left fun e he => ?_
    exact sameNames_glue_not.rename_event hl (hkm.named_move answer l e he)

/-- What comes of the moves for one table, among all that comes of moves. -/
def answersFor (t : TableId) (ms : List Move) (ess : List (List CacheEvent)) :
    List (List CacheEvent) :=
  ((ms.zip ess).filter fun x => x.1.table = t).map Prod.snd

theorem SameNames.trans {F₁ F' : Naming} (h : SameNames F F₁ p k) (h' : SameNames F₁ F' p k')
    (hg : Grows k k') : SameNames F F' p k where
  cell i u hu hi := (h.cell i u hu hi).trans (h'.cell i u hu (hg.cellTable hi))
  call c u hu hc := (h.call c u hu hc).trans (h'.call c u hu (hg.callTable hc))
  query q u hu hq := (h.query q u hu hq).trans (h'.query q u hu (hg.queryTable hq))

/-- Moves for other tables, whose statements are different, can be left out. -/
theorem Alike.moves_alone (h : Alike F G p k k') (hk : k.WellFormed) (hk' : k'.WellFormed)
    (hp : ∀ t u : TableId, t.statement = u.statement → p t → p u) (answer : Connection) (ht : p t)
    {ms : List Move} (hms : ∀ m ∈ ms, m.table = t ∨ ¬ p m.table) :
    ∃ F' G', Alike F' G' p (inTurn (SchemaCache.move answer) k (ms.filter (·.table = t))).1
        (inTurn (SchemaCache.move answer) k' ms).1
      ∧ SameNames F F' p k
      ∧ answersFor t ms (inTurn (SchemaCache.move answer) k' ms).2
        = (inTurn (SchemaCache.move answer) k (ms.filter (·.table = t))).2.map
          (List.map (CacheEvent.rename F')) := by
  induction ms generalizing F G k k' with
  | nil => exact ⟨F, G, h, ⟨fun _ _ _ _ => rfl, fun _ _ _ _ => rfl, fun _ _ _ _ => rfl⟩, rfl⟩
  | cons m ms ih =>
    rw [List.forall_mem_cons] at hms
    by_cases hm : m.table = t
    · subst hm
      obtain ⟨F₁, G₁, h₁, hsame, hevents⟩ := h.move hk hk' hp answer ht
      obtain ⟨F', G', h', hsame', hanswers⟩ := ih h₁ (hk.move answer m) (hk'.move answer m) hms.2
      have hg := hk.grows_move answer m
      rw [List.filter_cons_of_pos (by simp)]
      refine ⟨F', G', h', hsame.trans hsame' hg, ?_⟩
      rw [inTurn, inTurn, List.map_cons, ← hanswers, answersFor, List.zip_cons_cons,
        List.filter_cons_of_pos (by simp), List.map_cons, hevents]
      congr 1
      exact List.map_congr_left fun e he => hsame'.rename_event ht (hk.named_move answer m e he)
    · have hm' := hms.1.resolve_left hm
      have h₁ := h.trans (hk'.leaves_move answer hm').alike
      obtain ⟨F', G', h', hsame, hanswers⟩ := ih h₁ hk (hk'.move answer m) hms.2
      rw [List.filter_cons_of_neg (by simpa using hm)]
      refine ⟨F', G', h', hsame, ?_⟩
      rw [← hanswers, inTurn, answersFor, List.zip_cons_cons,
        List.filter_cons_of_neg (by simpa using hm)]
      rfl

end Moves

/-- Tables with different statements do not affect each other. In every cache that there can be,
two moves for such tables can be made in either order: what comes of each is the same but for names,
and so are the caches that are left and the turns of their queries. And in every run, what comes of
the moves for a table, and what the cache holds of it in the end, is the same but for names in the
run where all moves for other tables are left out. -/
theorem tables_apart (answer : Connection) :
    (∀ (as : List CacheAction) (m l : Move), m.table.statement ≠ l.table.statement →
      ∃ F G, Alike F G (fun _ => True) (((after as).move answer m).1.move answer l).1
          (((after as).move answer l).1.move answer m).1
        ∧ (((after as).move answer l).1.move answer m).2
          = ((after as).move answer m).2.map (CacheEvent.rename F)
        ∧ ((after as).move answer l).2
          = (((after as).move answer m).1.move answer l).2.map (CacheEvent.rename F)
        ∧ ∀ q t, (((after as).move answer m).1.move answer l).1.queryTable? q = some t →
          (((after as).move answer l).1.move answer m).1.turn (F.query q)
            = (((after as).move answer m).1.move answer l).1.turn q)
      ∧ ∀ (ms : List Move) (t : TableId),
        (∀ m ∈ ms, m.table ≠ t → m.table.statement ≠ t.statement) →
        ∃ F G, Alike F G (· = t) (inTurn (move answer) empty (ms.filter (·.table = t))).1
            (inTurn (move answer) empty ms).1
          ∧ answersFor t ms (inTurn (move answer) empty ms).2
            = (inTurn (move answer) empty (ms.filter (·.table = t))).2.map
              (List.map (CacheEvent.rename F)) := by
  constructor
  · intro as m l hs
    obtain ⟨F, G, h, hm, hl⟩ := (wellFormed_after as).moves_commute answer hs
    exact ⟨F, G, h, hm, hl, fun q t hq => h.turn_eq (fun _ _ _ _ => trivial) trivial hq⟩
  · intro ms t hms
    have hsplit : ∀ m ∈ ms, m.table = t ∨ ¬ Sharing t.statement m.table := fun m hm => by
      by_cases hmt : m.table = t
      · exact .inl hmt
      · exact .inr (hms m hm hmt)
    obtain ⟨F, G, h, -, hanswers⟩ := (Alike.same empty (Sharing t.statement)).moves_alone
      WellFormed.empty WellFormed.empty sharing_closed answer rfl hsplit
    refine ⟨F, G, h.mono fun u hu => ?_, hanswers⟩
    rw [hu]
    rfl

def stools : TableId :=
  ⟨none, none, "stools"⟩

/-- Between two calls for `lamps`, which share a query, one for `stools` times out. -/
def mixedMoves : List Move :=
  [.start lamps, .start stools, .timeOut stools 0 (.ofSeconds 1 0), .start lamps, .finish lamps 0]

def lampsAnswer : Connection :=
  fun _ _ => .rows [[some "lamps", some "CREATE TABLE lamps (watt int)"]]

theorem tables_apart_lamps :
    (∀ m ∈ mixedMoves, m.table ≠ lamps → m.table.statement ≠ lamps.statement)
      ∧ ∃ F : Naming, answersFor lamps mixedMoves (inTurn (move lampsAnswer) empty mixedMoves).2
        = [[.asked 0 0 lamps], [],
          [.answered 0 (.ok ⟨0, lampsSchema⟩), .answered 1 (.ok ⟨0, lampsSchema⟩)]].map
            (List.map (CacheEvent.rename F)) := by
  have hms : ∀ m ∈ mixedMoves, m.table ≠ lamps → m.table.statement ≠ lamps.statement := by
    simp only [mixedMoves, List.forall_mem_cons]
    decide +kernel
  obtain ⟨F, -, -, h⟩ := (tables_apart lampsAnswer).2 mixedMoves lamps hms
  have hown : (inTurn (move lampsAnswer) empty (mixedMoves.filter (·.table = lamps))).2
      = [[.asked 0 0 lamps], [],
        [.answered 0 (.ok ⟨0, lampsSchema⟩), .answered 1 (.ok ⟨0, lampsSchema⟩)]] := by
    decide +kernel
  rw [hown] at h
  exact ⟨hms, F, h⟩

end SchemaCache

end TableCapture
