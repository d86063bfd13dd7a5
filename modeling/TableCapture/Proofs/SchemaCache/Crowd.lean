import Mathlib.Algebra.BigOperators.Group.Finset.Basic
import TableCapture.Proofs.SchemaCache.Undisturbed

/-!
# Many calls at once

The calls for a table that start together are a crowd (`Crowd`). The first of them asks a query, and
the rest get in line behind it (`Idle.step`, `Trying.join`). When an attempt gives a schema, all who
wait get it (`Trying.succeed`). When it fails, the caller that made it gets the error, the cell is
given up, and the next in line makes the next attempt at the same cell (`Trying.fail_next`), unless
nobody is left (`Trying.fail_last`).

So the crowd is at one stage after the other (`Stage.step`), as long as its queries are answered as
they should be. What is attended to for other tables does not disturb it (`Trying.undisturbed`).
-/

namespace TableCapture

/-- Calls for one table that start together. -/
structure Crowd where
  table : TableId
  /-- When the calls start. -/
  start : Nat
  /-- The tasks of the calls, in order. -/
  members : List Nat
  limit : Option Duration
  /-- What the queries for the table are answered, one after the other. -/
  reply : Nat → DelayedReply
  /-- The number of queries for the table that were asked before. -/
  before : Nat

namespace Crowd

open SchemaCache

/-- How long an attempt lasts and how it ends. -/
def attempt (C : Crowd) (k : Nat) : Nat × Ending :=
  Timeline.wait C.limit (C.reply k)

/-- The time at which an attempt ends. -/
def time (C : Crowd) (k : Nat) : Nat :=
  C.start + ∑ i ∈ Finset.range (k + 1), (C.attempt i).1

theorem time_zero (C : Crowd) : C.time 0 = C.start + (C.attempt 0).1 := by
  rw [time, Finset.sum_range_one]

theorem time_succ (C : Crowd) (k : Nat) : C.time (k + 1) = C.time k + (C.attempt (k + 1)).1 := by
  rw [time, Finset.sum_range_succ, ← Nat.add_assoc]
  rfl

/-- What an attempt gives, when the query has this number. -/
def answer (C : Crowd) (q k : Nat) : Except SchemaError SharedSchema :=
  ((C.attempt k).2.schema C.table).map fun schema => ⟨q, schema⟩

def Fails (C : Crowd) (k : Nat) : Prop :=
  ∃ err, (C.attempt k).2.schema C.table = .error err

/-- The end of a call that is answered by an attempt. -/
def finish (C : Crowd) (q k : Nat) : Finish :=
  ⟨C.time k, .answered (C.answer q k)⟩

/-- Calls that are about to start. -/
def starts (C : Crowd) (ps : List Nat) : List Appointment :=
  ps.map fun p => ⟨C.start, .errand p (.get C.table none)⟩

/-- No call has started. -/
structure Idle (C : Crowd) (τ : Timeline) : Prop where
  free : ∀ i, (C.table, i) ∉ τ.cache.entries
  pending : τ.pending C.table = C.starts C.members
  asked : τ.asked.count C.table = C.before
  waiting : ∀ p ∈ C.members, τ.finished.lookup p = none

/-- Some calls have got errors, others are at the cell `i`, where the first of them awaits the query
`q`, and the rest are about to start. The rest are none when a call has got an error, for they all
start before. -/
structure Trying (C : Crowd) (τ : Timeline) (i c q : Nat) (w failed here rest : List Nat) :
    Prop where
  members : C.members = failed ++ here ++ rest
  started : failed ≠ [] → rest = []
  cell : τ.cache.cells[i]? = some ⟨C.table, .resolving c q w⟩
  callers : List.Forall₂ (fun c p => τ.tasks[c]? = some p) (c :: w) here
  entry : ∀ j, (C.table, j) ∈ τ.cache.entries ↔ failed = [] ∧ j = i
  pending : τ.pending C.table
    = C.starts rest ++ [⟨C.time failed.length, .ending q (C.attempt failed.length).2⟩]
  asked : τ.asked.count C.table = C.before + (failed.length + 1)
  fails : ∀ k < failed.length, C.Fails k
  finished : ∀ k p, failed[k]? = some p → ∀ q, τ.finished.lookup p = some (C.finish q k)
  waiting : ∀ p ∈ here ++ rest, τ.finished.lookup p = none

/-- All calls are over. The attempt `j` succeeded, or else there were no more than `j` calls. -/
structure Over (C : Crowd) (τ : Timeline) (j q : Nat) : Prop where
  fails : ∀ k < j, C.Fails k
  last : j = C.members.length ∨ j < C.members.length ∧ ¬ C.Fails j
  pending : τ.pending C.table = []
  asked : τ.asked.count C.table = C.before + min (j + 1) C.members.length
  finished : ∀ k p, C.members[k]? = some p → τ.finished.lookup p = some (C.finish q (min k j))
  entry : (∃ i, (C.table, i) ∈ τ.cache.entries) ↔ j = 0
  filled : ∀ i, (C.table, i) ∈ τ.cache.entries →
    ∃ s, τ.cache.cells[i]? = some ⟨C.table, .filled s⟩

section Undisturbed

variable {C : Crowd} {τ τ' : Timeline} {ts : List Task}

/-- The members of a crowd are calls for its table. -/
def Members (C : Crowd) (ts : List Task) : Prop :=
  ∀ p ∈ C.members, ∃ s, ts[p]? = some ⟨s, .get C.table none⟩

theorem lookup_undisturbed (hC : C.Members ts) (hu : τ.Undisturbed ts C.table τ') {p : Nat}
    (hp : p ∈ C.members) : τ'.finished.lookup p = τ.finished.lookup p := by
  obtain ⟨s, hs⟩ := hC p hp
  exact hu.finished p s _ hs rfl

theorem Idle.undisturbed (h : C.Idle τ) (hC : C.Members ts)
    (hu : Timeline.Undisturbed ts C.table τ τ') : C.Idle τ' where
  free i hi := h.free i ((hu.leaves.entry _ i rfl).1 hi)
  pending := hu.pending.trans h.pending
  asked := hu.asked.trans h.asked
  waiting p hp := (lookup_undisturbed hC hu hp).trans (h.waiting p hp)

theorem Trying.undisturbed {i c q : Nat} {w failed here rest : List Nat}
    (h : C.Trying τ i c q w failed here rest) (hC : C.Members ts)
    (hu : Timeline.Undisturbed ts C.table τ τ') : C.Trying τ' i c q w failed here rest where
  members := h.members
  started := h.started
  cell := (hu.leaves.cell i _ _ rfl).2 h.cell
  callers := h.callers.imp fun c p hc => getElem?_of_prefix hu.tasks hc
  entry j := (hu.leaves.entry _ j rfl).trans (h.entry j)
  pending := hu.pending.trans h.pending
  asked := hu.asked.trans h.asked
  fails := h.fails
  finished k p hk q := by
    have hp : p ∈ C.members := by
      rw [h.members, List.append_assoc]
      exact List.mem_append_left _ (List.mem_of_getElem? hk)
    rw [lookup_undisturbed hC hu hp, h.finished k p hk q]
  waiting p hp := by
    have hp' : p ∈ C.members := by
      rw [h.members, List.append_assoc]
      exact List.mem_append_right _ hp
    rw [lookup_undisturbed hC hu hp', h.waiting p hp]

theorem Over.undisturbed {j q : Nat} (h : C.Over τ j q) (hC : C.Members ts)
    (hu : Timeline.Undisturbed ts C.table τ τ') : C.Over τ' j q where
  fails := h.fails
  last := h.last
  pending := hu.pending.trans h.pending
  asked := hu.asked.trans h.asked
  finished k p hk := by
    rw [lookup_undisturbed hC hu (List.mem_of_getElem? hk), h.finished k p hk]
  entry := (exists_congr fun i => hu.leaves.entry _ i rfl).trans h.entry
  filled i hi := by
    obtain ⟨s, hs⟩ := h.filled i ((hu.leaves.entry _ i rfl).1 hi)
    exact ⟨s, (hu.leaves.cell i _ _ rfl).2 hs⟩

end Undisturbed

/-! ## What is due for the table -/

section Steps

variable {C : Crowd} {τ : Timeline} {ts : List Task} {a : Appointment} {as : List Appointment}
  {i c q p : Nat} {w failed here rest ps : List Nat}

/-- What is due for the table of a crowd when something due for it is attended to. -/
theorem pending_tail (hag : τ.agenda = a :: as) (ha : τ.cache.about a.due.action = some C.table)
    {b : Appointment} {bs : List Appointment} (hpending : τ.pending C.table = b :: bs) :
    a = b ∧ as.filter (fun b => τ.cache.about b.due.action = some C.table) = bs := by
  rw [Timeline.pending, hag, List.filter_cons_of_pos (by simpa using ha)] at hpending
  exact List.cons.inj hpending

theorem pending_ne_nil (hag : τ.agenda = a :: as)
    (ha : τ.cache.about a.due.action = some C.table) : τ.pending C.table ≠ [] := by
  rw [Timeline.pending, hag, List.filter_cons_of_pos (by simpa using ha)]
  exact List.cons_ne_nil _ _

theorem grows_perform (hg : τ.Going ts) {σ : Timeline} (hcache : σ.cache = τ.cache)
    (act : CacheAction) : Grows τ.cache (σ.perform act).cache := by
  rw [Timeline.cache_perform, hcache]
  exact hg.wellFormed.grows act

/-- What is due for the table of a crowd when no query is asked. -/
theorem pending_perform (hg : τ.Going ts) (hag : τ.agenda = a :: as) {σ : Timeline}
    (hcache : σ.cache = τ.cache) (hagenda : σ.agenda = as) (act : CacheAction)
    (hstep : (σ.cache.step act).2.filterMap CacheEvent.asked? = []) :
    (σ.perform act).pending C.table
      = as.filter fun b => τ.cache.about b.due.action = some C.table := by
  have hsame := Timeline.agenda_perform_of_none hstep
  rw [hagenda] at hsame
  exact hg.pending_eq hag (grows_perform hg hcache act) [] hsame

/-- What is due for the table of a crowd when a query is asked for it. -/
theorem pending_ask (hg : τ.Going ts) (hag : τ.agenda = a :: as) {σ : Timeline}
    (hcache : σ.cache = τ.cache) (hagenda : σ.agenda = as) (hlimit : σ.limit = C.limit)
    {act : CacheAction} (es : List CacheEvent)
    (hstep : (σ.cache.step act).2 = es ++ [.asked q c C.table])
    (hes : es.filterMap CacheEvent.asked? = []) {k : Nat}
    (hreply : (σ.script.take C.table.statement).1 = C.reply k) :
    (σ.perform act).pending C.table = Appointment.insertAll
      [⟨σ.now + (C.attempt k).1, .ending q (C.attempt k).2⟩]
      (as.filter fun b => τ.cache.about b.due.action = some C.table) := by
  have hk : σ.cache.WellFormed := by
    rw [hcache]
    exact hg.wellFormed
  have hnew : ∀ e, (σ.perform act).cache.about (.settle q e) = some C.table := by
    intro e
    rw [Timeline.cache_perform]
    refine (hk.step_transition _).queryTable_of_asked hk (c := c) ?_
    rw [hstep]
    exact List.mem_append_right _ (List.mem_singleton_self _)
  have hask := Timeline.agenda_perform_of_asked hstep hes
  rw [hreply, hlimit, hagenda] at hask
  rw [hg.pending_eq hag (grows_perform hg hcache act) [_] hask, List.filter_cons_of_pos]
  · rfl
  · rw [decide_eq_true_iff]
    exact hnew _

/-! ## The calls start -/

theorem Idle.step (h : C.Idle τ) (hg : τ.Going ts) (hmembers : C.members = p :: ps)
    (hag : τ.agenda = ⟨C.start, .errand p (.get C.table none)⟩ :: as)
    (has : as.filter (fun b => τ.cache.about b.due.action = some C.table) = C.starts ps)
    (hlimit : τ.limit = C.limit) (hpos : 0 < (C.attempt 0).1)
    (hreply : (τ.cache.step (.call C.table)).2.filterMap CacheEvent.asked? = [C.table] →
      (τ.script.take C.table.statement).1 = C.reply 0) :
    ∃ i c q, C.Trying ({ τ with now := C.start, agenda := as }.attend
      (.errand p (.get C.table none))) i c q [] [] [p] ps := by
  let σ : Timeline := { τ with now := C.start, agenda := as, tasks := τ.tasks ++ [p] }
  change ∃ i c q, C.Trying (σ.perform (.call C.table)) i c q [] [] [p] ps
  have hk : σ.cache.WellFormed := hg.wellFormed
  have hnone : σ.cache.entries.lookup C.table = none := hk.lookup_none_iff.2 h.free
  have he : σ.cache.enter C.table = (σ.cache.cells.length, σ.cache.make C.table) := by
    simp only [enter, hnone, make]
  have hcell : (σ.cache.make C.table).cells[σ.cache.cells.length]? = some ⟨C.table, .idle⟩ :=
    List.getElem?_concat_length
  have hstep : σ.cache.step (.call C.table) = _ := call_at_idle he hcell
  have hes : (σ.cache.step (.call C.table)).2
      = [] ++ [.asked σ.cache.queries.length σ.cache.calls.length C.table] := by
    rw [hstep]
    rfl
  have hpending := pending_ask hg hag (σ := σ) rfl rfl hlimit [] hes rfl
    (hreply (congrArg (List.filterMap CacheEvent.asked?) hes))
  refine ⟨σ.cache.cells.length, σ.cache.calls.length, σ.cache.queries.length, ?_⟩
  constructor
  case members => exact hmembers
  case started | fails | finished => simp
  case cell =>
    rw [Timeline.cache_perform, hstep]
    exact cells_put_self hcell
  case callers =>
    refine .cons ?_ .nil
    rw [Timeline.tasks_perform]
    have hlength : σ.cache.calls.length = τ.tasks.length := hg.length_tasks.symm
    rw [hlength]
    exact List.getElem?_concat_length
  case entry =>
    intro j
    rw [Timeline.cache_perform, hstep]
    change (C.table, j) ∈ (C.table, σ.cache.cells.length) :: σ.cache.entries ↔ _
    simpa using fun hj => absurd hj (h.free j)
  case pending =>
    -- All members start before the query ends.
    have hlast : ∀ b ∈ C.starts ps, b.le ⟨C.start + (C.attempt 0).1,
        .ending σ.cache.queries.length (C.attempt 0).2⟩ = true := by
      intro b hb
      obtain ⟨p', -, rfl⟩ := List.mem_map.1 hb
      rw [Appointment.le_iff]
      exact .inl (Nat.lt_add_of_pos_right hpos)
    rw [hpending, has, Appointment.insertAll_cons, Appointment.insertAll_nil,
      Appointment.insert_last hlast, List.length_nil, time_zero]
  case asked =>
    rw [Timeline.asked_perform, hes, List.count_append]
    have hasked : σ.asked.count C.table = C.before := h.asked
    simp [hasked, CacheEvent.asked?]
  case waiting =>
    intro p' hp'
    rw [Timeline.finished_perform, hes]
    have hp' : p' ∈ C.members := hmembers ▸ hp'
    simpa [Timeline.finish?] using h.waiting p' hp'

theorem Trying.join (h : C.Trying τ i c q w [] here (p :: rest)) (hg : τ.Going ts)
    (hag : τ.agenda = ⟨C.start, .errand p (.get C.table none)⟩ :: as)
    (has : as.filter (fun b => τ.cache.about b.due.action = some C.table)
      = C.starts rest ++ [⟨C.time 0, .ending q (C.attempt 0).2⟩]) :
    C.Trying ({ τ with now := C.start, agenda := as }.attend (.errand p (.get C.table none)))
      i c q (w ++ [τ.cache.calls.length]) [] (here ++ [p]) rest := by
  let σ : Timeline := { τ with now := C.start, agenda := as, tasks := τ.tasks ++ [p] }
  change C.Trying (σ.perform (.call C.table)) i c q _ [] (here ++ [p]) rest
  have hk : σ.cache.WellFormed := hg.wellFormed
  have hlookup : σ.cache.entries.lookup C.table = some i :=
    hk.lookup_iff.2 ((h.entry i).2 ⟨rfl, rfl⟩)
  have he : σ.cache.enter C.table = (i, σ.cache) := by
    simp only [enter, hlookup]
  have hstep : σ.cache.step (.call C.table) = _ := call_at_resolving he h.cell
  have hes : (σ.cache.step (.call C.table)).2 = [] := by
    rw [hstep]
  have hpending := pending_perform (C := C) hg hag (σ := σ) rfl rfl (.call C.table)
    (by rw [hes]; rfl)
  constructor
  case members => simpa using h.members
  case started | fails | finished => simp
  case cell =>
    rw [Timeline.cache_perform, hstep]
    exact cells_put_self h.cell
  case callers =>
    rw [Timeline.tasks_perform]
    have hlength : τ.cache.calls.length = τ.tasks.length := hg.length_tasks.symm
    have hold : List.Forall₂ (fun c p' => σ.tasks[c]? = some p') (c :: w) here :=
      h.callers.imp fun c p' hc => getElem?_append_of_some hc
    refine List.rel_append hold (.cons ?_ .nil)
    rw [hlength]
    exact List.getElem?_concat_length
  case entry =>
    intro j
    rw [Timeline.cache_perform, hstep]
    exact h.entry j
  case pending =>
    rw [hpending, has]
    rfl
  case asked =>
    rw [Timeline.asked_perform, hes, List.filterMap_nil, List.append_nil]
    exact h.asked
  case waiting =>
    intro p' hp'
    rw [Timeline.finished_perform, hes, List.filterMap_nil, List.append_nil]
    rw [List.append_assoc] at hp'
    exact h.waiting p' hp'

/-! ## The end of a query -/

theorem filterMap_finish? {cs : List Nat} {r : Except SchemaError SharedSchema}
    (h : List.Forall₂ (fun c p => τ.tasks[c]? = some p) cs ps) :
    (cs.map fun c => .answered c r).filterMap τ.finish?
      = ps.map fun p => (p, ⟨τ.now, .answered r⟩) := by
  induction h with
  | nil => rfl
  | cons hc _ ih => simp [Timeline.finish?, hc, ← ih]

theorem lookup_map_const {v : Finish} (hp : p ∈ ps) :
    (ps.map fun p => (p, v)).lookup p = some v := by
  induction ps with
  | nil => cases hp
  | cons p' ps ih =>
    rw [List.map_cons, List.lookup_cons]
    split
    · rfl
    · rename_i hne
      exact ih ((List.mem_cons.1 hp).resolve_left (by simpa using hne))

theorem Trying.succeed (h : C.Trying τ i c q w failed here []) (hg : τ.Going ts)
    (hag : τ.agenda = ⟨C.time failed.length, .ending q (C.attempt failed.length).2⟩ :: as)
    (has : as.filter (fun b => τ.cache.about b.due.action = some C.table) = [])
    {schema : TableSchema} (hschema : (C.attempt failed.length).2.schema C.table = .ok schema) :
    C.Over ({ τ with now := C.time failed.length, agenda := as }.attend
      (.ending q (C.attempt failed.length).2)) failed.length q := by
  let σ : Timeline := { τ with now := C.time failed.length, agenda := as }
  change C.Over (σ.perform (.settle q (C.attempt failed.length).2)) failed.length q
  have hk : σ.cache.WellFormed := hg.wellFormed
  have hstep : σ.cache.step (.settle q (C.attempt failed.length).2) = _ :=
    hk.settle_of_ok h.cell hschema
  have hasked : (σ.cache.step (.settle q (C.attempt failed.length).2)).2.filterMap
      CacheEvent.asked? = [] := by
    rw [hstep, List.filterMap_eq_nil_iff]
    intro e he
    obtain ⟨x, -, rfl⟩ := List.mem_map.1 he
    rfl
  have hfinished : (σ.perform (.settle q (C.attempt failed.length).2)).finished
      = τ.finished ++ here.map fun p => (p, C.finish q failed.length) := by
    rw [Timeline.finished_perform, hstep, filterMap_finish? (τ := σ) h.callers]
    simp [finish, answer, hschema, Except.map, σ]
  have hmembers : C.members = failed ++ here := by
    rw [h.members, List.append_nil]
  have hhere : 0 < here.length := by
    rw [← h.callers.length_eq]
    exact Nat.succ_pos _
  have hlength : failed.length < C.members.length := by
    rw [hmembers, List.length_append]
    omega
  constructor
  case fails => exact h.fails
  case last =>
    refine .inr ⟨hlength, ?_⟩
    rintro ⟨err, herr⟩
    rw [hschema] at herr
    cases herr
  case pending =>
    rw [pending_perform hg hag (σ := σ) rfl rfl _ hasked, has]
  case asked =>
    rw [Timeline.asked_perform, hasked, List.append_nil, Nat.min_eq_left hlength]
    exact h.asked
  case finished =>
    intro k p hp
    rw [hfinished, List.lookup_append]
    rw [hmembers] at hp
    rcases Nat.lt_or_ge k failed.length with hlt | hle
    · rw [List.getElem?_append_left hlt] at hp
      rw [h.finished k p hp q, Option.some_or, Nat.min_eq_left hlt.le]
    · rw [List.getElem?_append_right hle] at hp
      have hmem := List.mem_of_getElem? hp
      rw [h.waiting p (List.mem_append_left _ hmem), Option.none_or, lookup_map_const hmem,
        Nat.min_eq_right hle]
  case entry =>
    rw [Timeline.cache_perform, hstep]
    change (∃ j, (C.table, j) ∈ τ.cache.entries) ↔ _
    simp [h.entry]
  case filled =>
    intro j hj
    rw [Timeline.cache_perform, hstep] at hj ⊢
    obtain ⟨-, rfl⟩ := (h.entry j).1 hj
    exact ⟨_, cells_put_self h.cell⟩

theorem Trying.fails_succ (h : C.Trying τ i c q w failed here rest)
    (hfails : C.Fails failed.length) {k : Nat} (hk : k < failed.length + 1) : C.Fails k := by
  rcases Nat.lt_succ_iff_lt_or_eq.1 hk with hk | rfl
  · exact h.fails k hk
  · exact hfails

theorem Trying.detached (h : C.Trying τ i c q w failed here rest) (j : Nat) :
    (C.table, j) ∉ (τ.cache.detach i).entries := by
  intro hj
  obtain ⟨hmem, hji⟩ := List.mem_filter.1 hj
  exact absurd ((h.entry j).1 hmem).2 (by simpa using hji)

theorem answer_error {k : Nat} {err : SchemaError}
    (herr : (C.attempt k).2.schema C.table = .error err) : C.answer q k = .error err := by
  rw [answer, herr]
  rfl

theorem answer_of_fails {k : Nat} (h : C.Fails k) (q q' : Nat) : C.finish q k = C.finish q' k := by
  obtain ⟨err, herr⟩ := h
  rw [finish, finish, answer_error herr, answer_error herr]

theorem finished_fail {k : Nat} (hnow : τ.now = C.time k) {err : SchemaError}
    (herr : (C.attempt k).2.schema C.table = .error err) (hp : τ.tasks[c]? = some p)
    {action : CacheAction} {es : List CacheEvent}
    (hstep : (τ.cache.step action).2 = .answered c (.error err) :: es)
    (hes : es.filterMap τ.finish? = []) :
    (τ.perform action).finished = τ.finished ++ [(p, C.finish q k)] := by
  rw [Timeline.finished_perform, hstep, List.filterMap_cons, hes]
  simp [Timeline.finish?, hp, hnow, finish, answer_error herr]

/-- The call that has got an error now, and those that have got errors before. -/
theorem Trying.lookup_failed {k p' : Nat} (h : C.Trying τ i c q w failed (p :: here) rest)
    (hfails : C.Fails failed.length) (hk : (failed ++ [p])[k]? = some p') (q' : Nat) :
    (τ.finished ++ [(p, C.finish q failed.length)]).lookup p' = some (C.finish q' k) := by
  rw [List.lookup_append]
  rcases Nat.lt_or_ge k failed.length with hlt | hle
  · rw [List.getElem?_append_left hlt] at hk
    rw [h.finished k p' hk q', Option.some_or]
  · obtain ⟨rfl, rfl⟩ := eq_of_getElem?_concat hk hle
    rw [h.waiting p (List.mem_append_left _ List.mem_cons_self), Option.none_or,
      List.lookup_cons_self, answer_of_fails hfails]

theorem Trying.fail_last (h : C.Trying τ i c q [] failed here []) (hg : τ.Going ts)
    (hag : τ.agenda = ⟨C.time failed.length, .ending q (C.attempt failed.length).2⟩ :: as)
    (has : as.filter (fun b => τ.cache.about b.due.action = some C.table) = [])
    {err : SchemaError} (herr : (C.attempt failed.length).2.schema C.table = .error err) :
    C.Over ({ τ with now := C.time failed.length, agenda := as }.attend
      (.ending q (C.attempt failed.length).2)) (failed.length + 1) q := by
  let σ : Timeline := { τ with now := C.time failed.length, agenda := as }
  change C.Over (σ.perform (.settle q (C.attempt failed.length).2)) (failed.length + 1) q
  have hk : σ.cache.WellFormed := hg.wellFormed
  have hstep : σ.cache.step (.settle q (C.attempt failed.length).2)
      = ((σ.cache.detach i).put i .idle, [.answered c (.error err)]) :=
    hk.settle_of_error h.cell herr
  obtain ⟨p, hp, rfl⟩ : ∃ p, τ.tasks[c]? = some p ∧ here = [p] := by
    rcases h.callers with _ | ⟨hc, hnil⟩
    cases hnil
    exact ⟨_, hc, rfl⟩
  have hasked : (σ.cache.step (.settle q (C.attempt failed.length).2)).2.filterMap
      CacheEvent.asked? = [] := by
    rw [hstep]
    rfl
  have hfinished : (σ.perform (.settle q (C.attempt failed.length).2)).finished
      = τ.finished ++ [(p, C.finish q failed.length)] :=
    finished_fail (τ := σ) rfl herr hp (congrArg Prod.snd hstep) rfl
  have hmembers : C.members = failed ++ [p] := by
    rw [h.members, List.append_nil]
  have hlength : C.members.length = failed.length + 1 := by
    rw [hmembers, List.length_append, List.length_singleton]
  constructor
  case last => exact .inl hlength.symm
  case fails =>
    exact fun k => h.fails_succ ⟨err, herr⟩
  case pending =>
    rw [pending_perform hg hag (σ := σ) rfl rfl _ hasked, has]
  case asked =>
    rw [Timeline.asked_perform, hasked, List.append_nil, hlength, Nat.min_eq_right (Nat.le_succ _)]
    exact h.asked
  case finished =>
    intro k p' hp'
    rw [hmembers] at hp'
    have hk : k ≤ failed.length := by
      have := (List.getElem?_eq_some_iff.1 hp').1
      rw [List.length_append, List.length_singleton] at this
      omega
    rw [hfinished, h.lookup_failed ⟨err, herr⟩ hp' q, Nat.min_eq_left (Nat.le_succ_of_le hk)]
  case entry =>
    rw [Timeline.cache_perform, hstep]
    constructor
    · rintro ⟨j, hj⟩
      exact absurd hj (h.detached j)
    · exact fun hzero => absurd hzero (Nat.succ_ne_zero _)
  case filled =>
    intro j hj
    rw [Timeline.cache_perform, hstep] at hj
    exact absurd hj (h.detached j)

theorem Trying.fail_next {d : Nat} (h : C.Trying τ i c q (d :: w) failed here []) (hg : τ.Going ts)
    (hag : τ.agenda = ⟨C.time failed.length, .ending q (C.attempt failed.length).2⟩ :: as)
    (has : as.filter (fun b => τ.cache.about b.due.action = some C.table) = [])
    {err : SchemaError} (herr : (C.attempt failed.length).2.schema C.table = .error err)
    (hlimit : τ.limit = C.limit) (hnodup : C.members.Nodup)
    (hreply : (τ.cache.step (.settle q (C.attempt failed.length).2)).2.filterMap
        CacheEvent.asked? = [C.table] →
      (τ.script.take C.table.statement).1 = C.reply (failed.length + 1)) :
    ∃ p here', C.Trying ({ τ with now := C.time failed.length, agenda := as }.attend
      (.ending q (C.attempt failed.length).2)) i d τ.cache.queries.length w (failed ++ [p]) here'
      [] := by
  let σ : Timeline := { τ with now := C.time failed.length, agenda := as }
  change ∃ p here', C.Trying (σ.perform (.settle q (C.attempt failed.length).2)) i d _ w
    (failed ++ [p]) here' []
  have hk : σ.cache.WellFormed := hg.wellFormed
  have hstep : σ.cache.step (.settle q (C.attempt failed.length).2)
      = (((σ.cache.detach i).ask i C.table d w).1,
        [.answered c (.error err), .asked σ.cache.queries.length d C.table]) :=
    hk.settle_of_error h.cell herr
  obtain ⟨p, here', hp, hrest, rfl⟩ : ∃ p here', τ.tasks[c]? = some p
      ∧ List.Forall₂ (fun c p => τ.tasks[c]? = some p) (d :: w) here' ∧ here = p :: here' := by
    rcases h.callers with _ | ⟨hc, hrest⟩
    exact ⟨_, _, hc, hrest, rfl⟩
  have hfinished : (σ.perform (.settle q (C.attempt failed.length).2)).finished
      = τ.finished ++ [(p, C.finish q failed.length)] :=
    finished_fail (τ := σ) rfl herr hp (congrArg Prod.snd hstep) rfl
  have hlength : (failed ++ [p]).length = failed.length + 1 := by
    rw [List.length_append, List.length_singleton]
  refine ⟨p, here', ?_⟩
  constructor
  case started => exact fun _ => rfl
  case members =>
    rw [h.members]
    simp
  case cell =>
    rw [Timeline.cache_perform, hstep]
    exact cells_put_self h.cell
  case callers =>
    rw [Timeline.tasks_perform]
    exact hrest
  case entry =>
    intro j
    rw [Timeline.cache_perform, hstep]
    refine ⟨fun hj => absurd hj (h.detached j), fun hj => ?_⟩
    simp at hj
  case pending =>
    rw [hlength, pending_ask hg hag (σ := σ) rfl rfl hlimit [.answered c (.error err)]
      (by rw [hstep]; rfl) rfl (hreply (congrArg (fun r => r.2.filterMap CacheEvent.asked?) hstep)),
      has, time_succ]
    rfl
  case asked =>
    rw [Timeline.asked_perform, hstep, hlength, List.count_append]
    have hasked : σ.asked.count C.table = C.before + (failed.length + 1) := h.asked
    have hone : (([.answered c (.error err), .asked σ.cache.queries.length d C.table] :
        List CacheEvent).filterMap CacheEvent.asked?).count C.table = 1 := by
      simp [List.filterMap_cons, CacheEvent.asked?]
    rw [hasked, hone]
    rfl
  case fails =>
    intro k hk
    rw [hlength] at hk
    exact h.fails_succ ⟨err, herr⟩ hk
  case finished =>
    intro k p' hk q'
    rw [hfinished, h.lookup_failed ⟨err, herr⟩ hk q']
  case waiting =>
    intro p' hp'
    rw [List.append_nil] at hp'
    have hne : p' ≠ p := by
      rintro rfl
      rw [h.members, List.append_nil] at hnodup
      exact (List.nodup_cons.1 (List.nodup_append.1 hnodup).2.1).1 hp'
    rw [hfinished, List.lookup_append, List.lookup_cons, beq_false_of_ne hne,
      h.waiting p' (List.mem_append_left _ (List.mem_cons_of_mem _ hp'))]
    rfl

end Steps

/-! ## The whole run -/

/-- Some calls are still to come, or try, or all are over. -/
def Stage (C : Crowd) (τ : Timeline) : Prop :=
  C.Idle τ ∨ (∃ i c q w failed here rest, C.Trying τ i c q w failed here rest)
    ∨ ∃ j q, C.Over τ j q

/-- Queries for these tables were asked in the meantime. -/
structure Since (τ₀ τ : Timeline) (us : List TableId) : Prop where
  asked : τ.asked = τ₀.asked ++ us
  script : τ.script = τ₀.script.after us

/-- The queries for the table are answered as they should be. -/
def Answered (C : Crowd) (s : Script) (us : List TableId) : Prop :=
  ∀ k r, (s.taken C.table us)[k]? = some r → r = C.reply k

/-- The calls go on as they should if the replies are as they should be up to now. -/
def RunsSince (C : Crowd) (τ₀ τ : Timeline) : Prop :=
  τ.limit = C.limit ∧ ∃ us, Since τ₀ τ us ∧ (C.Answered τ₀.script us → C.Stage τ)

section Run

variable {C : Crowd} {τ τ₀ : Timeline} {ts : List Task} {a : Appointment} {as : List Appointment}
  {us vs : List TableId}

theorem Since.attend {d : Due} (h : Since τ₀ τ us) :
    Since τ₀ (τ.attend d) (us ++ (τ.cache.step d.action).2.filterMap CacheEvent.asked?) where
  asked := by rw [Timeline.asked_attend, h.asked, List.append_assoc]
  script := by rw [Timeline.script_attend, h.script, Script.after_append]

theorem Answered.of_append {s : Script} (h : C.Answered s (us ++ vs)) : C.Answered s us := by
  intro k r hk
  rw [Answered, Script.taken_append] at h
  exact h k r (getElem?_append_of_some hk)

/-- The next query takes the next reply. -/
theorem Answered.reply {k : Nat} (hsince : Since τ₀ τ us)
    (h : C.Answered τ₀.script (us ++ [C.table])) (hk : us.count C.table = k) :
    (τ.script.take C.table.statement).1 = C.reply k := by
  have htaken : τ₀.script.taken C.table (us ++ [C.table])
      = τ₀.script.taken C.table us ++ [(τ.script.take C.table.statement).1] := by
    rw [Script.taken_append, ← hsince.script]
    simp [Script.taken]
  rw [Answered, htaken] at h
  refine h k _ ?_
  rw [← hk, ← Script.length_taken (s := τ₀.script)]
  exact List.getElem?_concat_length

theorem Stage.step (h : C.Stage τ) (hg : τ.Going ts) (hC : C.Members ts) (hnodup : C.members.Nodup)
    (hag : τ.agenda = a :: as) (hlimit : τ.limit = C.limit) (hpos : ∀ k, 0 < (C.attempt k).1)
    (hsince : Since τ₀ τ us) (hbefore : C.before = τ₀.asked.count C.table)
    (hanswered : C.Answered τ₀.script
      (us ++ (τ.cache.step a.due.action).2.filterMap CacheEvent.asked?)) :
    C.Stage ({ τ with now := a.time, agenda := as }.attend a.due) := by
  by_cases ha : τ.cache.about a.due.action = some C.table
  · have hcount : τ.asked.count C.table = C.before + us.count C.table := by
      rw [hsince.asked, List.count_append, hbefore]
    have hreply : ∀ k, us.count C.table = k →
        (τ.cache.step a.due.action).2.filterMap CacheEvent.asked? = [C.table] →
        (τ.script.take C.table.statement).1 = C.reply k := by
      intro k hk hasked
      rw [hasked] at hanswered
      exact hanswered.reply hsince hk
    rcases h with h | ⟨i, c, q, w, failed, here, rest, h⟩ | ⟨j, q, h⟩
    · have hnone : us.count C.table = 0 := by
        have := h.asked
        omega
      have hpending := h.pending
      rcases hmembers : C.members with _ | ⟨p, ps⟩
      · rw [hmembers] at hpending
        exact absurd hpending (pending_ne_nil hag ha)
      · rw [hmembers] at hpending
        obtain ⟨rfl, has⟩ := pending_tail hag ha hpending
        obtain ⟨i, c, q, hnext⟩ := h.step hg hmembers hag has hlimit (hpos 0) (hreply 0 hnone)
        exact .inr (.inl ⟨i, c, q, [], [], [p], ps, hnext⟩)
    · have hmany : us.count C.table = failed.length + 1 := by
        have := h.asked
        omega
      rcases rest with _ | ⟨p, rest⟩
      -- All calls have started, so it is the query that ends.
      · obtain ⟨rfl, has⟩ := pending_tail hag ha h.pending
        rcases hend : (C.attempt failed.length).2.schema C.table with err | schema
        · rcases w with _ | ⟨d, w⟩
          · exact .inr (.inr ⟨_, q, h.fail_last hg hag has hend⟩)
          · obtain ⟨p, here', hnext⟩ := h.fail_next hg hag has hend hlimit hnodup (hreply _ hmany)
            exact .inr (.inl ⟨_, _, _, _, _, _, _, hnext⟩)
        · exact .inr (.inr ⟨_, q, h.succeed hg hag has hend⟩)
      -- Some call has not started, so no attempt is over.
      · obtain rfl : failed = [] := by
          by_contra hne
          cases h.started hne
        obtain ⟨rfl, has⟩ := pending_tail hag ha h.pending
        exact .inr (.inl ⟨_, _, _, _, _, _, _, h.join hg hag has⟩)
    · exact absurd h.pending (pending_ne_nil hag ha)
  · have hu := hg.undisturbed hag ha
    exact h.imp (fun h => h.undisturbed hC hu) (Or.imp
      (fun ⟨i, c, q, w, failed, here, rest, h⟩ =>
        ⟨i, c, q, w, failed, here, rest, h.undisturbed hC hu⟩)
      fun ⟨j, q, h⟩ => ⟨j, q, h.undisturbed hC hu⟩)

end Run

end Crowd

end TableCapture
