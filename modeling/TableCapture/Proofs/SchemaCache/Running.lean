import Mathlib.Algebra.Ring.Nat
import TableCapture.Proofs.SchemaCache.Attending
import TableCapture.Proofs.SchemaCache.Frame
import TableCapture.Proofs.SchemaCache.Memo

/-!
# Running tasks

While tasks are run, whatever somebody waits for is on the agenda, and each call at a cell has a
task that is a call for the table of the cell (`Going`). Attending to what is first on the agenda
keeps this (`Going.attend`), and takes away from what is left to attend to (`burden_attend`): a
call asks one query at most, at once or when it leaves the line it waits in, and it loses its
patience once at most. So a run attends to each task three times at most, and ends with an empty
agenda and nobody waiting (`AtRest.run`). What a step keeps therefore holds at the end of a run
(`Going.advance_induction`).
-/

namespace TableCapture

/-- The number of calls in line at a cell. -/
def CellContent.inLine : CellContent → Nat
  | resolving _ _ waiting => waiting.length
  | _ => 0

/-- The places in line that an action can add. -/
def CacheAction.places : CacheAction → Nat
  | call _ => 1
  | _ => 0

/-- How often something due is attended to at most, counting what comes of it. A call asks at most
one query, and may be given up. -/
def Due.weight : Due → Nat
  | errand _ (.get _ _) => 3
  | _ => 1

/-- The table that an errand is for. -/
def Errand.table? : Errand → Option TableId
  | get t _ | cached t | invalidate t => some t
  | size => none

namespace SchemaCache

/-- The number of calls in line at all cells. -/
def inLine (k : SchemaCache) : Nat :=
  (k.cells.map fun c => c.content.inLine).sum

/-! ## Those in line -/

section InLine

variable {k k' k₁ : SchemaCache} {a : CacheAction} {es : List CacheEvent} {t : TableId}
  {i c q : Nat} {x y : CellContent} {w : List Nat}

theorem inLine_put (hi : k.cells[i]? = some ⟨t, x⟩) :
    (k.put i y).inLine + x.inLine = k.inLine + y.inLine := by
  have hlist : ∀ (l : List SchemaCell) (i : Nat), l[i]? = some ⟨t, x⟩ →
      ((l.modify i fun c => { c with content := y }).map fun c => c.content.inLine).sum + x.inLine
        = (l.map fun c => c.content.inLine).sum + y.inLine := by
    intro l
    induction l with
    | nil => simp
    | cons c l ih =>
      intro i hi
      cases i with
      | zero =>
        cases hi
        simp only [List.modify_zero_cons, List.map_cons, List.sum_cons]
        omega
      | succ i =>
        have := ih i hi
        simp only [List.modify_succ_cons, List.map_cons, List.sum_cons]
        omega
  exact hlist k.cells i hi

theorem inLine_enter (he : k.enter t = (i, k₁)) : k₁.inLine = k.inLine := by
  rcases enter_cases he with ⟨-, rfl⟩ | ⟨-, -, rfl⟩
  · rfl
  · simp [inLine, CellContent.inLine]

/-- Of those in line, the first one asks. -/
theorem inLine_passOn (hi : k.cells[i]? = some ⟨t, .resolving c q w⟩) :
    (k.passOn i t w).1.inLine + ((k.passOn i t w).2.filterMap CacheEvent.asked?).length
      = k.inLine := by
  cases w with
  | nil =>
    have := inLine_put (y := .idle) hi
    simpa [passOn_nil, CellContent.inLine] using this
  | cons d w =>
    have := inLine_put (y := .resolving d k.queries.length w) hi
    simp only [CellContent.inLine, List.length_cons] at this
    have hsame : (k.passOn i t (d :: w)).1.inLine
      = (k.put i (.resolving d k.queries.length w)).inLine := rfl
    rw [hsame]
    simp only [passOn_cons, ask, CacheEvent.asked?, List.filterMap_cons, List.filterMap_nil,
      List.length_singleton]
    omega

/-- A call that does not ask at once gets in line, and asks when it leaves the line at the
latest. -/
theorem Transition.inLine_le (h : Transition k a k' es) :
    k'.inLine + (es.filterMap CacheEvent.asked?).length ≤ k.inLine + a.places := by
  have hput : ∀ {k : SchemaCache} {i : Nat} {t : TableId} {x y : CellContent},
      k.cells[i]? = some ⟨t, x⟩ → y.inLine ≤ x.inLine → (k.put i y).inLine ≤ k.inLine :=
    fun {k i t x y} hi hle => by
      have := inLine_put (y := y) hi
      omega
  cases h with
  | @hit t i k₁ s he hi =>
    have := inLine_enter he
    change k₁.inLine + 0 ≤ k.inLine + 1
    omega
  | @began t i k₁ he hi =>
    have := inLine_enter he
    have hle := hput (y := .resolving k.calls.length k₁.queries.length []) hi (Nat.zero_le _)
    change (k₁.put i (.resolving k.calls.length k₁.queries.length [])).inLine + 1 ≤ k.inLine + 1
    omega
  | @joined t i k₁ d q w he hi =>
    have := inLine_enter he
    have hcome := inLine_put (y := .resolving d q (w ++ [k.calls.length])) hi
    simp only [CellContent.inLine, List.length_append, List.length_singleton] at hcome
    change (k₁.put i (.resolving d q (w ++ [k.calls.length]))).inLine + 0 ≤ k.inLine + 1
    omega
  | @filled q e i t c w schema hi he =>
    have := hput (y := .filled ⟨q, schema⟩) hi (Nat.zero_le _)
    have hnone : ((c :: w).map fun x => CacheEvent.answered x (.ok ⟨q, schema⟩)).filterMap
        CacheEvent.asked? = [] := by
      rw [List.filterMap_eq_nil_iff]
      intro e he
      obtain ⟨x, -, rfl⟩ := List.mem_map.1 he
      rfl
    rw [hnone]
    exact this
  | @failed q e i t c w err hi he => exact (inLine_passOn (k := k.detach i) hi).le
  | resigned hi => exact (inLine_passOn hi).le
  | left hi hc => exact hput hi (List.length_erase_le ..)
  | late | absent | seen | invalidated | counted => exact Nat.le_refl _

end InLine

/-! ## Queries that are awaited -/

section Resolving

variable {k k' : SchemaCache} {a : CacheAction} {es : List CacheEvent} {t u : TableId}
  {i j c q : Nat} {w : List Nat}

theorem resolving_of_passOn {v : List Nat}
    (h : (k.passOn j u v).1.cells[i]? = some ⟨t, .resolving c q w⟩)
    (hj : ∃ x, k.cells[j]? = some ⟨u, x⟩) :
    (j ≠ i ∧ k.cells[i]? = some ⟨t, .resolving c q w⟩) ∨ .asked q c t ∈ (k.passOn j u v).2 := by
  obtain ⟨x, hx⟩ := hj
  cases v with
  | nil =>
    rcases cells_put.1 h with ⟨-, hidle, -⟩ | h
    · cases hidle
    · exact .inl h
  | cons d v =>
    rcases cells_put.1 h with ⟨rfl, hnew, z, hz⟩ | h
    · cases hnew
      rw [(table_unique hx hz).1]
      exact .inr List.mem_cons_self
    · exact .inl h

/-- A query that is awaited was awaited before and has not ended now, or is asked now. -/
theorem Transition.resolving_cell (h : Transition k a k' es) (hk : k.WellFormed)
    (hi : k'.cells[i]? = some ⟨t, .resolving c q w⟩) :
    ((∃ v, k.cells[i]? = some ⟨t, .resolving c q v⟩) ∧ ∀ e, a ≠ .settle q e)
      ∨ .asked q c t ∈ es := by
  -- A query is awaited at one cell only.
  have hother : ∀ {j d p u v}, k.cells[j]? = some ⟨u, .resolving d p v⟩ → j ≠ i →
      k.cells[i]? = some ⟨t, .resolving c q w⟩ → p ≠ q := by
    rintro j d p u v hj hji hi rfl
    have hcell := hk.cell_of_query hj
    rw [hk.cell_of_query hi] at hcell
    exact hji (Option.some.inj hcell).symm
  cases h with
  | hit he _ => exact .inl ⟨⟨w, cell_of_enter he hi (by simp)⟩, by simp⟩
  | @began u j k₁ he hj =>
    rcases cells_put.1 hi with ⟨rfl, hnew, z, hz⟩ | ⟨-, hi⟩
    · cases hnew
      obtain ⟨rfl, -⟩ := table_unique hj hz
      rw [← (enter_calls he).2]
      exact .inr List.mem_cons_self
    · exact .inl ⟨⟨w, cell_of_enter he hi (by simp)⟩, by simp⟩
  | @joined u j k₁ d p v he hj =>
    rcases cells_put.1 hi with ⟨rfl, hnew, z, hz⟩ | ⟨-, hi⟩
    · cases hnew
      obtain ⟨rfl, -⟩ := table_unique hj hz
      exact .inl ⟨⟨v, cell_of_enter he hj (by simp)⟩, by simp⟩
    · exact .inl ⟨⟨w, cell_of_enter he hi (by simp)⟩, by simp⟩
  | filled hj he =>
    rcases cells_put.1 hi with ⟨-, hnew, -⟩ | ⟨hji, hi⟩
    · cases hnew
    · exact .inl ⟨⟨w, hi⟩, by simp [hother hj hji hi]⟩
  | @failed p e j u d v err hj he =>
    rcases resolving_of_passOn hi ⟨_, hj⟩ with ⟨hji, hi⟩ | hasked
    · exact .inl ⟨⟨w, hi⟩, by simp [hother hj hji hi]⟩
    · exact .inr (List.mem_cons_of_mem _ hasked)
  | resigned hj =>
    rcases resolving_of_passOn hi ⟨_, hj⟩ with ⟨-, hi⟩ | hasked
    · exact .inl ⟨⟨w, hi⟩, by simp⟩
    · exact .inr (List.mem_cons_of_mem _ hasked)
  | @left j u d p v x hj hx =>
    rcases cells_put.1 hi with ⟨rfl, hnew, z, hz⟩ | ⟨-, hi⟩
    · cases hnew
      obtain ⟨rfl, -⟩ := table_unique hj hz
      exact .inl ⟨⟨v, hj⟩, by simp⟩
    · exact .inl ⟨⟨w, hi⟩, by simp⟩
  | @late p e hno =>
    refine .inl ⟨⟨w, hi⟩, ?_⟩
    rintro e' heq
    cases heq
    exact hno _ _ _ _ hi
  | absent | seen | invalidated | counted => exact .inl ⟨⟨w, hi⟩, by simp⟩

end Resolving

/-! ## Tables of what comes of an action -/

section About

variable {k k' : SchemaCache} {a : CacheAction} {es : List CacheEvent} {t : TableId} {c q : Nat}

theorem about_errand (e : Errand) : k.about e.action = e.table? := by
  cases e <;> rfl

theorem Grows.about (h : Grows k k') (ha : k.about a = some t) : k'.about a = some t := by
  cases a with
  | settle q e => exact h.queryTable ha
  | drop c => exact h.callTable ha
  | call | cached | invalidate => exact ha
  | size => cases ha

theorem Transition.queryTable_of_asked (h : Transition k a k' es) (hk : k.WellFormed)
    (hq : .asked q c t ∈ es) : k'.queryTable? q = some t := by
  rcases h.asks hk with ⟨-, hno⟩ | ⟨d, u, i, w, -, -, hi, hiff⟩
  · exact absurd hq (hno q c t)
  · obtain ⟨rfl, rfl, rfl⟩ := (hiff q c t).1 hq
    exact (((h.wellFormed hk).names hi).2 _ rfl)

theorem Transition.callTable_of_call (h : Transition k (.call t) k' es) (hk : k.WellFormed) :
    k'.callTable? k.calls.length = some t := by
  obtain ⟨i, k₁, he, hg, -, -, hcalls⟩ := h.of_call
  obtain ⟨y, hi⟩ := hk.enter_cell he
  refine callTable?_eq_some.2 ⟨i, ?_, hg.cellTable (cellTable?_eq_some.2 ⟨y, hi⟩)⟩
  rw [hcalls]
  exact List.getElem?_concat_length

theorem Transition.callTable_of_ended (h : Transition k a k' es) (hk : k.WellFormed)
    (ha : k.about a = some t) (hc : Ended es c) : k'.callTable? c = some t := by
  obtain ⟨e, he, hec⟩ := hc
  have hnamed := h.named hk ha e he
  cases e with
  | answered d r =>
    cases hec
    exact hnamed.1
  | dropped d =>
    cases hec
    exact hnamed
  | asked | found | counted => cases hec

theorem Transition.length_calls (h : Transition k a k' es) :
    k'.calls.length = k.calls.length + a.places := by
  by_cases ha : ∃ u, a = .call u
  · obtain ⟨u, rfl⟩ := ha
    obtain ⟨i, -, -, -, -, -, hcalls⟩ := h.of_call
    rw [hcalls, List.length_append]
    rfl
  · rw [h.calls_eq fun u hu => ha ⟨u, hu⟩]
    cases a with
    | call u => exact absurd ⟨u, rfl⟩ ha
    | settle | drop | cached | invalidate | size => rfl

end About

end SchemaCache

namespace Timeline

open SchemaCache

/-! ## Tasks that are being run -/

/-- A task is a call for a table. -/
def CallsFor (ts : List Task) (t : TableId) (p : Nat) : Prop :=
  ∃ s x, ts[p]? = some ⟨s, .get t x⟩

/-- The calls at a cell have tasks that are calls for the table of the cell. -/
def Served (ts : List Task) (τ : Timeline) : Prop :=
  ∀ (i : Nat) t y, τ.cache.cells[i]? = some ⟨t, y⟩ → ∀ c ∈ y.callers,
    ∃ p, τ.tasks[c]? = some p ∧ CallsFor ts t p

/-- Tasks are being run. Each call has a task, which is for the table of the call as long as the
call is not over. What is awaited is on the agenda, and so are the tasks that have not started. -/
structure Going (ts : List Task) (τ : Timeline) : Prop where
  wellFormed : τ.cache.WellFormed
  length_tasks : τ.tasks.length = τ.cache.calls.length
  sorted : Appointment.Sorted τ.agenda
  known : ∀ a ∈ τ.agenda, a.due.action = .size ∨ ∃ u, τ.cache.about a.due.action = some u
  errand : ∀ a ∈ τ.agenda, ∀ p e, a.due = .errand p e → ∃ s, ts[p]? = some ⟨s, e⟩
  awaited : ∀ (i : Nat) t c q w, τ.cache.cells[i]? = some ⟨t, .resolving c q w⟩ →
    ∃ a ∈ τ.agenda, ∃ e, a.due = .ending q e
  served : Served ts τ

/-- How often something is attended to from now on at most. -/
def burden (τ : Timeline) : Nat :=
  (τ.agenda.map fun a => a.due.weight).sum + τ.cache.inLine

section Attend

variable {τ : Timeline} {ts : List Task} {a : Appointment} {as : List Appointment} {d : Due}

theorem length_callers (d : Due) : d.callers.length = d.action.places := by
  rcases d with ⟨q, e⟩ | c | ⟨p, ⟨t, x⟩ | t | t | _⟩ <;> rfl

theorem length_limits (d : Due) : (d.limits τ).length + d.action.places + 1 ≤ d.weight := by
  rcases d with ⟨q, e⟩ | c | ⟨p, ⟨t, _ | ms⟩ | t | t | _⟩ <;> simp [Due.limits, Due.action,
    Errand.action, CacheAction.places, Due.weight]

theorem weight_pos (d : Due) : 0 < d.weight := by
  unfold Due.weight
  split <;> omega

theorem weight_le (d : Due) : d.weight ≤ 3 := by
  unfold Due.weight
  split <;> omega

theorem mem_limits {b : Appointment} (hb : b ∈ d.limits τ) :
    ∃ p t ms, d = .errand p (.get t (some ms)) ∧ b.due = .impatience τ.cache.calls.length := by
  unfold Due.limits at hb
  split at hb
  · rw [List.mem_singleton.1 hb]
    exact ⟨_, _, _, rfl, rfl⟩
  · cases hb

theorem weight_of_added {es : List CacheEvent} {ds : List Appointment} (hds : Endings es ds) :
    ((ds ++ d.limits τ).map fun a => a.due.weight).sum = ds.length + (d.limits τ).length := by
  have hone : ∀ a ∈ ds ++ d.limits τ, a.due.weight = 1 := by
    intro a ha
    rcases List.mem_append.1 ha with ha | ha
    · obtain ⟨q, c, t, e, -, hdue⟩ := hds.asked a ha
      rw [hdue]
      rfl
    · obtain ⟨p, t, ms, -, hdue⟩ := mem_limits ha
      rw [hdue]
      rfl
  rw [List.map_congr_left hone, List.map_const', List.sum_replicate_nat, Nat.mul_one,
    List.length_append]

theorem burden_attend (hk : τ.cache.WellFormed) (d : Due) :
    (τ.attend d).burden + 1 ≤ τ.burden + d.weight := by
  obtain ⟨ds, hds, hagenda⟩ := agenda_attend τ d
  have hline := (hk.step_transition d.action).inLine_le
  have hlimits := length_limits (τ := τ) d
  have hsum := ((Appointment.insertAll_perm (ds ++ d.limits τ) τ.agenda).map
    fun a => a.due.weight).sum_eq
  rw [List.map_append, List.sum_append, weight_of_added hds, hds.length_eq] at hsum
  unfold burden
  rw [hagenda, hsum, cache_attend]
  omega

theorem mem_agenda_attend {b : Appointment} (hb : b ∈ (τ.attend d).agenda) : b ∈ τ.agenda
    ∨ (∃ q c t e, .asked q c t ∈ (τ.cache.step d.action).2 ∧ b.due = .ending q e)
    ∨ ∃ p t ms, d = .errand p (.get t (some ms)) ∧ b.due = .impatience τ.cache.calls.length := by
  obtain ⟨ds, hds, hagenda⟩ := agenda_attend τ d
  rw [hagenda, Appointment.mem_insertAll, List.mem_append] at hb
  rcases hb with (hb | hb) | hb
  · exact .inr (.inl (hds.asked b hb))
  · exact .inr (.inr (mem_limits hb))
  · exact .inl hb

theorem exists_of_call {t : TableId} (h : d.action = .call t) :
    ∃ p x, d = .errand p (.get t x) := by
  rcases d with ⟨q, e⟩ | c | ⟨p, ⟨u, x⟩ | u | u | _⟩ <;> cases h
  exact ⟨p, x, rfl⟩

theorem served_attend (hk : τ.cache.WellFormed) (hlength : τ.tasks.length = τ.cache.calls.length)
    (h : Served ts τ) (hd : ∀ p e, d = .errand p e → ∃ s, ts[p]? = some ⟨s, e⟩) :
    Served ts (τ.attend d) := by
  have ht := hk.step_transition d.action
  intro i t y hi c hc
  rw [cache_attend] at hi
  rw [tasks_attend]
  rcases ((ht.callers hk i t y hi c).1 hc).1 with ⟨z, hz, hcz⟩ | ⟨hle, hci⟩
  · obtain ⟨p, hp, hfor⟩ := h i t z hz c hcz
    exact ⟨p, getElem?_append_of_some hp, hfor⟩
  · by_cases hcall : ∃ u, d.action = .call u
    · obtain ⟨u, hu⟩ := hcall
      obtain ⟨p, x, rfl⟩ := exists_of_call hu
      obtain ⟨j, -, -, -, -, -, hcalls⟩ := Transition.of_call ht
      have htable := Transition.callTable_of_call ht hk
      obtain ⟨s, hs⟩ := hd p _ rfl
      rw [hcalls] at hci
      obtain ⟨rfl, rfl⟩ := eq_of_getElem?_concat hci hle
      obtain ⟨i, hci', hi'⟩ := callTable?_eq_some.1 htable
      rw [hcalls, List.getElem?_concat_length] at hci'
      cases hci'
      rw [cellTable?_eq_some.2 ⟨y, hi⟩] at hi'
      cases hi'
      refine ⟨p, ?_, s, x, hs⟩
      rw [← hlength]
      exact List.getElem?_concat_length
    · rw [ht.calls_eq fun u hu => hcall ⟨u, hu⟩] at hci
      exact absurd hci (not_call_length hle)

theorem Going.attend (h : Going ts τ) (hag : τ.agenda = a :: as) :
    Going ts ({ τ with now := a.time, agenda := as }.attend a.due) := by
  let σ : Timeline := { τ with now := a.time, agenda := as }
  have hk : σ.cache.WellFormed := h.wellFormed
  have ht := hk.step_transition a.due.action
  have hmem : ∀ b ∈ as, b ∈ τ.agenda := fun b hb => hag ▸ List.mem_cons_of_mem _ hb
  have ha : a ∈ τ.agenda := hag ▸ List.mem_cons_self
  have hsorted : Appointment.Sorted σ.agenda := by
    have := h.sorted
    rw [hag] at this
    exact (List.pairwise_cons.1 this).2
  constructor
  case wellFormed =>
    rw [cache_attend]
    exact hk.step _
  case length_tasks =>
    have hlength : σ.tasks.length = σ.cache.calls.length := h.length_tasks
    rw [tasks_attend, List.length_append, cache_attend, ht.length_calls, length_callers, hlength]
  case sorted =>
    obtain ⟨ds, -, hagenda⟩ := agenda_attend σ a.due
    rw [hagenda]
    exact Appointment.sorted_insertAll hsorted _
  case known =>
    intro b hb
    rw [cache_attend]
    rcases mem_agenda_attend hb with hb | ⟨q, c, t, e, hq, hdue⟩ | ⟨p, t, ms, hdue, hb⟩
    · exact (h.known b (hmem b hb)).imp_right fun ⟨u, hu⟩ => ⟨u, ht.grows.about hu⟩
    · rw [hdue]
      exact .inr ⟨t, ht.queryTable_of_asked hk hq⟩
    · rw [hb]
      rw [hdue] at ht ⊢
      exact .inr ⟨t, Transition.callTable_of_call ht hk⟩
  case errand =>
    intro b hb p e hdue
    rcases mem_agenda_attend hb with hb | ⟨q, c, t, e', -, hb⟩ | ⟨p', t, ms, -, hb⟩
    · exact h.errand b (hmem b hb) p e hdue
    · rw [hb] at hdue
      cases hdue
    · rw [hb] at hdue
      cases hdue
  case awaited =>
    intro i t c q w hi
    obtain ⟨ds, hds, hagenda⟩ := agenda_attend σ a.due
    rw [cache_attend] at hi
    rw [hagenda]
    simp only [Appointment.mem_insertAll, List.mem_append]
    rcases ht.resolving_cell hk hi with ⟨⟨v, hv⟩, hnot⟩ | hasked
    · obtain ⟨b, hb, e, hdue⟩ := h.awaited i t c q v hv
      rw [hag] at hb
      rcases List.mem_cons.1 hb with rfl | hb
      · exact absurd (congrArg Due.action hdue) (hnot e)
      · exact ⟨b, .inr hb, e, hdue⟩
    · obtain ⟨b, hb, e, hdue⟩ := hds.ending q c t hasked
      exact ⟨b, .inl (.inl hb), e, hdue⟩
  case served =>
    exact served_attend hk h.length_tasks h.served (h.errand a ha)

end Attend

/-! ## Runs -/

/-- Nothing is on the agenda, and nobody waits. -/
structure AtRest (τ : Timeline) : Prop where
  wellFormed : τ.cache.WellFormed
  length_tasks : τ.tasks.length = τ.cache.calls.length
  agenda : τ.agenda = []
  quiet : τ.cache.Quiet

/-- A timeline that can come of running tasks time and again. -/
inductive Reachable : Timeline → Prop where
  | start (script : Script) (limit : Option Duration) : Reachable (start script limit)
  | run {τ : Timeline} (h : Reachable τ) (ts : List Task) : Reachable (τ.runTasks ts).1

/-- Tasks as they are put on the agenda. -/
def appointments (τ : Timeline) (ts : List Task) : List Appointment :=
  ts.zipIdx.map fun p => ⟨τ.now + p.1.start, .errand p.2 p.1.errand⟩

/-- The time at which tasks are on the agenda and none has started. -/
def begun (τ : Timeline) (ts : List Task) : Timeline :=
  { τ with finished := [], agenda := Appointment.insertAll (τ.appointments ts) τ.agenda }

section Runs

variable {τ : Timeline} {ts : List Task} {a : Appointment} {as : List Appointment} {n : Nat}

theorem foldl_schedule (ps : List (Task × Nat)) (τ : Timeline) :
    ps.foldl (fun τ p => τ.schedule p.1.start (.errand p.2 p.1.errand)) τ
      = { τ with
          agenda := Appointment.insertAll
            (ps.map fun p => ⟨τ.now + p.1.start, .errand p.2 p.1.errand⟩) τ.agenda } := by
  induction ps generalizing τ with
  | nil => rfl
  | cons p ps ih =>
    rw [List.foldl_cons, ih]
    rfl

theorem runTasks_fst (τ : Timeline) (ts : List Task) :
    (τ.runTasks ts).1 = advance (3 * ts.length + τ.agenda.length) (τ.begun ts) := by
  unfold runTasks
  rw [foldl_schedule]
  rfl

theorem runTasks_snd (τ : Timeline) (ts : List Task) :
    (τ.runTasks ts).2 = ts.zipIdx.map fun p =>
      ((τ.runTasks ts).1.finished.lookup p.2).map fun f => { f with time := f.time - τ.now } :=
  rfl

theorem advance_nil (h : τ.agenda = []) : advance n τ = τ := by
  cases n with
  | zero => rfl
  | succ n => simp [advance, h]

theorem advance_cons (h : τ.agenda = a :: as) :
    advance (n + 1) τ = advance n ({ τ with now := a.time, agenda := as }.attend a.due) := by
  simp [advance, h]

/-- What holds of tasks that are being run, and is kept by attending to something, holds when all
has been attended to. -/
theorem Going.advance_induction {P : Timeline → Prop}
    (hstep : ∀ τ a as, Going ts τ → τ.agenda = a :: as → P τ →
      P ({ τ with now := a.time, agenda := as }.attend a.due)) :
    ∀ n τ, Going ts τ → τ.burden ≤ n → P τ →
      Going ts (advance n τ) ∧ (advance n τ).agenda = [] ∧ P (advance n τ) := by
  -- The fuel is never less than what is left to attend to.
  intro n
  induction n with
  | zero =>
    intro τ h hn hP
    refine ⟨h, ?_, hP⟩
    rcases hag : τ.agenda with _ | ⟨a, as⟩
    · exact hag
    · have hpos := weight_pos a.due
      simp only [burden, hag, List.map_cons, List.sum_cons] at hn
      omega
  | succ n ih =>
    intro τ h hn hP
    rcases hag : τ.agenda with _ | ⟨a, as⟩
    · rw [advance_nil hag]
      exact ⟨h, hag, hP⟩
    · have hless := burden_attend (τ := { τ with now := a.time, agenda := as }) h.wellFormed a.due
      simp only [burden, hag, List.map_cons, List.sum_cons] at hn hless
      rw [advance_cons hag]
      refine ih _ (h.attend hag) ?_ (hstep τ a as h hag hP)
      unfold burden
      omega

theorem AtRest.going_begun (h : AtRest τ) (ts : List Task) : Going ts (τ.begun ts) := by
  have hmem : ∀ a ∈ (τ.begun ts).agenda, ∃ x p, ts[p]? = some x
      ∧ a = ⟨τ.now + x.start, .errand p x.errand⟩ := by
    intro a ha
    simp only [begun, Appointment.mem_insertAll, h.agenda, List.not_mem_nil, or_false] at ha
    obtain ⟨⟨x, p⟩, hp, rfl⟩ := List.mem_map.1 ha
    exact ⟨x, p, List.mem_zipIdx_iff_getElem?.1 hp, rfl⟩
  constructor
  case wellFormed => exact h.wellFormed
  case length_tasks => exact h.length_tasks
  case sorted =>
    refine Appointment.sorted_insertAll ?_ _
    rw [h.agenda]
    exact List.Pairwise.nil
  case known =>
    intro a ha
    obtain ⟨⟨s, e⟩, p, -, rfl⟩ := hmem a ha
    cases e with
    | get t x | cached t | invalidate t => exact .inr ⟨t, rfl⟩
    | size => exact .inl rfl
  case errand =>
    intro a ha p e hdue
    obtain ⟨⟨s, e'⟩, p', hp, rfl⟩ := hmem a ha
    cases hdue
    exact ⟨s, hp⟩
  case awaited =>
    intro i t c q w hi
    exact absurd List.mem_cons_self (h.quiet i t _ hi c)
  case served =>
    intro i t y hi c hc
    exact absurd hc (h.quiet i t y hi c)

theorem Quiet.inLine_eq {k : SchemaCache} (h : k.Quiet) : k.inLine = 0 := by
  refine List.sum_eq_zero_iff_forall_eq_nat.2 fun m hm => ?_
  obtain ⟨⟨t, y⟩, hmem, rfl⟩ := List.mem_map.1 hm
  obtain ⟨i, hi⟩ := List.mem_iff_getElem?.1 hmem
  cases y with
  | resolving c q w => exact absurd List.mem_cons_self (h i t _ hi c)
  | idle | filled => rfl

theorem sum_weight_le (l : List Appointment) :
    (l.map fun a => a.due.weight).sum ≤ 3 * l.length := by
  induction l with
  | nil => exact Nat.le_refl _
  | cons a l ih =>
    have := weight_le a.due
    simp only [List.map_cons, List.sum_cons, List.length_cons]
    omega

theorem AtRest.burden_begun (h : AtRest τ) (ts : List Task) :
    (τ.begun ts).burden ≤ 3 * ts.length := by
  have hle := sum_weight_le (τ.begun ts).agenda
  have hlength := (Appointment.insertAll_perm (τ.appointments ts) τ.agenda).length_eq
  rw [h.agenda, List.append_nil, appointments, List.length_map, List.length_zipIdx] at hlength
  have hag : (τ.begun ts).agenda.length = ts.length := by
    rw [begun, h.agenda]
    exact hlength
  have hline : (τ.begun ts).cache.inLine = 0 := Quiet.inLine_eq h.quiet
  unfold burden
  omega

theorem Going.atRest (h : Going ts τ) (hag : τ.agenda = []) : AtRest τ := by
  refine ⟨h.wellFormed, h.length_tasks, hag, fun i t y hi c hc => ?_⟩
  cases y with
  | resolving d q w =>
    obtain ⟨a, ha, -⟩ := h.awaited i t d q w hi
    rw [hag] at ha
    cases ha
  | idle | filled => cases hc

/-- Running tasks attends to all of them, and to all that comes of them. -/
theorem AtRest.run (h : AtRest τ) (ts : List Task) : AtRest (τ.runTasks ts).1 := by
  have hburden := h.burden_begun ts
  rw [runTasks_fst, h.agenda]
  obtain ⟨hgoing, hag, -⟩ := Going.advance_induction (P := fun _ => True)
    (fun _ _ _ _ _ _ => trivial) (3 * ts.length) _ (h.going_begun ts) hburden trivial
  exact hgoing.atRest hag

theorem Reachable.atRest (h : Reachable τ) : AtRest τ := by
  induction h with
  | start script limit =>
    exact ⟨.empty, rfl, rfl, fun i t y hi => by cases hi⟩
  | run h ts ih => exact ih.run ts

end Runs

end Timeline

end TableCapture
