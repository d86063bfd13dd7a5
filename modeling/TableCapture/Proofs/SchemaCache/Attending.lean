import TableCapture.Proofs.SchemaCache.Agenda
import TableCapture.Proofs.SchemaCache.Record

/-!
# Attending to the agenda

What is due comes to one action of the cache (`Due.action`). Of what comes of the action, each query
takes its reply from the script and has its ending put on the agenda, and each call that is over
ends its task (`agenda_attend`, `finished_attend`). A new call belongs to the task that is attended
to (`tasks_attend`).
-/

namespace TableCapture

/-- The action that an errand comes to. -/
def Errand.action : Errand → CacheAction
  | get t _ => .call t
  | cached t => .cached t
  | invalidate t => .invalidate t
  | size => .size

/-- The action that something due comes to. -/
def Due.action : Due → CacheAction
  | ending q e => .settle q e
  | impatience c => .drop c
  | errand _ e => e.action

/-- The task that makes a call, as a list. -/
def Due.callers : Due → List Nat
  | errand p (.get _ _) => [p]
  | _ => []

/-- The appointment to give a call up that is made now, as a list. -/
def Due.limits (τ : Timeline) : Due → List Appointment
  | errand _ (.get _ (some ms)) => [⟨τ.now + ms, .impatience τ.cache.calls.length⟩]
  | _ => []

/-- The table that a query is asked for. -/
def CacheEvent.asked? : CacheEvent → Option TableId
  | asked _ _ t => some t
  | _ => none

/-- What is left of a script when queries for these tables have taken their replies. -/
def Script.after (s : Script) (us : List TableId) : Script :=
  us.foldl (fun s u => (s.take u.statement).2) s

/-- The replies that the queries for one table take. -/
def Script.taken (s : Script) (t : TableId) : List TableId → List DelayedReply
  | [] => []
  | u :: us =>
    let (r, s) := s.take u.statement
    if u = t then r :: s.taken t us else s.taken t us

/-- The tables that queries were asked for, in order. -/
def Timeline.asked (τ : Timeline) : List TableId :=
  τ.log.filterMap fun e => e.2.asked?

/-- The task that an event ends, and how. -/
def Timeline.finish? (τ : Timeline) : CacheEvent → Option (Nat × Finish)
  | .answered c r => τ.tasks[c]?.map fun p => (p, ⟨τ.now, .answered r⟩)
  | .dropped c => τ.tasks[c]?.map fun p => (p, ⟨τ.now, .dropped⟩)
  | _ => none

namespace Script

variable {s : Script} {t u : TableId} {us vs : List TableId}

theorem after_append : s.after (us ++ vs) = (s.after us).after vs :=
  List.foldl_append

theorem taken_append : s.taken t (us ++ vs) = s.taken t us ++ (s.after us).taken t vs := by
  induction us generalizing s with
  | nil => rfl
  | cons u us ih =>
    simp only [List.cons_append, taken, ih]
    split <;> rfl

theorem length_taken : (s.taken t us).length = us.count t := by
  induction us generalizing s with
  | nil => rfl
  | cons u us ih =>
    rw [taken, List.count_cons]
    by_cases hu : u = t
    · simp [hu, ih]
    · simp [hu, ih]

end Script

namespace Timeline

open SchemaCache

/-! ## Taking note of events -/

section Observe

variable {τ : Timeline} {e : CacheEvent} {es : List CacheEvent} {a : CacheAction}

theorem finishCall_eq {c : Nat} {o : Outcome} : τ.finishCall c o
    = { τ with finished := τ.finished ++ (τ.tasks[c]?.map fun p => (p, ⟨τ.now, o⟩)).toList } := by
  unfold finishCall
  split
  · rename_i h
    simp [h]
  · rename_i p h
    simp [h, finish]

theorem foldl_observe_of {α : Type} {f : Timeline → α} (h : ∀ τ e, f (observe τ e) = f τ)
    (es : List CacheEvent) (τ : Timeline) : f (es.foldl observe τ) = f τ := by
  induction es generalizing τ with
  | nil => rfl
  | cons e es ih => rw [List.foldl_cons, ih, h]

@[simp]
theorem cache_observe : (τ.observe e).cache = τ.cache := by
  cases e <;> simp [observe, schedule, finishCall_eq]

@[simp]
theorem limit_observe : (τ.observe e).limit = τ.limit := by
  cases e <;> simp [observe, schedule, finishCall_eq]

@[simp]
theorem now_observe : (τ.observe e).now = τ.now := by
  cases e <;> simp [observe, schedule, finishCall_eq]

@[simp]
theorem tasks_observe : (τ.observe e).tasks = τ.tasks := by
  cases e <;> simp [observe, schedule, finishCall_eq]

theorem finish?_observe : (τ.observe e).finish? = τ.finish? := by
  funext e
  unfold finish?
  rw [now_observe, tasks_observe]

theorem log_observe : (τ.observe e).log = τ.log ++ [(τ.now, e)] := by
  cases e <;> simp [observe, schedule, finishCall_eq]

theorem script_observe : (τ.observe e).script = τ.script.after e.asked?.toList := by
  cases e <;> simp [observe, schedule, finishCall_eq, CacheEvent.asked?, Script.after]

theorem finished_observe : (τ.observe e).finished = τ.finished ++ (τ.finish? e).toList := by
  cases e <;> simp [observe, schedule, finishCall_eq, finish?]

theorem asked_observe : (τ.observe e).asked = τ.asked ++ e.asked?.toList := by
  unfold asked
  rw [log_observe, List.filterMap_append]
  rcases h : e.asked? with _ | u <;> simp [h]

theorem agenda_observe_asked {q c : Nat} {t : TableId} : (τ.observe (.asked q c t)).agenda
    = (Appointment.mk (τ.now + (wait τ.limit (τ.script.take t.statement).1).1)
        (.ending q (wait τ.limit (τ.script.take t.statement).1).2)).insert τ.agenda := rfl

theorem agenda_observe_of_ne (h : e.asked? = none) : (τ.observe e).agenda = τ.agenda := by
  cases e with
  | asked => cases h
  | answered | dropped => simp [observe, finishCall_eq]
  | found | counted => rfl

theorem asked_foldl : (es.foldl observe τ).asked = τ.asked ++ es.filterMap CacheEvent.asked? := by
  induction es generalizing τ with
  | nil => simp
  | cons e es ih =>
    rw [List.foldl_cons, ih, asked_observe, List.append_assoc]
    rcases h : e.asked? with _ | u <;> simp [h]

theorem script_foldl :
    (es.foldl observe τ).script = τ.script.after (es.filterMap CacheEvent.asked?) := by
  induction es generalizing τ with
  | nil => rfl
  | cons e es ih =>
    rw [List.foldl_cons, ih, script_observe, ← Script.after_append]
    rcases h : e.asked? with _ | u <;> simp [h]

theorem finished_foldl : (es.foldl observe τ).finished = τ.finished ++ es.filterMap τ.finish? := by
  induction es generalizing τ with
  | nil => simp
  | cons e es ih =>
    rw [List.foldl_cons, ih, finished_observe, finish?_observe, List.append_assoc]
    rcases h : τ.finish? e with _ | f <;> simp [h]

/-- The endings of queries that are asked, on the agenda. -/
structure Endings (es : List CacheEvent) (ds : List Appointment) : Prop where
  length_eq : ds.length = (es.filterMap CacheEvent.asked?).length
  asked : ∀ a ∈ ds, ∃ q c t e, .asked q c t ∈ es ∧ a.due = .ending q e
  ending : ∀ q c t, .asked q c t ∈ es → ∃ a ∈ ds, ∃ e, a.due = .ending q e

theorem Endings.cons_asked {ds : List Appointment} {q c : Nat} {t : TableId} (h : Endings es ds)
    (ms : Nat) (e : Ending) : Endings (.asked q c t :: es) (⟨ms, .ending q e⟩ :: ds) where
  length_eq := by simp [h.length_eq, CacheEvent.asked?]
  asked a ha := by
    rcases List.mem_cons.1 ha with rfl | ha
    · exact ⟨q, c, t, e, List.mem_cons_self, rfl⟩
    · obtain ⟨q', c', t', e', hmem, hdue⟩ := h.asked a ha
      exact ⟨q', c', t', e', List.mem_cons_of_mem _ hmem, hdue⟩
  ending q' c' t' hmem := by
    rcases List.mem_cons.1 hmem with heq | hmem
    · cases heq
      exact ⟨_, List.mem_cons_self, e, rfl⟩
    · obtain ⟨a, ha, e', hdue⟩ := h.ending q' c' t' hmem
      exact ⟨a, List.mem_cons_of_mem _ ha, e', hdue⟩

theorem Endings.cons_of_ne {ds : List Appointment} (h : Endings es ds) (he : e.asked? = none) :
    Endings (e :: es) ds where
  length_eq := by rw [List.filterMap_cons_none he, h.length_eq]
  asked a ha := by
    obtain ⟨q, c, t, e', hmem, hdue⟩ := h.asked a ha
    exact ⟨q, c, t, e', List.mem_cons_of_mem _ hmem, hdue⟩
  ending q c t hmem := by
    rcases List.mem_cons.1 hmem with rfl | hmem
    · cases he
    · exact h.ending q c t hmem

theorem agenda_foldl (es : List CacheEvent) (τ : Timeline) : ∃ ds, Endings es ds
    ∧ (es.foldl observe τ).agenda = Appointment.insertAll ds τ.agenda := by
  induction es generalizing τ with
  | nil => exact ⟨[], ⟨rfl, by simp, by simp⟩, rfl⟩
  | cons e es ih =>
    obtain ⟨ds, hds, hagenda⟩ := ih (τ.observe e)
    rw [List.foldl_cons, hagenda]
    cases e with
    | asked q c t => exact ⟨_, hds.cons_asked _ _, rfl⟩
    | answered | dropped | found | counted =>
      rw [agenda_observe_of_ne rfl]
      exact ⟨ds, hds.cons_of_ne rfl, rfl⟩

theorem agenda_foldl_of_none (h : es.filterMap CacheEvent.asked? = []) (τ : Timeline) :
    (es.foldl observe τ).agenda = τ.agenda := by
  obtain ⟨ds, hds, hagenda⟩ := agenda_foldl es τ
  have hlength := hds.length_eq
  rw [h, List.length_nil, List.length_eq_zero_iff] at hlength
  rw [hagenda, hlength, Appointment.insertAll_nil]

end Observe

/-! ## Performing an action -/

section Perform

variable {τ : Timeline} {a : CacheAction} {es : List CacheEvent}

theorem perform_eq : τ.perform a
    = (τ.cache.step a).2.foldl observe { τ with cache := (τ.cache.step a).1 } :=
  rfl

@[simp]
theorem cache_perform : (τ.perform a).cache = (τ.cache.step a).1 :=
  foldl_observe_of (fun _ _ => cache_observe) _ _

@[simp]
theorem limit_perform : (τ.perform a).limit = τ.limit :=
  foldl_observe_of (fun _ _ => limit_observe) _ _

@[simp]
theorem now_perform : (τ.perform a).now = τ.now :=
  foldl_observe_of (fun _ _ => now_observe) _ _

@[simp]
theorem tasks_perform : (τ.perform a).tasks = τ.tasks :=
  foldl_observe_of (fun _ _ => tasks_observe) _ _

@[simp]
theorem asked_perform :
    (τ.perform a).asked = τ.asked ++ (τ.cache.step a).2.filterMap CacheEvent.asked? :=
  asked_foldl

@[simp]
theorem script_perform :
    (τ.perform a).script = τ.script.after ((τ.cache.step a).2.filterMap CacheEvent.asked?) :=
  script_foldl

@[simp]
theorem finished_perform :
    (τ.perform a).finished = τ.finished ++ (τ.cache.step a).2.filterMap τ.finish? :=
  finished_foldl

theorem agenda_perform_of_none (h : (τ.cache.step a).2.filterMap CacheEvent.asked? = []) :
    (τ.perform a).agenda = τ.agenda :=
  agenda_foldl_of_none h _

/-- A query that is asked takes the next reply to its statement. -/
theorem agenda_perform_of_asked {q c : Nat} {t : TableId}
    (h : (τ.cache.step a).2 = es ++ [.asked q c t]) (hes : es.filterMap CacheEvent.asked? = []) :
    (τ.perform a).agenda
      = (Appointment.mk (τ.now + (wait τ.limit (τ.script.take t.statement).1).1)
          (.ending q (wait τ.limit (τ.script.take t.statement).1).2)).insert τ.agenda := by
  rw [perform_eq, h, List.foldl_append, List.foldl_cons, List.foldl_nil]
  rw [agenda_observe_asked, agenda_foldl_of_none hes, script_foldl, hes,
    foldl_observe_of fun _ _ => limit_observe, foldl_observe_of fun _ _ => now_observe]
  rfl

theorem agenda_perform (τ : Timeline) (a : CacheAction) : ∃ ds, Endings (τ.cache.step a).2 ds
    ∧ (τ.perform a).agenda = Appointment.insertAll ds τ.agenda :=
  agenda_foldl _ _

end Perform

/-! ## Attending to something -/

section Attend

variable {τ : Timeline} {d : Due}

@[simp]
theorem cache_attend : (τ.attend d).cache = (τ.cache.step d.action).1 := by
  rcases d with ⟨q, e⟩ | c | ⟨p, ⟨t, _ | ms⟩ | t | t | _⟩ <;> simp [attend, Due.action,
    Errand.action, schedule, finish]

@[simp]
theorem limit_attend : (τ.attend d).limit = τ.limit := by
  rcases d with ⟨q, e⟩ | c | ⟨p, ⟨t, _ | ms⟩ | t | t | _⟩ <;> simp [attend, schedule, finish]

@[simp]
theorem tasks_attend : (τ.attend d).tasks = τ.tasks ++ d.callers := by
  rcases d with ⟨q, e⟩ | c | ⟨p, ⟨t, _ | ms⟩ | t | t | _⟩ <;> simp [attend, schedule, finish,
    Due.callers]

@[simp]
theorem asked_attend :
    (τ.attend d).asked = τ.asked ++ (τ.cache.step d.action).2.filterMap CacheEvent.asked? := by
  have hschedule : ∀ (τ : Timeline) ms d, (τ.schedule ms d).asked = τ.asked := fun _ _ _ => rfl
  have hfinish : ∀ (τ : Timeline) p o, (τ.finish p o).asked = τ.asked := fun _ _ _ => rfl
  rcases d with ⟨q, e⟩ | c | ⟨p, ⟨t, _ | ms⟩ | t | t | _⟩ <;> simp [attend, Due.action,
    Errand.action, hschedule, hfinish]
  all_goals rfl

@[simp]
theorem script_attend : (τ.attend d).script
    = τ.script.after ((τ.cache.step d.action).2.filterMap CacheEvent.asked?) := by
  rcases d with ⟨q, e⟩ | c | ⟨p, ⟨t, _ | ms⟩ | t | t | _⟩ <;> simp [attend, schedule, finish,
    Due.action, Errand.action]

/-- The agenda gets the endings of the queries that are asked, and then the end of the patience. -/
theorem agenda_attend (τ : Timeline) (d : Due) : ∃ ds, Endings (τ.cache.step d.action).2 ds
    ∧ (τ.attend d).agenda = Appointment.insertAll (ds ++ d.limits τ) τ.agenda := by
  have hnone : ∀ ds l, Appointment.insertAll (ds ++ []) l = Appointment.insertAll ds l :=
    fun ds _ => by rw [List.append_nil]
  rcases d with ⟨q, e⟩ | c | ⟨p, ⟨t, _ | ms⟩ | t | t | _⟩
  case errand.get.none =>
    obtain ⟨ds, hds, hagenda⟩ := agenda_perform { τ with tasks := τ.tasks ++ [p] } (.call t)
    exact ⟨ds, hds, hagenda.trans (hnone ds _).symm⟩
  case errand.get.some =>
    obtain ⟨ds, hds, hagenda⟩ := agenda_perform { τ with tasks := τ.tasks ++ [p] } (.call t)
    refine ⟨ds, hds, ?_⟩
    simp [attend, schedule, hagenda, Due.limits, Appointment.insertAll_append]
  all_goals
    obtain ⟨ds, hds, hagenda⟩ := agenda_perform τ _
    exact ⟨ds, hds, hagenda.trans (hnone ds _).symm⟩

/-- What is over then is over by the action, or was attended to itself. -/
theorem finished_attend (τ : Timeline) (d : Due) : ∃ fs, (τ.attend d).finished = τ.finished ++ fs
    ∧ ∀ f ∈ fs, (∃ c, Ended (τ.cache.step d.action).2 c ∧ (τ.attend d).tasks[c]? = some f.1)
      ∨ ∃ e, d = .errand f.1 e := by
  -- The tasks that events end are those of calls that the events end.
  have hevents : ∀ (τ : Timeline) (a : CacheAction), ∀ f ∈ (τ.cache.step a).2.filterMap τ.finish?,
      ∃ c, Ended (τ.cache.step a).2 c ∧ τ.tasks[c]? = some f.1 := by
    intro τ a f hf
    obtain ⟨e, he, hfe⟩ := List.mem_filterMap.1 hf
    cases e with
    | answered c r | dropped c =>
      obtain ⟨p, hp, rfl⟩ := Option.map_eq_some_iff.1 hfe
      exact ⟨c, ⟨_, he, rfl⟩, hp⟩
    | asked | found | counted => cases hfe
  rcases d with ⟨q, e⟩ | c | ⟨p, ⟨t, _ | ms⟩ | t | t | _⟩
  case errand.cached | errand.invalidate | errand.size =>
    refine ⟨_, by rw [attend, finish, finished_perform, List.append_assoc], fun f hf => ?_⟩
    rcases List.mem_append.1 hf with hf | hf
    · obtain ⟨c, hc, hp⟩ := hevents τ _ f hf
      exact .inl ⟨c, hc, by simpa [Due.callers] using hp⟩
    · rw [List.mem_singleton.1 hf]
      exact .inr ⟨_, rfl⟩
  case errand.get.none | errand.get.some =>
    refine ⟨_, finished_perform, fun f hf => .inl ?_⟩
    obtain ⟨c, hc, hp⟩ := hevents _ _ f hf
    exact ⟨c, hc, by simpa [Due.callers] using hp⟩
  all_goals
    refine ⟨_, finished_perform, fun f hf => .inl ?_⟩
    obtain ⟨c, hc, hp⟩ := hevents _ _ f hf
    exact ⟨c, hc, by simpa [Due.callers] using hp⟩

end Attend

end Timeline

end TableCapture
