import TableCapture.Proofs.SchemaCache.Deadline
import TableCapture.Proofs.SchemaCache.Provenance

/-!
# The queries that a limit ends

A query takes the next reply to its statement, and ends when the reply comes or when the time is up
(`Fed`). A call gets an error only when its own query ends, and the error is what this reply gives
(`Tracked.attend`). So of the errors of a run with a limit, the timeouts are those of the queries
whose replies come too late, and they come at the time at which a failure would have come in their
place (`limit_as_failure`).
-/

namespace TableCapture

/-- A query was asked at the time `b`, and took the reply `r` from a script that nobody had used
before the log began. -/
def Script.Gives (s : Script) (log : List (Nat × CacheEvent)) (b q c : Nat) (t : TableId)
    (r : DelayedReply) : Prop :=
  ∃ es es', log = es ++ (b, .asked q c t) :: es'
    ∧ r = ((s.after (es.filterMap fun e => e.2.asked?)).take t.statement).1

section Gives

variable {s : Script} {log log' : List (Nat × CacheEvent)} {b q c : Nat} {t : TableId}
  {r : DelayedReply}

theorem Script.Gives.append (h : s.Gives log b q c t r) : s.Gives (log ++ log') b q c t r := by
  obtain ⟨es, es', rfl, hr⟩ := h
  exact ⟨es, es' ++ log', by simp, hr⟩

theorem Script.Gives.mem (h : s.Gives log b q c t r) : .asked q c t ∈ log.map Prod.snd := by
  obtain ⟨es, es', rfl, -⟩ := h
  simp

theorem Due.eq_ending {d : Due} {e : Ending} (h : d.action = .settle q e) : d = .ending q e := by
  rcases d with ⟨q', e'⟩ | c | ⟨p, ⟨t, ms⟩ | t | t | _⟩ <;> cases h
  rfl

end Gives

namespace Timeline

open SchemaCache

variable {s : Script} {limit : Option Nat} {τ : Timeline}

/-- Queries take their replies from the script, and end when these come, or when the time is up. -/
structure Fed (s : Script) (limit : Option Nat) (τ : Timeline) : Prop where
  limit_eq : τ.limit = limit.map .ofMillis
  script_eq : τ.script = s.after τ.asked
  ending : ∀ d q e, ⟨d, .ending q e⟩ ∈ τ.agenda → ∃ b c t r, s.Gives τ.log b q c t r
    ∧ d = b + r.lasts limit ∧ ∀ u, e.schema u = r.outcome limit u

theorem Fed.observe (h : Fed s limit τ) (e : CacheEvent) : Fed s limit (τ.observe e) where
  limit_eq := limit_observe.trans h.limit_eq
  script_eq := by rw [script_observe, h.script_eq, asked_observe, Script.after_append]
  ending d q' e' hmem := by
    rw [log_observe]
    have hold : ⟨d, .ending q' e'⟩ ∈ τ.agenda → ∃ b c t r,
        s.Gives (τ.log ++ [(τ.now, e)]) b q' c t r
          ∧ d = b + r.lasts limit ∧ ∀ u, e'.schema u = r.outcome limit u := by
      intro hmem
      obtain ⟨b, c, t, r, hgives, hrest⟩ := h.ending d q' e' hmem
      exact ⟨b, c, t, r, hgives.append, hrest⟩
    cases e with
    | asked q c t =>
      rw [agenda_observe_asked, h.limit_eq] at hmem
      rcases List.mem_cons.1 ((Appointment.insert_perm _ _).mem_iff.1 hmem) with heq | hmem
      · simp only [Appointment.mk.injEq, Due.ending.injEq] at heq
        obtain ⟨rfl, rfl, rfl⟩ := heq
        refine ⟨τ.now, c, t, _, ⟨τ.log, [], rfl, rfl⟩, ?_, fun u => ?_⟩
        · rw [DelayedReply.time_wait, h.script_eq]
          rfl
        · rw [DelayedReply.schema_wait, h.script_eq]
          rfl
      · exact hold hmem
    | answered | dropped | found | counted =>
      rw [agenda_observe_of_ne rfl] at hmem
      exact hold hmem

theorem Fed.perform (h : Fed s limit τ) (a : CacheAction) : Fed s limit (τ.perform a) := by
  have hfold : ∀ (es : List CacheEvent) (τ : Timeline), Fed s limit τ →
      Fed s limit (es.foldl Timeline.observe τ) := by
    intro es
    induction es with
    | nil => exact fun _ h => h
    | cons e es ih => exact fun τ h => ih _ (h.observe e)
  exact hfold _ _ ⟨h.limit_eq, h.script_eq, h.ending⟩

theorem Fed.schedule (h : Fed s limit τ) (ms c : Nat) :
    Fed s limit (τ.schedule ms (.impatience c)) where
  limit_eq := h.limit_eq
  script_eq := h.script_eq
  ending d q e hmem := by
    rcases List.mem_cons.1 ((Appointment.insert_perm _ _).mem_iff.1 hmem) with heq | hmem
    · cases heq
    · exact h.ending d q e hmem

theorem Fed.attend (h : Fed s limit τ) (d : Due) : Fed s limit (τ.attend d) := by
  have hfinish : ∀ {τ : Timeline} p o, Fed s limit τ → Fed s limit (τ.finish p o) :=
    fun _ _ h => ⟨h.limit_eq, h.script_eq, h.ending⟩
  rcases d with ⟨q, e⟩ | c | ⟨p, ⟨t, _ | ms⟩ | t | t | _⟩
  case ending => exact h.perform (.settle q e)
  case impatience => exact h.perform (.drop c)
  case errand.get.none =>
    exact Fed.perform (τ := { τ with tasks := τ.tasks ++ [p] })
      ⟨h.limit_eq, h.script_eq, h.ending⟩ (.call t)
  case errand.get.some =>
    exact (Fed.perform (τ := { τ with tasks := τ.tasks ++ [p] })
      ⟨h.limit_eq, h.script_eq, h.ending⟩ (.call t)).schedule ms _
  case errand.cached => exact hfinish p _ (h.perform (.cached t))
  case errand.invalidate => exact hfinish p _ (h.perform (.invalidate t))
  case errand.size => exact hfinish p _ (h.perform .size)

/-! ## Errors -/

theorem log_foldl (es : List CacheEvent) (τ : Timeline) :
    (es.foldl observe τ).log = τ.log ++ es.map fun e => (τ.now, e) := by
  induction es generalizing τ with
  | nil => simp
  | cons e es ih => simp [ih, log_observe]

theorem log_attend (d : Due) (τ : Timeline) :
    (τ.attend d).log = τ.log ++ (τ.cache.step d.action).2.map fun e => (τ.now, e) := by
  rcases d with ⟨q, e⟩ | c | ⟨p, ⟨t, _ | ms⟩ | t | t | _⟩ <;> exact log_foldl _ _

/-- Every error is what the reply of a query gives, when the query ends. -/
structure Tracked (s : Script) (limit : Option Nat) (τ : Timeline) : Prop
    extends Fed s limit τ where
  wellFormed : τ.cache.WellFormed
  recorded : Recorded τ.cache (τ.log.map Prod.snd)
  error : ∀ d c err, (d, .answered c (.error err)) ∈ τ.log → ∃ b q t r, s.Gives τ.log b q c t r
    ∧ d = b + r.lasts limit ∧ r.outcome limit t = .error err

theorem Tracked.attend (h : Tracked s limit τ) {a : Appointment} {as : List Appointment}
    (hag : τ.agenda = a :: as) :
    Tracked s limit ({ τ with now := a.time, agenda := as }.attend a.due) := by
  have ht := h.wellFormed.step_transition a.due.action
  have hlog := log_attend a.due { τ with now := a.time, agenda := as }
  have hfed : Fed s limit { τ with now := a.time, agenda := as } :=
    ⟨h.limit_eq, h.script_eq, fun d q e hmem => h.ending d q e (hag ▸ List.mem_cons_of_mem _ hmem)⟩
  constructor
  case toFed => exact hfed.attend a.due
  case wellFormed =>
    rw [cache_attend]
    exact ht.wellFormed h.wellFormed
  case recorded =>
    have hsnd : ∀ es : List CacheEvent, (es.map fun e => (a.time, e)).map Prod.snd = es :=
      fun es => by rw [List.map_map]; exact List.map_id es
    rw [cache_attend, hlog, List.map_append, hsnd]
    exact h.recorded.transition h.wellFormed ht
  case error =>
    intro d c err hmem
    rw [hlog] at hmem ⊢
    rcases List.mem_append.1 hmem with hold | hnew
    · obtain ⟨b, q, t, r, hgives, hrest⟩ := h.error d c err hold
      exact ⟨b, q, t, r, hgives.append, hrest⟩
    · obtain ⟨e, he, heq⟩ := List.mem_map.1 hnew
      cases heq
      obtain ⟨e, t, i, q, w, hsettle, hi, hschema⟩ := ht.error_origin he
      have hdue : ⟨a.time, .ending q e⟩ ∈ τ.agenda := by
        rw [← Due.eq_ending hsettle, hag]
        exact List.mem_cons_self
      obtain ⟨b, c', t', r, hgives, htime, hout⟩ := h.ending _ _ _ hdue
      -- The query is that of the call, which resolves at its cell.
      obtain ⟨hq, j, y, hj, hy⟩ := h.recorded.asked_query q c' t' hgives.mem
      obtain ⟨hq', -, hcalls, -⟩ := h.wellFormed.fits _ _ _ hi
      obtain rfl : c = c' := Option.some.inj (hq'.symm.trans hq)
      obtain rfl : i = j := Option.some.inj ((hcalls c List.mem_cons_self).symm.trans hj)
      obtain ⟨rfl, -⟩ := table_unique hi hy
      exact ⟨b, q, t, r, hgives.append, htime, (hout t).symm.trans hschema⟩

theorem Tracked.advance (h : Tracked s limit τ) (n : Nat) : Tracked s limit (advance n τ) := by
  induction n generalizing τ with
  | zero => exact h
  | succ n ih =>
    rcases hag : τ.agenda with _ | ⟨a, as⟩
    · rwa [advance_nil hag]
    · rw [advance_cons hag]
      exact ih (h.attend hag)

theorem tracked_begun (s : Script) (limit : Option Nat) (ts : List Task) :
    Tracked s limit ((start s (limit.map .ofMillis)).begun ts) where
  limit_eq := rfl
  script_eq := rfl
  ending d q e hmem := by
    obtain ha | ha := Appointment.mem_insertAll.1 hmem
    · obtain ⟨p, -, hp⟩ := List.mem_map.1 ha
      cases hp
    · cases ha
  wellFormed := wellFormed_after []
  recorded := .empty
  error d c err hmem := by cases hmem

/-! ## With and without a limit -/

/-- The run `τ` has a limit of `T` milliseconds for every query. The run `σ` has none, and the
replies that would come later are failures at the end of this time. -/
structure SameButTimeouts (s : Script) (T : Nat) (cause : String) (τ σ : Timeline) : Prop where
  cache : σ.cache = τ.cache
  now : σ.now = τ.now
  log : σ.log = τ.log.map fun e => (e.1, e.2.untimed cause)
  /-- A call gets an error when the query that it asked ends. The error is a timeout in the one run
  and a failure in the other when the reply comes too late, and the same in both when not. -/
  error : ∀ d c err, (d, .answered c (.error err)) ∈ τ.log → ∃ b q t r, s.Gives τ.log b q c t r
    ∧ d = b + min r.delay T
    ∧ (r.delay ≤ T → r.reply.schema t = .error err ∧ err.untimed cause = err)
    ∧ (T < r.delay → err = ⟨t, t.statement, .timedOut (.ofMillis T)⟩
      ∧ err.untimed cause = ⟨t, t.statement, .queryFailed cause⟩)

theorem sameButTimeouts_untimed {T : Nat} (h : Tracked s (some T) τ) (cause : String) :
    SameButTimeouts s T cause τ (τ.untimed T cause) where
  cache := rfl
  now := rfl
  log := rfl
  error d c err hmem := by
    obtain ⟨b, q, t, r, hgives, htime, hout⟩ := h.error d c err hmem
    refine ⟨b, q, t, r, hgives, htime, fun hle => ?_, fun hlt => ?_⟩
    · rw [DelayedReply.outcome_of_le hle] at hout
      exact ⟨hout, SchemaError.untimed_eq (Reply.not_timedOut_of_schema hout)⟩
    · rw [DelayedReply.outcome_of_lt hlt] at hout
      cases hout
      exact ⟨rfl, rfl⟩

/-- A limit for queries does what a connection does that fails at the end of the time: at every
moment the runs have come to the same, and every task ends at the same time in the same way, but
for the errors of the queries that the limit has ended. -/
theorem limit_as_failure (s : Script) (T : Nat) (cause : String) (ts : List Task) :
    (∀ n, SameButTimeouts s T cause (advance n ((start s (some (.ofMillis T))).begun ts))
      (advance n ((start (s.failAfter T cause) none).begun ts)))
    ∧ ((start (s.failAfter T cause) none).runTasks ts).2
      = ((start s (some (.ofMillis T))).runTasks ts).2.map (Option.map (Finish.untimed cause)) := by
  have hstart : start (s.failAfter T cause) none
      = (start s (some (.ofMillis T))).untimed T cause := rfl
  rw [hstart, begun_untimed, runTasks_untimed rfl]
  refine ⟨fun n => ?_, rfl⟩
  rw [advance_untimed (τ := (start s (some (.ofMillis T))).begun ts) rfl]
  exact sameButTimeouts_untimed ((tracked_begun s (some T) ts).advance n) cause

end Timeline

end TableCapture
