import TableCapture.Proofs.Dict
import TableCapture.Proofs.SchemaCache.CrowdOutcome

/-!
# A limit is a failure at the end of the time

The cache does not tell a timeout from a failed query (`step_untimed`): the call gets an error, the
table loses its cell, and the first in line goes on. So a run with a limit for every query becomes
a run without one when each timeout in it is read as a failure (`Timeline.untimed`), and each reply
that comes too late is replaced by a failure at the end of the time (`Script.failAfter`). What is
done to the agenda commutes with this reading (`attend_untimed`), and so does a whole run
(`runTasks_untimed`).
-/

namespace TableCapture

/-! ## Timeouts read as failures -/

/-- A timeout, read as a failure of the statement. -/
def SchemaFailure.untimed (cause : String) : SchemaFailure → SchemaFailure
  | timedOut _ => queryFailed cause
  | f => f

def SchemaError.untimed (cause : String) (err : SchemaError) : SchemaError :=
  { err with failure := err.failure.untimed cause }

def Ending.untimed (cause : String) : Ending → Ending
  | timedOut _ => reply (.failed cause)
  | e => e

def CacheAction.untimed (cause : String) : CacheAction → CacheAction
  | settle q e => settle q (e.untimed cause)
  | a => a

def CacheEvent.untimed (cause : String) : CacheEvent → CacheEvent
  | answered c r => answered c (r.mapError (SchemaError.untimed cause))
  | e => e

def Outcome.untimed (cause : String) : Outcome → Outcome
  | answered r => answered (r.mapError (SchemaError.untimed cause))
  | o => o

def Finish.untimed (cause : String) (f : Finish) : Finish :=
  { f with outcome := f.outcome.untimed cause }

def Due.untimed (cause : String) : Due → Due
  | ending q e => ending q (e.untimed cause)
  | d => d

def Appointment.untimed (cause : String) (a : Appointment) : Appointment :=
  { a with due := a.due.untimed cause }

/-- A reply that comes too late, replaced by a failure at the end of the time. -/
def DelayedReply.failAfter (T : Nat) (cause : String) (r : DelayedReply) : DelayedReply :=
  if r.delay ≤ T then r else ⟨T, .failed cause⟩

def Script.failAfter (T : Nat) (cause : String) (s : Script) : Script :=
  ⟨s.replies.map (List.map (DelayedReply.failAfter T cause))⟩

/-- The time without a limit in which the replies that come too late are failures. -/
def Timeline.untimed (T : Nat) (cause : String) (τ : Timeline) : Timeline where
  cache := τ.cache
  script := τ.script.failAfter T cause
  limit := none
  now := τ.now
  agenda := τ.agenda.map (Appointment.untimed cause)
  tasks := τ.tasks
  log := τ.log.map fun e => (e.1, e.2.untimed cause)
  finished := τ.finished.map fun f => (f.1, f.2.untimed cause)

variable {T : Nat} {cause : String}

namespace DelayedReply

variable {t : TableId} {r : DelayedReply}

theorem outcome_of_le (h : r.delay ≤ T) : r.outcome (some T) t = r.reply.schema t :=
  if_pos h

theorem outcome_of_lt (h : T < r.delay) :
    r.outcome (some T) t = .error ⟨t, t.statement, .timedOut (.ofMillis T)⟩ :=
  if_neg (Nat.not_le.2 h)

end DelayedReply

theorem SchemaError.untimed_eq {err : SchemaError} (h : ∀ d, err.failure ≠ .timedOut d) :
    err.untimed cause = err := by
  obtain ⟨t, statement, failure⟩ := err
  cases failure with
  | timedOut d => exact absurd rfl (h d)
  | notFound | queryFailed | unreadable => rfl

theorem Ending.schema_untimed {t : TableId} (e : Ending) :
    (e.untimed cause).schema t = (e.schema t).mapError (SchemaError.untimed cause) := by
  cases e with
  | timedOut limit => rfl
  | reply r =>
    change r.schema t = (r.schema t).mapError _
    rcases h : r.schema t with err | schema
    · exact congrArg _ (SchemaError.untimed_eq (Reply.not_timedOut_of_schema h)).symm
    · rfl

theorem Script.take_failAfter (s : Script) (statement : String) :
    (s.failAfter T cause).take statement
      = ((s.take statement).1.failAfter T cause, (s.take statement).2.failAfter T cause) := by
  have hnone : (⟨0, .rows []⟩ : DelayedReply) = DelayedReply.failAfter T cause ⟨0, .rows []⟩ :=
    (if_pos (Nat.zero_le T)).symm
  unfold take failAfter
  simp only [Dict.contains_map, Dict.get?_map]
  generalize (if s.replies.contains statement then statement else "") = key
  rcases s.replies.get? key with _ | _ | ⟨r, _ | ⟨r', rs⟩⟩
  · exact Prod.ext hnone rfl
  · exact Prod.ext hnone rfl
  · rfl
  · have hinsert := Dict.map_insert (d := s.replies) (k := key) (v := r' :: rs)
      (List.map (DelayedReply.failAfter T cause))
    exact Prod.ext rfl (congrArg mk hinsert.symm)

namespace SchemaCache

variable {k : SchemaCache}

theorem passOn_untimed (i : Nat) (t : TableId) (w : List Nat) :
    (k.passOn i t w).2.map (CacheEvent.untimed cause) = (k.passOn i t w).2 := by
  cases w <;> rfl

theorem settle_untimed (q : Nat) (e : Ending) : k.settle q (e.untimed cause)
    = ((k.settle q e).1, (k.settle q e).2.map (CacheEvent.untimed cause)) := by
  unfold settle
  split
  · rfl
  · rename_i i _
    split
    · rename_i t c q' w _
      split
      · rw [Ending.schema_untimed]
        rcases e.schema t with err | schema
        · exact Prod.ext rfl (congrArg (_ :: ·) (passOn_untimed i t w).symm)
        · simp [Except.mapError, CacheEvent.untimed]
      · rfl
    · rfl

theorem call_untimed (t : TableId) :
    (k.call t).2.map (CacheEvent.untimed cause) = (k.call t).2 := by
  unfold call
  split
  simp only []
  split
  · rfl
  · split <;> rfl

theorem drop_untimed (c : Nat) : (k.drop c).2.map (CacheEvent.untimed cause) = (k.drop c).2 := by
  unfold drop
  split
  · rfl
  · rename_i i _
    split
    · rename_i t d q w _
      split
      · exact congrArg (_ :: ·) (passOn_untimed i t w)
      · split <;> rfl
    · rfl

/-- The cache does not tell a timeout from a failure. -/
theorem step_untimed (a : CacheAction) : k.step (a.untimed cause)
    = ((k.step a).1, (k.step a).2.map (CacheEvent.untimed cause)) := by
  cases a with
  | settle q e => exact settle_untimed q e
  | call t => exact Prod.ext rfl (call_untimed t).symm
  | drop c => exact Prod.ext rfl (drop_untimed c).symm
  | cached t | invalidate t | size => rfl

end SchemaCache

namespace Timeline

open SchemaCache

theorem wait_untimed (r : DelayedReply) : wait none (r.failAfter T cause)
    = ((wait (some (.ofMillis T)) r).1, (wait (some (.ofMillis T)) r).2.untimed cause) := by
  unfold DelayedReply.failAfter wait
  simp only [DelayedReply.ceilMillis_ofMillis]
  split <;> rfl

theorem insert_untimed (a : Appointment) (as : List Appointment) :
    (a.untimed cause).insert (as.map (Appointment.untimed cause))
      = (a.insert as).map (Appointment.untimed cause) := by
  have hle : ∀ a b : Appointment, (b.untimed cause).le (a.untimed cause) = b.le a := by
    rintro ⟨s, _ | _ | _⟩ ⟨s', _ | _ | _⟩ <;> rfl
  induction as with
  | nil => rfl
  | cons b bs ih =>
    rw [List.map_cons, Appointment.insert, Appointment.insert, hle, ih]
    split <;> rfl

theorem schedule_untimed (τ : Timeline) (ms : Nat) (d : Due) :
    (τ.untimed T cause).schedule ms (d.untimed cause) = (τ.schedule ms d).untimed T cause := by
  unfold schedule
  rw [untimed, untimed, ← insert_untimed]
  rfl

theorem finish_untimed (τ : Timeline) (p : Nat) (o : Outcome) :
    (τ.untimed T cause).finish p (o.untimed cause) = (τ.finish p o).untimed T cause := by
  unfold finish untimed
  rw [List.map_append]
  rfl

theorem finishCall_untimed (τ : Timeline) (c : Nat) (o : Outcome) :
    (τ.untimed T cause).finishCall c (o.untimed cause) = (τ.finishCall c o).untimed T cause := by
  rw [finishCall_eq, finishCall_eq, untimed, untimed, List.map_append]
  cases τ.tasks[c]? <;> rfl

variable {τ : Timeline} (h : τ.limit = some (.ofMillis T))

include h

theorem observe_untimed (e : CacheEvent) :
    (τ.untimed T cause).observe (e.untimed cause) = (τ.observe e).untimed T cause := by
  have hnote : { τ.untimed T cause with
        log := (τ.untimed T cause).log ++ [(τ.now, e.untimed cause)] }
      = untimed T cause { τ with log := τ.log ++ [(τ.now, e)] } := by
    rw [untimed, untimed, List.map_append]
    rfl
  cases e with
  | asked q c t =>
    unfold observe
    rw [h, ← schedule_untimed]
    change schedule { { τ.untimed T cause with
        log := (τ.untimed T cause).log ++ [(τ.now, CacheEvent.untimed cause (.asked q c t))] } with
        script := ((τ.script.failAfter T cause).take t.statement).2 }
      (wait none ((τ.script.failAfter T cause).take t.statement).1).1
      (.ending q (wait none ((τ.script.failAfter T cause).take t.statement).1).2) = _
    rw [Script.take_failAfter, wait_untimed, hnote]
    rfl
  | answered c r =>
    exact (congrArg (finishCall · c _) hnote).trans (finishCall_untimed _ c (.answered r))
  | dropped c => exact (congrArg (finishCall · c _) hnote).trans (finishCall_untimed _ c .dropped)
  | found s | counted n => exact hnote

theorem foldl_untimed (es : List CacheEvent) :
    (es.map (CacheEvent.untimed cause)).foldl observe (τ.untimed T cause)
      = (es.foldl observe τ).untimed T cause := by
  induction es generalizing τ with
  | nil => rfl
  | cons e es ih =>
    rw [List.map_cons, List.foldl_cons, List.foldl_cons, observe_untimed h]
    exact ih (limit_observe.trans h)

theorem perform_untimed (a : CacheAction) :
    (τ.untimed T cause).perform (a.untimed cause) = (τ.perform a).untimed T cause := by
  rw [perform_eq, perform_eq]
  change (τ.cache.step (a.untimed cause)).2.foldl observe
    { τ.untimed T cause with cache := (τ.cache.step (a.untimed cause)).1 } = _
  rw [step_untimed]
  exact foldl_untimed (τ := { τ with cache := (τ.cache.step a).1 }) h _

theorem attend_untimed (d : Due) :
    (τ.untimed T cause).attend (d.untimed cause) = (τ.attend d).untimed T cause := by
  rcases d with ⟨q, e⟩ | c | ⟨p, ⟨t, _ | ms⟩ | t | t | _⟩
  case ending => exact perform_untimed h (.settle q e)
  case impatience => exact perform_untimed h (.drop c)
  case errand.get.none =>
    exact perform_untimed (τ := { τ with tasks := τ.tasks ++ [p] }) h (.call t)
  case errand.get.some =>
    refine Eq.trans (congrArg (schedule · ms _) ?_) (schedule_untimed _ ms (.impatience _))
    exact perform_untimed (τ := { τ with tasks := τ.tasks ++ [p] }) h (.call t)
  case errand.cached =>
    exact (congrArg (finish · p _) (perform_untimed h (.cached t))).trans
      (finish_untimed _ p (.found _))
  case errand.invalidate =>
    exact (congrArg (finish · p _) (perform_untimed h (.invalidate t))).trans
      (finish_untimed _ p (.found _))
  case errand.size =>
    exact (congrArg (finish · p _) (perform_untimed h .size)).trans
      (finish_untimed _ p (.counted _))

theorem advance_untimed (n : Nat) :
    advance n (τ.untimed T cause) = (advance n τ).untimed T cause := by
  induction n generalizing τ with
  | zero => rfl
  | succ n ih =>
    rcases hag : τ.agenda with _ | ⟨a, as⟩
    · rw [advance_nil hag, advance_nil (by rw [untimed, hag, List.map_nil])]
    · rw [advance_cons hag, advance_cons (by rw [untimed, hag, List.map_cons])]
      refine Eq.trans (congrArg (advance n) ?_) (ih (limit_attend.trans h))
      exact attend_untimed (τ := { τ with now := a.time, agenda := as }) h a.due

omit h in
theorem begun_untimed (τ : Timeline) (ts : List Task) :
    (τ.untimed T cause).begun ts = (τ.begun ts).untimed T cause := by
  have hinsert : ∀ as l : List Appointment, (∀ a ∈ as, a.untimed cause = a) →
      Appointment.insertAll as (l.map (Appointment.untimed cause))
        = (Appointment.insertAll as l).map (Appointment.untimed cause) := by
    intro as l has
    induction as generalizing l with
    | nil => rfl
    | cons a as ih =>
      rw [List.forall_mem_cons] at has
      rw [Appointment.insertAll_cons, Appointment.insertAll_cons, ← ih _ has.2, ← insert_untimed,
        has.1]
  unfold begun
  rw [untimed, untimed, ← hinsert]
  · rfl
  · intro a ha
    obtain ⟨p, -, rfl⟩ := List.mem_map.1 ha
    rfl

theorem runTasks_untimed (ts : List Task) : (τ.untimed T cause).runTasks ts
    = ((τ.runTasks ts).1.untimed T cause,
      (τ.runTasks ts).2.map (Option.map (Finish.untimed cause))) := by
  have hrun : ((τ.untimed T cause).runTasks ts).1 = (τ.runTasks ts).1.untimed T cause := by
    rw [runTasks_fst, runTasks_fst, begun_untimed, advance_untimed (τ := τ.begun ts) h]
    exact congrArg (fun n => untimed T cause (advance (_ + n) _)) (List.length_map _)
  refine Prod.ext hrun ?_
  rw [runTasks_snd, hrun, runTasks_snd, List.map_map]
  refine List.map_congr_left fun p _ => ?_
  have hlookup := lookup_map_snd (f := Finish.untimed cause) (k := p.2) (τ.runTasks ts).1.finished
  refine (congrArg _ hlookup).trans ?_
  rw [Function.comp_apply, Option.map_map, Option.map_map]
  rfl

end Timeline

end TableCapture
