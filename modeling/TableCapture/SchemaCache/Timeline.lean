import TableCapture.Dict
import TableCapture.SchemaCache.Basic

/-!
# The cache in time

Here the actions of the cache get their times. A script says what each query will be answered and
after how long; a limit bounds the wait for an answer; tasks say who wants what and when. Time
counts whole milliseconds, and passes only where something is waited for.

The agenda holds what is due. Of the things that are due at one moment, queries end first, then
callers lose their patience, and then new tasks start; things of one kind happen in the order in
which they were put on the agenda. So an answer that comes at the very moment at which a caller
would give up still reaches it.
-/

namespace TableCapture

/-- A reply and the milliseconds that pass before it comes. -/
structure DelayedReply where
  delay : Nat
  reply : Reply
deriving DecidableEq, Repr, Inhabited

/-- The replies that are left for every statement. Those under the empty text are for all
statements that have no replies of their own. -/
structure Script where
  replies : Dict (List DelayedReply)

/-- The reply to a statement is the first one that is left. The last one is never used up, and a
statement without replies gets no rows at once. -/
def Script.take (s : Script) (statement : String) : DelayedReply × Script :=
  let key := if s.replies.contains statement then statement else ""
  match s.replies.get? key with
  | some (r :: r' :: rs) => (r, ⟨s.replies.insert key (r' :: rs)⟩)
  | some [r] => (r, s)
  | _ => (⟨0, .rows []⟩, s)

/-- What somebody wants of the cache. -/
inductive Errand where
  /-- The schema of a table; after so many milliseconds the call is given up. -/
  | get (t : TableId) (patience : Option Nat)
  | cached (t : TableId)
  | invalidate (t : TableId)
  | size
deriving DecidableEq, Repr, Inhabited

/-- An errand and the time at which it starts. -/
structure Task where
  start : Nat
  errand : Errand
deriving DecidableEq, Repr, Inhabited

/-- What came of an errand. -/
inductive Outcome where
  | answered (r : Except SchemaError SharedSchema)
  | dropped
  | found (s : Option SharedSchema)
  | counted (n : Nat)

/-- What came of an errand and when. -/
structure Finish where
  time : Nat
  outcome : Outcome

/-- What can be on the agenda. -/
inductive Due where
  | ending (query : Nat) (e : Ending)
  | impatience (call : Nat)
  | errand (task : Nat) (e : Errand)
deriving DecidableEq, Repr, Inhabited

/-- The place among things that are due at one moment. -/
def Due.rank : Due → Nat
  | ending _ _ => 0
  | impatience _ => 1
  | errand _ _ => 2

/-- Something and the time at which it is due. -/
structure Appointment where
  time : Nat
  due : Due
deriving DecidableEq, Repr, Inhabited

/-- Whether an appointment comes before one that was made later. -/
def Appointment.le (a b : Appointment) : Bool :=
  a.time < b.time || (a.time == b.time && a.due.rank ≤ b.due.rank)

/-- Puts an appointment on the agenda, behind all that come before it. -/
def Appointment.insert (a : Appointment) : List Appointment → List Appointment
  | [] => [a]
  | b :: bs => if b.le a then b :: a.insert bs else a :: b :: bs

/-- The cache, what is left of the script, the limit for every query, the present time, the
agenda, the task of every call, what has happened so far, and the tasks that are over. -/
structure Timeline where
  cache : SchemaCache
  script : Script
  limit : Option Duration
  now : Nat
  agenda : List Appointment
  tasks : List Nat
  log : List (Nat × CacheEvent)
  finished : List (Nat × Finish)

namespace Timeline

/-- The time before anything has happened. -/
def start (script : Script) (limit : Option Duration) : Timeline :=
  ⟨.empty, script, limit, 0, [], [], [], []⟩

/-- Puts something on the agenda, so many milliseconds from now. -/
def schedule (τ : Timeline) (wait : Nat) (due : Due) : Timeline :=
  { τ with agenda := (Appointment.mk (τ.now + wait) due).insert τ.agenda }

/-- A task is over. -/
def finish (τ : Timeline) (task : Nat) (outcome : Outcome) : Timeline :=
  { τ with finished := τ.finished ++ [(task, ⟨τ.now, outcome⟩)] }

/-- The wait for a query and its ending: the reply, unless the time is up before it comes. -/
def wait (limit : Option Duration) (r : DelayedReply) : Nat × Ending :=
  match limit with
  | none => (r.delay, .reply r.reply)
  | some d =>
    if r.delay ≤ d.ceilMillis then (r.delay, .reply r.reply) else (d.ceilMillis, .timedOut d)

/-- A call is over. -/
def finishCall (τ : Timeline) (call : Nat) (outcome : Outcome) : Timeline :=
  match τ.tasks[call]? with
  | none => τ
  | some task => τ.finish task outcome

/-- Takes note of an event. A query takes its reply when it is asked. -/
def observe (τ : Timeline) (e : CacheEvent) : Timeline :=
  let τ := { τ with log := τ.log ++ [(τ.now, e)] }
  match e with
  | .asked q _ t =>
    let (r, script) := τ.script.take t.statement
    let (ms, ending) := wait τ.limit r
    { τ with script }.schedule ms (.ending q ending)
  | .answered c r => τ.finishCall c (.answered r)
  | .dropped c => τ.finishCall c .dropped
  | .found _ => τ
  | .counted _ => τ

/-- Performs an action of the cache. -/
def perform (τ : Timeline) (a : CacheAction) : Timeline :=
  let (cache, events) := τ.cache.step a
  events.foldl observe { τ with cache }

/-- Does what is due. -/
def attend (τ : Timeline) : Due → Timeline
  | .ending q e => τ.perform (.settle q e)
  | .impatience c => τ.perform (.drop c)
  | .errand task (.get t patience) =>
    let c := τ.cache.calls.length
    let τ := { τ with tasks := τ.tasks ++ [task] }.perform (.call t)
    match patience with
    | none => τ
    | some ms => τ.schedule ms (.impatience c)
  | .errand task (.cached t) =>
    (τ.perform (.cached t)).finish task (.found (τ.cache.cached t))
  | .errand task (.invalidate t) =>
    (τ.perform (.invalidate t)).finish task (.found (τ.cache.cached t))
  | .errand task .size => (τ.perform .size).finish task (.counted τ.cache.size)

/-- Attends to the agenda, at most `n` times. -/
def advance : Nat → Timeline → Timeline
  | 0, τ => τ
  | n + 1, τ =>
    match τ.agenda with
    | [] => τ
    | a :: as => advance n ({ τ with now := a.time, agenda := as }.attend a.due)

/-- Runs tasks that start from now on until all of them are over. A task is attended to when it
starts, when its call loses its patience, and when its query ends. The results are in the order
of the tasks, with the time since the beginning. -/
def runTasks (τ : Timeline) (tasks : List Task) : Timeline × List (Option Finish) :=
  let begun := tasks.zipIdx.foldl (fun τ p => τ.schedule p.1.start (.errand p.2 p.1.errand))
    { τ with finished := [] }
  let τ' := advance (3 * tasks.length + τ.agenda.length) begun
  (τ', tasks.zipIdx.map fun p =>
    (τ'.finished.lookup p.2).map fun f => { f with time := f.time - τ.now })

/-- The statements that were run, in order. -/
def statements (τ : Timeline) : List String :=
  τ.log.filterMap fun e =>
    match e.2 with
    | .asked _ _ t => some t.statement
    | _ => none

end Timeline

end TableCapture
