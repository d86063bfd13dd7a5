import TableCapture.Proofs.Resolution
import TableCapture.Proofs.SchemaCache.Crowd

/-!
# What becomes of many calls at once

When `n` calls for a table start together, and nobody else asks for the table, the callers try one
after the other, in the order in which they came, until an attempt succeeds or all have failed. A
caller before the first success gets its own error, at the end of its own attempt, and all others
get one schema, which they share, at the end of the attempt that succeeds (`crowd_outcome`). An
attempt lasts as long as its reply takes, or as long as the time limit allows (`time_wait`).

The schema stays in the cache only when the first attempt succeeds: a failure takes the cell out of
the map, and the attempts after it are made at a cell that no later call finds.
-/

namespace TableCapture

/-- A duration of so many milliseconds. -/
def Duration.ofMillis (n : Nat) : Duration :=
  ⟨n * 1000000⟩

namespace DelayedReply

/-- How long a query waits for its reply. -/
def lasts (limit : Option Nat) (r : DelayedReply) : Nat :=
  match limit with
  | none => r.delay
  | some T => min r.delay T

/-- What a query for a table gives: what the reply says, unless it comes too late. -/
def outcome (limit : Option Nat) (t : TableId) (r : DelayedReply) :
    Except SchemaError TableSchema :=
  match limit with
  | none => r.reply.schema t
  | some T =>
    if r.delay ≤ T then r.reply.schema t
    else .error ⟨t, t.statement, .timedOut (.ofMillis T)⟩

variable {limit : Option Nat} {t : TableId} {r : DelayedReply} {err : SchemaError}

theorem ceilMillis_ofMillis (n : Nat) : (Duration.ofMillis n).ceilMillis = n := by
  change (n * 1000000 + 999999) / 1000000 = n
  omega

theorem time_wait : (Timeline.wait (limit.map .ofMillis) r).1 = r.lasts limit := by
  cases limit with
  | none => rfl
  | some T =>
    simp only [Option.map_some, Timeline.wait, lasts, ceilMillis_ofMillis]
    split <;> simp only [] <;> omega

theorem schema_wait :
    (Timeline.wait (limit.map .ofMillis) r).2.schema t = r.outcome limit t := by
  cases limit with
  | none => rfl
  | some T =>
    simp only [Option.map_some, Timeline.wait, outcome, ceilMillis_ofMillis]
    split <;> rfl

theorem lasts_pos (hlimit : ∀ T, limit = some T → 0 < T) (hr : 0 < r.delay) :
    0 < r.lasts limit := by
  cases limit with
  | none => exact hr
  | some T => exact Nat.lt_min.2 ⟨hr, hlimit T rfl⟩

/-- The error says that the time was up when it was. -/
theorem timedOut_iff (h : r.outcome limit t = .error err) :
    (∃ d, err.failure = .timedOut d) ↔ ∃ T, limit = some T ∧ T < r.delay := by
  have hreply : r.reply.schema t = .error err → ¬ ∃ d, err.failure = .timedOut d :=
    fun h ⟨d, hd⟩ => Reply.not_timedOut_of_schema h d hd
  cases limit with
  | none => simp [hreply h]
  | some T =>
    unfold outcome at h
    by_cases hle : r.delay ≤ T
    · simp only [hle, if_true] at h
      simp [hreply h, hle]
    · simp only [hle, if_false] at h
      cases h
      simpa using Nat.lt_of_not_le hle

end DelayedReply

namespace Timeline

open SchemaCache

/-- The tables that queries are asked for while tasks are run, in order. -/
def askedBy (τ : Timeline) (ts : List Task) : List TableId :=
  (τ.runTasks ts).1.asked.drop τ.asked.length

theorem asked_advance (n : Nat) (τ : Timeline) : τ.asked <+: (advance n τ).asked := by
  induction n generalizing τ with
  | zero => exact List.prefix_rfl
  | succ n ih =>
    rcases hag : τ.agenda with _ | ⟨a, as⟩
    · rw [advance_nil hag]
    · rw [advance_cons hag]
      refine List.IsPrefix.trans ?_ (ih _)
      rw [asked_attend]
      exact List.prefix_append _ _

theorem asked_append (τ : Timeline) (ts : List Task) :
    τ.asked ++ τ.askedBy ts = (τ.runTasks ts).1.asked := by
  have hprefix := asked_advance (3 * ts.length + τ.agenda.length) (τ.begun ts)
  rw [← runTasks_fst] at hprefix
  obtain ⟨us, hus⟩ := hprefix
  rw [askedBy, ← hus]
  exact congrArg (τ.asked ++ ·) List.drop_left

/-- What comes of the tasks for a table, in order. -/
def resultsFor (τ : Timeline) (ts : List Task) (t : TableId) : List (Option Finish) :=
  ((ts.zip (τ.runTasks ts).2).filter fun x => x.1.errand.table? = some t).map Prod.snd

/-- The tasks for a table. -/
def tasksFor (ts : List Task) (t : TableId) : List Nat :=
  (ts.zipIdx.filter fun x => x.1.errand.table? = some t).map Prod.snd

/-- The tasks for a table, as a crowd. -/
def crowd (τ : Timeline) (ts : List Task) (t : TableId) (s : Nat) (r : Nat → DelayedReply) :
    Crowd where
  table := t
  start := τ.now + s
  members := tasksFor ts t
  limit := τ.limit
  reply := r
  before := τ.asked.count t

section Members

variable {τ : Timeline} {ts : List Task} {t : TableId} {s n p : Nat} {r : Nat → DelayedReply}

theorem nodup_tasksFor : (tasksFor ts t).Nodup := by
  have hsub : (tasksFor ts t).Sublist (ts.zipIdx.map Prod.snd) := List.filter_sublist.map _
  rw [List.zipIdx_map_snd] at hsub
  exact (List.nodup_range' ..).sublist hsub

theorem resultsFor_eq : τ.resultsFor ts t = (tasksFor ts t).map fun p =>
    ((τ.runTasks ts).1.finished.lookup p).map fun f => { f with time := f.time - τ.now } := by
  have hzip : ∀ f : Task × Nat → Option Finish,
      ts.zip (ts.zipIdx.map f) = ts.zipIdx.map fun x => (x.1, f x) := by
    intro f
    have hfst : (ts.zipIdx.map Prod.fst).zip (ts.zipIdx.map f)
        = ts.zipIdx.map fun x => (x.1, f x) := List.zip_map'
    rwa [List.zipIdx_map_fst] at hfst
  unfold resultsFor tasksFor
  rw [runTasks_snd, hzip, List.filter_map, List.map_map, List.map_map]
  rfl

theorem over_of_stage {C : Crowd} {τ : Timeline} (h : C.Stage τ) (hmembers : C.members ≠ [])
    (hag : τ.agenda = []) : ∃ j q, C.Over τ j q := by
  have hnone : τ.pending C.table = [] := by
    rw [pending, hag, List.filter_nil]
  rcases h with h | ⟨i, c, q, w, failed, here, rest, h⟩ | h
  · have hpending := h.pending
    rw [hnone] at hpending
    exact absurd (List.map_eq_nil_iff.1 hpending.symm) hmembers
  · have hpending := h.pending
    rw [hnone] at hpending
    simp at hpending
  · exact h

section Crowd

variable (h : ts.filter (fun x => x.errand.table? = some t) = List.replicate n ⟨s, .get t none⟩)

include h

theorem eq_of_table {x : Task} (hx : x ∈ ts) (ht : x.errand.table? = some t) :
    x = ⟨s, .get t none⟩ := by
  have hmem : x ∈ ts.filter fun x => x.errand.table? = some t :=
    List.mem_filter.2 ⟨hx, decide_eq_true ht⟩
  rw [h] at hmem
  exact List.eq_of_mem_replicate hmem

theorem length_tasksFor : (tasksFor ts t).length = n := by
  have hfst : (ts.zipIdx.filter fun x => x.1.errand.table? = some t).map Prod.fst
      = List.replicate n ⟨s, .get t none⟩ := by
    rw [← h]
    conv_rhs => rw [← List.zipIdx_map_fst 0 ts, List.filter_map]
    rfl
  have hlength := congrArg List.length hfst
  rw [List.length_map, List.length_replicate] at hlength
  rw [tasksFor, List.length_map, hlength]

theorem members_crowd : (τ.crowd ts t s r).Members ts := by
  intro p hp
  obtain ⟨⟨x, p⟩, hx, rfl⟩ := List.mem_map.1 hp
  obtain ⟨hx, ht⟩ := List.mem_filter.1 hx
  have hget := List.mem_zipIdx_iff_getElem?.1 hx
  obtain rfl := eq_of_table h (List.mem_of_getElem? hget) (of_decide_eq_true ht)
  exact ⟨s, hget⟩

theorem idle_begun (hτ : τ.AtRest) (hfree : τ.cache.entries.lookup t = none) :
    (τ.crowd ts t s r).Idle (τ.begun ts) := by
  have hstarts : (τ.appointments ts).filter (fun a => τ.cache.about a.due.action = some t)
      = (τ.crowd ts t s r).starts (tasksFor ts t) := by
    unfold appointments tasksFor Crowd.starts
    rw [List.filter_map, List.map_map]
    have hsame : ∀ x ∈ ts.zipIdx, ((fun a : Appointment =>
        decide (τ.cache.about a.due.action = some t)) ∘ fun p : Task × Nat =>
          (⟨τ.now + p.1.start, .errand p.2 p.1.errand⟩ : Appointment)) x
        = decide (x.1.errand.table? = some t) := fun x _ => by
      simp [Due.action, about_errand]
    rw [List.filter_congr hsame]
    refine List.map_congr_left fun x hx => ?_
    obtain ⟨x, p⟩ := x
    obtain ⟨hx, ht⟩ := List.mem_filter.1 hx
    obtain rfl := eq_of_table h (List.mem_of_getElem? (List.mem_zipIdx_iff_getElem?.1 hx))
      (of_decide_eq_true ht)
    rfl
  have hsorted : Appointment.Sorted ((τ.crowd ts t s r).starts (tasksFor ts t)) :=
    List.pairwise_map.2 (List.pairwise_of_forall fun p p' => by simp [Appointment.le_iff, Due.rank])
  refine ⟨hτ.wellFormed.lookup_none_iff.1 hfree, ?_, rfl, fun p _ => rfl⟩
  change (Appointment.insertAll (τ.appointments ts) τ.agenda).filter
    (fun a => τ.cache.about a.due.action = some t) = _
  rw [hτ.agenda, Appointment.filter_insertAll List.Pairwise.nil, hstarts, List.filter_nil,
    Appointment.insertAll_last hsorted]
  rfl

theorem over_run (hτ : τ.AtRest) (hfree : τ.cache.entries.lookup t = none) (hn : 0 < n)
    (hpos : ∀ k, 0 < ((τ.crowd ts t s r).attempt k).1)
    (hreplies : (τ.crowd ts t s r).Answered τ.script (τ.askedBy ts)) :
    ∃ j q, (τ.crowd ts t s r).Over (τ.runTasks ts).1 j q := by
  let C := τ.crowd ts t s r
  have hC : C.Members ts := members_crowd h
  have hne : C.members ≠ [] := by
    intro hnil
    have := length_tasksFor h
    rw [show tasksFor ts t = [] from hnil, List.length_nil] at this
    omega
  have hstep : ∀ σ a as, σ.Going ts → σ.agenda = a :: as → C.RunsSince τ σ →
      C.RunsSince τ ({ σ with now := a.time, agenda := as }.attend a.due) := by
    rintro σ a as hg hag ⟨hlimit, us, hsince, hstage⟩
    have hnext := Crowd.Since.attend (τ := { σ with now := a.time, agenda := as }) (d := a.due)
      ⟨hsince.asked, hsince.script⟩
    refine ⟨by rw [limit_attend, ← hlimit], _, hnext, fun hanswered => ?_⟩
    exact (hstage hanswered.of_append).step hg hC nodup_tasksFor hag hlimit hpos hsince rfl
      hanswered
  obtain ⟨-, hag, -, us, hsince, hstage⟩ := Going.advance_induction hstep (3 * ts.length)
    (τ.begun ts) (hτ.going_begun ts) (hτ.burden_begun ts)
    ⟨rfl, [], ⟨(List.append_nil _).symm, rfl⟩, fun _ => .inl (idle_begun h hτ hfree)⟩
  have hrun := runTasks_fst τ ts
  rw [hτ.agenda, List.length_nil, Nat.add_zero] at hrun
  rw [← hrun] at hag hsince hstage
  have hus : τ.askedBy ts = us := by
    rw [askedBy, hsince.asked, List.drop_left]
  rw [hus] at hreplies
  exact over_of_stage (hstage hreplies) hne hag

end Crowd

end Members

/-- What becomes of `n` calls for a table that start at the time `s` of a run, when the queries for
the table are answered by `r`, and the attempt `j` is the first that succeeds. -/
structure CrowdOutcome (τ : Timeline) (ts : List Task) (t : TableId) (s n j : Nat)
    (limit : Option Nat) (r : Nat → DelayedReply) : Prop where
  queries : (τ.askedBy ts).count t = min (j + 1) n
  results : (τ.resultsFor ts t).length = n
  failed : ∀ k < n, k < j → ∃ err, (r k).outcome limit t = .error err
    ∧ ((∃ d, err.failure = .timedOut d) ↔ ∃ T, limit = some T ∧ T < (r k).delay)
    ∧ (τ.resultsFor ts t)[k]? = some (some
        ⟨s + ∑ i ∈ Finset.range (k + 1), (r i).lasts limit, .answered (.error err)⟩)
  shared : j < n → ∃ shared : SharedSchema, (r j).outcome limit t = .ok shared.schema
    ∧ ∀ k < n, j ≤ k → (τ.resultsFor ts t)[k]? = some (some
        ⟨s + ∑ i ∈ Finset.range (j + 1), (r i).lasts limit, .answered (.ok shared)⟩)
  cached : ((τ.runTasks ts).1.cache.cached t).isSome ↔ j = 0
  filled : ∀ i, (t, i) ∈ (τ.runTasks ts).1.cache.entries →
    ∃ shared, (τ.runTasks ts).1.cache.cells[i]? = some ⟨t, .filled shared⟩

section Outcome

variable {τ : Timeline} {ts : List Task} {t : TableId} {s n j q k : Nat} {limit : Option Nat}
  {r : Nat → DelayedReply}

theorem le_of_first {P : Nat → Prop} {i : Nat} (hfirst : ∀ k < j, P k)
    (hi : i = n ∨ i < n ∧ ¬ P i) (hj : j ≤ n) : j ≤ i := by
  rcases hi with rfl | ⟨-, hi⟩
  · exact hj
  · by_contra hlt
    exact hi (hfirst i (by omega))

/-- The first attempt that does not fail is one only. -/
theorem first_unique {P : Nat → Prop} {i : Nat} (hi : ∀ k < i, P k) (hi' : i = n ∨ i < n ∧ ¬ P i)
    (hj : ∀ k < j, P k) (hj' : j = n ∨ j < n ∧ ¬ P j) : i = j :=
  Nat.le_antisymm (le_of_first hi hj' (by omega)) (le_of_first hj hi' (by omega))

theorem schema_attempt (hlimit : τ.limit = limit.map .ofMillis) :
    ((τ.crowd ts t s r).attempt k).2.schema t = (r k).outcome limit t := by
  unfold Crowd.attempt crowd
  rw [hlimit]
  exact DelayedReply.schema_wait

theorem time_attempt (hlimit : τ.limit = limit.map .ofMillis) :
    ((τ.crowd ts t s r).attempt k).1 = (r k).lasts limit := by
  unfold Crowd.attempt crowd
  rw [hlimit]
  exact DelayedReply.time_wait

theorem time_crowd (hlimit : τ.limit = limit.map .ofMillis) : (τ.crowd ts t s r).time k
    = τ.now + (s + ∑ i ∈ Finset.range (k + 1), (r i).lasts limit) := by
  unfold Crowd.time
  rw [Finset.sum_congr rfl fun i _ => time_attempt hlimit, ← Nat.add_assoc]
  rfl

theorem answer_crowd (hlimit : τ.limit = limit.map .ofMillis) : (τ.crowd ts t s r).answer q k
    = ((r k).outcome limit t).map fun schema => ⟨q, schema⟩ := by
  unfold Crowd.answer
  exact congrArg (Except.map _) (schema_attempt hlimit)

theorem fails_crowd (hlimit : τ.limit = limit.map .ofMillis) :
    (τ.crowd ts t s r).Fails k ↔ ∃ err, (r k).outcome limit t = .error err := by
  unfold Crowd.Fails
  rw [← schema_attempt hlimit]
  rfl

theorem not_fails_crowd (hlimit : τ.limit = limit.map .ofMillis) :
    ¬ (τ.crowd ts t s r).Fails k ↔ ∃ schema, (r k).outcome limit t = .ok schema := by
  rw [fails_crowd hlimit]
  rcases (r k).outcome limit t with err | schema <;> simp

theorem result_of_over (hlimit : τ.limit = limit.map .ofMillis)
    (h : (τ.crowd ts t s r).Over (τ.runTasks ts).1 j q) (hk : k < (tasksFor ts t).length) :
    (τ.resultsFor ts t)[k]? = some (some
      ⟨s + ∑ i ∈ Finset.range (min k j + 1), (r i).lasts limit,
        .answered (((r (min k j)).outcome limit t).map fun schema => ⟨q, schema⟩)⟩) := by
  have hp := List.getElem?_eq_getElem hk
  rw [resultsFor_eq, List.getElem?_map, hp, Option.map_some, h.finished k _ hp, Option.map_some,
    Crowd.finish, time_crowd hlimit, answer_crowd hlimit, Nat.add_sub_cancel_left]

theorem count_of_over (h : (τ.crowd ts t s r).Over (τ.runTasks ts).1 j q) :
    (τ.askedBy ts).count t = min (j + 1) (tasksFor ts t).length := by
  have hasked : _ = τ.asked.count t + min (j + 1) (tasksFor ts t).length := h.asked
  rw [← asked_append, List.count_append] at hasked
  exact Nat.add_left_cancel hasked

theorem cached_of_over (h : (τ.crowd ts t s r).Over (τ.runTasks ts).1 j q)
    (hk : (τ.runTasks ts).1.cache.WellFormed) :
    ((τ.runTasks ts).1.cache.cached t).isSome ↔ j = 0 := by
  refine Iff.trans ?_ h.entry
  rw [Option.isSome_iff_exists]
  simp only [hk.cached_iff]
  constructor
  · rintro ⟨shared, i, hi, -⟩
    exact ⟨i, hi⟩
  · rintro ⟨i, hi⟩
    obtain ⟨shared, hshared⟩ := h.filled i hi
    exact ⟨shared, i, hi, hshared⟩

/-- Calls for a table that start together try one after the other until an attempt succeeds, and
then share its schema. -/
theorem crowd_outcome (hτ : Reachable τ) (hlimit : τ.limit = limit.map .ofMillis)
    (hpos : ∀ T, limit = some T → 0 < T) (hfree : τ.cache.entries.lookup t = none) (hn : 0 < n)
    (hcrowd : ts.filter (fun x => x.errand.table? = some t) = List.replicate n ⟨s, .get t none⟩)
    (hdelay : ∀ i, 0 < (r i).delay)
    (hreplies : ∀ i x, (τ.script.taken t (τ.askedBy ts))[i]? = some x → x = r i)
    (hfirst : ∀ i < j, ∃ err, (r i).outcome limit t = .error err)
    (hj : j = n ∨ j < n ∧ ∃ schema, (r j).outcome limit t = .ok schema) :
    CrowdOutcome τ ts t s n j limit r := by
  have hlength : (tasksFor ts t).length = n := length_tasksFor hcrowd
  have hmembers : (τ.crowd ts t s r).members.length = n := hlength
  have hlasts : ∀ k, 0 < ((τ.crowd ts t s r).attempt k).1 := by
    intro k
    rw [time_attempt hlimit]
    exact DelayedReply.lasts_pos hpos (hdelay k)
  obtain ⟨j', q, hover⟩ := over_run hcrowd hτ.atRest hfree hn hlasts hreplies
  obtain rfl : j' = j := by
    refine first_unique hover.fails hover.last (fun k hk => (fails_crowd hlimit).2 (hfirst k hk)) ?_
    rw [not_fails_crowd hlimit, hmembers]
    exact hj
  have hresult : ∀ k < n, _ := fun k hk => result_of_over hlimit hover (hlength ▸ hk)
  constructor
  case queries => rw [count_of_over hover, hlength]
  case results => rw [resultsFor_eq, List.length_map, hlength]
  case failed =>
    intro k hk hkj
    obtain ⟨err, herr⟩ := hfirst k hkj
    have := hresult k hk
    rw [Nat.min_eq_left hkj.le, herr] at this
    exact ⟨err, herr, DelayedReply.timedOut_iff herr, this⟩
  case shared =>
    intro hjn
    obtain ⟨schema, hschema⟩ := (hj.resolve_left hjn.ne).2
    refine ⟨⟨q, schema⟩, hschema, fun k hk hjk => ?_⟩
    have := hresult k hk
    rw [Nat.min_eq_right hjk, hschema] at this
    exact this
  case cached => exact cached_of_over hover (hτ.atRest.run ts).wellFormed
  case filled => exact hover.filled

end Outcome

/-- The first query takes too long, the second finds nothing, and the third succeeds. -/
def lampsTries : Nat → DelayedReply
  | 0 => ⟨7, .rows []⟩
  | 1 => ⟨2, .rows []⟩
  | _ => ⟨3, .rows [[some "lamps", some "CREATE TABLE lamps (watt int)"]]⟩

def lampsStart : Timeline :=
  start ⟨⟨[("", [lampsTries 0, lampsTries 1, lampsTries 2])], List.pairwise_singleton _ _⟩⟩
    (some (.ofMillis 5))

/-- Four calls, and a look at the size of the cache. -/
def lampsTasks : List Task :=
  [⟨1, .get lamps none⟩, ⟨1, .get lamps none⟩, ⟨0, .size⟩, ⟨1, .get lamps none⟩,
    ⟨1, .get lamps none⟩]

theorem crowd_outcome_lamps : lampsStart.script.taken lamps (lampsStart.askedBy lampsTasks)
      = [lampsTries 0, lampsTries 1, lampsTries 2]
    ∧ (lampsTries 1).outcome (some 5) lamps = .error ⟨lamps, lamps.statement, .notFound⟩
    ∧ (lampsTries 2).outcome (some 5) lamps = .ok lampsSchema
    ∧ CrowdOutcome lampsStart lampsTasks lamps 1 4 2 (some 5) lampsTries := by
  have htaken : lampsStart.script.taken lamps (lampsStart.askedBy lampsTasks)
      = [lampsTries 0, lampsTries 1, lampsTries 2] := by
    decide +kernel
  have hlate : (lampsTries 0).outcome (some 5) lamps
      = .error ⟨lamps, lamps.statement, .timedOut (.ofMillis 5)⟩ := rfl
  have hmissing : (lampsTries 1).outcome (some 5) lamps
      = .error ⟨lamps, lamps.statement, .notFound⟩ := rfl
  have hfound : (lampsTries 2).outcome (some 5) lamps = .ok lampsSchema := by
    decide +kernel
  refine ⟨htaken, hmissing, hfound, ?_⟩
  refine crowd_outcome (.start _ _) rfl ?_ rfl (by omega) rfl ?_ ?_ ?_
    (.inr ⟨by omega, _, hfound⟩)
  · rintro T ⟨⟩
    omega
  · intro i
    rcases i with _ | _ | i <;> exact Nat.succ_pos _
  · intro i x hx
    rw [htaken] at hx
    rcases i with _ | _ | _ | i <;> cases hx <;> rfl
  · intro i hi
    rcases i with _ | _ | i
    · exact ⟨_, hlate⟩
    · exact ⟨_, hmissing⟩
    · omega

end Timeline

end TableCapture
