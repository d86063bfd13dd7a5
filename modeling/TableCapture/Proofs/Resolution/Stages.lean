import Mathlib.Data.List.Induction
import TableCapture.Proofs.Resolution

/-!
# What decides a resolution

A resolution goes through four stages, and each can end it: the statement is run, the definition is
taken from the answer, the definition is read, and the last change of the table is looked for. Each
stage has a condition that does not mention how it is computed (`Reply.shows_rows_iff`,
`TableChange.lastSchema?_eq_some_iff`, `TableId.schemaIn_eq_ok_iff`), and together these say which
statement is run, what is read, and when each result comes about (`resolves_recorded`).
-/

namespace TableCapture

/-! ## The stages -/

/-- The answer has a first row, this row has a second value, and the value is this definition. -/
def Reply.Shows (r : Reply) (definition : String) : Prop :=
  ∃ row rest, r = .rows (row :: rest) ∧ row[1]? = some (some definition)

/-- The last change of the table gives this schema, whatever changes of other tables there are. -/
def TableChange.Last (t : TableId) (cs : List TableChange) (s : TableSchema) : Prop :=
  ∃ before c after, cs = before ++ c :: after ∧ c.id = t ∧ c.schema = s ∧ ∀ d ∈ after, d.id ≠ t

section Stages

variable {t : TableId} {cs : List TableChange} {s : TableSchema} {reading : Reading}

theorem Reply.not_shows_failed {cause d : String} : ¬ (failed cause).Shows d := by
  rintro ⟨row, rest, h, -⟩
  cases h

theorem Reply.shows_rows_iff {rows : Rows} {d : String} :
    (Reply.rows rows).Shows d ↔ rows.definition? = some d := by
  unfold Shows
  rcases rows with _ | ⟨_ | ⟨a, _ | ⟨b, values⟩⟩, rest⟩ <;> simp [Rows.definition?]

theorem TableChange.lastSchema?_concat (cs : List TableChange) (c : TableChange) :
    lastSchema? t (cs ++ [c]) = if c.id = t then some c.schema else lastSchema? t cs := by
  unfold lastSchema?
  rw [List.filter_append]
  split_ifs with hc <;> simp [hc]

theorem TableChange.lastSchema?_eq_none_iff :
    lastSchema? t cs = none ↔ ∀ c ∈ cs, c.id ≠ t := by
  simp [lastSchema?]

theorem TableChange.lastSchema?_eq_some_iff : lastSchema? t cs = some s ↔ Last t cs s := by
  constructor
  · intro h
    -- From the end: the last change is of the table, or it does not count.
    induction cs using List.reverseRecOn with
    | nil => cases h
    | append_singleton cs c ih =>
      rw [lastSchema?_concat] at h
      split_ifs at h with hc
      · exact ⟨cs, c, [], rfl, hc, Option.some.inj h, by simp⟩
      · obtain ⟨before, b, after, rfl, hb, hs, hafter⟩ := ih h
        refine ⟨before, b, after ++ [c], by simp, hb, hs, ?_⟩
        simpa [or_imp, forall_and] using ⟨hafter, hc⟩
  · rintro ⟨before, c, after, rfl, hc, rfl, hafter⟩
    have hnone : after.filter (fun d => d.id = t) = [] := by
      simpa [List.filter_eq_nil_iff] using hafter
    simp [lastSchema?, List.filter_append, hc, hnone]

namespace TableId

variable {e : SchemaError}

theorem schemaIn_ok (t : TableId) (cs : List TableChange) : t.schemaIn (.ok cs) =
    match TableChange.lastSchema? t cs with
    | none => .error ⟨t, t.statement, .notFound⟩
    | some s => .ok s := rfl

theorem schemaIn_eq_ok_iff : t.schemaIn reading = .ok s ↔
    ∃ cs, reading = .ok cs ∧ TableChange.Last t cs s := by
  rcases reading with cause | cs
  · simp [schemaIn]
  · simp only [schemaIn_ok, Except.ok.injEq, exists_eq_left', ← TableChange.lastSchema?_eq_some_iff]
    rcases TableChange.lastSchema? t cs with _ | s <;> simp

theorem schemaIn_eq_error_iff : t.schemaIn reading = .error e ↔
    (∃ cause, reading = .error cause ∧ e = ⟨t, t.statement, .unreadable cause⟩)
      ∨ ∃ cs, reading = .ok cs ∧ (∀ c ∈ cs, c.id ≠ t) ∧ e = ⟨t, t.statement, .notFound⟩ := by
  rcases reading with cause | cs
  · simp [schemaIn, eq_comm]
  · simp only [schemaIn_ok, reduceCtorEq, false_and, exists_false, false_or, Except.ok.injEq,
      exists_eq_left', ← TableChange.lastSchema?_eq_none_iff]
    rcases TableChange.lastSchema? t cs with _ | s <;> simp [eq_comm]

end TableId

end Stages

/-! ## The resolution -/

/-- What comes of a resolution, and which notes are taken of it, where `r` is the answer to the
statement and `read` reads definitions. -/
structure Resolves (r : Reply) (read : String → Option String → Option String → Reading)
    (t : TableId) (result : Except SchemaError TableSchema) (notes : Transcript) : Prop where
  statements : notes.statements = ["SHOW CREATE TABLE " ++ t.quoted]
  /-- The definition that the answer shows is read once, with the qualifiers of the table. -/
  read_iff : ∀ d, notes.readings = [⟨d, t.catalog, t.schema⟩] ↔ r.Shows d
  unread_iff : notes.readings = [] ↔ ∀ d, ¬ r.Shows d
  ok_iff : ∀ s, result = .ok s ↔
    ∃ d, r.Shows d ∧ ∃ cs, read d t.catalog t.schema = .ok cs ∧ TableChange.Last t cs s
  queryFailed_iff : ∀ cause, result = .error ⟨t, t.statement, .queryFailed cause⟩ ↔
    r = .failed cause
  unreadable_iff : ∀ cause, result = .error ⟨t, t.statement, .unreadable cause⟩ ↔
    ∃ d, r.Shows d ∧ read d t.catalog t.schema = .error cause
  /-- What is left: rows without a definition, or one that changes other tables only. -/
  notFound_iff : result = .error ⟨t, t.statement, .notFound⟩ ↔ (∃ rows, r = .rows rows)
    ∧ ∀ d, r.Shows d → ∃ cs, read d t.catalog t.schema = .ok cs ∧ ∀ c ∈ cs, c.id ≠ t
  /-- Every error names the table and the statement, and there are no others than these three. -/
  error : ∀ e, result = .error e → e.table = t ∧ e.statement = "SHOW CREATE TABLE " ++ t.quoted
    ∧ ∀ limit, e.failure ≠ .timedOut limit

section Resolution

variable {read : String → Option String → Option String → Reading} {t : TableId}

theorem resolves_failed (cause : String) : Resolves (.failed cause) read t
    (.error ⟨t, t.statement, .queryFailed cause⟩) ⟨[t.statement], []⟩ := by
  constructor
  case statements => rfl
  case error =>
    rintro _ ⟨⟩
    exact ⟨rfl, rfl, fun _ => SchemaFailure.noConfusion⟩
  all_goals simp [Reply.not_shows_failed]

theorem resolves_undefined {rows : Rows} (hd : rows.definition? = none) :
    Resolves (.rows rows) read t (.error ⟨t, t.statement, .notFound⟩) ⟨[t.statement], []⟩ := by
  constructor
  case statements => rfl
  case error =>
    rintro _ ⟨⟩
    exact ⟨rfl, rfl, fun _ => SchemaFailure.noConfusion⟩
  all_goals simp [Reply.shows_rows_iff, hd]

theorem resolves_defined {rows : Rows} {d : String} (hd : rows.definition? = some d) :
    Resolves (.rows rows) read t (t.schemaIn (read d t.catalog t.schema))
      ⟨[t.statement], [⟨d, t.catalog, t.schema⟩]⟩ := by
  constructor
  case statements => rfl
  case error =>
    intro e he
    rcases TableId.schemaIn_eq_error_iff.1 he with ⟨cause, -, rfl⟩ | ⟨cs, -, -, rfl⟩ <;>
      exact ⟨rfl, rfl, fun _ => SchemaFailure.noConfusion⟩
  all_goals
    simp [Reply.shows_rows_iff, hd, TableId.schemaIn_eq_ok_iff, TableId.schemaIn_eq_error_iff]

/-- A resolution runs one statement, reads what its answer defines and nothing else, and gives the
schema of the last change of the table, or an error of the stage that ended it. -/
theorem resolves_recorded (reply : String → Reply)
    (read : String → Option String → Option String → Reading) (t : TableId) :
    Resolves (reply t.statement) read t (resolveRecorded reply read t).1
      (resolveRecorded reply read t).2 := by
  rcases hr : reply t.statement with rows | cause
  · rcases hd : rows.definition? with _ | d
    · rw [resolveRecorded_undefined reply hr hd]
      exact resolves_undefined hd
    · rw [resolveRecorded_defined reply hr hd]
      exact resolves_defined hd
  · rw [resolveRecorded_failed reply hr]
    exact resolves_failed cause

/-- Of two changes of the table the later one counts, though a change of another one follows. -/
example : (resolveRecorded (fun _ => .rows [[none, some "definition"]])
    (fun _ catalog _ => .ok [.create ⟨⟨catalog, none, "lamps"⟩, [], ["a"]⟩,
      .create ⟨⟨catalog, none, "lamps"⟩, [], ["b"]⟩, .create ⟨⟨none, none, "lamps"⟩, [], []⟩])
    ⟨some "shop", none, "lamps"⟩).1 = .ok ⟨⟨some "shop", none, "lamps"⟩, [], ["b"]⟩ := by
  decide +kernel

end Resolution

end TableCapture
