import Mathlib.Data.List.Basic
import TableCapture.Resolution

/-!
# What a resolution gives

To resolve a table takes one statement, and at most one definition is read. What comes of it is
told by the reply and by what was read (`resolveRecorded_failed`, `resolveRecorded_undefined`,
`resolveRecorded_defined`). Whatever goes wrong, the error names the table and the statement
(`Reply.error_of_schema`). Where nothing goes wrong, the schema is one of the table that was
asked for, for only changes of this table count, and a change has the schema of the table that
it is for (`Reply.id_of_schema`).
-/

namespace TableCapture

/-! ## Changes -/

section Changes

theorem Sql.id_foldl_setNullable (keys : List String) (s : TableSchema) :
    (keys.foldl (fun s k => s.setNullable k false) s).id = s.id := by
  induction keys generalizing s with
  | nil => rfl
  | cons k keys ih => exact ih _

theorem Sql.TableConstraint.id_apply (c : Sql.TableConstraint) (s : TableSchema) :
    (c.apply s).id = s.id := by
  cases c with
  | primaryKey keys => exact id_foldl_setNullable keys s
  | unique | foreignKey | check | index => rfl

theorem Sql.id_foldl_apply (cs : List Sql.TableConstraint) (s : TableSchema) :
    (cs.foldl Sql.TableConstraint.apply s).id = s.id := by
  induction cs generalizing s with
  | nil => rfl
  | cons c cs ih => exact (ih _).trans (c.id_apply s)

/-- A change is for the table that its schema names. -/
theorem Sql.id_of_mem_readChanges {text : String} {c s : Option String} {cs : List TableChange}
    (h : Sql.readChanges text c s = .ok cs) {x : TableChange} (hx : x ∈ cs) :
    x.schema.id = x.id := by
  unfold readChanges at h
  split at h
  · cases h
  · simp only [] at h
    split at h
    · cases h
    · simp only [Except.ok.injEq] at h
      subst h
      obtain ⟨d, -, rfl⟩ := List.mem_map.1 hx
      rfl

theorem TableChange.lastSchema?_eq_some {t : TableId} {cs : List TableChange} {s : TableSchema}
    (h : TableChange.lastSchema? t cs = some s) : ∃ c ∈ cs, c.id = t ∧ c.schema = s := by
  obtain ⟨c, hc, rfl⟩ := Option.map_eq_some_iff.1 h
  have hmem := List.mem_of_getLast? hc
  rw [List.mem_filter, decide_eq_true_iff] at hmem
  exact ⟨c, hmem.1, hmem.2, rfl⟩

end Changes

/-! ## Resolutions -/

/-- The schema of a table in what was read for it. -/
def TableId.schemaIn (t : TableId) : Reading → Except SchemaError TableSchema
  | .error cause => .error ⟨t, t.statement, .unreadable cause⟩
  | .ok changes =>
    match TableChange.lastSchema? t changes with
    | none => .error ⟨t, t.statement, .notFound⟩
    | some schema => .ok schema

section Recorded

variable (reply : String → Reply) {read : String → Option String → Option String → Reading}
  {t : TableId} {rows : Rows}

theorem resolveRecorded_failed {cause : String} (h : reply t.statement = .failed cause) :
    resolveRecorded reply read t
      = (.error ⟨t, t.statement, .queryFailed cause⟩, ⟨[t.statement], []⟩) := by
  unfold resolveRecorded resolve
  simp [h]
  rfl

theorem resolveRecorded_undefined (h : reply t.statement = .rows rows)
    (hd : rows.definition? = none) :
    resolveRecorded reply read t
      = (.error ⟨t, t.statement, .notFound⟩, ⟨[t.statement], []⟩) := by
  unfold resolveRecorded resolve
  simp [h, hd]
  rfl

theorem resolveRecorded_defined {d : String} (h : reply t.statement = .rows rows)
    (hd : rows.definition? = some d) :
    resolveRecorded reply read t
      = (t.schemaIn (read d t.catalog t.schema), ⟨[t.statement], [⟨d, t.catalog, t.schema⟩]⟩) := by
  unfold resolveRecorded resolve TableId.schemaIn
  rcases hr : read d t.catalog t.schema with e | cs
  · simp [h, hd, hr]
    rfl
  · rcases hs : TableChange.lastSchema? t cs with _ | s
    · simp [h, hd, hr, hs]
      rfl
    · simp [h, hd, hr, hs]
      rfl

end Recorded

/-! ## Replies -/

namespace Reply

variable {r : Reply} {t : TableId} {s : TableSchema} {err : SchemaError}

/-- What comes of a resolution is the same whether notes are taken of it or not. -/
theorem schema_eq_recorded (r : Reply) (t : TableId) :
    r.schema t = (resolveRecorded (fun _ => r) Sql.readChanges t).1 := by
  unfold Reply.schema resolve
  rcases r with rows | cause
  · rcases hd : Rows.definition? rows with _ | d
    · rw [resolveRecorded_undefined _ rfl hd]
      simp [hd]
    · rw [resolveRecorded_defined _ rfl hd]
      unfold TableId.schemaIn
      rcases hr : Sql.readChanges d t.catalog t.schema with e | cs
      · simp [hd, hr]
      · rcases hs : TableChange.lastSchema? t cs with _ | s <;> simp [hd, hr, hs]
  · rw [resolveRecorded_failed (fun _ => .failed cause) rfl]
    rfl

theorem statements_eq (r : Reply) (read : String → Option String → Option String → Reading)
    (t : TableId) : (resolveRecorded (fun _ => r) read t).2.statements = [t.statement] := by
  rcases r with rows | cause
  · rcases hd : Rows.definition? rows with _ | d
    · rw [resolveRecorded_undefined _ rfl hd]
    · rw [resolveRecorded_defined _ rfl hd]
  · rw [resolveRecorded_failed (fun _ => .failed cause) rfl]

/-- A schema is read from the definition in the reply, as the last change for the table. -/
theorem exists_change (h : r.schema t = .ok s) : ∃ rows d cs, r = .rows rows
    ∧ rows.definition? = some d ∧ Sql.readChanges d t.catalog t.schema = .ok cs
    ∧ TableChange.lastSchema? t cs = some s := by
  rw [schema_eq_recorded] at h
  cases r with
  | failed cause =>
    rw [resolveRecorded_failed (fun _ => .failed cause) rfl] at h
    cases h
  | rows rows =>
    rcases hd : Rows.definition? rows with _ | d
    · rw [resolveRecorded_undefined _ rfl hd] at h
      cases h
    · rw [resolveRecorded_defined _ rfl hd] at h
      unfold TableId.schemaIn at h
      rcases hr : Sql.readChanges d t.catalog t.schema with e | cs <;> simp only [hr] at h
      · cases h
      · rcases hs : TableChange.lastSchema? t cs with _ | s' <;> simp only [hs] at h
        · cases h
        · cases h
          exact ⟨rows, d, cs, rfl, hd, hr, hs⟩

theorem id_of_schema (h : r.schema t = .ok s) : s.id = t := by
  obtain ⟨rows, d, cs, -, -, hr, hs⟩ := exists_change h
  obtain ⟨c, hc, hid, rfl⟩ := TableChange.lastSchema?_eq_some hs
  rw [Sql.id_of_mem_readChanges hr hc, hid]

theorem error_of_schema (h : r.schema t = .error err) :
    err.table = t ∧ err.statement = t.statement := by
  unfold Reply.schema resolve at h
  simp only [Id.run, pure, bind] at h
  repeat' split at h
  all_goals cases h
  all_goals exact ⟨rfl, rfl⟩

/-- Whoever gets a reply has not waited in vain. -/
theorem not_timedOut_of_schema (h : r.schema t = .error err) (limit : Duration) :
    err.failure ≠ .timedOut limit := by
  unfold Reply.schema resolve at h
  simp only [Id.run, pure, bind] at h
  repeat' split at h
  all_goals cases h
  all_goals exact SchemaFailure.noConfusion

end Reply

end TableCapture
