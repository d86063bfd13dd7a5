import Mathlib.Data.List.Infix
import TableCapture.Proofs.Resolution.Stages

/-!
# Which name means the table

The definition of a table may leave qualifiers out of its name, and then those of the table that was
asked for hold. Whether two parts are schema and table or catalog and table hangs on whether there
is a schema, and still the rule is one: a name of one to three parts means the table just when it
ends the parts of the table (`TableId.ofParts_eq_iff_suffix`). So an answer that defines one table
is taken for the table that was asked for just when the name in it fits (`suffix_resolves`).
-/

namespace TableCapture

/-! ## Names -/

namespace TableId

variable {t : TableId} {c s : Option String} {p q : List String} {a b x : String}

theorem suffix_parts_concat :
    q ++ [x] <:+ t.parts ↔ q <:+ t.catalog.toList ++ t.schema.toList ∧ x = t.table := by
  rw [parts, List.suffix_concat_iff]
  constructor
  · rintro (hnil | ⟨q', heq, hq⟩)
    · simp at hnil
    · obtain ⟨rfl, hx⟩ := List.append_inj' heq rfl
      exact ⟨hq, List.singleton_inj.1 hx⟩
  · rintro ⟨hq, rfl⟩
    exact .inr ⟨q, rfl, hq⟩

/-- One qualifier is the schema, or the catalog where there is no schema. -/
theorem suffix_qualifiers_one :
    [a] <:+ c.toList ++ s.toList ↔ s = some a ∨ s = none ∧ c = some a := by
  rcases c with _ | c <;> rcases s with _ | s <;> simp [List.suffix_cons_iff, @eq_comm _ a]

theorem suffix_qualifiers_two :
    [a, b] <:+ c.toList ++ s.toList ↔ c = some a ∧ s = some b := by
  rcases c with _ | c <;> rcases s with _ | s <;>
    simp [List.suffix_cons_iff, @eq_comm _ a, @eq_comm _ b]

theorem ofParts_one (c s : Option String) (x : String) : ofParts c s [x] = ⟨c, s, x⟩ := by
  cases s <;> rfl

theorem ofParts_three (c s : Option String) (a b x : String) :
    ofParts c s [a, b, x] = ⟨some a, some b, x⟩ := by
  cases s <;> rfl

/-- A name of one to three parts means the table, where its own qualifiers stand in for those left
out, just when it ends the parts of the table. -/
theorem ofParts_eq_iff_suffix (hne : p ≠ []) (hlen : p.length ≤ 3) :
    ofParts t.catalog t.schema p = t ↔ p <:+ t.parts := by
  obtain ⟨q, x, rfl⟩ : ∃ q x, p = q ++ [x] := ⟨_, _, (List.dropLast_append_getLast hne).symm⟩
  rw [suffix_parts_concat]
  obtain ⟨c, s, n⟩ := t
  rcases q with _ | ⟨a, _ | ⟨b, _ | ⟨d, q⟩⟩⟩
  · simp [ofParts_one]
  · rw [suffix_qualifiers_one]
    rcases s with _ | s <;> simp [ofParts, eq_comm]
  · rw [suffix_qualifiers_two]
    simp [ofParts_three, eq_comm, and_assoc]
  · simp only [List.length_append, List.length_cons] at hlen
    omega

end TableId

/-! ## Definitions -/

namespace Sql

variable {text : String} {ds : List TableDefinition} {catalog schema : Option String}

/-- The tables that the statements of a text define, if the text can be read. -/
def definitions? (text : String) : Option (List TableDefinition) :=
  (Token.scan text).bind fun ts =>
    (statements? (normalize ts).length (normalize ts)).map (List.filterMap Statement.definition?)

theorem readChanges_of_definitions (h : definitions? text = some ds) :
    readChanges text catalog schema = .ok (ds.map (TableDefinition.change catalog schema)) := by
  obtain ⟨ts, hts, h⟩ := Option.bind_eq_some_iff.1 h
  obtain ⟨ss, hss, rfl⟩ := Option.map_eq_some_iff.1 h
  simp only [readChanges, hts, hss]

theorem TableDefinition.id_schema (d : TableDefinition) (id : TableId) : (d.schema id).id = id :=
  id_foldl_apply d.constraints _

theorem TableDefinition.id_change (d : TableDefinition) (catalog schema : Option String) :
    (d.change catalog schema).id = .ofParts catalog schema d.name :=
  d.id_schema _

end Sql

theorem Reply.schema_of_shows {r : Reply} {text : String} (h : r.Shows text) (t : TableId) :
    r.schema t = t.schemaIn (Sql.readChanges text t.catalog t.schema) := by
  rw [schema_eq_recorded]
  rcases r with rows | cause
  · rw [resolveRecorded_defined _ rfl (shows_rows_iff.1 h)]
  · exact absurd h not_shows_failed

/-- A name of one to three parts means the table that was asked for just when it ends the parts of
this table. An answer that defines one table, under this name, gives the schema of the table then,
and no schema otherwise. -/
theorem suffix_resolves (t : TableId) {p : List String} (hne : p ≠ []) (hlen : p.length ≤ 3) :
    (TableId.ofParts t.catalog t.schema p = t ↔ p <:+ t.parts)
      ∧ ∀ (r : Reply) (text : String) (d : Sql.TableDefinition), r.Shows text →
        Sql.definitions? text = some [d] → d.name = p →
        (p <:+ t.parts → r.schema t = .ok (d.schema t) ∧ (d.schema t).id = t)
          ∧ (¬ p <:+ t.parts → r.schema t = .error ⟨t, t.statement, .notFound⟩) := by
  have hfits := TableId.ofParts_eq_iff_suffix (t := t) hne hlen
  refine ⟨hfits, fun r text d hshown hdefs hname => ?_⟩
  rw [Reply.schema_of_shows hshown, Sql.readChanges_of_definitions hdefs, List.map_singleton]
  have hid : (d.change t.catalog t.schema).id = t ↔ p <:+ t.parts := by
    rw [d.id_change, hname, hfits]
  constructor
  · intro hp
    refine ⟨TableId.schemaIn_eq_ok_iff.2 ⟨_, rfl, [], _, [], rfl, hid.2 hp, ?_, by simp⟩,
      d.id_schema t⟩
    show d.schema (.ofParts t.catalog t.schema d.name) = d.schema t
    rw [hname, hfits.2 hp]
  · intro hp
    refine TableId.schemaIn_eq_error_iff.2 (.inr ⟨_, rfl, ?_, rfl⟩)
    simpa [hid] using hp

/-- The name has one qualifier: the schema of one table, the catalog of another. -/
def shopText : String :=
  "CREATE TABLE `shop`.`lamps` (`id` int NOT NULL)"

def shopLamps : Sql.TableDefinition where
  name := ["shop", "lamps"]
  columns := [⟨"id", .integer "INT" none false, [.notNull]⟩]
  constraints := []

def shopAnswer : Reply :=
  .rows [[some "lamps", some shopText, none], []]

theorem suffix_resolves_lamps :
    shopAnswer.Shows shopText ∧ Sql.definitions? shopText = some [shopLamps]
      ∧ shopAnswer.schema ⟨some "shop", none, "lamps"⟩
        = .ok ⟨⟨some "shop", none, "lamps"⟩, [⟨"id", "INT", false⟩], []⟩
      ∧ shopAnswer.schema ⟨some "db", some "shop", "lamps"⟩
        = .ok ⟨⟨some "db", some "shop", "lamps"⟩, [⟨"id", "INT", false⟩], []⟩
      ∧ shopAnswer.schema ⟨some "db", none, "lamps"⟩
        = .error ⟨⟨some "db", none, "lamps"⟩, "SHOW CREATE TABLE `db`.`lamps`", .notFound⟩ := by
  have hshown : shopAnswer.Shows shopText := ⟨_, _, rfl, rfl⟩
  have hdefs : Sql.definitions? shopText = some [shopLamps] := by decide +kernel
  have hresolves : ∀ t : TableId,
      (["shop", "lamps"] <:+ t.parts →
        shopAnswer.schema t = .ok (shopLamps.schema t) ∧ (shopLamps.schema t).id = t)
      ∧ (¬ ["shop", "lamps"] <:+ t.parts →
        shopAnswer.schema t = .error ⟨t, t.statement, .notFound⟩) := fun t =>
    (suffix_resolves t (by simp) (by simp)).2 shopAnswer shopText shopLamps hshown hdefs rfl
  exact ⟨hshown, hdefs, ((hresolves _).1 (by decide)).1, ((hresolves _).1 (by decide)).1,
    (hresolves _).2 (by decide)⟩

end TableCapture
