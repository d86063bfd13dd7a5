import TableCapture.Options.Validation
import TableCapture.Source.PhysicalSchema
import TableCapture.Yaml.Node

/-!
# Configurations

A configuration file holds the options of a source and, if it likes, its physical schema. Records
are mappings from field names; names that a record does not have are passed over. Wherever a text
is wanted any scalar will do, and it stays as it is spelled.
-/

namespace TableCapture

namespace Yaml.Document

variable (d : Document)

/-- Whether a scalar is left out. An empty text stands for an empty sequence or mapping. -/
def isLeftOut (s : Scalar) : Bool :=
  s.style = .plain && s.text = ""

/-- The entries of a mapping. -/
def entries? (n : Node) : Option (List (Node × Node)) :=
  match d.follow n with
  | .mapping entries => some entries
  | .scalar s => if isLeftOut s then some [] else none
  | _ => none

/-- The items of a sequence. -/
def items? (n : Node) : Option (List Node) :=
  match d.follow n with
  | .sequence items => some items
  | .scalar s => if isLeftOut s then some [] else none
  | _ => none

/-- The fields of a record, each of which may be missing. No field is given twice. -/
def fields? (names : List String) (n : Node) : Option (List (Option Node)) := do
  let entries ← d.entries? n
  let keys ← entries.mapM fun e => d.text? e.1
  if names.any fun name => 1 < keys.count name then none
  else some (names.map ((keys.zip (entries.map Prod.snd)).lookup ·))

/-- The texts of a sequence. -/
def texts? (n : Node) : Option (List String) := do
  (← d.items? n).mapM d.text?

/-- The texts under the keys of a mapping. -/
def textEntries? (n : Node) : Option (List (String × String)) := do
  (← d.entries? n).mapM fun e => do some (← d.text? e.1, ← d.text? e.2)

/-- The truth value that a scalar spells: a plain one, or a literal block that is tagged so. -/
def flag? (n : Node) : Option Bool := do
  let s ← d.scalar? n
  let spelled := s.style = .plain || s.style = .literal && s.tag = some "tag:yaml.org,2002:bool"
  if !spelled then none
  else if s.text ∈ ["true", "True", "TRUE"] then some true
  else if s.text ∈ ["false", "False", "FALSE"] then some false
  else none

/-- The node, unless it says that there is no value. A plain scalar says so by its text, unless it
has a tag; the tag that says so does not go with another text. -/
def value? (n : Node) : Option (Option Node) :=
  match d.follow n with
  | .scalar ⟨.plain, tag, text⟩ =>
    let isNull : Bool := text ∈ ["~", "null", "Null", "NULL"]
    match tag with
    | none => some (if text = "" || isNull then none else some n)
    | some tag =>
      if tag ≠ "tag:yaml.org,2002:null" then some (some n)
      else if isNull then some none
      else none
  | _ => some (some n)

/-- The column that a node describes. -/
def column? (n : Node) : Option PhysicalColumn := do
  match ← d.fields? ["name", "data_type", "nullable"] n with
  | [some name, some dataType, nullable] =>
    let nullable ← match nullable with
      | none => some true
      | some v => d.flag? v
    some ⟨← d.text? name, ← d.text? dataType, nullable⟩
  | _ => none

/-- The key that a node describes. -/
def constraint? (n : Node) : Option UniqueConstraint := do
  match ← d.fields? ["name", "columns"] n with
  | [some name, some columns] => some ⟨← d.text? name, ← d.texts? columns⟩
  | _ => none

/-- The physical schema that a node describes. -/
def physicalSchema? (n : Node) : Option PhysicalSchema := do
  match ← d.fields? ["columns", "primary_key"] n with
  | [some columns, key] =>
    let columns ← (← d.items? columns).mapM d.column?
    let key ← match key with
      | none => some none
      | some k => d.value? k
    match key with
    | none => some ⟨columns, none⟩
    | some k => (d.constraint? k).map fun c => ⟨columns, some c⟩
  | _ => none

end Yaml.Document

/-- The contents of a configuration file. -/
structure Configuration where
  options : RawOptions
  physicalSchema : PhysicalSchema
deriving DecidableEq, Inhabited

namespace Configuration

/-- The configuration that a document describes. -/
def ofDocument? (d : Yaml.Document) : Option Configuration := do
  match ← d.fields? ["options", "physical_schema"] d.root with
  | [some options, schema] =>
    let options ← d.textEntries? options
    let schema ← match schema with
      | none => some ∅
      | some s => d.physicalSchema? s
    some ⟨.ofList options, schema⟩
  | _ => none

/-- Reads the text of a configuration file. -/
def ofText? (text : String) : Option Configuration :=
  (Yaml.Document.ofText? text).bind ofDocument?

end Configuration

end TableCapture
