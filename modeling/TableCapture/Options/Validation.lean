import TableCapture.Dict
import TableCapture.Options.Registry

/-!
# Validation of options

Options are sorted into declared options, options for the engine and options that nobody knows.
Then, in this order: every required option has to be there, there may be no unknown option, every
value has to fit its declaration, and so does every default that stands in for a missing option,
and the requirements that the values bring along have to be met. Each check reports every key at
fault at once, in order, except that the first value that does not fit is reported alone.
-/

namespace TableCapture

/-- The options of a table definition. Each key is there once; the order has no meaning. -/
structure RawOptions where
  entries : List (String × String)
  keys_nodup : (entries.map Prod.fst).Nodup
deriving DecidableEq

namespace RawOptions

/-- The text given for a key. -/
def get? (raw : RawOptions) (key : String) : Option String :=
  raw.entries.lookup key

/-- The options of a dictionary. -/
def ofDict (d : Dict String) : RawOptions :=
  ⟨d.entries, (List.pairwise_map.2 d.sorted).imp fun h => String.ne_of_lt h⟩

/-- The options of a list; of several entries with one key the last counts. -/
def ofList (es : List (String × String)) : RawOptions :=
  ofDict (Dict.ofList es)

instance : EmptyCollection RawOptions := ⟨⟨[], List.Pairwise.nil⟩⟩

instance : Inhabited RawOptions := ⟨∅⟩

end RawOptions

/-- Options sorted by who knows them. -/
structure SortedOptions where
  /-- The texts of declared options. -/
  declared : Dict String := ∅
  /-- The options of the engine, their prefix removed. -/
  passthrough : Dict String := ∅
  /-- The keys that nobody knows. -/
  unsupported : Names := ∅
deriving DecidableEq, Inhabited

/-- The rest of a key after the passthrough prefix, if there is one. -/
def OptionRegistry.passthroughKey? (r : OptionRegistry) (key : String) : Option String :=
  match r.passthroughPrefix.toList.isPrefixOf? key.toList with
  | some (c :: cs) => some (String.ofList (c :: cs))
  | _ => none

namespace SortedOptions

/-- Sorts one option in. The key that names the connector belongs nowhere. -/
def add (r : OptionRegistry) (s : SortedOptions) (e : String × String) : SortedOptions :=
  if e.1 = OptionKey.connector then s
  else if r.declares e.1 then { s with declared := s.declared.insert e.1 e.2 }
  else match r.passthroughKey? e.1 with
    | some k => { s with passthrough := s.passthrough.insert k e.2 }
    | none => { s with unsupported := s.unsupported.add e.1 }

/-- Sorts a list of options. -/
def ofEntries (r : OptionRegistry) (es : List (String × String)) : SortedOptions :=
  es.foldl (add r) {}

end SortedOptions

/-- Options that passed validation. -/
structure ValidatedOptions where
  connector : Connector
  values : Dict OptionValue
  passthrough : Dict String
deriving DecidableEq, Inhabited

namespace ValidatedOptions

/-- The text of an option that holds one. -/
def text? (v : ValidatedOptions) (key : String) : Option String :=
  (v.values.get? key).bind OptionValue.asText?

/-- The integer of an option that holds one. -/
def integer? (v : ValidatedOptions) (key : String) : Option Int :=
  (v.values.get? key).bind OptionValue.asInteger?

end ValidatedOptions

/-- Whether the values bring a requirement along. -/
def OptionRequirement.applies (q : OptionRequirement) (values : Dict OptionValue) : Bool :=
  (values.get? q.key).bind OptionValue.asText? = some q.value

namespace OptionRegistry

variable (r : OptionRegistry)

/-- The required keys that are not among the declared options given. -/
def missing (declared : Dict String) : List String :=
  (Names.ofList ((r.required.filter fun o => !declared.contains o.key).map
    OptionDeclaration.key)).toList

/-- Reads the declared options in the order of their declaration, a default in place of an option
that is not given. A key declared twice keeps its last value. -/
def readValues (declared : Dict String) (values : Dict OptionValue) :
    List OptionDeclaration → Except OptionError (Dict OptionValue)
  | [] => .ok values
  | o :: os =>
    match (declared.get? o.key).or o.default? with
    | none => readValues declared values os
    | some raw =>
      match o.parse raw with
      | .error e => .error e
      | .ok v => readValues declared (values.insert o.key v) os

/-- The keys that the values make required and that have no value. -/
def missingRequired (values : Dict OptionValue) : List String :=
  (Names.ofList (((r.requirements.filter fun q => q.applies values).flatMap
    OptionRequirement.requires).filter fun k => !values.contains k)).toList

/-- Whether the key that names the connector, if given, names that of the registry. -/
def checkConnector (raw : RawOptions) : Except OptionError Unit :=
  match raw.get? OptionKey.connector with
  | none => .ok ()
  | some c =>
    if c = r.connector.identifier then .ok ()
    else .error (.invalidValue OptionKey.connector c (some [r.connector.identifier]))

/-- Checks sorted options and reads their values. -/
def readSorted (s : SortedOptions) : Except OptionError ValidatedOptions :=
  match r.missing s.declared with
  | k :: ks => .error (.missingRequired (k :: ks))
  | [] =>
    match s.unsupported.toList with
    | k :: ks => .error (.unsupported r.connector.identifier (k :: ks))
    | [] =>
      match readValues s.declared ∅ r.options with
      | .error e => .error e
      | .ok values =>
        match r.missingRequired values with
        | k :: ks => .error (.missingRequired (k :: ks))
        | [] => .ok ⟨r.connector, values, s.passthrough⟩

/-- Validates options against a registry. -/
def validate (raw : RawOptions) : Except OptionError ValidatedOptions :=
  match r.checkConnector raw with
  | .error e => .error e
  | .ok () => r.readSorted (SortedOptions.ofEntries r raw.entries)

end OptionRegistry

end TableCapture
