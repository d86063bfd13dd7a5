import TableCapture.Options.Validation
import TableCapture.Source.Descriptor

/-!
# Creation of sources

A source is created from the options of a table definition: the `connector` option chooses the
registry, the options are validated against it, and the validated options fill the descriptor.
-/

namespace TableCapture

namespace ValidatedOptions

variable (v : ValidatedOptions)

/-- The text of an option, empty where it holds none. -/
def textD (key : String) : String :=
  (v.text? key).getD ""

/-- The integer of an option, zero where it holds none. -/
def integerD (key : String) : Int :=
  (v.integer? key).getD 0

/-- The mode that the options name. -/
def startupMode : StartupMode :=
  ((v.text? OptionKey.startupMode).bind StartupMode.ofName?).getD .initial

/-- Where the source starts reading. A position is kept modulo 2⁶⁴. -/
def startup : StartupOptions :=
  match v.startupMode with
  | .initial => .initial
  | .earliestOffset => .earliestOffset
  | .latestOffset => .latestOffset
  | .specificOffset => .specificOffset (v.textD OptionKey.startupFile)
      (UInt64.ofInt (v.integerD OptionKey.startupPosition))
  | .timestamp => .timestamp (Int64.ofInt (v.integerD OptionKey.startupMillis))

/-- The descriptor that validated options give. A port is kept modulo 2¹⁶. -/
def describe (s : PhysicalSchema) : SourceDescriptor where
  connector := v.connector
  physicalSchema := s
  port := UInt16.ofInt (v.integerD OptionKey.port)
  hostname := v.textD OptionKey.hostname
  database := v.textD OptionKey.databaseName
  table := v.textD OptionKey.tableName
  schemaName := v.text? OptionKey.schemaName
  username := v.textD OptionKey.username
  password := v.textD OptionKey.password
  passthrough := v.passthrough
  startup := v.startup

end ValidatedOptions

/-- The connector that options name. -/
def RawOptions.connector (raw : RawOptions) : Except OptionError Connector :=
  match raw.get? OptionKey.connector with
  | none => .error (.missingRequired [OptionKey.connector])
  | some name => Connector.ofIdentifier name

/-- Creates a source from the options and the declared columns of a table definition. -/
def SourceDescriptor.create (raw : RawOptions) (s : PhysicalSchema) :
    Except OptionError SourceDescriptor :=
  match raw.connector with
  | .error e => .error e
  | .ok c => (c.registry.validate raw).map fun v => v.describe s

end TableCapture
