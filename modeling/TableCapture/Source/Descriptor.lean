import TableCapture.Dict
import TableCapture.Connector
import TableCapture.Startup
import TableCapture.TableId
import TableCapture.Source.PhysicalSchema

/-!
# Source descriptors

A descriptor is all that is known of one table source. Two are equal when every field is. The
displayed form shows asterisks in place of the password.
-/

namespace TableCapture

/-- Everything that is known of a table source. -/
structure SourceDescriptor where
  connector : Connector
  physicalSchema : PhysicalSchema
  port : UInt16
  hostname : String
  database : String
  table : String
  schemaName : Option String
  username : String
  password : String
  /-- The options of the engine, their prefix removed. -/
  passthrough : Dict String
  startup : StartupOptions
deriving DecidableEq, Inhabited

namespace SourceDescriptor

/-- The name of the captured table. -/
def tableId (d : SourceDescriptor) : TableId :=
  ⟨some d.database, d.schemaName, d.table⟩

/-- The displayed descriptor. -/
def shape (d : SourceDescriptor) : Shape :=
  .record "SourceDescriptor"
    [("connector", .word d.connector.title),
      ("physical_schema", d.physicalSchema.shape),
      ("port", .word (toString d.port.toNat)),
      ("hostname", .text d.hostname),
      ("database", .text d.database),
      ("table", .text d.table),
      ("schema_name", .optional (d.schemaName.map .text)),
      ("username", .text d.username),
      ("password", .text "******"),
      ("passthrough_properties", .table (d.passthrough.entries.map fun e => (e.1, .text e.2))),
      ("startup_options", d.startup.shape)]

end SourceDescriptor

end TableCapture
