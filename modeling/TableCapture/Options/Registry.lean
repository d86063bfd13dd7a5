import TableCapture.Connector
import TableCapture.Options.Declaration

/-!
# The options of a connector

A registry lists the options that a connector knows. A requirement makes further options required
once an option has a certain value. Options whose key starts with the passthrough prefix are not
looked at and go to the engine that reads the change log.
-/

namespace TableCapture

/-- Options that are required once another has a certain value. -/
structure OptionRequirement where
  key : String
  value : String
  requires : List String
deriving DecidableEq, Repr, Inhabited

/-- The options that a connector knows. -/
structure OptionRegistry where
  connector : Connector
  options : List OptionDeclaration
  requirements : List OptionRequirement
  passthroughPrefix : String
deriving DecidableEq, Repr, Inhabited

namespace OptionRegistry

/-- The first declaration of a key. -/
def find? (r : OptionRegistry) (key : String) : Option OptionDeclaration :=
  r.options.find? fun o => o.key = key

/-- Whether a key is declared. -/
def declares (r : OptionRegistry) (key : String) : Bool :=
  (r.find? key).isSome

/-- The required options, in the order of their declaration. -/
def required (r : OptionRegistry) : List OptionDeclaration :=
  r.options.filter OptionDeclaration.required

end OptionRegistry

/-! ## Keys -/

namespace OptionKey

/-- The key that names the connector. It chooses the registry and is not looked up in one. -/
def connector := "connector"

def hostname := "hostname"

def port := "port"

def username := "username"

def password := "password"

def databaseName := "database-name"

def tableName := "table-name"

def schemaName := "schema-name"

def startupMode := "scan.startup.mode"

def startupFile := "scan.startup.specific-offset.file"

def startupPosition := "scan.startup.specific-offset.pos"

def startupMillis := "scan.startup.timestamp-millis"

end OptionKey

/-! ## The registries there are -/

namespace Connector

/-- Options under this prefix go to the engine that reads the change log. -/
def enginePrefix := "debezium."

/-- The options of a MySQL source. -/
def mySQLOptions : List OptionDeclaration := [
  { key := OptionKey.hostname, kind := .text, required := true
    description := "IP address or hostname of the MySQL database server." },
  { key := OptionKey.port, kind := .integer 0 65535, default? := some "3306"
    description := "Integer port number of the MySQL database server." },
  { key := OptionKey.username, kind := .text, required := true
    description := "Name of the MySQL user to use when connecting to the server." },
  { key := OptionKey.password, kind := .text, required := true
    description := "Password to use when connecting to the MySQL server." },
  { key := OptionKey.databaseName, kind := .text, required := true
    description := "Database name of the MySQL server to monitor." },
  { key := OptionKey.tableName, kind := .text, required := true
    description := "Table name of the MySQL database to monitor." },
  { key := OptionKey.startupMode
    kind := .choice
      ["initial", "earliest-offset", "latest-offset", "specific-offset", "timestamp"]
    default? := some "initial"
    description := "Optional startup mode for the MySQL CDC consumer." },
  { key := OptionKey.startupFile, kind := .text
    description := "Binlog file name to start from in 'specific-offset' mode." },
  { key := OptionKey.startupPosition, kind := .integer 0 Decimal.maxInt64
    description := "Binlog position to start from in 'specific-offset' mode." },
  { key := OptionKey.startupMillis, kind := .integer 0 Decimal.maxInt64
    description := "Epoch milliseconds to start from in 'timestamp' mode." }]

/-- A place to start at needs the options that give the place. -/
def mySQLRequirements : List OptionRequirement := [
  ⟨OptionKey.startupMode, "specific-offset", [OptionKey.startupFile, OptionKey.startupPosition]⟩,
  ⟨OptionKey.startupMode, "timestamp", [OptionKey.startupMillis]⟩]

/-- The options of an Oracle source. -/
def oracleOptions : List OptionDeclaration := [
  { key := OptionKey.hostname, kind := .text, required := true
    description := "IP address or hostname of the Oracle database server." },
  { key := OptionKey.port, kind := .integer 0 65535, default? := some "1521"
    description := "Integer port number of the Oracle database server." },
  { key := OptionKey.username, kind := .text, required := true
    description := "Name of the Oracle user to use when connecting to the server." },
  { key := OptionKey.password, kind := .text, required := true
    description := "Password to use when connecting to the Oracle server." },
  { key := OptionKey.databaseName, kind := .text, required := true
    description := "Database name of the Oracle server to monitor." },
  { key := OptionKey.schemaName, kind := .text, required := true
    description := "Schema name of the Oracle database to monitor." },
  { key := OptionKey.tableName, kind := .text, required := true
    description := "Table name of the Oracle database to monitor." },
  { key := OptionKey.startupMode, kind := .choice ["initial", "latest-offset"]
    default? := some "initial"
    description := "Optional startup mode for the Oracle CDC consumer." }]

/-- The registry of a connector. -/
def registry : Connector → OptionRegistry
  | mySQL => ⟨mySQL, mySQLOptions, mySQLRequirements, enginePrefix⟩
  | oracle => ⟨oracle, oracleOptions, [], enginePrefix⟩

end Connector

end TableCapture
