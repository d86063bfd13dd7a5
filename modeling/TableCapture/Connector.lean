import TableCapture.Options.Error

/-!
# Connectors

A connector reads the changes of one family of databases. It is chosen by its identifier.
-/

namespace TableCapture

/-- A family of databases. -/
inductive Connector where
  | mySQL
  | oracle
deriving DecidableEq, Repr, Inhabited

namespace Connector

/-- Every connector, in the order in which they are listed. -/
def all : List Connector :=
  [mySQL, oracle]

/-- The name that chooses a connector. -/
def identifier : Connector → String
  | mySQL => "mysql-cdc"
  | oracle => "oracle-cdc"

/-- The name of a connector in displayed values. -/
def title : Connector → String
  | mySQL => "MySQL"
  | oracle => "Oracle"

/-- The identifiers there are, for messages. -/
def available : String :=
  ", ".intercalate (all.map identifier)

/-- The connector of an identifier. -/
def ofIdentifier (s : String) : Except OptionError Connector :=
  match all.find? fun c => c.identifier = s with
  | some c => .ok c
  | none => .error (.unknownConnector s available)

end Connector

end TableCapture
