/-!
# What can be wrong with options

Every cause names the keys at fault, so that its message can be shown as it is.
-/

namespace TableCapture

/-- Why options were refused. -/
inductive OptionError where
  /-- Required options are not there. -/
  | missingRequired (keys : List String)
  /-- Options that the connector does not know. -/
  | unsupported (connector : String) (keys : List String)
  /-- A value that does not fit its declaration; `supported` lists the legal values where there
  is a fixed set of them. -/
  | invalidValue (key value : String) (supported : Option (List String))
  /-- No connector has this identifier. -/
  | unknownConnector (name available : String)
deriving DecidableEq, Repr, Inhabited

/-- The text shown for an error. -/
def OptionError.message : OptionError → String
  | missingRequired keys =>
    "One or more required options are missing.\n\nMissing required options are:\n\n"
      ++ "\n".intercalate keys
  | unsupported connector keys =>
    "Unsupported options found for '" ++ connector ++ "'.\n\nUnsupported options:\n\n"
      ++ "\n".intercalate keys
  | invalidValue key value (some supported) =>
    "Invalid value for option '" ++ key ++ "'. Supported values are ["
      ++ ", ".intercalate supported ++ "], but was: " ++ value
  | invalidValue key value none =>
    "Could not parse value '" ++ value ++ "' for key '" ++ key ++ "'."
  | unknownConnector name available =>
    "Could not find any connector for identifier '" ++ name ++ "'. Available identifiers are ["
      ++ available ++ "]"

end TableCapture
