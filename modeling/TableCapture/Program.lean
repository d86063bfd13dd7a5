import TableCapture.CommandLine
import TableCapture.Configuration
import TableCapture.SchemaError
import TableCapture.Source.Creation

/-!
# The program

The program reads a command line and a configuration file. `validate` prints the descriptor of the
source that the file describes. `schema` reads the schema of the captured table, for which it
needs the database.
-/

namespace TableCapture

/-- What the program leaves behind. Log lines are no part of it; where logging is turned on, they
are shown with the errors. -/
structure Report where
  /-- Zero if all went well, two if the command line cannot be carried out. -/
  exitCode : Nat
  output : String
  errors : String
deriving DecidableEq, Repr, Inhabited

/-- Why the program fails. -/
inductive ProgramError where
  /-- There is no such file. -/
  | noFile (name : String)
  /-- The file is not a configuration. -/
  | badFile (name : String)
  | capture (e : CaptureError)
  /-- The schemas of this family cannot be read. -/
  | unsupported
  /-- The database cannot be reached. -/
  | unreachable (hostname : String) (port : UInt16)
deriving DecidableEq, Repr, Inhabited

/-- The text shown for an error. For a file that is not a configuration and for a database that
cannot be reached it is a text of its own, in place of what the reader and the connection say. -/
def ProgramError.message : ProgramError → String
  | noFile name =>
    "Failed to open " ++ name ++ "\n\nCaused by:\n    No such file or directory (os error 2)"
  | badFile name => name ++ " is not a configuration"
  | capture e => e.message
  | unsupported =>
    "schema resolution is only supported for '" ++ Connector.mySQL.identifier ++ "' sources"
  | unreachable hostname port =>
    "no connection to " ++ hostname ++ ":" ++ toString port.toNat

namespace Program

/-- The text shown when help is asked for. -/
def usage : String :=
  "Usage: [OPTIONS] <COMMAND>\n\n"
    ++ "Commands:\n"
    ++ "  validate  Validate the options and print the resulting source descriptor\n"
    ++ "  schema    Resolve the captured table's schema from the source database\n"
    ++ "              --timeout-secs <SECONDS>  Give up on the query after this many seconds\n"
    ++ "  help      Print this message\n\n"
    ++ "Options:\n"
    ++ "  -c, --config <CONFIG>  YAML file holding the options and the physical schema"
    ++ " [default: source.yaml]\n"
    ++ "  -h, --help             Print help\n"
    ++ "  -V, --version          Print version\n"

/-- The text shown when the version is asked for. -/
def versionText : String :=
  "0.1.0\n"

/-- The report on a command line that is not carried out. -/
def explain : ArgumentIssue → Report
  | .help => ⟨0, usage, ""⟩
  | .version => ⟨0, versionText, ""⟩
  | _ => ⟨2, "", usage⟩

/-- The report on a failure. -/
def fail (e : ProgramError) : Report :=
  ⟨1, "", "Error: " ++ e.message ++ "\n"⟩

/-- Carries out a command on a configuration. What validation and creation log on the way is left
out. -/
def perform (c : Command) (g : Configuration) : Report :=
  match SourceDescriptor.create g.options g.physicalSchema with
  | .error e => fail (.capture (.options e))
  | .ok d =>
    match c with
    | .validate => ⟨0, d.shape.indented ++ "\n", ""⟩
    | .schema _ =>
      if d.connector = .mySQL then fail (.unreachable d.hostname d.port) else fail .unsupported

/-- Carries out a command line, given the contents of its file if there is one. -/
def report (c : CommandLine) : Option String → Report
  | none => fail (.noFile c.config)
  | some text =>
    match Configuration.ofText? text with
    | none => fail (.badFile c.config)
    | some g => perform c.command g

/-- Runs the program on arguments. `read` gives the contents of a file if there is one. The line
that is logged before the file is read is left out. -/
def run {m : Type → Type} [Monad m] (read : String → m (Option String)) (as : List String) :
    m Report := do
  match CommandLine.ofArguments as with
  | .error issue => return explain issue
  | .ok c => return report c (← read c.config)

end Program

end TableCapture
