import TableCapture.Text.Shape

/-!
# Where a source starts reading

A source starts with a snapshot of the table, or at a place in its change log: the oldest, the
newest, a position in a log file, or a point in time.
-/

namespace TableCapture

/-- The ways to start, without the place. -/
inductive StartupMode where
  | initial
  | earliestOffset
  | latestOffset
  | specificOffset
  | timestamp
deriving DecidableEq, Repr, Inhabited

namespace StartupMode

/-- Every mode, in the order in which they are listed. -/
def all : List StartupMode :=
  [initial, earliestOffset, latestOffset, specificOffset, timestamp]

/-- The name of a mode in the options of a source. -/
def name : StartupMode → String
  | initial => "initial"
  | earliestOffset => "earliest-offset"
  | latestOffset => "latest-offset"
  | specificOffset => "specific-offset"
  | timestamp => "timestamp"

/-- The name of a mode in displayed values. -/
def title : StartupMode → String
  | initial => "Initial"
  | earliestOffset => "EarliestOffset"
  | latestOffset => "LatestOffset"
  | specificOffset => "SpecificOffset"
  | timestamp => "Timestamp"

/-- The mode of a name. -/
def ofName? (s : String) : Option StartupMode :=
  all.find? fun m => m.name = s

theorem ofName?_name (m : StartupMode) : ofName? m.name = some m := by
  cases m <;> decide

end StartupMode

/-- The way to start, with the place where one is needed. -/
inductive StartupOptions where
  | initial
  | earliestOffset
  | latestOffset
  | specificOffset (file : String) (position : UInt64)
  | timestamp (millis : Int64)
deriving DecidableEq, Repr, Inhabited

namespace StartupOptions

/-- The way to start, without the place. -/
def mode : StartupOptions → StartupMode
  | initial => .initial
  | earliestOffset => .earliestOffset
  | latestOffset => .latestOffset
  | specificOffset .. => .specificOffset
  | timestamp .. => .timestamp

/-- Whether the rows that are already there are read first. -/
def isSnapshot (o : StartupOptions) : Bool :=
  o.mode = .initial

/-- The displayed value. -/
def shape (o : StartupOptions) : Shape :=
  match o with
  | specificOffset file position => .record o.mode.title
      [("file", .text file), ("position", .word (toString position.toNat))]
  | timestamp millis => .record o.mode.title [("millis", .word (toString millis.toInt))]
  | _ => .word o.mode.title

end StartupOptions

end TableCapture
