import TableCapture.Resolution

/-!
# A cache of schemas

The cache keeps a cell for every table that was asked for. The first call that finds the cell
empty resolves the table, that is, it asks one query; the calls that come meanwhile wait in line.
A query that succeeds fills the cell for good, and all who wait are answered by the same schema.
When it fails, its caller alone gets the error, the table loses its cell, and the first in line
goes on to resolve on the cell it waits for. When the caller is dropped, the first in line takes
over just so, and the table keeps its cell.

The cache is a machine: `step` performs one action and tells what came of it. Calls, queries and
cells are numbered in the order of their making. An action that cannot happen changes nothing.
-/

namespace TableCapture

/-- A schema as it is shared by all who receive it. It is known by the query that it comes from,
so that two resolutions never give the same one. -/
structure SharedSchema where
  query : Nat
  schema : TableSchema
deriving DecidableEq, Repr, Inhabited

/-- What a cell holds. -/
inductive CellContent where
  /-- Nobody resolves and nobody waits. -/
  | idle
  /-- A call has asked a query, and others wait in line. -/
  | resolving (call query : Nat) (waiting : List Nat)
  | filled (s : SharedSchema)
deriving DecidableEq, Repr, Inhabited

/-- The schema in a cell. -/
def CellContent.schema? : CellContent → Option SharedSchema
  | filled s => some s
  | _ => none

/-- A cell and the table it was made for. -/
structure SchemaCell where
  table : TableId
  content : CellContent
deriving DecidableEq, Repr, Inhabited

/-- The cells ever made, which of them each table has, the cell of each call, and the call that
asked each query. -/
structure SchemaCache where
  cells : List SchemaCell
  entries : List (TableId × Nat)
  calls : List Nat
  queries : List Nat
deriving DecidableEq, Repr, Inhabited

/-- What comes of a query. -/
inductive Ending where
  | reply (r : Reply)
  /-- The time for the query is up. -/
  | timedOut (limit : Duration)
deriving DecidableEq, Repr, Inhabited

/-- The schema that an ending gives for a table. -/
def Ending.schema (t : TableId) : Ending → Except SchemaError TableSchema
  | reply r => r.schema t
  | timedOut limit => .error ⟨t, t.statement, .timedOut limit⟩

/-- What can happen to the cache. -/
inductive CacheAction where
  /-- A call asks for the schema of a table. -/
  | call (t : TableId)
  /-- A query ends. -/
  | settle (query : Nat) (e : Ending)
  /-- A call is given up. -/
  | drop (call : Nat)
  /-- The cell of a table is looked at. -/
  | cached (t : TableId)
  /-- The cell of a table is taken away. -/
  | invalidate (t : TableId)
  /-- The tables with a schema are counted. -/
  | size
deriving DecidableEq, Repr, Inhabited

/-- What comes of an action. -/
inductive CacheEvent where
  /-- A call asks a query for a table. -/
  | asked (query call : Nat) (t : TableId)
  /-- A call is over. -/
  | answered (call : Nat) (r : Except SchemaError SharedSchema)
  /-- A call is over without an answer. -/
  | dropped (call : Nat)
  /-- The schema of a table, as it was looked at or taken away. -/
  | found (s : Option SharedSchema)
  /-- The number of tables with a schema. -/
  | counted (n : Nat)

namespace SchemaCache

/-- The cache before anything has happened. -/
def empty : SchemaCache :=
  ⟨[], [], [], []⟩

/-- The cell that a table has. -/
def cell? (k : SchemaCache) (t : TableId) : Option SchemaCell :=
  (k.entries.lookup t).bind fun i => k.cells[i]?

/-- The schema that is kept for a table. -/
def cached (k : SchemaCache) (t : TableId) : Option SharedSchema :=
  (k.cell? t).bind fun c => c.content.schema?

/-- The number of tables with a schema. -/
def size (k : SchemaCache) : Nat :=
  k.entries.countP fun e => (k.cells[e.2]?.bind fun c => c.content.schema?).isSome

/-- Whether no table has a schema. -/
def isEmpty (k : SchemaCache) : Bool :=
  k.size = 0

/-- Puts something into a cell. -/
def put (k : SchemaCache) (i : Nat) (content : CellContent) : SchemaCache :=
  { k with cells := k.cells.modify i fun c => { c with content } }

/-- The number of the cell that a table has, after it was given one. -/
def enter (k : SchemaCache) (t : TableId) : Nat × SchemaCache :=
  match k.entries.lookup t with
  | some i => (i, k)
  | none =>
    let i := k.cells.length
    (i, { k with cells := k.cells ++ [⟨t, .idle⟩], entries := (t, i) :: k.entries })

/-- A call asks a query on a cell made for `t`, with others in line behind it. -/
def ask (k : SchemaCache) (i : Nat) (t : TableId) (call : Nat) (waiting : List Nat) :
    SchemaCache × List CacheEvent :=
  let q := k.queries.length
  ({ k.put i (.resolving call q waiting) with queries := k.queries ++ [call] },
    [.asked q call t])

/-- The cell goes to the first in line. -/
def passOn (k : SchemaCache) (i : Nat) (t : TableId) : List Nat → SchemaCache × List CacheEvent
  | [] => (k.put i .idle, [])
  | call :: waiting => k.ask i t call waiting

/-- A call asks for the schema of a table. -/
def call (k : SchemaCache) (t : TableId) : SchemaCache × List CacheEvent :=
  let (i, k) := k.enter t
  let c := k.calls.length
  let k := { k with calls := k.calls ++ [i] }
  match k.cells[i]? with
  | none => (k, [])
  | some cell =>
    match cell.content with
    | .filled s => (k, [.answered c (.ok s)])
    | .idle => k.ask i cell.table c []
    | .resolving holder q waiting => (k.put i (.resolving holder q (waiting ++ [c])), [])

/-- No table has the cell any longer. -/
def detach (k : SchemaCache) (i : Nat) : SchemaCache :=
  { k with entries := k.entries.filter fun e => e.2 ≠ i }

/-- No table has the cell any longer, unless it holds a schema. -/
def discardEmpty (k : SchemaCache) (i : Nat) : SchemaCache :=
  if (k.cells[i]?.bind fun c => c.content.schema?).isSome then k else k.detach i

/-- A query ends. One whose caller was dropped has no effect. A failing call is taken as one step,
in which it gives up its turn, the cell is discarded, and the first in line asks. Nobody fills the
cell in between, so it holds no schema when it is discarded. -/
def settle (k : SchemaCache) (q : Nat) (e : Ending) : SchemaCache × List CacheEvent :=
  match k.queries[q]?.bind (k.calls[·]?) with
  | none => (k, [])
  | some i =>
    match k.cells[i]? with
    | some ⟨t, .resolving c q' waiting⟩ =>
      if q' = q then
        match e.schema t with
        | .ok schema =>
          let s : SharedSchema := ⟨q, schema⟩
          (k.put i (.filled s), (c :: waiting).map fun w => .answered w (.ok s))
        | .error err =>
          let (k, events) := (k.discardEmpty i).passOn i t waiting
          (k, .answered c (.error err) :: events)
      else (k, [])
    | _ => (k, [])

/-- A call is given up. One that is over is not given up. -/
def drop (k : SchemaCache) (c : Nat) : SchemaCache × List CacheEvent :=
  match k.calls[c]? with
  | none => (k, [])
  | some i =>
    match k.cells[i]? with
    | some ⟨t, .resolving holder q waiting⟩ =>
      if holder = c then
        let (k, events) := k.passOn i t waiting
        (k, .dropped c :: events)
      else if c ∈ waiting then
        (k.put i (.resolving holder q (waiting.erase c)), [.dropped c])
      else (k, [])
    | _ => (k, [])

/-- The cell of a table is taken away. -/
def invalidate (k : SchemaCache) (t : TableId) : SchemaCache :=
  { k with entries := k.entries.filter fun e => e.1 ≠ t }

/-- Performs an action. -/
def step (k : SchemaCache) : CacheAction → SchemaCache × List CacheEvent
  | .call t => k.call t
  | .settle q e => k.settle q e
  | .drop c => k.drop c
  | .cached t => (k, [.found (k.cached t)])
  | .invalidate t => (k.invalidate t, [.found (k.cached t)])
  | .size => (k, [.counted k.size])

/-- Performs actions one after the other. -/
def run (k : SchemaCache) : List CacheAction → SchemaCache × List CacheEvent
  | [] => (k, [])
  | a :: as =>
    let (k, events) := k.step a
    let (k, later) := k.run as
    (k, events ++ later)

end SchemaCache

end TableCapture
