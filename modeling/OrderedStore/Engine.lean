/-
The engine: log, memtable and tables working together.

A write goes to the log first, then to the memtable under the next sequence
number, and then counts as applied; if the memtable is full it is flushed
to a table and the log is emptied. Opening replays what the log still holds
and flushes it before the log is emptied. So at every moment what is on the
volume is enough to find every applied write again.

A step of the engine may fail; what it did before that stays done.
-/
import OrderedStore.Catalog
import OrderedStore.Log.Writer
import OrderedStore.Settings
import OrderedStore.View

namespace OrderedStore

/-- An open engine: its settings, its log, its tables, the number of the
memtable that is written to, and the number of the last write. `clock` is
the time, in milliseconds, that its records are stamped with. -/
structure Engine where
  settings : Settings
  log : Log.Writer
  catalog : Catalog
  memtable : Nat
  lastSeq : UInt64
  clock : UInt64

/-- A volume and the memtables, with an engine open on them. -/
structure Store extends Memory where
  engine : Engine

/-- A step of the engine. -/
abbrev StoreM := EStateM Failure Store

/-- A step on the volume under the engine. -/
def Disk.onStore {α : Type} (step : Disk α) : StoreM α := fun s =>
  match step s.volume with
  | .ok a v => .ok a { s with volume := v }
  | .error f v => .error f { s with volume := v }

/-- What the engine reports of itself. -/
structure Stats where
  memtableBytes : Nat
  memtableKeys : Nat
  tables : Nat
  lastSeq : UInt64
deriving DecidableEq, Repr

namespace Engine

-- =============================================================== opening

/-- The name of the log file. -/
def logName : String := "wal.log"

/-- The name of the directory of tables. -/
def tablesName : String := "sstables"

/-- A memtable with the writes of log records, each record under the next
number from `seq` on, and the number of the last. -/
def replay : Memtable → UInt64 → List LogRecord → Memtable × UInt64
  | m, seq, [] => (m, seq)
  | m, seq, r :: rs => replay (m.writeAll (seq + 1) r.operation.writes) (seq + 1) rs

/-- Makes what was replayed a table of its own, unless it is nothing. -/
def shelve (catalog : Catalog) (m : Memtable) : Disk Catalog := do
  if m.isEmpty then return catalog
  else
    match ← catalog.flush m with
    | (.ok (), catalog) => return catalog
    | (.error f, _) => throw f

/-- What opening does before the log is emptied: the tables are opened, and
what was replayed is made a table of its own. Answers the tables, and the
number of the last record. -/
def recoverAt (directory : Path) : Disk (Catalog × UInt64) := do
  Disk.createDirectories directory
  let catalog ← Catalog.openAt (directory ++ [tablesName])
  let records ← Log.recordsAt (directory ++ [logName])
  let replayed := replay Memtable.empty 0 records
  return (← shelve catalog replayed.1, replayed.2)

/-- Opens the engine on a directory, or makes it. What was replayed is
durable in a table before the log is emptied. The memtable that is written
to is the first one of a fresh memory. -/
def openAt (settings : Settings) (directory : Path) (clock : UInt64) : Disk Engine := do
  let (catalog, seq) ← recoverAt directory
  let log ← Log.Writer.openAt (directory ++ [logName])
  log.truncate
  return { settings := settings, log := log, catalog := catalog
           memtable := 0, lastSeq := seq, clock := clock }

-- =============================================================== reading

/-- The view of everything applied so far. -/
def view (e : Engine) : View :=
  ⟨e.memtable, e.catalog.tables, e.lastSeq⟩

end Engine

namespace Store

/-- An engine that has just been opened on a volume. -/
def opened (v : Volume) (e : Engine) : Store :=
  ⟨Memory.fresh v, e⟩

/-- The memtable that is written to. -/
def current (s : Store) : Memtable :=
  s.memtable s.engine.memtable

/-- What the engine reports of itself. -/
def stats (s : Store) : Stats :=
  { memtableBytes := s.current.size
    memtableKeys := s.current.keyCount
    tables := s.engine.catalog.tables.length
    lastSeq := s.engine.lastSeq }

/-- The view of everything applied so far. -/
def view : StoreM View := do
  return (← MonadState.get).engine.view

/-- The live value of the key. -/
def get (k : Bytes) : StoreM (Option Bytes) := do
  let s ← MonadState.get
  match s.engine.view.get s.toMemory k with
  | .ok found => return found
  | .error f => throw f

-- =============================================================== writing

/-- Makes a table of the memtable and goes on with an empty one. Views
taken earlier keep the memtable and the tables they have. -/
def turnOver : StoreM Unit := do
  let s ← MonadState.get
  let (outcome, catalog) ← (s.engine.catalog.flush s.current).onStore
  match outcome with
  | .error f =>
    modify fun s => { s with engine := { s.engine with catalog := catalog } }
    throw f
  | .ok () =>
    modify fun s =>
      { s with memtables := s.memtables ++ [Memtable.empty]
               engine := { s.engine with
                 catalog := catalog, memtable := s.memtables.length } }

/-- Flushes the memtable to a table, if it has anything, and empties the
log. -/
def flush : StoreM Unit := do
  let s ← MonadState.get
  if s.current.isEmpty then return ()
  turnOver
  s.engine.log.truncate.onStore

/-- Logs one operation and writes it to the memtable, all of it under the
next number, which then counts as applied. -/
def record (op : Operation) : StoreM Unit := do
  let e := (← MonadState.get).engine
  let (_, log) ← (e.log.append e.clock op).onStore
  modify fun s =>
    let seq := s.engine.lastSeq + 1
    { s.toMemory.setMemtable s.engine.memtable (s.current.writeAll seq op.writes) with
      engine := { s.engine with log := log, lastSeq := seq } }

/-- Carries out one operation: log, memtable, and a flush if it is time. -/
def apply (op : Operation) : StoreM Unit := do
  record op
  let s ← MonadState.get
  if s.current.isFull s.engine.settings.flushLimit then flush

/-- The key leads to the value. -/
def put (k value : Bytes) : StoreM Unit :=
  apply (.put k value)

/-- The key leads to nothing. -/
def delete (k : Bytes) : StoreM Unit :=
  apply (.delete k)

/-- Several operations as one: one record, one sequence number. A single
operation is carried out as it is, and none is nothing to do. -/
def writeBatch : List Operation → StoreM Unit
  | [] => return ()
  | [op] => apply op
  | ops => apply (.batch ops)

/-- Reads the latest state and writes what `choose` makes of it, with no
other write in between. Nothing to write is no write. -/
def readModifyWrite {α : Type}
    (choose : Memory → View → Except Failure (List Operation × α)) : StoreM α := do
  let s ← MonadState.get
  match choose s.toMemory s.engine.view with
  | .error f => throw f
  | .ok (ops, a) =>
    if ops.isEmpty then return a
    apply (.batch ops)
    return a

/-- Flushes; the engine stays usable. -/
def close : StoreM Unit :=
  flush

end Store

end OrderedStore
