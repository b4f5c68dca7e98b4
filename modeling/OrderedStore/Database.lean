/-
The database: the engine as its users see it. A failure of the store below
is not theirs to handle. It ends whatever is going on, so that nobody ever
acts on a database that was half written; `Fatal` is that end.
-/
import OrderedStore.Engine
import OrderedStore.ReadView

namespace OrderedStore

/-- The end, and what brought it about. -/
structure Fatal where
  cause : Failure
deriving DecidableEq, Repr

/-- A step of the database. -/
abbrev DbM := EStateM Fatal Store

/-- A step of the engine whose failure is the end. -/
def StoreM.orFatal {α : Type} (step : StoreM α) : DbM α := fun s =>
  match step s with
  | .ok a s => .ok a s
  | .error f s => .error ⟨f⟩ s

/-- A value whose absence is the end. -/
def orFatal {α : Type} : Except Failure α → DbM α
  | .ok a => return a
  | .error f => throw ⟨f⟩

namespace Database

/-- What is read from when the database is read. -/
def readView : DbM ReadView := do
  return .pinned (← get).engine.view

/-- A snapshot: the state of this moment, for good. -/
def snapshot : DbM View := do
  return (← get).engine.view

/-- The live value of the key. -/
def get (k : Bytes) : DbM (Option Bytes) :=
  (Store.get k).orFatal

/-- The key leads to the value. -/
def put (k value : Bytes) : DbM Unit :=
  (Store.put k value).orFatal

/-- The key leads to nothing. -/
def delete (k : Bytes) : DbM Unit :=
  (Store.delete k).orFatal

/-- Several operations as one. -/
def writeBatch (ops : List Operation) : DbM Unit :=
  (Store.writeBatch ops).orFatal

/-- Reads the latest state and writes what `choose` makes of it. -/
def readModifyWrite {α : Type}
    (choose : Memory → View → Except Failure (List Operation × α)) : DbM α :=
  (Store.readModifyWrite choose).orFatal

/-- Writes the memtable to a table. -/
def flush : DbM Unit :=
  Store.flush.orFatal

/-- Flushes; the database stays usable. -/
def close : DbM Unit :=
  Store.close.orFatal

/-- Something read from a view. -/
def reading {α : Type} (read : Memory → Except Failure α) : DbM α := do
  orFatal (read (← MonadState.get).toMemory)

end Database

end OrderedStore
