/-
Transactions: writes that are gathered and then made at once.

Reading in a transaction sees what it has gathered, and below that the
latest state of the database. Flushing writes what was gathered as one
operation. Committing flushes and then runs the triggers, keyed ones in the
order of their keys and then the others in the order they were added, each
once. Abandoning forgets both.

A trigger is a step of the database that leaves a notice. `Notice` is what
those who committed come to see.
-/
import OrderedStore.Database
import OrderedStore.Text.Utf8

namespace OrderedStore

/-- What a trigger leaves: that the statistics of an index are due, or a
note of the user's. -/
inductive Notice (ν : Type) where
  | statistics (index : String)
  | note (content : ν)
deriving DecidableEq, Repr

/-- What is to be done once writes are durable. -/
abbrev Trigger (ν : Type) := DbM (Notice ν)

/-- Gathered writes, how many there were since they were last made or
forgotten, and the triggers. -/
structure Transaction (ν : Type) where
  pending : Pending
  mutations : Nat
  keyed : KeyMap (Trigger ν)
  anonymous : List (Trigger ν)

namespace Transaction

variable {ν : Type}

/-- Nothing gathered. -/
def empty : Transaction ν :=
  ⟨KeyMap.empty, 0, KeyMap.empty, []⟩

/-- What the key holds for the transaction. -/
def get (t : Transaction ν) (k : Bytes) : DbM (Option Bytes) :=
  match t.pending.find? k with
  | some e => return e.value?
  | none => Database.get k

/-- What is read from when the transaction is read. -/
def readView (t : Transaction ν) : DbM ReadView := do
  return .overlay t.pending (← MonadState.get).engine.view

/-- One more write. -/
def buffer (t : Transaction ν) (k : Bytes) (e : Entry) : Transaction ν :=
  { t with pending := t.pending.insert k e, mutations := t.mutations + 1 }

/-- The key is to lead to the value. -/
def put (t : Transaction ν) (k value : Bytes) : Transaction ν :=
  t.buffer k (.value value)

/-- The key is to lead to nothing. -/
def delete (t : Transaction ν) (k : Bytes) : Transaction ν :=
  t.buffer k .tombstone

/-- Whether nothing is gathered. -/
def isEmpty (t : Transaction ν) : Bool :=
  t.pending.isEmpty

/-- A trigger under a key, in place of one that is there. -/
def addTrigger (t : Transaction ν) (key : String) (trigger : Trigger ν) : Transaction ν :=
  { t with keyed := t.keyed.insert (Text.toBytes key) trigger }

/-- A trigger without a key. -/
def addAnonymousTrigger (t : Transaction ν) (trigger : Trigger ν) : Transaction ν :=
  { t with anonymous := t.anonymous ++ [trigger] }

/-- The operation that an entry stands for. -/
def operation (p : Bytes × Entry) : Operation :=
  match p.2 with
  | .value value => .put p.1 value
  | .tombstone => .delete p.1

/-- Makes the gathered writes, in key order, as one operation. -/
def flush (t : Transaction ν) : DbM (Transaction ν) := do
  Database.writeBatch (t.pending.entries.map operation)
  return { t with pending := KeyMap.empty, mutations := 0 }

/-- The triggers in the order they are run. -/
def triggers (t : Transaction ν) : List (Trigger ν) :=
  t.keyed.entries.map Prod.snd ++ t.anonymous

/-- Makes the gathered writes and runs the triggers. -/
def commit (t : Transaction ν) : DbM (Transaction ν × List (Notice ν)) := do
  let flushed ← t.flush
  let notices ← t.triggers.mapM id
  return ({ flushed with keyed := KeyMap.empty, anonymous := [] }, notices)

/-- Forgets the gathered writes and the triggers. -/
def abandon (_ : Transaction ν) : Transaction ν :=
  empty

end Transaction

-- ======================================================= where writes go

/-- Where writes go: to the database, where they are made at once, or into
a transaction. -/
inductive WriteView (ν : Type) where
  | database
  | transaction (t : Transaction ν)

/-- A row of writes: where they go, and the notices left so far. -/
structure Writing (ν : Type) where
  target : WriteView ν
  notices : List (Notice ν)

/-- A step that reads from where it writes. -/
abbrev WriteM (ν : Type) := StateT (Writing ν) DbM

namespace WriteM

variable {ν : Type}

/-- What the key holds where the writes go. -/
def get (k : Bytes) : WriteM ν (Option Bytes) := do
  match (← MonadState.get).target with
  | .database => Database.get k
  | .transaction t => t.get k

/-- The transaction, changed, takes the place of the one there was. -/
def setTransaction (t : Transaction ν) : WriteM ν Unit :=
  modify fun w => { w with target := .transaction t }

/-- The key leads to the value. -/
def put (k value : Bytes) : WriteM ν Unit := do
  match (← MonadState.get).target with
  | .database => Database.put k value
  | .transaction t => setTransaction (t.put k value)

/-- The key leads to nothing. -/
def delete (k : Bytes) : WriteM ν Unit := do
  match (← MonadState.get).target with
  | .database => Database.delete k
  | .transaction t => setTransaction (t.delete k)

/-- Runs the trigger when the writes made so far are durable. On the
database they are already. -/
def afterCommit (key : String) (trigger : Trigger ν) : WriteM ν Unit := do
  match (← MonadState.get).target with
  | .database =>
    let notice ← trigger
    modify fun w => { w with notices := w.notices ++ [notice] }
  | .transaction t => setTransaction (t.addTrigger key trigger)

/-- Runs the writes on a target. Answers what they answer, the target as it
is then, and the notices left. -/
def runOn {α : Type} (step : WriteM ν α) (target : WriteView ν) :
    DbM (α × WriteView ν × List (Notice ν)) := do
  let (a, w) ← step.run ⟨target, []⟩
  return (a, w.target, w.notices)

end WriteM

end OrderedStore
