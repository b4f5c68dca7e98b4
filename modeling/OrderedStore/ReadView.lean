/-
What can be read from: a view, as the database and its snapshots have it,
or the latest view with a transaction's pending writes laid over it.

A cursor belongs to what it was taken from; each of its steps is given what
that is at the moment of the step.
-/
import OrderedStore.Cursor.Merge

namespace OrderedStore

/-- What can be read from. -/
inductive ReadView where
  | pinned (view : View)
  | overlay (pending : Pending) (latest : View)

/-- A cursor over what can be read from. -/
inductive Cursor where
  | store (c : StoreCursor)
  | merge (c : MergeCursor)

namespace Cursor

/-- The pair the cursor stands on. -/
def current : Cursor → Option (Bytes × Bytes)
  | .store c => c.current
  | .merge c => c.current

/-- The way of the cursor. -/
def direction : Cursor → Direction
  | .store c => c.direction
  | .merge c => c.direction

end Cursor

namespace ReadView

/-- The pending writes, if there are any. -/
def pending : ReadView → Pending
  | .pinned _ => KeyMap.empty
  | .overlay pending _ => pending

/-- The view below the pending writes. -/
def view : ReadView → View
  | .pinned w => w
  | .overlay _ w => w

/-- A number of pairs that what is read does not exceed. -/
def extent (mem : Memory) (r : ReadView) : Nat :=
  r.view.extent mem + r.pending.size

/-- The live value of the key. A pending write decides. -/
def get (mem : Memory) (r : ReadView) (k : Bytes) : Except Failure (Option Bytes) :=
  match r.pending.find? k with
  | some e => .ok e.value?
  | none => r.view.get mem k

/-- The cursor moved to the next pair. -/
def next (mem : Memory) (r : ReadView) : Cursor → Except Failure Cursor
  | .store c => (c.next mem).map .store
  | .merge c => (c.next mem r.pending).map .merge

/-- The cursor moved to the nearest pair at or beyond the key. -/
def seek (mem : Memory) (r : ReadView) (target : Bytes) : Cursor → Except Failure Cursor
  | .store c => (c.seek mem target).map .store
  | .merge c => (c.seek mem r.pending r.view target).map .merge

/-- The cursor moved to the first pair. -/
def rewind (mem : Memory) (r : ReadView) : Cursor → Except Failure Cursor
  | .store c => (c.rewind mem).map .store
  | .merge c => (c.rewind mem r.pending r.view).map .merge

/-- A cursor on the first pair. -/
def cursor (mem : Memory) (r : ReadView) (d : Direction) : Except Failure Cursor :=
  match r with
  | .pinned w => r.rewind mem (.store (StoreCursor.start w d))
  | .overlay _ w => r.rewind mem (.merge (MergeCursor.start w d))

/-- The pairs from the cursor's on as long as their keys pass the test, at
most `fuel` of them. -/
def takeFrom (mem : Memory) (r : ReadView) (test : Bytes → Bool) :
    Nat → Cursor → Except Failure (List (Bytes × Bytes))
  | 0, _ => .ok []
  | fuel + 1, c =>
    match c.current with
    | none => .ok []
    | some p =>
      if test p.1 then
        match r.next mem c with
        | .error f => .error f
        | .ok c =>
          match takeFrom mem r test fuel c with
          | .error f => .error f
          | .ok ps => .ok (p :: ps)
      else .ok []

/-- All live pairs, in the order they are met. -/
def all (mem : Memory) (r : ReadView) (d : Direction) :
    Except Failure (List (Bytes × Bytes)) := do
  let c ← r.cursor mem d
  r.takeFrom mem (fun _ => true) (r.extent mem + 1) c

/-- A forward cursor on the first key that is not below the string. -/
def cursorAt (mem : Memory) (r : ReadView) (target : Bytes) : Except Failure Cursor := do
  let c ← r.cursor mem .forward
  r.seek mem target c

/-- The live pairs whose keys begin with the string, in key order. -/
def scan (mem : Memory) (r : ReadView) (lead : Bytes) :
    Except Failure (List (Bytes × Bytes)) := do
  let c ← r.cursorAt mem lead
  r.takeFrom mem lead.isPrefixOf (r.extent mem + 1) c

end ReadView

end OrderedStore
