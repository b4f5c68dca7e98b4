/-
Views: the state of the store at one point in time. A view holds on to the
memtable and the tables of its moment and sees of the memtable only what
was written up to its sequence number, so what is written later does not
show in it.

The memtable is newer than every table. A tombstone hides what is older and
is itself not shown.
-/
import OrderedStore.Memory
import OrderedStore.Tables

namespace OrderedStore

/-- The number of a memtable, the tables below it, and how much of the
memtable is seen. -/
structure View where
  memtable : Nat
  tables : Tables
  seq : UInt64

namespace View

/-- The live value of the key. -/
def get (mem : Memory) (w : View) (k : Bytes) : Except Failure (Option Bytes) :=
  match (mem.memtable w.memtable).get w.seq k with
  | some e => .ok e.value?
  | none =>
    match Tables.lookup mem.volume w.tables k with
    | .ok (some e) => .ok e.value?
    | .ok none => .ok none
    | .error f => .error f

/-- The nearest entry at or beyond the bound, tombstones included. -/
def nearest (mem : Memory) (w : View) (b : Bound) (d : Direction) :
    Except Failure (Option (Bytes × Entry)) :=
  match Tables.seek mem.volume w.tables b d with
  | .error f => .error f
  | .ok disk =>
    match (mem.memtable w.memtable).seek w.seq b d, disk with
    | none, none => .ok none
    | some m, none => .ok (some m)
    | none, some t => .ok (some t)
    | some m, some t => .ok (some (Tables.nearer d m t))

/-- A number of keys that the view does not exceed. -/
def extent (mem : Memory) (w : View) : Nat :=
  (mem.memtable w.memtable).keyCount + w.tables.entryCount

/-- The nearest live pair at or beyond the bound, past at most `fuel`
tombstones. -/
def seekFrom (mem : Memory) (w : View) (d : Direction) :
    Nat → Bound → Except Failure (Option (Bytes × Bytes))
  | 0, _ => .ok none
  | fuel + 1, b =>
    match w.nearest mem b d with
    | .error f => .error f
    | .ok none => .ok none
    | .ok (some (k, .value bs)) => .ok (some (k, bs))
    | .ok (some (k, .tombstone)) => seekFrom mem w d fuel (.excluded k)

/-- The nearest live pair at or beyond the bound. -/
def seek (mem : Memory) (w : View) (b : Bound) (d : Direction) :
    Except Failure (Option (Bytes × Bytes)) :=
  seekFrom mem w d (w.extent mem + 1) b

end View

end OrderedStore
