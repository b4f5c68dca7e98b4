/-
The memtable: recent writes in memory. Every version of a key stays until
the table is flushed, each with the sequence number it was written at, so
that a reader with an earlier number still finds what was there then. Two
versions may have one number; the later write counts.
-/
import OrderedStore.KeyMap
import OrderedStore.Log.Operation

namespace OrderedStore

/-- The versions of each key, newest first, and the bytes of all keys and
values that were ever written. -/
structure Memtable where
  versions : KeyMap (List (UInt64 × Entry))
  size : Nat

namespace Memtable

/-- Nothing written yet. -/
def empty : Memtable :=
  ⟨KeyMap.empty, 0⟩

instance : Inhabited Memtable :=
  ⟨empty⟩

/-- The bytes that a write adds to the size. -/
def weight (k : Bytes) (e : Entry) : Nat :=
  k.length + (e.value?.getD []).length

/-- The table with one more write. -/
def write (m : Memtable) (seq : UInt64) (k : Bytes) (e : Entry) : Memtable :=
  { versions := m.versions.insert k ((seq, e) :: (m.versions.find? k).getD [])
    size := m.size + weight k e }

/-- Several writes under one number. -/
def writeAll (m : Memtable) (seq : UInt64) (ws : List (Bytes × Entry)) : Memtable :=
  ws.foldl (fun m w => m.write seq w.1 w.2) m

/-- Of the versions of a key, newest first, the one seen at `seq`. -/
def visible (seq : UInt64) (chain : List (UInt64 × Entry)) : Option Entry :=
  (chain.find? fun version => version.1 ≤ seq).map Prod.snd

/-- What the key holds at `seq`. A tombstone says that it holds nothing;
`none` says that the table does not know. -/
def get (m : Memtable) (seq : UInt64) (k : Bytes) : Option Entry :=
  (m.versions.find? k).bind (visible seq)

/-- The nearest key at or beyond the bound that holds something at `seq`,
a tombstone included. -/
def seek (m : Memtable) (seq : UInt64) (b : Bound) (d : Direction) :
    Option (Bytes × Entry) :=
  (m.versions.beyond b d).findSome? fun p => (visible seq p.2).map fun e => (p.1, e)

/-- How many keys have been written. -/
def keyCount (m : Memtable) : Nat :=
  m.versions.size

/-- Whether nothing has been written. -/
def isEmpty (m : Memtable) : Bool :=
  m.versions.isEmpty

/-- Whether the table has reached the size at which it is flushed. -/
def isFull (m : Memtable) (limit : Nat) : Bool :=
  limit ≤ m.size

/-- Every key with its newest version, in ascending order. -/
def latest (m : Memtable) : List (Bytes × Entry) :=
  m.versions.entries.filterMap fun p => p.2.head?.map fun version => (p.1, version.2)

end Memtable

end OrderedStore
