/-
What is read from: the files of a volume and the memtables in memory, each
under its number.

A view holds numbers. Whoever else holds the number of a memtable sees what
is written to it, as with a file, and a memtable that has been flushed goes
on existing for those who hold it.
-/
import OrderedStore.Memtable
import OrderedStore.Volume

namespace OrderedStore

/-- A volume, and the memtables by number. -/
structure Memory where
  volume : Volume
  memtables : List Memtable

namespace Memory

/-- A volume and one memtable with nothing in it, which has the number
zero. -/
def fresh (v : Volume) : Memory :=
  ⟨v, [Memtable.empty]⟩

/-- The memtable with the number. -/
def memtable (mem : Memory) (number : Nat) : Memtable :=
  mem.memtables.getD number Memtable.empty

/-- The memtable with the number is `m` from now on. -/
def setMemtable (mem : Memory) (number : Nat) (m : Memtable) : Memory :=
  { mem with memtables := mem.memtables.set number m }

end Memory

end OrderedStore
