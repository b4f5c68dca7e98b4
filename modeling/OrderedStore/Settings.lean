/-
Settings of a store and of an index, with their defaults.
-/

namespace OrderedStore

/-- The version of the store. -/
def version : String := "0.1.0"

/-- When appended records are forced out to the device. -/
inductive SyncPolicy where
  | everyWrite
  | everyNth (count : Nat)
deriving DecidableEq, Repr

/-- Settings of a store. -/
structure Settings where
  directory : String
  sync : SyncPolicy
  /-- The size at which the memtable is flushed. -/
  flushLimit : Nat
deriving DecidableEq, Repr

namespace Settings

/-- The settings if nothing else is said: sixteen mebibytes of memtable,
and every record forced out. -/
def standard : Settings :=
  ⟨"./tidekv_data", .everyWrite, 16 * 1024 * 1024⟩

end Settings

/-- Settings of an index. -/
structure IndexSettings where
  /-- How many token numbers are kept in memory. -/
  cacheCapacity : Nat
  /-- How many marked tokens one pass of a sweep takes on. -/
  sweepBatch : Nat
deriving DecidableEq, Repr

namespace IndexSettings

/-- The settings if nothing else is said. -/
def standard : IndexSettings :=
  ⟨1000, 256⟩

/-- The settings with another cache capacity. -/
def withCacheCapacity (s : IndexSettings) (n : Nat) : IndexSettings :=
  { s with cacheCapacity := n }

/-- The settings with another batch. A pass takes on one token at least. -/
def withSweepBatch (s : IndexSettings) (n : Nat) : IndexSettings :=
  { s with sweepBatch := max n 1 }

end IndexSettings

end OrderedStore
