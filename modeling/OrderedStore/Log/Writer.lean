/-
The log's writer. It numbers the records it appends, going on from the
last valid record it finds in the file, and appends each with one write,
so that a crash leaves at most one torn record at the end.
-/
import OrderedStore.Log.Recovery

namespace OrderedStore.Log

/-- A file opened for appending, and the number of the next record. -/
structure Writer where
  file : Nat
  nextLsn : UInt64
deriving DecidableEq, Repr

namespace Writer

/-- The number of the file's last valid record, zero if there is none. -/
def lastAt (p : Path) : Disk UInt64 := do
  match ← Disk.node? p with
  | some _ => return (← verify p).lastLsn
  | none => return 0

/-- Opens the file or makes it. What it holds stays. -/
def openAt (p : Path) : Disk Writer := do
  let last ← lastAt p
  let file ← Disk.openOrCreate p
  return ⟨file, last + 1⟩

/-- Appends an operation with the time it is recorded at. Answers its
number, and the writer for what comes next. -/
def append (w : Writer) (now : UInt64) (op : Operation) : Disk (UInt64 × Writer) := do
  match LogRecord.frame ⟨w.nextLsn, op, now⟩ with
  | .error e => throw e
  | .ok bytes =>
    Disk.append w.file bytes
    return (w.nextLsn, { w with nextLsn := w.nextLsn + 1 })

/-- Discards all records. The numbers go on. -/
def truncate (w : Writer) : Disk Unit :=
  Disk.setContent w.file []

end Writer

end OrderedStore.Log
