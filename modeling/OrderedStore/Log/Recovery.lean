/-
Recovery of a log file. The file is read up to its end or to the first
bytes that are no record; nothing behind those can be trusted to be framed
correctly, so recovery cuts them off. Checking a file reads it in the same
way and leaves it alone.
-/
import OrderedStore.Log.Record
import OrderedStore.Volume

namespace OrderedStore.Log

/-- What a file holds: the records up to the first fault, how many bytes
they take, and the fault. -/
structure Scan where
  records : List LogRecord
  length : Nat
  fault : Option LogFault

/-- What recovery reports. -/
structure Summary where
  recovered : Nat
  corrupted : Nat
  lastLsn : UInt64
  truncated : Bool
deriving DecidableEq, Repr

/-- The records of a file of which `input` is left at `position`, behind
those of `done`, which has the last one first. A frame takes at least its
header, so `fuel` bytes hold at most `fuel` frames. -/
def scanOnto : Nat → Nat → List LogRecord → Bytes → Scan
  | 0, position, done, _ => ⟨done.reverse, position, none⟩
  | fuel + 1, position, done, input =>
    match LogRecord.next position input with
    | .ok none => ⟨done.reverse, position, none⟩
    | .error e => ⟨done.reverse, position, some e⟩
    | .ok (some (r, rest)) =>
      scanOnto fuel (position + LogRecord.frameLength input) (r :: done) rest

/-- The records of a file's content. -/
def scan (content : Bytes) : Scan :=
  scanOnto (content.length + 1) 0 [] content

/-- The records of a file of which `content` is left, as `scanOnto` has
them. Of each record no more is read than its frame. -/
def scanFrom : Nat → Nat → List LogRecord → Content → Scan
  | 0, position, done, _ => ⟨done.reverse, position, none⟩
  | fuel + 1, position, done, content =>
    let front := LogRecord.front content
    match LogRecord.next position front with
    | .ok none => ⟨done.reverse, position, none⟩
    | .error e => ⟨done.reverse, position, some e⟩
    | .ok (some (r, _)) =>
      let length := LogRecord.frameLength front
      scanFrom fuel (position + length) (r :: done) (content.drop length)

/-- The records of a file. -/
def scanFile (content : Content) : Scan :=
  scanFrom (content.length + 1) 0 [] content

/-- What is reported of a scan. -/
def Scan.summary (s : Scan) : Summary :=
  { recovered := s.records.length
    corrupted := if s.fault.isSome then 1 else 0
    lastLsn := (s.records.getLast?.map LogRecord.lsn).getD 0
    truncated := s.fault.isSome }

/-- Cuts the file off behind its records, if there was a fault. -/
def cut (p : Path) (s : Scan) : Disk Unit := do
  if s.fault.isSome then Disk.resize (← Disk.existingFile p) s.length

/-- The file's records. Whatever comes after them is cut off. -/
def recover (p : Path) : Disk (List LogRecord × Summary) := do
  let node ← Disk.existing p
  let s := scanFile (← Disk.contentOf node)
  cut p s
  return (s.records, s.summary)

/-- The file's records, and none if there is no file. -/
def recordsAt (p : Path) : Disk (List LogRecord) := do
  match ← Disk.node? p with
  | some _ => return (← recover p).1
  | none => return []

/-- The report that recovery would make, and no change. -/
def verify (p : Path) : Disk Summary := do
  let node ← Disk.existing p
  return (scanFile (← Disk.contentOf node)).summary

end OrderedStore.Log
