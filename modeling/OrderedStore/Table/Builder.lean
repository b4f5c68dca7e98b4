/-
Building a table file. Entries are added in strictly ascending key order;
one that is out of order is refused and leaves no trace. The bytes go
through a buffer, so the file lags behind what was added until the table is
finished.
-/
import OrderedStore.Table.Format
import OrderedStore.Volume

namespace OrderedStore

-- ========================================================== buffered files

/-- A file written from its start through a buffer. -/
structure BufferedFile where
  file : Nat
  written : Nat
  held : Bytes

namespace BufferedFile

/-- How much the buffer holds. -/
def capacity : Nat := 8192

/-- What is held goes to the file. -/
def flush (f : BufferedFile) : Disk BufferedFile := do
  Disk.overwrite f.file f.written f.held
  return { f with written := f.written + f.held.length, held := [] }

/-- More bytes. What does not fit behind those held sends them to the file
first, and goes there itself if it fills a buffer of its own. -/
def write (f : BufferedFile) (bs : Bytes) : Disk BufferedFile := do
  let f ← if capacity < f.held.length + bs.length then flush f else pure f
  if bs.length < capacity then
    return { f with held := f.held ++ bs }
  else
    Disk.overwrite f.file f.written bs
    return { f with written := f.written + bs.length }

/-- More bytes, in parts. -/
def writeParts (f : BufferedFile) (parts : List Bytes) : Disk BufferedFile :=
  parts.foldlM write f

end BufferedFile

-- ================================================================ builder

namespace Table

/-- A table being built: its file, the keys added so far with the offsets
of their entries, newest first, where the next entry goes, and the
remainder of the data's checksum. -/
structure Builder where
  out : BufferedFile
  added : List (Bytes × Nat)
  offset : Nat
  remainder : UInt32

/-- What is reported of a finished table. Without entries the keys are
empty. -/
structure Report where
  entryCount : Nat
  minKey : Bytes
  maxKey : Bytes
  fileSize : Nat
deriving DecidableEq, Repr

namespace Builder

/-- Starts a table in a new or emptied file. The header is written with a
count of zero. -/
def start (p : Path) : Disk Builder := do
  let file ← Disk.create p
  let out ← BufferedFile.writeParts ⟨file, 0, []⟩
    [magic, Bytes.littleEndian 2 version, Wire.word64 0]
  return ⟨out, [], headerSize, Checksum.start⟩

/-- Why the entry cannot be added, if it cannot. -/
def refusal? (b : Builder) (k : Bytes) (e : Entry) : Option TableFault :=
  match b.added.head? with
  | some (last, _) =>
    if k ≤ last then some (.outOfOrder k last)
    else if tombstoneMark ≤ (valueBytes e).length then some .valueTooLarge
    else none
  | none => if tombstoneMark ≤ (valueBytes e).length then some .valueTooLarge else none

/-- The table with one more entry. -/
def add (b : Builder) (k : Bytes) (e : Entry) : Disk Builder := do
  match b.refusal? k e with
  | some fault => throw (.table fault)
  | none =>
    let out ← b.out.writeParts (entryParts k e)
    return { out := out
             added := (k, b.offset) :: b.added
             offset := b.offset + (entryBytes k e).length
             remainder := Checksum.extend b.remainder (entryBytes k e) }

/-- Writes the index and the footer, and the count into the header. -/
def finish (b : Builder) : Disk Report := do
  let keys := b.added.reverse
  let out ← b.out.writeParts (keys.flatMap fun p => indexParts p.1 p.2)
  let out ← out.writeParts (footerParts b.offset (Checksum.finish b.remainder))
  let out ← out.flush
  Disk.overwrite out.file countOffset (Wire.word64 keys.length)
  return { entryCount := keys.length
           minKey := (keys.head?.map Prod.fst).getD []
           maxKey := (b.added.head?.map Prod.fst).getD []
           fileSize := (← Disk.content out.file).length }

/-- Gives the table up. What was held still reaches the file. -/
def discard (b : Builder) : Disk Unit := do
  let _ ← b.out.flush

end Builder

end Table

end OrderedStore
