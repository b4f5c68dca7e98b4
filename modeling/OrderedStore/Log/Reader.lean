/-
The log's reader. It takes the file in blocks and hands out one record at a
time; what it has taken stays as it was, even if the file changes later.

A fault leaves the reader behind the bytes it has looked at, while its
position stays at the end of the last record.
-/
import OrderedStore.Log.Recovery

namespace OrderedStore.Log

/-- A file being read: how far it has been taken, what has been taken and
not used, and the end of the last record. -/
structure Reader where
  node : Node
  taken : Nat
  held : Bytes
  position : Nat

namespace Reader

/-- How much of a file is taken at once. -/
def blockSize : Nat := 8192

/-- Opens the file at its start. -/
def openAt (p : Path) : Disk Reader := do
  return ⟨← Disk.existing p, 0, [], 0⟩

/-- The next `n` bytes, or fewer at the end of the file. A block is taken
whenever nothing is held; a request of a block or more goes past the
block. -/
def pull (r : Reader) (n : Nat) : Disk (Bytes × Reader) := do
  let first := r.held.take n
  let r := { r with held := r.held.drop n }
  let missing := n - first.length
  if missing = 0 then return (first, r)
  else
    let rest := (← Disk.read r.node).drop r.taken
    if blockSize ≤ missing then
      let more := rest.take missing
      return (first ++ more, { r with taken := r.taken + more.length })
    else
      let block := rest.take blockSize
      return (first ++ block.take missing,
        { r with taken := r.taken + block.length, held := block.drop missing })

/-- The next record, or `none` at the end of the file. -/
def next (r : Reader) : Disk (Except LogFault (Option LogRecord) × Reader) := do
  let (header, r) ← r.pull LogRecord.headerSize
  let length :=
    if header.length < LogRecord.headerSize then 0
    else (LogRecord.readHeader header).length
  let (payload, r) ← if LogRecord.maxPayload < length then pure ([], r)
    else r.pull length
  match LogRecord.next r.position (header ++ payload) with
  | .ok none => return (.ok none, r)
  | .error e => return (.error e, r)
  | .ok (some (record, _)) =>
    return (.ok (some record),
      { r with position := r.position + LogRecord.frameLength header })

end Reader

end OrderedStore.Log
