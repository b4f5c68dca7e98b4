/-
Serialized values: numbers with a fixed count of digits, least significant
first; a byte string or a list with its length in front, as a number of
eight digits; an alternative with its tag in front, as a number of four.
A reader answers the value and what follows it. Bytes that follow a whole
value are nobody's concern.
-/
import OrderedStore.Failure

namespace OrderedStore.Wire

-- ============================================================== writing

/-- A number of four digits. -/
def word32 (n : Nat) : Bytes :=
  Bytes.littleEndian 4 n

/-- A number of eight digits. -/
def word64 (n : Nat) : Bytes :=
  Bytes.littleEndian 8 n

/-- A byte string. -/
def blob (bs : Bytes) : Bytes :=
  word64 bs.length ++ bs

/-- A list of byte strings. -/
def blobs (items : List Bytes) : Bytes :=
  word64 items.length ++ items.flatMap blob

-- ============================================================== reading

/-- A reader's value with what follows it, or why there is none. -/
abbrev Reader (α : Type) := Bytes → Except WireFault (α × Bytes)

/-- Exactly `n` bytes. -/
def readBytes (n : Nat) : Reader Bytes := fun input =>
  match Bytes.split? n input with
  | some p => .ok p
  | none => .error .endOfInput

/-- Reads what `word32` writes. -/
def readWord32 : Reader Nat := fun input => do
  let (bs, rest) ← readBytes 4 input
  .ok (Bytes.ofLittleEndian bs, rest)

/-- Reads what `word64` writes. -/
def readWord64 : Reader Nat := fun input => do
  let (bs, rest) ← readBytes 8 input
  .ok (Bytes.ofLittleEndian bs, rest)

/-- Reads what `blob` writes. -/
def readBlob : Reader Bytes := fun input => do
  let (n, rest) ← readWord64 input
  readBytes n rest

/-- `count` more byte strings behind those of `done`, which has the last one
first. A byte string takes eight bytes at least, so no more than `fuel` of
them can come out of `fuel` bytes. -/
def readBlobsOnto : Nat → Nat → List Bytes → Reader (List Bytes)
  | _, 0, done, input => .ok (done.reverse, input)
  | 0, _ + 1, _, _ => .error .endOfInput
  | fuel + 1, count + 1, done, input => do
    let (item, rest) ← readBlob input
    readBlobsOnto fuel count (item :: done) rest

/-- Reads what `blobs` writes. -/
def readBlobs : Reader (List Bytes) := fun input => do
  let (count, rest) ← readWord64 input
  readBlobsOnto rest.length count [] rest

end OrderedStore.Wire
