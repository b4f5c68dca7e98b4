/-
The format of a table file: sorted entries that never change.

    header   "TDKV" | version: 2 | entry count: 8
    data     [key length: 4][value length: 4][key][value]      per entry
    index    [key length: 4][offset of the entry: 8][key]      per entry
    footer   index offset: 8 | checksum of the data: 4 | zeros: 4

Numbers are written least significant digit first. A value length with all
bits set marks a tombstone, which has no value bytes.

`Table.image` is the whole file for a list of entries. `Table.parse` reads
a file's header, checksum and index.
-/
import OrderedStore.Checksum
import OrderedStore.Failure
import OrderedStore.KeyMap
import OrderedStore.Log.Operation
import OrderedStore.Wire

namespace OrderedStore.Table

-- ============================================================ the layout

/-- The four bytes that a table file begins with. -/
def magic : Bytes := [0x54, 0x44, 0x4B, 0x56]

/-- The version of the format. -/
def version : Nat := 1

/-- Bytes of the header. -/
def headerSize : Nat := 14

/-- Bytes of the footer. -/
def footerSize : Nat := 16

/-- Where the entry count stands in the header. -/
def countOffset : Nat := 6

/-- The value length that marks a tombstone. -/
def tombstoneMark : Nat := 0xFFFFFFFF

/-- The value length that is written for an entry. -/
def valueLength : Entry → Nat
  | .value bs => bs.length
  | .tombstone => tombstoneMark

/-- The bytes of an entry's value; a tombstone has none. -/
def valueBytes (e : Entry) : Bytes :=
  e.value?.getD []

/-- The header, with an entry count. -/
def header (count : Nat) : Bytes :=
  magic ++ Bytes.littleEndian 2 version ++ Wire.word64 count

/-- The parts in which an entry is written. -/
def entryParts (k : Bytes) (e : Entry) : List Bytes :=
  [Wire.word32 k.length, Wire.word32 (valueLength e), k, valueBytes e]

/-- An entry in the data block. -/
def entryBytes (k : Bytes) (e : Entry) : Bytes :=
  (entryParts k e).flatten

/-- The parts in which an index entry is written. -/
def indexParts (k : Bytes) (offset : Nat) : List Bytes :=
  [Wire.word32 k.length, Wire.word64 offset, k]

/-- The parts in which the footer is written. -/
def footerParts (indexOffset : Nat) (check : UInt32) : List Bytes :=
  [Wire.word64 indexOffset, Wire.word32 check.toNat, List.replicate 4 0]

/-- The data block. -/
def dataBlock (entries : List (Bytes × Entry)) : Bytes :=
  entries.flatMap fun p => entryBytes p.1 p.2

/-- Each key with the offset of its entry, the first of them at `offset`. -/
def offsetsFrom (offset : Nat) : List (Bytes × Entry) → List (Bytes × Nat)
  | [] => []
  | (k, e) :: rest => (k, offset) :: offsetsFrom (offset + (entryBytes k e).length) rest

/-- The index block of a table. -/
def indexBlock (entries : List (Bytes × Entry)) : Bytes :=
  (offsetsFrom headerSize entries).flatMap fun p => (indexParts p.1 p.2).flatten

/-- The file that holds the entries. -/
def image (entries : List (Bytes × Entry)) : Bytes :=
  header entries.length ++ dataBlock entries ++ indexBlock entries
    ++ (footerParts (headerSize + (dataBlock entries).length)
        (Checksum.ofBytes (dataBlock entries))).flatten

-- =============================================================== reading

/-- The index entry that a block begins with, and what follows it. -/
def readIndexEntry (block : Bytes) : Option ((Bytes × Nat) × Bytes) := do
  let (length, rest) ← Bytes.split? 4 block
  let (offset, rest) ← Bytes.split? 8 rest
  let (key, rest) ← Bytes.split? (Bytes.ofLittleEndian length) rest
  return ((key, Bytes.ofLittleEndian offset), rest)

/-- The index entries in a block, up to the first that is not whole, behind
those of `done`, which has the last one first. Each takes at least twelve
bytes, so `fuel` bytes hold at most `fuel` of them. -/
def indexEntriesOnto : Nat → List (Bytes × Nat) → Bytes → List (Bytes × Nat)
  | 0, done, _ => done.reverse
  | fuel + 1, done, block =>
    match readIndexEntry block with
    | none => done.reverse
    | some (entry, rest) => indexEntriesOnto fuel (entry :: done) rest

/-- The index in a block. Of two entries with one key the later counts. -/
def readIndex (block : Bytes) : KeyMap Nat :=
  KeyMap.ofList (indexEntriesOnto block.length [] block)

/-- The index of the table in a file's content. The tests are made in this
order: size, magic, version, place of the index, checksum of the data,
number of keys. -/
def parse (path : String) (content : Bytes) : Except TableFault (KeyMap Nat) :=
  let size := content.length
  if size < headerSize + footerSize then .error (.tooSmall path size)
  else if content.take 4 ≠ magic then .error (.badMagic (content.take 4))
  else
    let found := Bytes.ofLittleEndian ((content.drop 4).take 2)
    if found ≠ version then .error (.unknownVersion found)
    else
      let count := Bytes.ofLittleEndian ((content.drop countOffset).take 8)
      let footer := content.drop (size - footerSize)
      let indexOffset := Bytes.ofLittleEndian (footer.take 8)
      let check := Bytes.ofLittleEndian ((footer.drop 8).take 4)
      if indexOffset < headerSize ∨ size - footerSize < indexOffset then
        .error (.indexOutside path indexOffset)
      else
        let data := (content.drop headerSize).take (indexOffset - headerSize)
        if (Checksum.ofBytes data).toNat ≠ check then .error (.checksumMismatch path)
        else
          let block := (content.drop indexOffset).take (size - footerSize - indexOffset)
          let index := readIndex block
          if index.size ≠ count then .error (.indexCount path index.size count)
          else .ok index

/-- The entry that starts at `offset` of a file's content. Its key is
passed over unread; a tombstone is one whatever follows. -/
def entryAt (content : Bytes) (offset : Nat) : Except Failure Entry :=
  match Bytes.split? 8 (content.drop offset) with
  | none => .error .io
  | some (lengths, rest) =>
    let keyLength := Bytes.ofLittleEndian (lengths.take 4)
    let length := Bytes.ofLittleEndian (lengths.drop 4)
    if length = tombstoneMark then .ok .tombstone
    else
      match Bytes.split? length (rest.drop keyLength) with
      | none => .error .io
      | some (value, _) => .ok (.value value)

end OrderedStore.Table
