/-
Log records and their frames.

    [lsn: 8][checksum: 4][length: 4][payload: length bytes]

The payload is the operation and the time in serialized form; the checksum
is over the sequence number and the payload. What follows the serialized
form inside a payload is ignored, and so is what follows a frame.

A frame's reader takes the position of the frame in its file, for the
faults to name.
-/
import OrderedStore.Checksum
import OrderedStore.Content
import OrderedStore.Log.Operation
import OrderedStore.Wire

namespace OrderedStore

-- ===================================================== operations in bytes

namespace Operation

mutual

/-- The serialized form: a tag, and what belongs to it. -/
def serialize : Operation → Bytes
  | .put key value => Wire.word32 0 ++ Wire.blob key ++ Wire.blob value
  | .delete key => Wire.word32 1 ++ Wire.blob key
  | .batch operations =>
    Wire.word32 2 ++ Wire.word64 operations.length ++ serializeAll operations

/-- Several serialized forms, one behind the other. -/
def serializeAll : List Operation → Bytes
  | [] => []
  | op :: ops => op.serialize ++ serializeAll ops

end

/-- `count` more operations behind those of `done`, which has the last one
first. Each takes four bytes at least, so `fuel` bytes never hold more than
`fuel` of them, at any depth. -/
def readOnto : Nat → Nat → List Operation → Wire.Reader (List Operation)
  | _, 0, done, input => .ok (done.reverse, input)
  | 0, _ + 1, _, _ => .error .endOfInput
  | fuel + 1, count + 1, done, input => do
    let (tag, rest) ← Wire.readWord32 input
    match tag with
    | 0 =>
      let (key, rest) ← Wire.readBlob rest
      let (value, rest) ← Wire.readBlob rest
      readOnto fuel count (.put key value :: done) rest
    | 1 =>
      let (key, rest) ← Wire.readBlob rest
      readOnto fuel count (.delete key :: done) rest
    | 2 =>
      let (inner, rest) ← Wire.readWord64 rest
      let (held, rest) ← readOnto fuel inner [] rest
      readOnto fuel count (.batch held :: done) rest
    | tag => .error (.unknownTag tag)

/-- Reads what `serialize` writes. -/
def read : Wire.Reader Operation := fun input => do
  match ← readOnto (input.length + 1) 1 [] input with
  | (op :: _, rest) => .ok (op, rest)
  | ([], _) => .error .endOfInput

end Operation

-- ================================================================ records

/-- One record of the log: its sequence number, what was done, and when, in
milliseconds. -/
structure LogRecord where
  lsn : UInt64
  operation : Operation
  timestamp : UInt64
deriving BEq, Repr, Inhabited

namespace LogRecord

/-- Bytes of a frame before its payload. -/
def headerSize : Nat := 16

/-- A frame's payload is never longer than this when it is read. -/
def maxPayload : Nat := 0x40000000

/-- What a frame says of its payload. -/
structure Header where
  lsn : UInt64
  checksum : UInt32
  length : Nat
deriving DecidableEq, Repr

/-- The check value over a sequence number and a payload. -/
def checksum (lsn : UInt64) (payload : Bytes) : UInt32 :=
  Checksum.ofBytes (Wire.word64 lsn.toNat ++ payload)

/-- The operation and the time, in serialized form. -/
def payload (r : LogRecord) : Bytes :=
  r.operation.serialize ++ Wire.word64 r.timestamp.toNat

/-- A frame around a payload. -/
def frameOf (lsn : UInt64) (payload : Bytes) : Bytes :=
  Wire.word64 lsn.toNat ++ Wire.word32 (checksum lsn payload).toNat
    ++ Wire.word32 payload.length ++ payload

/-- The record in its frame. A payload whose length does not fit the frame
is refused. -/
def frame (r : LogRecord) : Except Failure Bytes :=
  if UInt32.size ≤ r.payload.length then .error (.recordTooLarge r.payload.length)
  else .ok (frameOf r.lsn r.payload)

/-- The header in the first sixteen bytes. -/
def readHeader (input : Bytes) : Header :=
  { lsn := UInt64.ofNat (Bytes.ofLittleEndian (input.take 8))
    checksum := UInt32.ofNat (Bytes.ofLittleEndian ((input.drop 8).take 4))
    length := Bytes.ofLittleEndian ((input.drop 12).take 4) }

/-- How long a frame says it is, its header counted. -/
def frameLength (input : Bytes) : Nat :=
  headerSize + (readHeader input).length

/-- The record that a header and its payload make. -/
def ofPayload (h : Header) (payload : Bytes) : Except LogFault LogRecord :=
  if checksum h.lsn payload ≠ h.checksum then
    .error (.checksumMismatch h.lsn h.checksum (checksum h.lsn payload))
  else
    match (do
      let (operation, rest) ← Operation.read payload
      let (timestamp, _) ← Wire.readWord64 rest
      return (operation, timestamp)) with
    | .ok (operation, timestamp) =>
      .ok ⟨h.lsn, operation, UInt64.ofNat timestamp⟩
    | .error cause => .error (.undecodable cause)

/-- The record whose frame the bytes begin with. -/
def ofFrame (input : Bytes) : Except LogFault LogRecord :=
  match Bytes.split? headerSize input with
  | none => .error (.headerTooSmall input.length)
  | some (head, body) =>
    let h := readHeader head
    match Bytes.split? h.length body with
    | none => .error .payloadTruncated
    | some (payload, _) => ofPayload h payload

/-- The next record of a file of which `input` is left, and what is left
after it; `none` at the end. -/
def next (position : Nat) (input : Bytes) :
    Except LogFault (Option (LogRecord × Bytes)) :=
  if input.isEmpty then .ok none
  else
    match Bytes.split? headerSize input with
    | none => .error (.headerCut position input.length)
    | some (head, body) =>
      let h := readHeader head
      if maxPayload < h.length then .error (.implausibleLength h.length position)
      else
        match Bytes.split? h.length body with
        | none => .error (.payloadCut position body.length h.length)
        | some (payload, rest) =>
          match ofPayload h payload with
          | .ok r => .ok (some (r, rest))
          | .error e => .error e

/-- As much of a content as `next` looks at: a header, and the payload
behind it unless it is too long. -/
def front (content : Content) : Bytes :=
  let header := content.take headerSize
  let length :=
    if header.length < headerSize then 0
    else (readHeader header).length
  if maxPayload < length then header
  else header ++ (content.drop headerSize).take length

end LogRecord

end OrderedStore
