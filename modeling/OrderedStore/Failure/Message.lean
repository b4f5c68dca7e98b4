/-
The wording of the messages.
-/
import OrderedStore.Failure
import OrderedStore.Text.Quoted
import OrderedStore.Text.Utf8

namespace OrderedStore

/-- A word as eight lower-case hexadecimal digits. -/
def hex32 (w : UInt32) : String :=
  Bytes.toHex (Bytes.bigEndian 4 w.toNat)

/-- Bytes as a list of decimal numbers in square brackets. -/
def numberList (bs : Bytes) : String :=
  "[" ++ String.intercalate ", " (bs.map fun b => toString b.toNat) ++ "]"

/-- What is said of an encoded key that could not be read. -/
def CodecFault.message : CodecFault → String
  | .short needed left => s!"need {needed} bytes, {left} remaining"
  | .varintOverflow => "varint overflows u64"
  | .varintTruncated => "truncated varint"
  | .orderedLength claimed => s!"ordered varint length {claimed} > 8"
  | .decreasingLength claimed => s!"decreasing varint length {claimed} > 8"

/-- What is said of a serialized value that could not be read. -/
def WireFault.message : WireFault → String
  | .endOfInput => "io error: unexpected end of file"
  | .unknownTag tag =>
    "invalid value: integer `" ++ toString tag
      ++ "`, expected variant index 0 <= i < 3"

/-- What is said of bytes of the log that are no record. -/
def LogFault.message : LogFault → String
  | .headerTooSmall size => s!"header too small: {size} bytes"
  | .payloadTruncated => "truncated entry payload"
  | .checksumMismatch lsn written computed =>
    "CRC mismatch at lsn " ++ toString lsn.toNat ++ ": expected " ++ hex32 written
      ++ ", got " ++ hex32 computed
  | .undecodable cause => "undecodable payload: " ++ cause.message
  | .headerCut position got => s!"partial header at offset {position}: {got} bytes"
  | .implausibleLength length position =>
    s!"implausible payload length {length} at offset {position}"
  | .payloadCut position got length =>
    s!"partial payload at offset {position}: {got} of {length} bytes"

/-- What is said of a table that could not be written or opened. -/
def TableFault.message : TableFault → String
  | .outOfOrder key last =>
    "SSTable keys out of order: " ++ Text.quoted (Text.shown key) ++ " after "
      ++ Text.quoted (Text.shown last)
  | .valueTooLarge => "value too large for SSTable"
  | .tooSmall path size => s!"SSTable {path} too small: {size} bytes"
  | .badMagic found =>
    "Invalid SSTable magic: expected TDKV, got " ++ numberList found
  | .unknownVersion version => s!"Unsupported SSTable version: {version}"
  | .indexOutside path offset =>
    s!"SSTable {path} has index offset {offset} outside the file"
  | .checksumMismatch path => s!"SSTable {path} data checksum mismatch"
  | .indexCount path held announced =>
    s!"SSTable {path} index holds {held} keys, header says {announced}"
  | .nothingToFlush => "Cannot flush empty MemTable"

/-- What is said of a failure. -/
def Failure.message : Failure → String
  | .io => "IO error"
  | .corruptLog cause => "WAL corruption detected: " ++ cause.message
  | .recordTooLarge size =>
    s!"WAL write failed: entry payload too large: {size} bytes"
  | .table cause => "Storage error: " ++ cause.message
  | .keyNotFound => "Key not found"
  | .codec cause => "Key codec error: " ++ cause.message
  | .serialization cause => "Serialization error: " ++ cause.message
  | .indexName name => "Configuration error: invalid index name " ++ Text.quoted name

end OrderedStore
