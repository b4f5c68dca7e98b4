/-
What can go wrong, by cause. The wording of the messages is in
`Failure/Message.lean`.
-/
import OrderedStore.Bytes

namespace OrderedStore

/-- Why an encoded key could not be read. -/
inductive CodecFault where
  /-- `needed` bytes were needed where `left` were left. -/
  | short (needed left : Nat)
  /-- The tenth byte of a variable-length number holds more than one bit. -/
  | varintOverflow
  /-- No byte ends the variable-length number. -/
  | varintTruncated
  /-- An ordered number claims more than eight digits. -/
  | orderedLength (claimed : Nat)
  /-- A decreasing number claims more than eight digits. -/
  | decreasingLength (claimed : Nat)
deriving DecidableEq, Repr

/-- Why a serialized value could not be read. -/
inductive WireFault where
  | endOfInput
  /-- No alternative of the value has this tag. -/
  | unknownTag (tag : Nat)
deriving DecidableEq, Repr

/-- Why bytes of the log are no record. -/
inductive LogFault where
  | headerTooSmall (size : Nat)
  | payloadTruncated
  | checksumMismatch (lsn : UInt64) (written computed : UInt32)
  | undecodable (cause : WireFault)
  | headerCut (position got : Nat)
  | implausibleLength (length position : Nat)
  | payloadCut (position got length : Nat)
deriving DecidableEq, Repr

/-- Why a table could not be written or opened. -/
inductive TableFault where
  /-- `key` was to be added after `last`, which is not below it. -/
  | outOfOrder (key last : Bytes)
  | valueTooLarge
  | tooSmall (path : String) (size : Nat)
  | badMagic (found : Bytes)
  | unknownVersion (version : Nat)
  | indexOutside (path : String) (offset : Nat)
  | checksumMismatch (path : String)
  | indexCount (path : String) (held announced : Nat)
  /-- A memtable without entries makes no table. -/
  | nothingToFlush
deriving DecidableEq, Repr

/-- Why an operation of the store failed. -/
inductive Failure where
  /-- A file or directory did not do what was asked of it. -/
  | io
  | corruptLog (cause : LogFault)
  /-- A log record's payload, of this many bytes, does not fit its frame. -/
  | recordTooLarge (size : Nat)
  | table (cause : TableFault)
  | keyNotFound
  | codec (cause : CodecFault)
  | serialization (cause : WireFault)
  /-- No index can have this name. -/
  | indexName (name : String)
deriving DecidableEq, Repr

end OrderedStore
