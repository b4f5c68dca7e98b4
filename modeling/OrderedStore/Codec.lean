/-
Encodings of numbers as parts of keys.

    fixed        4 or 8 digits, most significant first     keeps the order
    varint       groups of 7 bits, least significant first short, no order
    ordered      a digit count, then that many digits      keeps the order
    decreasing   the complement of a fixed or ordered one  turns it over
    pair         two ordered ones, a second zero left out

Ordered and decreasing encodings delimit themselves: none is the beginning
of another, so whatever is written behind them leaves the order alone.

A reader answers the value or a fault, and what is left of its input
either way. On a fault the input is left where the reader stopped, which
for most faults is where it began.
-/
import OrderedStore.Failure

namespace OrderedStore.Codec

-- ============================================================== writing

/-- Four digits. -/
def fixed32 (v : UInt32) : Bytes :=
  Bytes.bigEndian 4 v.toNat

/-- Eight digits. -/
def fixed64 (v : UInt64) : Bytes :=
  Bytes.bigEndian 8 v.toNat

/-- Eight digits, complemented. -/
def decreasingFixed64 (v : UInt64) : Bytes :=
  Bytes.complement (fixed64 v)

/-- Groups of seven bits, at most `width` of them, least significant first;
every byte but the last has its high bit set. -/
def varintGroups : Nat → Nat → Bytes
  | 0, _ => []
  | width + 1, n =>
    if n < 128 then [UInt8.ofNat n]
    else UInt8.ofNat (n % 128 + 128) :: varintGroups width (n / 128)

/-- The shortest variable-length form. -/
def varint (v : UInt64) : Bytes :=
  varintGroups 10 v.toNat

/-- The digit count and the digits. Zero has no digits. -/
def ordered (v : UInt64) : Bytes :=
  let count := Bytes.digitCount v.toNat
  UInt8.ofNat count :: Bytes.bigEndian count v.toNat

/-- The complement of the ordered form. -/
def decreasing (v : UInt64) : Bytes :=
  Bytes.complement (ordered v)

/-- Two ordered numbers; a second zero is left out. -/
def pair (a b : UInt64) : Bytes :=
  ordered a ++ if b = 0 then [] else ordered b

/-- Two decreasing numbers; a second zero is left out. -/
def decreasingPair (a b : UInt64) : Bytes :=
  decreasing a ++ if b = 0 then [] else decreasing b

-- ============================================================== reading

/-- A reader's answer, and what it leaves of the input. -/
abbrev Reader (α : Type) := Bytes → Except CodecFault α × Bytes

namespace Reader

/-- The same reader with its value changed by `f`. -/
def map {α β : Type} (f : α → β) (r : Reader α) : Reader β := fun input =>
  match r input with
  | (.ok a, rest) => (.ok (f a), rest)
  | (.error e, rest) => (.error e, rest)

/-- One reader after another, the second chosen by the first's value. -/
def andThen {α β : Type} (r : Reader α) (next : α → Reader β) : Reader β := fun input =>
  match r input with
  | (.ok a, rest) => next a rest
  | (.error e, rest) => (.error e, rest)

end Reader

/-- Exactly `n` bytes. If there are fewer, all stay in place. -/
def takeBytes (n : Nat) : Reader Bytes := fun input =>
  match Bytes.split? n input with
  | some (taken, rest) => (.ok taken, rest)
  | none => (.error (.short n input.length), input)

/-- Reads what `fixed32` writes. -/
def readFixed32 : Reader UInt32 :=
  (takeBytes 4).map fun bs => UInt32.ofNat (Bytes.ofBigEndian bs)

/-- Reads what `fixed64` writes. -/
def readFixed64 : Reader UInt64 :=
  (takeBytes 8).map fun bs => UInt64.ofNat (Bytes.ofBigEndian bs)

/-- Reads what `decreasingFixed64` writes. -/
def readDecreasingFixed64 : Reader UInt64 :=
  (takeBytes 8).map fun bs => UInt64.ofNat (Bytes.ofBigEndian (Bytes.complement bs))

/-- The number that the groups spell, from the group at `index` on, and
what follows them. The tenth group has one bit at most, and an eleventh
does not exist. -/
def readGroups (index : Nat) : Bytes → Except CodecFault (Nat × Bytes)
  | [] => .error .varintTruncated
  | b :: rest =>
    if 9 < index then .error .varintTruncated
    else if index = 9 ∧ 1 < b.toNat % 128 then .error .varintOverflow
    else if b.toNat < 128 then .ok (b.toNat, rest)
    else
      match readGroups (index + 1) rest with
      | .ok (high, rest) => .ok (b.toNat % 128 + 128 * high, rest)
      | .error e => .error e

/-- Reads what `varint` writes, and longer forms. On a fault the input
stays in place. -/
def readVarint : Reader UInt64 := fun input =>
  match readGroups 0 input with
  | .ok (n, rest) => (.ok (UInt64.ofNat n), rest)
  | .error e => (.error e, input)

/-- Reads what `ordered` writes. -/
def readOrdered : Reader UInt64 :=
  (takeBytes 1).andThen fun head =>
    let count := Bytes.ofBigEndian head
    if 8 < count then fun rest => (.error (.orderedLength count), rest)
    else (takeBytes count).map fun bs => UInt64.ofNat (Bytes.ofBigEndian bs)

/-- Reads what `decreasing` writes. -/
def readDecreasing : Reader UInt64 :=
  (takeBytes 1).andThen fun head =>
    let count := Bytes.ofBigEndian (Bytes.complement head)
    if 8 < count then fun rest => (.error (.decreasingLength count), rest)
    else (takeBytes count).map fun bs =>
      UInt64.ofNat (Bytes.ofBigEndian (Bytes.complement bs))

/-- A number and a second one that is zero if nothing follows. -/
def readTwo (r : Reader UInt64) : Reader (UInt64 × UInt64) :=
  r.andThen fun a rest =>
    if rest.isEmpty then (.ok (a, 0), rest)
    else r.map (fun b => (a, b)) rest

/-- Reads what `pair` writes. -/
def readPair : Reader (UInt64 × UInt64) :=
  readTwo readOrdered

/-- Reads what `decreasingPair` writes. -/
def readDecreasingPair : Reader (UInt64 × UInt64) :=
  readTwo readDecreasing

end OrderedStore.Codec
