/-
Byte strings: the keys, values and file contents of the store.

Everything that is ordered here is ordered as byte strings are, first
difference first and a proper beginning before what extends it. That is
the order core gives to lists, so `<` and `≤` on `Bytes` are the order of
every key in this library.

A number is written with its digits base 256, most significant first
(`bigEndian`) where the byte order has to be the numeric order, least
significant first (`littleEndian`) in files.
-/

namespace OrderedStore

/-- A string of bytes. -/
abbrev Bytes := List UInt8

namespace Bytes

-- ============================================================== numbers

/-- The low `width` digits of `n` base 256, least significant first. -/
def littleEndian : Nat → Nat → Bytes
  | 0, _ => []
  | width + 1, n => UInt8.ofNat n :: littleEndian width (n / 256)

/-- The number a string spells, least significant digit first. -/
def ofLittleEndian : Bytes → Nat
  | [] => 0
  | b :: rest => b.toNat + 256 * ofLittleEndian rest

/-- The low `width` digits of `n` base 256, most significant first. -/
def bigEndian (width n : Nat) : Bytes :=
  (littleEndian width n).reverse

/-- The number a string spells, most significant digit first. -/
def ofBigEndian (bs : Bytes) : Nat :=
  ofLittleEndian bs.reverse

/-- How many digits base 256 the number needs; zero needs none. -/
def digitCount (n : Nat) : Nat :=
  if n = 0 then 0 else n.log2 / 8 + 1

/-- Every bit the other way round. It turns the byte order over. -/
def complement (bs : Bytes) : Bytes :=
  bs.map fun b => ~~~b

-- =============================================================== pieces

/-- The first `n` bytes and what follows them, if there are that many. -/
def split? (n : Nat) (bs : Bytes) : Option (Bytes × Bytes) :=
  let front := bs.take n
  if front.length < n then none else some (front, bs.drop n)

/-- What follows `lead` in a string that begins with it. -/
def after? : Bytes → Bytes → Option Bytes
  | [], bs => some bs
  | _ :: _, [] => none
  | a :: lead, b :: bs => if a = b then after? lead bs else none

/-- The string before the first `mark`, and the string after it. -/
def splitAt? (mark : UInt8) (bs : Bytes) : Option (Bytes × Bytes) :=
  match bs.span (· ≠ mark) with
  | (_, []) => none
  | (front, _ :: rest) => some (front, rest)

/-- `bs` laid over `base` from `offset` on; a gap before it is zeros. No
bytes laid anywhere change nothing. -/
def overwrite (base : Bytes) (offset : Nat) (bs : Bytes) : Bytes :=
  if bs.isEmpty then base
  else
    base.take offset ++ List.replicate (offset - base.length) 0 ++ bs
      ++ base.drop (offset + bs.length)

/-- The string cut or, with zeros, stretched to `n` bytes. -/
def resize (bs : Bytes) (n : Nat) : Bytes :=
  bs.take n ++ List.replicate (n - bs.length) 0

-- ================================================================= hex

/-- The lower-case digit of a number below 16. -/
def hexDigit (n : Nat) : Char :=
  if n < 10 then Char.ofNat (48 + n) else Char.ofNat (87 + n)

/-- Two lower-case digits a byte. -/
def toHex (bs : Bytes) : String :=
  String.ofList (bs.flatMap fun b =>
    [hexDigit (b.toNat / 16), hexDigit (b.toNat % 16)])

end Bytes

end OrderedStore
