/-
The 32-bit cyclic redundancy check with the reflected polynomial
EDB88320: the remainder starts with all bits set, takes one byte at a
time, and is complemented at the end.
-/
import OrderedStore.Bytes

namespace OrderedStore.Checksum

/-- The reflected polynomial. -/
def polynomial : UInt32 := 0xEDB88320

/-- One bit out of the remainder. -/
def shift (c : UInt32) : UInt32 :=
  if c &&& 1 = 1 then (c >>> 1) ^^^ polynomial else c >>> 1

/-- One byte into the remainder. -/
def step (c : UInt32) (b : UInt8) : UInt32 :=
  shift (shift (shift (shift (shift (shift (shift (shift (c ^^^ b.toUInt32))))))))

/-- The remainder before any byte. -/
def start : UInt32 := 0xFFFFFFFF

/-- The remainder `c` after more bytes. -/
def extend (c : UInt32) (bs : Bytes) : UInt32 :=
  bs.foldl step c

/-- The check value of a remainder. -/
def finish (c : UInt32) : UInt32 :=
  ~~~c

/-- The check value of a byte string. -/
def ofBytes (bs : Bytes) : UInt32 :=
  finish (extend start bs)

/-- Bytes may come in pieces. -/
theorem extend_append (c : UInt32) (xs ys : Bytes) :
    extend c (xs ++ ys) = extend (extend c xs) ys :=
  List.foldl_append

end OrderedStore.Checksum
