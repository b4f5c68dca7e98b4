/-
The content of a file. The zeros it ends in are counted and not stored, so
a file that was stretched takes no more room than what was written to it.

Each content has one form only: what is stored does not end in a zero. So
contents and byte strings are the same thing, and what is said of files is
said of byte strings.
-/
import OrderedStore.Bytes

namespace OrderedStore

/-- The bytes of a file up to the last that is not zero, and the count of
the zeros behind them. -/
structure Content where
  stored : Bytes
  zeros : Nat
  trimmed : stored.getLast? ≠ some 0

namespace Content

/-- The string without the zeros it ends in. -/
def trim (bs : Bytes) : Bytes :=
  (bs.reverse.dropWhile (· == 0)).reverse

/-- Such a string does not end in a zero. -/
theorem getLast?_trim (bs : Bytes) : (trim bs).getLast? ≠ some 0 := by
  unfold trim
  rw [List.getLast?_reverse]
  intro h
  have hfirst := List.head?_dropWhile_not (· == 0) bs.reverse
  rw [h] at hfirst
  cases hfirst

/-- Nothing at all. -/
def empty : Content :=
  ⟨[], 0, nofun⟩

/-- The content that the bytes are. -/
def ofBytes (bs : Bytes) : Content :=
  ⟨trim bs, bs.length - (trim bs).length, getLast?_trim bs⟩

/-- All bytes of the content. -/
def toBytes (c : Content) : Bytes :=
  c.stored ++ List.replicate c.zeros 0

/-- How many bytes there are. -/
def length (c : Content) : Nat :=
  c.stored.length + c.zeros

/-- The first `n` bytes, or all if there are fewer. -/
def take (n : Nat) (c : Content) : Bytes :=
  let front := c.stored.take n
  front ++ List.replicate (min (n - front.length) c.zeros) 0

/-- What follows the first `n` bytes. -/
def drop (n : Nat) (c : Content) : Content :=
  match h : c.stored.drop n with
  | [] => ⟨[], c.zeros - (n - c.stored.length), nofun⟩
  | b :: rest =>
    ⟨b :: rest, c.zeros, by
      rw [← h, List.getLast?_drop, if_neg]
      · exact c.trimmed
      · intro hshort
        rw [List.drop_eq_nil_of_le hshort] at h
        cases h⟩

/-- The content cut or, with zeros, stretched to `n` bytes. -/
def resize (c : Content) (n : Nat) : Content :=
  if n < c.stored.length then ofBytes (c.stored.take n)
  else { c with zeros := n - c.stored.length }

end Content

end OrderedStore
