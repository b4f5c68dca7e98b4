/-
Numbers one behind the other in a key.

A key may hold any row of numbers, each in an encoding of its own (`Field`),
and a pair behind them (`LastField`). The reader is told the encodings and no
more; it takes the numbers off one after the other, each from where the one
before it has left off. What comes out are the numbers that were written, and
what follows them is left as it is.

Every encoding takes exactly what it has written, whatever follows; that is one
lemma for each, and the row is an induction over them. A decreasing encoding is
the complement of another, and a reader of it reads complements, so nothing has
to be proved of it twice. A pair reads all there is, since a zero in second
place is left out: that is why it is last, and why nothing may follow it.
-/
import Mathlib
import OrderedStore.Proofs.Encoding

namespace OrderedStore

-- ============================================================ complements

namespace Bytes

/-- What is turned over twice is as it was. -/
@[simp] theorem complement_complement (bs : Bytes) : complement (complement bs) = bs := by
  unfold complement
  rw [List.map_map]
  exact List.map_id'' (fun b => UInt8.not_not) bs

/-- Parts are turned over one by one. -/
@[simp] theorem complement_append (xs ys : Bytes) :
    complement (xs ++ ys) = complement xs ++ complement ys :=
  List.map_append

/-- What is turned over is as long as before. -/
@[simp] theorem length_complement (bs : Bytes) : (complement bs).length = bs.length :=
  List.length_map _

end Bytes

namespace Codec

-- ================================================================ readers

/-- Bytes are taken if the input begins with as many. -/
theorem takeBytes_eq_ok_iff {n : Nat} {bs taken rest : Bytes} :
    takeBytes n bs = (.ok taken, rest) ↔ bs = taken ++ rest ∧ taken.length = n := by
  constructor
  · intro h
    have hlength : n ≤ bs.length := by
      by_contra hshort
      unfold takeBytes at h
      rw [Bytes.split?_short (Nat.lt_of_not_le hshort)] at h
      cases h
    have htake := takeBytes_append (List.length_take_of_le hlength) (bs.drop n)
    rw [List.take_append_drop, h] at htake
    cases htake
    exact ⟨(List.take_append_drop n bs).symm, List.length_take_of_le hlength⟩
  · rintro ⟨rfl, hlength⟩
    exact takeBytes_append hlength rest

/-- As many are taken of what is turned over, and they are turned over. -/
theorem takeBytes_complement {n : Nat} {bs taken rest : Bytes}
    (h : takeBytes n bs = (.ok taken, rest)) :
    takeBytes n (Bytes.complement bs) = (.ok (Bytes.complement taken), Bytes.complement rest) := by
  obtain ⟨rfl, hlength⟩ := takeBytes_eq_ok_iff.mp h
  refine takeBytes_eq_ok_iff.mpr ⟨Bytes.complement_append _ _, ?_⟩
  rw [Bytes.length_complement, hlength]

/-- A reader that takes bytes and makes something of them ends well when there
are as many. -/
theorem map_takeBytes_eq_ok {α : Type} {n : Nat} {f : Bytes → α} {bs rest : Bytes} {a : α}
    (h : (takeBytes n).map f bs = (.ok a, rest)) :
    ∃ taken, takeBytes n bs = (.ok taken, rest) ∧ f taken = a := by
  unfold Reader.map at h
  split at h
  · next taken rest' htake =>
      cases h
      exact ⟨taken, htake, rfl⟩
  · cases h

/-- A reader goes on with what the one before it has read and left. -/
theorem andThen_of_ok {α β : Type} {r : Reader α} {next : α → Reader β} {bs rest : Bytes} {a : α}
    (h : r bs = (.ok a, rest)) : r.andThen next bs = next a rest := by
  unfold Reader.andThen
  rw [h]

/-- A value that is read can be changed. -/
theorem map_of_ok {α β : Type} {r : Reader α} {f : α → β} {bs rest : Bytes} {a : α}
    (h : r bs = (.ok a, rest)) : r.map f bs = (.ok (f a), rest) := by
  unfold Reader.map
  rw [h]

-- ============================================================ fixed widths

/-- A number of four digits is read back, and what follows it is left over. -/
theorem readFixed32_append (v : UInt32) (rest : Bytes) :
    readFixed32 (fixed32 v ++ rest) = (.ok v, rest) := by
  have hread : Bytes.ofBigEndian (Bytes.bigEndian 4 v.toNat) = v.toNat :=
    Bytes.ofBigEndian_bigEndian v.toNat_lt
  refine (map_of_ok (takeBytes_append (Bytes.length_bigEndian 4 v.toNat) rest)).trans ?_
  rw [hread, UInt32.ofNat_toNat]

/-- What is read of eight digits is read of them turned over. -/
theorem readDecreasingFixed64_complement {bs rest : Bytes} {v : UInt64}
    (h : readFixed64 bs = (.ok v, rest)) :
    readDecreasingFixed64 (Bytes.complement bs) = (.ok v, Bytes.complement rest) := by
  obtain ⟨taken, htake, rfl⟩ := map_takeBytes_eq_ok h
  refine (map_of_ok (takeBytes_complement htake)).trans ?_
  rw [Bytes.complement_complement]

/-- A decreasing number of eight digits is read back, and what follows it is
left over. -/
theorem readDecreasingFixed64_append (v : UInt64) (rest : Bytes) :
    readDecreasingFixed64 (decreasingFixed64 v ++ rest) = (.ok v, rest) := by
  have h := readDecreasingFixed64_complement (readFixed64_append v (Bytes.complement rest))
  rwa [Bytes.complement_append, Bytes.complement_complement] at h

-- ======================================================== variable widths

/-- Groups of seven bits are read back from any place on, if there is room for
them up to the tenth. -/
theorem readGroups_varintGroups {width index n : Nat} (hroom : index + width = 9)
    (hn : n < 2 * 128 ^ width) (rest : Bytes) :
    readGroups index (varintGroups (width + 1) n ++ rest) = .ok (n, rest) := by
  induction width generalizing index n with
  | zero =>
      have hsmall : n < 2 := hn
      have hbyte : (UInt8.ofNat n).toNat = n := UInt8.toNat_ofNat_of_lt' (by rw [UInt8.size]; omega)
      rw [varintGroups, if_pos (by omega), List.singleton_append, readGroups, hbyte,
        if_neg (by omega), if_neg (by omega), if_pos (by omega)]
  | succ width ih =>
      rw [varintGroups]
      split
      · next hlast =>
          have hbyte : (UInt8.ofNat n).toNat = n :=
            UInt8.toNat_ofNat_of_lt' (by rw [UInt8.size]; omega)
          rw [List.singleton_append, readGroups, hbyte, if_neg (by omega), if_neg (by omega),
            if_pos hlast]
      · next hmore =>
          have hbyte : (UInt8.ofNat (n % 128 + 128)).toNat = n % 128 + 128 :=
            UInt8.toNat_ofNat_of_lt' (by rw [UInt8.size]; omega)
          have hhigh : n / 128 < 2 * 128 ^ width := by
            rw [pow_succ] at hn
            omega
          rw [List.cons_append, readGroups, hbyte, if_neg (by omega), if_neg (by omega),
            if_neg (by omega), ih (by omega) hhigh]
          show Except.ok ((n % 128 + 128) % 128 + 128 * (n / 128), rest) = .ok (n, rest)
          have hvalue : (n % 128 + 128) % 128 + 128 * (n / 128) = n := by omega
          rw [hvalue]

/-- A number of variable length is read back, and what follows it is left
over. -/
theorem readVarint_append (v : UInt64) (rest : Bytes) :
    readVarint (varint v ++ rest) = (.ok v, rest) := by
  have hgroups : readGroups 0 (varintGroups (9 + 1) v.toNat ++ rest) = .ok (v.toNat, rest) :=
    readGroups_varintGroups rfl v.toNat_lt rest
  unfold readVarint varint
  rw [hgroups]
  simp only [UInt64.ofNat_toNat]

/-- What is read in ordered encoding is read of the same turned over. -/
theorem readDecreasing_complement {bs rest : Bytes} {v : UInt64}
    (h : readOrdered bs = (.ok v, rest)) :
    readDecreasing (Bytes.complement bs) = (.ok v, Bytes.complement rest) := by
  unfold readOrdered Reader.andThen at h
  split at h
  · next head digits hhead =>
      dsimp only at h
      split at h
      · cases h
      · next hcount =>
          obtain ⟨taken, htake, rfl⟩ := map_takeBytes_eq_ok h
          refine (andThen_of_ok (takeBytes_complement hhead)).trans ?_
          rw [Bytes.complement_complement, if_neg hcount]
          refine (map_of_ok (takeBytes_complement htake)).trans ?_
          rw [Bytes.complement_complement]
  · cases h

/-- A number in decreasing encoding is read back, and what follows it is left
over. -/
theorem readDecreasing_decreasing (v : UInt64) (rest : Bytes) :
    readDecreasing (decreasing v ++ rest) = (.ok v, rest) := by
  have h := readDecreasing_complement (readOrdered_ordered v (Bytes.complement rest))
  rwa [Bytes.complement_append, Bytes.complement_complement] at h

-- ================================================================== pairs

/-- Two numbers are read back, if either is with anything behind it, and
nothing follows them: a second zero is left out, and read where the input
ends. -/
theorem readTwo_ok {r : Reader UInt64} {write : UInt64 → Bytes}
    (hread : ∀ v rest, r (write v ++ rest) = (.ok v, rest)) (hsome : ∀ v, write v ≠ [])
    (a b : UInt64) :
    readTwo r (write a ++ if b = 0 then [] else write b) = (.ok (a, b), []) := by
  refine (andThen_of_ok (hread a _)).trans ?_
  split
  · next hzero => rw [hzero]; rfl
  · have hlast : r (write b) = (.ok b, []) := by
      rw [← List.append_nil (write b), hread]
    have hmore : (write b).isEmpty = false := List.isEmpty_eq_false_iff.mpr (hsome b)
    simp only [hmore, Bool.false_eq_true, if_false]
    exact map_of_ok hlast

end Codec

-- ============================================================ rows of them

open Codec

/-- The encodings of a number in a key. -/
inductive FieldKind where
  | fixed32
  | fixed64
  | decreasingFixed64
  | varint
  | ordered
  | decreasing
deriving DecidableEq, Repr

/-- A number in a key, in one of its encodings. -/
inductive Field where
  | fixed32 (v : UInt32)
  | fixed64 (v : UInt64)
  | decreasingFixed64 (v : UInt64)
  | varint (v : UInt64)
  | ordered (v : UInt64)
  | decreasing (v : UInt64)
deriving DecidableEq, Repr

namespace Field

/-- The encoding that the number is in. -/
def kind : Field → FieldKind
  | fixed32 _ => .fixed32
  | fixed64 _ => .fixed64
  | decreasingFixed64 _ => .decreasingFixed64
  | varint _ => .varint
  | ordered _ => .ordered
  | decreasing _ => .decreasing

/-- The number as it is written. -/
def write : Field → Bytes
  | fixed32 v => Codec.fixed32 v
  | fixed64 v => Codec.fixed64 v
  | decreasingFixed64 v => Codec.decreasingFixed64 v
  | varint v => Codec.varint v
  | ordered v => Codec.ordered v
  | decreasing v => Codec.decreasing v

end Field

/-- Reads a number in this encoding. -/
def FieldKind.read : FieldKind → Reader Field
  | fixed32 => readFixed32.map .fixed32
  | fixed64 => readFixed64.map .fixed64
  | decreasingFixed64 => readDecreasingFixed64.map .decreasingFixed64
  | varint => readVarint.map .varint
  | ordered => readOrdered.map .ordered
  | decreasing => readDecreasing.map .decreasing

/-- The encodings of a pair at the end of a key. -/
inductive PairKind where
  | ordered
  | decreasing
deriving DecidableEq, Repr

/-- Two numbers at the end of a key, in one of their encodings. -/
structure LastField where
  kind : PairKind
  first : UInt64
  second : UInt64
deriving DecidableEq, Repr

/-- The two numbers as they are written. -/
def LastField.write (l : LastField) : Bytes :=
  match l.kind with
  | .ordered => pair l.first l.second
  | .decreasing => decreasingPair l.first l.second

/-- Reads a pair in this encoding. -/
def PairKind.read (k : PairKind) : Reader LastField :=
  match k with
  | .ordered => readPair.map fun p => ⟨k, p.1, p.2⟩
  | .decreasing => readDecreasingPair.map fun p => ⟨k, p.1, p.2⟩

/-- Numbers in a row, and a pair behind them if the key ends in one. -/
structure KeyFields where
  fields : List Field
  last : Option LastField
deriving DecidableEq, Repr

namespace KeyFields

/-- All of it in one string, each part behind the one before it. -/
def write (row : KeyFields) : Bytes :=
  row.fields.foldl (fun buffer f => buffer ++ f.write) [] ++ (row.last.map LastField.write).getD []

/-- Reads numbers in these encodings, one after the other. -/
def readEach : List FieldKind → Reader (List Field)
  | [] => fun input => (.ok [], input)
  | k :: ks => k.read.andThen fun f => (readEach ks).map (f :: ·)

/-- Reads a pair, if there is to be one. -/
def readLast : Option PairKind → Reader (Option LastField)
  | none => fun input => (.ok none, input)
  | some k => k.read.map some

/-- Reads numbers in these encodings, and a pair if there is to be one. -/
def read (kinds : List FieldKind) (last : Option PairKind) : Reader KeyFields :=
  (readEach kinds).andThen fun fields => (readLast last).map fun last => ⟨fields, last⟩

end KeyFields

/-- A number is read back, and what follows it is left over. -/
theorem FieldKind.read_write (f : Field) (rest : Bytes) :
    f.kind.read (f.write ++ rest) = (.ok f, rest) := by
  cases f with
  | fixed32 v => exact map_of_ok (readFixed32_append v rest)
  | fixed64 v => exact map_of_ok (readFixed64_append v rest)
  | decreasingFixed64 v => exact map_of_ok (readDecreasingFixed64_append v rest)
  | varint v => exact map_of_ok (readVarint_append v rest)
  | ordered v => exact map_of_ok (readOrdered_ordered v rest)
  | decreasing v => exact map_of_ok (readDecreasing_decreasing v rest)

/-- A pair is read back, if nothing follows it. -/
theorem PairKind.read_write (l : LastField) : l.kind.read l.write = (.ok l, []) := by
  obtain ⟨kind, a, b⟩ := l
  cases kind with
  | ordered => exact map_of_ok (readTwo_ok readOrdered_ordered (fun v => List.cons_ne_nil _ _) a b)
  | decreasing =>
      exact map_of_ok (readTwo_ok readDecreasing_decreasing (fun v => List.cons_ne_nil _ _) a b)

namespace KeyFields

/-- The numbers of a row are read back, and what follows them is left over. -/
theorem readEach_write (fields : List Field) (rest : Bytes) :
    readEach (fields.map Field.kind) (fields.flatMap Field.write ++ rest)
      = (.ok fields, rest) := by
  induction fields with
  | nil => rfl
  | cons f fields ih =>
      rw [List.map_cons, readEach, List.flatMap_cons, List.append_assoc]
      exact (andThen_of_ok (FieldKind.read_write f _)).trans (map_of_ok ih)

/-- What is written part by part is each part behind the one before it. -/
theorem write_eq (row : KeyFields) :
    row.write = row.fields.flatMap Field.write ++ (row.last.map LastField.write).getD [] := by
  have hbuffer (fields : List Field) (buffer : Bytes) :
      fields.foldl (fun buffer f => buffer ++ f.write) buffer
        = buffer ++ fields.flatMap Field.write := by
    induction fields generalizing buffer with
    | nil => rw [List.foldl_nil, List.flatMap_nil, List.append_nil]
    | cons f fields ih => rw [List.foldl_cons, ih, List.flatMap_cons, List.append_assoc]
  unfold write
  rw [hbuffer, List.nil_append]

/-- A row of numbers is read back. Whatever is behind it is left as it is;
behind a pair there may be nothing. -/
theorem row_roundTrips (row : KeyFields) (tail : Bytes) (htail : row.last ≠ none → tail = []) :
    read (row.fields.map Field.kind) (row.last.map LastField.kind) (row.write ++ tail)
      = (.ok row, tail) := by
  obtain ⟨fields, last⟩ := row
  rw [write_eq, List.append_assoc]
  refine (andThen_of_ok (readEach_write fields _)).trans ?_
  cases last with
  | none => rfl
  | some l =>
      obtain rfl : tail = [] := htail (Option.some_ne_none l)
      rw [List.append_nil]
      exact map_of_ok (map_of_ok (PairKind.read_write l))

/-- The largest numbers in each encoding, then a zero without digits, and a pair
whose second number is left out. -/
def sampleRow : KeyFields where
  fields := [.varint 0xFFFFFFFFFFFFFFFF, .decreasing 0xFFFFFFFFFFFFFFFF, .fixed32 0xFFFFFFFF,
    .ordered 0, .decreasingFixed64 1, .decreasing 0]
  last := some ⟨.decreasing, 300, 0⟩

/-- They are read back. -/
theorem row_roundTrips_sampleRow :
    read (sampleRow.fields.map Field.kind) (sampleRow.last.map LastField.kind) sampleRow.write
      = (.ok sampleRow, []) := by
  have h := row_roundTrips sampleRow [] fun _ => rfl
  rwa [List.append_nil] at h

end KeyFields

end OrderedStore
