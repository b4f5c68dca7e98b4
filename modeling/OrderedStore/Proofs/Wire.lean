/-
What is written is read back.

Every fact has the same shape: a reader that is given what the writer
wrote, and anything behind it, answers the value and leaves what is behind.
The facts compose without any talk of positions. Numbers have to fit the
digits they are written with.
-/
import Mathlib
import OrderedStore.Wire

namespace OrderedStore

/-- What can fail goes on with what it has answered. -/
theorem ok_bind {ε α β : Type} (a : α) (f : α → Except ε β) :
    (Except.ok a >>= f) = f a := rfl

/-- What ends well in two parts has ended well in the first, and gone on
with its answer. -/
theorem of_ok_bind {ε α β : Type} {x : Except ε α} {f : α → Except ε β} {b : β}
    (h : (x >>= f) = .ok b) : ∃ a, x = .ok a ∧ f a = .ok b := by
  cases x with
  | error e => cases h
  | ok a => exact ⟨a, rfl, h⟩

namespace Bytes

-- ============================================================== numbers

/-- A number takes the digits it is given. -/
@[simp] theorem length_littleEndian (width n : Nat) :
    (littleEndian width n).length = width := by
  induction width generalizing n with
  | zero => rfl
  | succ width ih => rw [littleEndian, List.length_cons, ih]

/-- The digits spell the number, as far as they go. -/
theorem ofLittleEndian_littleEndian (width n : Nat) :
    ofLittleEndian (littleEndian width n) = n % 256 ^ width := by
  induction width generalizing n with
  | zero => rw [littleEndian, ofLittleEndian, pow_zero, Nat.mod_one]
  | succ width ih =>
      have hdigit : (UInt8.ofNat n).toNat = n % 256 := rfl
      rw [littleEndian, ofLittleEndian, ih, hdigit, pow_succ', Nat.mod_mul]

/-- Four digits spell a number that fits them. -/
theorem ofLittleEndian_four {n : Nat} (h : n < UInt32.size) :
    ofLittleEndian (littleEndian 4 n) = n := by
  rw [ofLittleEndian_littleEndian]
  exact Nat.mod_eq_of_lt h

/-- Eight digits spell a number that fits them. -/
theorem ofLittleEndian_eight {n : Nat} (h : n < UInt64.size) :
    ofLittleEndian (littleEndian 8 n) = n := by
  rw [ofLittleEndian_littleEndian]
  exact Nat.mod_eq_of_lt h

-- =============================================================== pieces

/-- A string is split behind its beginning. -/
theorem split?_append {n : Nat} {xs : Bytes} (h : xs.length = n) (rest : Bytes) :
    split? n (xs ++ rest) = some (xs, rest) := by
  subst h
  simp only [split?]
  rw [List.take_left, List.drop_left, if_neg (lt_irrefl _)]

/-- A string that is too short is not split. -/
theorem split?_short {n : Nat} {xs : Bytes} (h : xs.length < n) :
    split? n xs = none := by
  simp only [split?]
  rw [if_pos]
  rw [List.length_take]
  omega

/-- A string that is resized to no more than it has is cut. -/
theorem resize_of_le {n : Nat} {bs : Bytes} (h : n ≤ bs.length) : resize bs n = bs.take n := by
  unfold resize
  rw [Nat.sub_eq_zero_of_le h, List.replicate_zero, List.append_nil]

/-- Bytes laid over the end of a string are put behind it. -/
theorem overwrite_length (base bs : Bytes) :
    overwrite base base.length bs = base ++ bs := by
  cases bs with
  | nil => rw [List.append_nil]; rfl
  | cons b bs =>
      have htail : base.drop (base.length + (b :: bs).length) = [] :=
        List.drop_eq_nil_of_le (by omega)
      show base.take base.length ++ List.replicate (base.length - base.length) 0
        ++ (b :: bs) ++ base.drop (base.length + (b :: bs).length) = _
      rw [List.take_length, Nat.sub_self, List.replicate_zero, List.append_nil, htail,
        List.append_nil]

/-- Bytes laid over others of the same length take their place. -/
theorem overwrite_middle {front old bs back : Bytes} (h : old.length = bs.length) :
    overwrite (front ++ (old ++ back)) front.length bs = front ++ (bs ++ back) := by
  cases bs with
  | nil =>
      have hold : old = [] := List.length_eq_zero_iff.mp h
      subst hold
      rfl
  | cons b bs =>
      have hgap : front.length - (front ++ (old ++ back)).length = 0 := by
        rw [List.length_append]
        omega
      have htail : (front ++ (old ++ back)).drop (front.length + old.length) = back := by
        rw [← List.append_assoc]
        exact List.drop_left' List.length_append
      show (front ++ (old ++ back)).take front.length
        ++ List.replicate (front.length - (front ++ (old ++ back)).length) 0
        ++ (b :: bs) ++ (front ++ (old ++ back)).drop (front.length + (b :: bs).length) = _
      rw [hgap, List.take_left, List.replicate_zero, List.append_nil, ← h, htail,
        List.append_assoc]

end Bytes

namespace Wire

open Bytes

-- ============================================================== lengths

/-- Four bytes. -/
@[simp] theorem length_word32 (n : Nat) : (word32 n).length = 4 :=
  length_littleEndian 4 n

/-- Eight bytes. -/
@[simp] theorem length_word64 (n : Nat) : (word64 n).length = 8 :=
  length_littleEndian 8 n

/-- A byte string has its length in front. -/
@[simp] theorem length_blob (bs : Bytes) : (blob bs).length = 8 + bs.length := by
  rw [blob, List.length_append, length_word64]

/-- A list of byte strings takes eight bytes for each of them at least. -/
theorem length_le_flatMap_blob (items : List Bytes) :
    items.length ≤ (items.flatMap blob).length := by
  induction items with
  | nil => exact Nat.le_refl _
  | cons item items ih =>
      rw [List.flatMap_cons, List.length_append, length_blob, List.length_cons]
      omega

-- ============================================================== readers

/-- Exactly the bytes that are there. -/
theorem readBytes_append {n : Nat} {xs : Bytes} (h : xs.length = n) (rest : Bytes) :
    readBytes n (xs ++ rest) = .ok (xs, rest) := by
  unfold readBytes
  rw [split?_append h]

/-- A number of four digits is read back. -/
theorem readWord32_word32 {n : Nat} (h : n < UInt32.size) (rest : Bytes) :
    readWord32 (word32 n ++ rest) = .ok (n, rest) := by
  unfold readWord32
  rw [readBytes_append (length_word32 n)]
  show Except.ok (ofLittleEndian (littleEndian 4 n), rest) = _
  rw [ofLittleEndian_four h]

/-- A number of eight digits is read back. -/
theorem readWord64_word64 {n : Nat} (h : n < UInt64.size) (rest : Bytes) :
    readWord64 (word64 n ++ rest) = .ok (n, rest) := by
  unfold readWord64
  rw [readBytes_append (length_word64 n)]
  show Except.ok (ofLittleEndian (littleEndian 8 n), rest) = _
  rw [ofLittleEndian_eight h]

/-- A byte string is read back. -/
theorem readBlob_blob {bs : Bytes} (h : bs.length < UInt64.size) (rest : Bytes) :
    readBlob (blob bs ++ rest) = .ok (bs, rest) := by
  unfold readBlob blob
  rw [List.append_assoc, readWord64_word64 h]
  exact readBytes_append rfl rest

/-- Byte strings are read back one by one, as long as the fuel lasts. -/
theorem readBlobsOnto_flatMap {items : List Bytes} {fuel : Nat} (done : List Bytes)
    (hfuel : items.length ≤ fuel) (hfit : ∀ bs ∈ items, bs.length < UInt64.size)
    (rest : Bytes) :
    readBlobsOnto fuel items.length done (items.flatMap blob ++ rest)
      = .ok (done.reverse ++ items, rest) := by
  induction items generalizing fuel done with
  | nil =>
      rw [List.append_nil]
      cases fuel <;> rfl
  | cons item items ih =>
      obtain ⟨fuel, rfl⟩ : ∃ f, fuel = f + 1 :=
        Nat.exists_eq_succ_of_ne_zero (by rw [List.length_cons] at hfuel; omega)
      rw [List.length_cons, readBlobsOnto, List.flatMap_cons, List.append_assoc,
        readBlob_blob (hfit item List.mem_cons_self)]
      show readBlobsOnto fuel items.length (item :: done) (items.flatMap blob ++ rest) = _
      rw [ih (item :: done) (Nat.le_of_succ_le_succ hfuel)
        (fun bs hbs => hfit bs (List.mem_cons_of_mem _ hbs)),
        List.reverse_cons, List.append_assoc, List.singleton_append]

/-- A list of byte strings is read back. -/
theorem readBlobs_blobs {items : List Bytes} (h : (blobs items).length < UInt64.size)
    (rest : Bytes) : readBlobs (blobs items ++ rest) = .ok (items, rest) := by
  rw [blobs, List.length_append, length_word64] at h
  have hcount := length_le_flatMap_blob items
  have hfit : ∀ bs ∈ items, bs.length < UInt64.size := by
    intro bs hbs
    have hsub : (blob bs).length ≤ (items.flatMap blob).length :=
      (List.sublist_flatten_of_mem (List.mem_map_of_mem hbs)).length_le
    rw [length_blob] at hsub
    omega
  unfold readBlobs blobs
  rw [List.append_assoc, readWord64_word64 (by omega)]
  show readBlobsOnto (items.flatMap blob ++ rest).length items.length []
    (items.flatMap blob ++ rest) = _
  rw [readBlobsOnto_flatMap [] (by rw [List.length_append]; omega) hfit]
  rfl

end Wire

end OrderedStore
