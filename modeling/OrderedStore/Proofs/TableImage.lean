/-
A table file holds what it was written for.

`image es` is read from the outside in: the header and the footer say where
the data and the index are, the index says where each entry is, and the
bytes there spell the entry. The index of a parsed image leads every key to
the place of its entry, which is the length of what stands before it; that
is the one fact about positions, and all reading goes through it.
-/
import Mathlib
import OrderedStore.Proofs.Contents
import OrderedStore.Proofs.TableChecks
import OrderedStore.Proofs.Wire
import OrderedStore.Table.Reader

namespace OrderedStore.Table

open Wire

-- ===================================================== entries that fit

/-- What a table can be written for: keys in strictly ascending order, and
every length and offset fits its digits. -/
structure Storable (es : List (Bytes × Entry)) : Prop where
  sorted : es.Pairwise fun a b => a.1 < b.1
  keys : ∀ p ∈ es, p.1.length < UInt32.size
  values : ∀ p ∈ es, (valueBytes p.2).length < tombstoneMark
  extent : headerSize + (dataBlock es).length < UInt64.size

/-- An entry takes its key, its value, and eight bytes. -/
theorem length_entryBytes (k : Bytes) (e : Entry) :
    (entryBytes k e).length = 8 + k.length + (valueBytes e).length := by
  simp only [entryBytes, entryParts, List.flatten_cons, List.flatten_nil, List.append_nil,
    List.length_append, length_word32]
  omega

/-- The data of one more entry. -/
theorem dataBlock_cons (k : Bytes) (e : Entry) (es : List (Bytes × Entry)) :
    dataBlock ((k, e) :: es) = entryBytes k e ++ dataBlock es :=
  List.flatMap_cons

/-- The data of entries one behind the other. -/
theorem dataBlock_append (es es' : List (Bytes × Entry)) :
    dataBlock (es ++ es') = dataBlock es ++ dataBlock es' :=
  List.flatMap_append

/-- There are no more entries than bytes of data. -/
theorem length_le_dataBlock (es : List (Bytes × Entry)) :
    es.length ≤ (dataBlock es).length := by
  induction es with
  | nil => exact Nat.zero_le _
  | cons p es ih =>
      obtain ⟨k, e⟩ := p
      rw [dataBlock_cons, List.length_append, length_entryBytes, List.length_cons]
      omega

-- ================================================================ offsets

/-- The keys of the index are those of the entries. -/
theorem map_fst_offsetsFrom (o : Nat) (es : List (Bytes × Entry)) :
    (offsetsFrom o es).map Prod.fst = es.map Prod.fst := by
  induction es generalizing o with
  | nil => rfl
  | cons p es ih =>
      obtain ⟨k, e⟩ := p
      rw [offsetsFrom, List.map_cons, List.map_cons, ih]

/-- Each key is placed behind the data of the entries before it. -/
theorem offsetsFrom_append (o : Nat) (es es' : List (Bytes × Entry)) :
    offsetsFrom o (es ++ es')
      = offsetsFrom o es ++ offsetsFrom (o + (dataBlock es).length) es' := by
  induction es generalizing o with
  | nil => rfl
  | cons p es ih =>
      obtain ⟨k, e⟩ := p
      rw [List.cons_append, offsetsFrom, offsetsFrom, ih, dataBlock_cons, List.length_append,
        List.cons_append, Nat.add_assoc]

/-- A key that has a place has an entry there. -/
theorem split_of_lookup_offsetsFrom {o offset : Nat} {k : Bytes}
    {es : List (Bytes × Entry)} (h : (offsetsFrom o es).lookup k = some offset) :
    ∃ front e back, es = front ++ (k, e) :: back ∧ es.lookup k = some e ∧
      offset = o + (dataBlock front).length := by
  induction es generalizing o with
  | nil => cases h
  | cons p es ih =>
      obtain ⟨l, e⟩ := p
      rw [offsetsFrom, lookup_pair] at h
      split at h
      · next hkl =>
          cases h
          subst hkl
          refine ⟨[], e, es, rfl, ?_, rfl⟩
          rw [lookup_pair, if_pos rfl]
      · next hkl =>
          obtain ⟨front, f, back, rfl, hf, rfl⟩ := ih h
          refine ⟨(l, e) :: front, f, back, rfl, ?_, ?_⟩
          · rw [lookup_pair, if_neg hkl, hf]
          · rw [dataBlock_cons, List.length_append, Nat.add_assoc]

/-- A key without a place has no entry. -/
theorem lookup_none_of_offsetsFrom {o : Nat} {k : Bytes} {es : List (Bytes × Entry)}
    (h : (offsetsFrom o es).lookup k = none) : es.lookup k = none := by
  rw [List.lookup_eq_none_iff] at h ⊢
  intro p hp
  have hmem : p.1 ∈ (offsetsFrom o es).map Prod.fst := by
    rw [map_fst_offsetsFrom]
    exact List.mem_map_of_mem hp
  obtain ⟨q, hq, heq⟩ := List.mem_map.mp hmem
  rw [← heq]
  exact h q hq

/-- No place lies behind the data. -/
theorem offset_le_of_mem {o : Nat} {p : Bytes × Nat} {es : List (Bytes × Entry)}
    (h : p ∈ offsetsFrom o es) : p.2 ≤ o + (dataBlock es).length := by
  induction es generalizing o with
  | nil => cases h
  | cons q es ih =>
      obtain ⟨k, e⟩ := q
      rw [offsetsFrom] at h
      rw [dataBlock_cons, List.length_append]
      rcases List.mem_cons.mp h with rfl | h
      · exact Nat.le_add_right _ _
      · have := ih h
        omega

-- ============================================================== the index

/-- An index entry is read back. -/
theorem readIndexEntry_append {k : Bytes} {offset : Nat} (hk : k.length < UInt32.size)
    (ho : offset < UInt64.size) (rest : Bytes) :
    readIndexEntry ((indexParts k offset).flatten ++ rest) = some ((k, offset), rest) := by
  have hparts : (indexParts k offset).flatten ++ rest
      = word32 k.length ++ (word64 offset ++ (k ++ rest)) := by
    simp only [indexParts, List.flatten_cons, List.flatten_nil, List.append_nil,
      List.append_assoc]
  unfold readIndexEntry
  rw [hparts, Bytes.split?_append (length_word32 _), Option.bind_eq_bind, Option.bind_some]
  simp only [Bytes.split?_append (length_word64 _), Option.bind_some]
  unfold word32 word64
  rw [Bytes.ofLittleEndian_four hk, Bytes.split?_append rfl, Option.bind_some,
    Bytes.ofLittleEndian_eight ho]
  rfl

/-- The bytes of index entries. -/
def indexBytes (ps : List (Bytes × Nat)) : Bytes :=
  ps.flatMap fun p => (indexParts p.1 p.2).flatten

/-- The bytes of one more index entry. -/
theorem indexBytes_cons (p : Bytes × Nat) (ps : List (Bytes × Nat)) :
    indexBytes (p :: ps) = (indexParts p.1 p.2).flatten ++ indexBytes ps :=
  List.flatMap_cons

/-- The bytes of index entries one behind the other. -/
theorem indexBytes_append (ps qs : List (Bytes × Nat)) :
    indexBytes (ps ++ qs) = indexBytes ps ++ indexBytes qs :=
  List.flatMap_append

/-- An index entry takes its key and twelve bytes. -/
theorem length_indexParts (k : Bytes) (o : Nat) :
    (indexParts k o).flatten.length = 12 + k.length := by
  simp only [indexParts, List.flatten_cons, List.flatten_nil, List.append_nil,
    List.length_append, length_word32, length_word64]
  omega

/-- There are no more index entries than bytes of them. -/
theorem length_le_indexBytes (ps : List (Bytes × Nat)) : ps.length ≤ (indexBytes ps).length := by
  induction ps with
  | nil => exact Nat.zero_le _
  | cons p ps ih =>
      rw [indexBytes_cons, List.length_append, length_indexParts, List.length_cons]
      omega

/-- Index entries are read back one by one, as long as the fuel lasts. -/
theorem indexEntriesOnto_indexBytes {fuel : Nat} {ps : List (Bytes × Nat)}
    (done : List (Bytes × Nat)) (hfuel : ps.length ≤ fuel)
    (hkeys : ∀ p ∈ ps, p.1.length < UInt32.size)
    (hoffsets : ∀ p ∈ ps, p.2 < UInt64.size) :
    indexEntriesOnto fuel done (indexBytes ps) = done.reverse ++ ps := by
  induction ps generalizing fuel done with
  | nil =>
      rw [List.append_nil]
      cases fuel <;> rfl
  | cons p ps ih =>
      obtain ⟨fuel, rfl⟩ : ∃ f, fuel = f + 1 :=
        Nat.exists_eq_succ_of_ne_zero (by rw [List.length_cons] at hfuel; omega)
      rw [indexEntriesOnto, indexBytes_cons,
        readIndexEntry_append (hkeys p List.mem_cons_self) (hoffsets p List.mem_cons_self)]
      show indexEntriesOnto fuel (p :: done) _ = _
      rw [ih (p :: done) (Nat.le_of_succ_le_succ hfuel)
        (fun q hq => hkeys q (List.mem_cons_of_mem _ hq))
        (fun q hq => hoffsets q (List.mem_cons_of_mem _ hq)),
        List.reverse_cons, List.append_assoc, List.singleton_append]

/-- The map of index entries is read back from their bytes. -/
theorem readIndex_indexBytes {ps : List (Bytes × Nat)}
    (hkeys : ∀ p ∈ ps, p.1.length < UInt32.size) (hoffsets : ∀ p ∈ ps, p.2 < UInt64.size) :
    readIndex (indexBytes ps) = KeyMap.ofList ps := by
  unfold readIndex
  rw [indexEntriesOnto_indexBytes [] (length_le_indexBytes ps) hkeys hoffsets,
    List.reverse_nil, List.nil_append]

/-- The places of the keys are in key order, as the entries are. -/
theorem sorted_offsetsFrom {es : List (Bytes × Entry)}
    (hs : es.Pairwise fun a b => a.1 < b.1) (o : Nat) :
    (offsetsFrom o es).Pairwise fun a b => a.1 < b.1 := by
  rw [← List.pairwise_map (f := Prod.fst) (R := fun a b : Bytes => a < b),
    map_fst_offsetsFrom, List.pairwise_map]
  exact hs

/-- The index of a table for these entries. -/
def indexOf (es : List (Bytes × Entry)) (hs : es.Pairwise fun a b => a.1 < b.1) :
    KeyMap Nat :=
  ⟨offsetsFrom headerSize es, sorted_offsetsFrom hs headerSize⟩

/-- The key of each place is the key of an entry. -/
theorem length_key_of_mem {es : List (Bytes × Entry)} (h : Storable es) {o : Nat}
    {p : Bytes × Nat} (hp : p ∈ offsetsFrom o es) : p.1.length < UInt32.size := by
  have hmem : p.1 ∈ es.map Prod.fst := by
    rw [← map_fst_offsetsFrom o]
    exact List.mem_map_of_mem hp
  obtain ⟨q, hq, heq⟩ := List.mem_map.mp hmem
  rw [← heq]
  exact h.keys q hq

/-- Every place is a number of eight digits. -/
theorem offset_lt_of_mem {es : List (Bytes × Entry)} (h : Storable es) {p : Bytes × Nat}
    (hp : p ∈ offsetsFrom headerSize es) : p.2 < UInt64.size :=
  lt_of_le_of_lt (offset_le_of_mem hp) h.extent

/-- The index block is read back. -/
theorem readIndex_indexBlock {es : List (Bytes × Entry)} (h : Storable es) :
    readIndex (indexBlock es) = indexOf es h.sorted := by
  have hread : readIndex (indexBlock es) = KeyMap.ofList (offsetsFrom headerSize es) :=
    readIndex_indexBytes (fun _ hp => length_key_of_mem h hp) fun _ hp => offset_lt_of_mem h hp
  rw [hread]
  exact ofList_sorted (sorted_offsetsFrom h.sorted headerSize)

-- ============================================================== the entry

/-- An entry is read back from where it stands. -/
theorem entryAt_append {front : Bytes} {k : Bytes} {e : Entry}
    (hk : k.length < UInt32.size) (he : (valueBytes e).length < tombstoneMark) (rest : Bytes) :
    entryAt (front ++ (entryBytes k e ++ rest)) front.length = .ok e := by
  have hlength : valueLength e < UInt32.size := by
    cases e with
    | value bs => exact lt_trans he (by decide)
    | tombstone => decide
  have hparts : entryBytes k e ++ rest
      = (word32 k.length ++ word32 (valueLength e)) ++ (k ++ (valueBytes e ++ rest)) := by
    simp only [entryBytes, entryParts, List.flatten_cons, List.flatten_nil, List.append_nil,
      List.append_assoc]
  have hlengths : (word32 k.length ++ word32 (valueLength e)).length = 8 := by
    rw [List.length_append, length_word32, length_word32]
  have hkey : Bytes.ofLittleEndian ((word32 k.length ++ word32 (valueLength e)).take 4)
      = k.length := by
    rw [List.take_left' (length_word32 _)]
    exact Bytes.ofLittleEndian_four hk
  have hvalue : Bytes.ofLittleEndian ((word32 k.length ++ word32 (valueLength e)).drop 4)
      = valueLength e := by
    rw [List.drop_left' (length_word32 _)]
    exact Bytes.ofLittleEndian_four hlength
  unfold entryAt
  rw [List.drop_left' rfl, hparts, Bytes.split?_append hlengths]
  simp only [hkey, hvalue]
  cases e with
  | tombstone => exact if_pos rfl
  | value bs =>
      have hne : valueLength (.value bs) ≠ tombstoneMark := ne_of_lt he
      rw [if_neg hne, List.drop_left' rfl]
      have hsplit : Bytes.split? (valueLength (.value bs)) (valueBytes (.value bs) ++ rest)
          = some (bs, rest) := Bytes.split?_append rfl rest
      rw [hsplit]

-- ============================================================== the file

/-- The header takes its fourteen bytes. -/
theorem length_header (count : Nat) : (header count).length = headerSize := by
  simp only [header, List.length_append, Bytes.length_littleEndian, length_word64]
  rfl

/-- The footer takes its sixteen bytes. -/
theorem length_footer (indexOffset : Nat) (check : UInt32) :
    (footerParts indexOffset check).flatten.length = footerSize := by
  simp only [footerParts, List.flatten_cons, List.flatten_nil, List.append_nil,
    List.length_append, length_word64, length_word32, List.length_replicate]
  rfl

/-- An entry is read from its place in the data of a file, whatever stands
in the header and behind the data. -/
theorem entryAt_data {es : List (Bytes × Entry)} (h : Storable es)
    {front back : List (Bytes × Entry)} {k : Bytes} {e : Entry}
    (hsplit : es = front ++ (k, e) :: back) {head : Bytes} (hhead : head.length = headerSize)
    (rest : Bytes) :
    entryAt (head ++ (dataBlock es ++ rest)) (headerSize + (dataBlock front).length) = .ok e := by
  have hmem : (k, e) ∈ es := by
    rw [hsplit]
    exact List.mem_append_right _ List.mem_cons_self
  have hdata : head ++ (dataBlock es ++ rest)
      = (head ++ dataBlock front) ++ (entryBytes k e ++ (dataBlock back ++ rest)) := by
    rw [hsplit, dataBlock_append, dataBlock_cons]
    simp only [List.append_assoc]
  have hplace : headerSize + (dataBlock front).length = (head ++ dataBlock front).length := by
    rw [List.length_append, hhead]
  rw [hdata, hplace]
  exact entryAt_append (h.keys _ hmem) (h.values _ hmem) _

/-- What stands behind the index of an image. -/
def footer (es : List (Bytes × Entry)) : Bytes :=
  (footerParts (headerSize + (dataBlock es).length) (Checksum.ofBytes (dataBlock es))).flatten

section Image

variable (es : List (Bytes × Entry))

/-- An image is its header, its data, its index, and its footer. -/
theorem image_eq :
    image es = header es.length ++ (dataBlock es ++ (indexBlock es ++ footer es)) := by
  unfold image footer
  rw [List.append_assoc, List.append_assoc]

/-- They make up its length. -/
theorem length_image : (image es).length
    = headerSize + (dataBlock es).length + (indexBlock es).length + footerSize := by
  rw [image_eq]
  unfold footer
  simp only [List.length_append, length_header, length_footer]
  omega

/-- The footer is at the end. -/
theorem drop_image : (image es).drop ((image es).length - footerSize) = footer es := by
  rw [length_image, image_eq, ← List.append_assoc, ← List.append_assoc]
  refine List.drop_left' ?_
  simp only [List.length_append, length_header]
  omega

/-- The version is the one that is known. -/
theorem versionIn_image : versionIn (image es) = version := by
  have hfield : Bytes.stretch 4 2 (image es) = Bytes.littleEndian 2 version := by
    have hfour : magic.length = 4 := rfl
    unfold Bytes.stretch
    rw [image_eq]
    unfold header
    rw [List.append_assoc, List.append_assoc, List.drop_left' hfour,
      List.take_left' (Bytes.length_littleEndian _ _)]
  unfold versionIn
  rw [hfield]
  rfl

/-- The count is that of the entries. -/
theorem countIn_image (hcount : es.length < UInt64.size) : countIn (image es) = es.length := by
  have hfield : Bytes.stretch countOffset 8 (image es) = word64 es.length := by
    have hsix : (magic ++ Bytes.littleEndian 2 version).length = countOffset := rfl
    unfold Bytes.stretch
    rw [image_eq]
    unfold header
    rw [List.append_assoc, List.drop_left' hsix, List.take_left' (length_word64 _)]
  unfold countIn
  rw [hfield]
  exact Bytes.ofLittleEndian_eight hcount

/-- The place of the index is behind the data. -/
theorem placeIn_image (hextent : headerSize + (dataBlock es).length < UInt64.size) :
    placeIn (image es) = headerSize + (dataBlock es).length := by
  have hfield : Bytes.stretch ((image es).length - footerSize) 8 (image es)
      = word64 (headerSize + (dataBlock es).length) := by
    unfold Bytes.stretch
    rw [drop_image]
    exact List.take_left' (length_word64 _)
  unfold placeIn
  rw [hfield]
  exact Bytes.ofLittleEndian_eight hextent

/-- The checksum is that of the data. -/
theorem checkIn_image : checkIn (image es) = (Checksum.ofBytes (dataBlock es)).toNat := by
  have hfield : Bytes.stretch ((image es).length - footerSize + 8) 4 (image es)
      = word32 (Checksum.ofBytes (dataBlock es)).toNat := by
    unfold Bytes.stretch
    rw [← List.drop_drop, drop_image]
    unfold footer footerParts
    rw [List.flatten_cons, List.drop_left' (length_word64 _), List.flatten_cons]
    exact List.take_left' (length_word32 _)
  unfold checkIn
  rw [hfield]
  exact Bytes.ofLittleEndian_four (UInt32.toNat_lt _)

/-- Between the header and the index is the data. -/
theorem dataBefore_image :
    dataBefore (headerSize + (dataBlock es).length) (image es) = dataBlock es := by
  unfold dataBefore Bytes.stretch
  rw [image_eq, List.drop_left' (length_header _), Nat.add_sub_cancel_left]
  exact List.take_left' rfl

/-- Between the data and the footer is the index. -/
theorem blockFrom_image :
    blockFrom (headerSize + (dataBlock es).length) (image es) = indexBlock es := by
  have hlength : (image es).length - footerSize - (headerSize + (dataBlock es).length)
      = (indexBlock es).length := by
    rw [length_image]
    omega
  unfold blockFrom Bytes.stretch
  rw [hlength, image_eq, ← List.append_assoc, List.drop_left', List.take_left' rfl]
  rw [List.length_append, length_header]

end Image

/-- The index has a key for every entry. -/
theorem size_indexOf {es : List (Bytes × Entry)} (hs : es.Pairwise fun a b => a.1 < b.1) :
    (indexOf es hs).size = es.length := by
  show (offsetsFrom headerSize es).length = _
  rw [← List.length_map (f := Prod.fst), map_fst_offsetsFrom, List.length_map]

/-- The file for entries passes every test, and has their index. -/
theorem passes_image {es : List (Bytes × Entry)} (h : Storable es) :
    Passes (image es) (indexOf es h.sorted) := by
  have hextent := h.extent
  have hcount := length_le_dataBlock es
  have hplace := placeIn_image es hextent
  refine ⟨?_, ?_, versionIn_image es, ?_, ?_, ?_, ?_, ?_⟩
  · rw [length_image]
    omega
  · rw [image_eq]
    unfold header
    rw [List.append_assoc, List.append_assoc]
    exact List.take_left' rfl
  · rw [hplace]
    exact Nat.le_add_right _ _
  · rw [hplace, length_image]
    omega
  · rw [hplace, dataBefore_image, checkIn_image]
  · rw [hplace, blockFrom_image, readIndex_indexBlock h]
  · rw [size_indexOf, countIn_image es (by omega)]

/-- It is accepted, and its index is read back. -/
theorem parse_image {es : List (Bytes × Entry)} (h : Storable es) (path : String) :
    parse path (image es) = .ok (indexOf es h.sorted) :=
  parse_eq_ok_iff.mpr (passes_image h)

end OrderedStore.Table
