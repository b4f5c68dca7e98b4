/-
What the tests of a table file guard.

A file is read after seven tests, and `Passes` says that it passes them all
and what index it has then; that is everything there is to say about a file
that is read (`parse_eq_ok_iff`).

Every test holds two fields of the file against each other or one against a
constant. Of two files that pass and differ in one byte, that byte is
therefore in no field that a test holds fast: not in the magic, the version
or the count, which are numbers of their own; not in the data and not in
its checksum, of which only one would change (`Passes.behind`). The place
of the index is held by the checksum as well, but only as far as the
checksum tells the data from a longer or a shorter stretch
(`Passes.place_moved`). Nothing is held against the index but its number of
keys, and the zeros at the end are not looked at.
-/
import Mathlib
import OrderedStore.Proofs.Checksum
import OrderedStore.Table.Format

namespace OrderedStore.Table

open Bytes (AlteredAt ofLittleEndian stretch)

-- ============================================================ the fields

/-- The number that the version field spells. -/
def versionIn (content : Bytes) : Nat :=
  ofLittleEndian (stretch 4 2 content)

/-- The number that the count field spells. -/
def countIn (content : Bytes) : Nat :=
  ofLittleEndian (stretch countOffset 8 content)

/-- The place of the index, by the footer. -/
def placeIn (content : Bytes) : Nat :=
  ofLittleEndian (stretch (content.length - footerSize) 8 content)

/-- The checksum of the data, by the footer. -/
def checkIn (content : Bytes) : Nat :=
  ofLittleEndian (stretch (content.length - footerSize + 8) 4 content)

/-- The data: all between the header and a place. -/
def dataBefore (place : Nat) (content : Bytes) : Bytes :=
  stretch headerSize (place - headerSize) content

/-- The index block: all between a place and the footer. -/
def blockFrom (place : Nat) (content : Bytes) : Bytes :=
  stretch place (content.length - footerSize - place) content

/-- The content passes every test, and has this index. -/
structure Passes (content : Bytes) (index : KeyMap Nat) : Prop where
  size : headerSize + footerSize ≤ content.length
  magic : content.take 4 = magic
  version : versionIn content = version
  low : headerSize ≤ placeIn content
  high : placeIn content ≤ content.length - footerSize
  check : (Checksum.ofBytes (dataBefore (placeIn content) content)).toNat = checkIn content
  found : readIndex (blockFrom (placeIn content) content) = index
  count : index.size = countIn content

/-- A test is passed if it finds no fault and all behind it is passed. -/
theorem test_eq_ok_iff {ε α : Type} {c : Prop} [Decidable c] {e : ε} {rest : Except ε α} {a : α} :
    (if c then .error e else rest) = .ok a ↔ ¬c ∧ rest = .ok a := by
  by_cases hc : c <;> simp [hc]

/-- A file is read if it passes every test, and what is read is its
index. -/
theorem parse_eq_ok_iff {path : String} {content : Bytes} {index : KeyMap Nat} :
    parse path content = .ok index ↔ Passes content index := by
  have hcheck : checkIn content = ofLittleEndian
      (((content.drop (content.length - footerSize)).drop 8).take 4) := by
    rw [List.drop_drop]
    rfl
  unfold parse
  simp only [test_eq_ok_iff, not_or, not_not, Nat.not_lt, Except.ok.injEq, ne_eq, ← hcheck]
  constructor
  · rintro ⟨hsize, hmagic, hversion, ⟨hlow, hhigh⟩, hsum, hcount, hfound⟩
    exact ⟨hsize, hmagic, hversion, hlow, hhigh, hsum, hfound, hfound ▸ hcount⟩
  · intro h
    exact ⟨h.size, h.magic, h.version, ⟨h.low, h.high⟩, h.check,
      (congrArg KeyMap.size h.found).trans h.count, h.found⟩

-- ====================================================== one byte of a file

section Altered

variable {content content' : Bytes} {index index' : KeyMap Nat} {i : Nat}

/-- A byte that is altered outside of the place of the index leaves the
place. -/
theorem placeIn_altered (ha : AlteredAt i content content')
    (hout : i < content.length - footerSize ∨ content.length - footerSize + 8 ≤ i) :
    placeIn content' = placeIn content := by
  unfold placeIn
  rw [ha.length, ha.stretch_eq hout]

/-- A byte that is altered outside of the checksum leaves the checksum. -/
theorem checkIn_altered (ha : AlteredAt i content content')
    (hout : i < content.length - footerSize + 8 ∨ content.length - footerSize + 12 ≤ i) :
    checkIn content' = checkIn content := by
  unfold checkIn
  rw [ha.length, ha.stretch_eq hout]

/-- A byte that is altered outside of the index leaves the block. -/
theorem blockFrom_altered (ha : AlteredAt i content content') {place : Nat}
    (hhigh : place ≤ content.length - footerSize)
    (hout : i < place ∨ content.length - footerSize ≤ i) :
    blockFrom place content' = blockFrom place content := by
  unfold blockFrom
  rw [ha.length]
  exact ha.stretch_eq (by omega)

/-- The byte in which two files that pass differ is behind the data, and
not in its checksum. -/
theorem Passes.behind (h : Passes content index) (h' : Passes content' index')
    (ha : AlteredAt i content content') :
    placeIn content ≤ i ∧
      (i < content.length - footerSize + 8 ∨ content.length - footerSize + 12 ≤ i) := by
  have hheader : headerSize = 14 := rfl
  have hlow := h.low
  have hhigh := h.high
  have hmagic : 4 ≤ i := by
    by_contra hi
    apply (ha.take (by omega : i < 4)).ne
    rw [h.magic, h'.magic]
  have hversion : 6 ≤ i := by
    by_contra hi
    have hne := (ha.stretch hmagic (by omega : i < 4 + 2)).ofLittleEndian_ne
    exact hne (h'.version.trans h.version.symm)
  have hcount : headerSize ≤ i := by
    by_contra hi
    have hne := (ha.stretch hversion (by omega : i < 6 + 8)).ofLittleEndian_ne
    apply hne
    show countIn content' = countIn content
    rw [← h.count, ← h'.count, ← h.found, ← h'.found, placeIn_altered ha (by omega),
      blockFrom_altered ha hhigh (by omega)]
  have hsame (hplace : placeIn content' = placeIn content)
      (hcheck : checkIn content' = checkIn content) :
      Checksum.ofBytes (dataBefore (placeIn content) content')
        = Checksum.ofBytes (dataBefore (placeIn content) content) := by
    refine UInt32.toNat_inj.mp ?_
    rw [h.check, ← hplace, h'.check, hcheck]
  constructor
  · by_contra hi
    have hplace : placeIn content' = placeIn content := placeIn_altered ha (by omega)
    have hdata := ha.stretch hcount (by omega : i < headerSize + (placeIn content - headerSize))
    exact Checksum.ofBytes_altered hdata (hsame hplace (checkIn_altered ha (by omega)))
  · by_contra hi
    have hplace : placeIn content' = placeIn content := placeIn_altered ha (by omega)
    have hne : checkIn content' ≠ checkIn content := by
      unfold checkIn
      rw [ha.length]
      exact (ha.stretch (by omega) (by omega)).ofLittleEndian_ne
    apply hne
    rw [← h.check, ← h'.check, hplace]
    refine congrArg (fun data => (Checksum.ofBytes data).toNat) ?_
    exact ha.stretch_eq (by omega)

/-- If they differ in the place of the index, the stretch before the other
place has the checksum of the data. -/
theorem Passes.place_moved (h : Passes content index) (h' : Passes content' index')
    (ha : AlteredAt i content content') (hlow : content.length - footerSize ≤ i)
    (hhigh : i < content.length - footerSize + 8) :
    placeIn content' ≠ placeIn content ∧
      Checksum.ofBytes (dataBefore (placeIn content') content)
        = Checksum.ofBytes (dataBefore (placeIn content) content) := by
  have hlow' := h'.low
  have hhigh' := h'.high
  rw [ha.length] at hhigh'
  constructor
  · unfold placeIn
    rw [ha.length]
    exact (ha.stretch hlow (by omega)).ofLittleEndian_ne
  · have hdata : dataBefore (placeIn content') content'
        = dataBefore (placeIn content') content := ha.stretch_eq (by omega)
    refine UInt32.toNat_inj.mp ?_
    rw [h.check, ← hdata, h'.check, checkIn_altered ha (Or.inl hhigh)]

/-- A file that passes does so whatever its zeros are altered to, with the
same index. -/
theorem Passes.zeros_altered (h : Passes content index) (ha : AlteredAt i content content')
    (hi : content.length - footerSize + 12 ≤ i) : Passes content' index := by
  have hheader : headerSize = 14 := rfl
  have hcount : countOffset = 6 := rfl
  have hsize := h.size
  have hlow := h.low
  have hhigh := h.high
  have hplace : placeIn content' = placeIn content := placeIn_altered ha (by omega)
  have hfield {m n : Nat} (hmn : m + n ≤ i) : stretch m n content' = stretch m n content :=
    ha.stretch_eq (Or.inr hmn)
  have hdata : dataBefore (placeIn content) content' = dataBefore (placeIn content) content :=
    hfield (by omega)
  refine ⟨?_, ?_, ?_, ?_, ?_, ?_, ?_, ?_⟩
  · rw [ha.length]
    exact hsize
  · rw [ha.take_eq (by omega)]
    exact h.magic
  · exact (congrArg ofLittleEndian (hfield (by omega))).trans h.version
  · rw [hplace]
    exact hlow
  · rw [hplace, ha.length]
    exact hhigh
  · rw [hplace, checkIn_altered ha (Or.inr hi), hdata]
    exact h.check
  · rw [hplace, blockFrom_altered ha hhigh (by omega)]
    exact h.found
  · exact h.count.trans (congrArg ofLittleEndian (hfield (by omega))).symm

end Altered

end OrderedStore.Table
