/-
What one altered byte of a table file does.

The tests of a file hold its header, its data and the checksum of the data
fast, so a file with a byte altered there is not opened; the zeros at the
end are not looked at, and a file with a byte altered there answers as
before (`Guarded.checked`, `Guarded.zeros`).

There is no checksum of the index. What is altered in an index entry, other
than its key's length, makes one index entry of another: the block is still
cut at the same places. The table then answers as before for every key but
the two that the entry had and has (`Guarded.entry`). An altered length
cuts the block elsewhere, and anything may be found; the place of the index
is held by the checksum of the data alone (`Guarded.place`). The last
theorem shows that a byte altered in any of these four fields can go without
a fault and with a wrong answer.
-/
import Mathlib
import OrderedStore.Proofs.TableBuilding

namespace OrderedStore.Table

open Bytes (AlteredAt ofLittleEndian stretch stretch_stretch)

variable {v v' : Volume} {t t' : Table} {es calls : List (Bytes × Entry)} {p : Path}
  {file i j o : Nat} {b : UInt8} {k : Bytes} {ks : List Bytes} {content' : Bytes}

-- =================================================== answers that are alike

/-- The second table answers as the first, whatever it is asked. -/
structure SameAnswers (v : Volume) (t : Table) (v' : Volume) (t' : Table) : Prop where
  get : ∀ k, t'.get v' k = t.get v k
  seek : ∀ b d, t'.seek v' b d = t.seek v b d
  mightContain : ∀ k, t'.mightContain k = t.mightContain k

/-- A search of the table comes to one of the keys. -/
def ComesTo (t : Table) (b : Bound) (d : Direction) (ks : List Bytes) : Prop :=
  ∃ k ∈ ks, ∃ o, t.index.seek b d = some (k, o)

/-- The second table answers as the first but for the keys: every other key
is read as before, or is within the range if the first has it, and a search
finds what it found unless it comes to one of the keys. -/
structure SameAnswersBut (ks : List Bytes) (v : Volume) (t : Table) (v' : Volume)
    (t' : Table) : Prop where
  get : ∀ k, k ∉ ks → t'.get v' k = t.get v k
  seek : ∀ b d, ¬t.ComesTo b d ks → ¬t'.ComesTo b d ks → t'.seek v' b d = t.seek v b d
  mightContain : ∀ k, k ∉ ks → t.get v k ≠ .error .keyNotFound → t'.mightContain k = true

/-- The second table has the places of the first but for the keys, and its
file has the same entries at the places of the first. -/
structure Alike (ks : List Bytes) (v : Volume) (t : Table) (v' : Volume) (t' : Table) :
    Prop where
  find : ∀ k, k ∉ ks → t'.index.find? k = t.index.find? k
  read : ∀ k o, t.index.find? k = some o →
    entryAt (v'.content t'.file) o = entryAt (v.content t.file) o

/-- Keys that have the same place are read alike. -/
theorem Alike.get (h : Alike ks v t v' t') (hk : k ∉ ks) : t'.get v' k = t.get v k := by
  unfold Table.get
  rw [h.find k hk]
  cases ho : t.index.find? k with
  | none => rfl
  | some o => exact h.read k o ho

/-- A search that comes to none of the keys comes to the same place. -/
theorem Alike.seek (h : Alike ks v t v' t') {b : Bound} {d : Direction}
    (ht : ¬t.ComesTo b d ks) (ht' : ¬t'.ComesTo b d ks) : t'.seek v' b d = t.seek v b d := by
  have hother {t : Table} (ht : ¬t.ComesTo b d ks) : ∀ p ∈ t.index.seek b d, p.1 ∉ ks :=
    fun p hp hk => ht ⟨p.1, hk, p.2, hp⟩
  have hplace : t'.index.seek b d = t.index.seek b d := by
    have hnearest := (t.index.nearest_seek b d).without (hother ht)
    have hnearest' := (t'.index.nearest_seek b d).without (hother ht')
    refine (hnearest'.congr fun k => ?_).unique hnearest
    split
    · rfl
    · next hk => exact h.find k hk
  have hfound := t.index.nearest_seek b d
  unfold Table.seek
  rw [hplace]
  cases hseek : t.index.seek b d with
  | none => rfl
  | some p =>
      rw [hseek] at hfound
      simp only [h.read p.1 p.2 hfound.1]

/-- Tables that are alike but for the keys answer alike but for them. -/
theorem Alike.sameAnswersBut (h : Alike ks v t v' t') : SameAnswersBut ks v t v' t' := by
  refine ⟨fun k hk => h.get hk, fun b d ht ht' => h.seek ht ht', fun k hk hget => ?_⟩
  cases ho : t.index.find? k with
  | none =>
      unfold Table.get at hget
      rw [ho] at hget
      exact absurd rfl hget
  | some o =>
      obtain ⟨low, high, hlow, hhigh, hle, hge⟩ :=
        KeyMap.between_of_find? ((h.find k hk).trans ho)
      unfold Table.mightContain
      rw [hlow, hhigh]
      simp only [hle, hge, decide_true, Bool.and_true]

/-- Tables that are alike answer alike. -/
theorem Alike.sameAnswers (h : Alike [] v t v' t') : SameAnswers v t v' t' := by
  have hindex : t'.index = t.index := KeyMap.ext_find? fun k => h.find k List.not_mem_nil
  have hnever (t : Table) (b : Bound) (d : Direction) : ¬t.ComesTo b d [] := by
    rintro ⟨k, hk, -⟩
    exact List.not_mem_nil hk
  refine ⟨fun k => h.get List.not_mem_nil, fun b d => h.seek (hnever t b d) (hnever t' b d), ?_⟩
  intro k
  unfold Table.mightContain
  rw [hindex]

-- ============================================================ index entries

/-- An index entry that is altered behind the length of its key is another
index entry. -/
theorem indexParts_altered {bs' : Bytes} (h : AlteredAt i (indexParts k o).flatten bs')
    (hi : 4 ≤ i) :
    ∃ o' < UInt64.size, bs' = (indexParts (stretch 12 k.length bs') o').flatten := by
  have hlength : bs'.length = 12 + k.length := by rw [h.length, length_indexParts]
  have hkey : stretch 12 k.length bs' = bs'.drop 12 := by
    unfold stretch
    rw [List.take_of_length_le]
    rw [List.length_drop]
    omega
  have hkeyLength : (bs'.drop 12).length = k.length := by
    rw [List.length_drop]
    omega
  have hplace : (stretch 4 8 bs').length = 8 := Bytes.length_stretch (by omega)
  have hfirst : bs'.take 4 = Wire.word32 k.length := by
    rw [h.take_eq hi]
    exact List.take_left' (Wire.length_word32 _)
  refine ⟨ofLittleEndian (stretch 4 8 bs'), ?_, ?_⟩
  · have hlt := Bytes.ofLittleEndian_lt (stretch 4 8 bs')
    rwa [hplace] at hlt
  · have hword : Wire.word64 (ofLittleEndian (stretch 4 8 bs')) = stretch 4 8 bs' :=
      Bytes.littleEndian_ofLittleEndian hplace
    have hbehind : stretch 4 8 bs' ++ bs'.drop 12 = bs'.drop 4 := by
      have hdrop : bs'.drop 12 = (bs'.drop 4).drop 8 := by rw [List.drop_drop]
      rw [hdrop]
      exact List.take_append_drop 8 (bs'.drop 4)
    unfold indexParts
    simp only [List.flatten_cons, List.flatten_nil, List.append_nil]
    rw [hkey, hkeyLength, hword, hbehind, ← hfirst, List.take_append_drop]

/-- How far into the index the entry stands that `j` others stand before. -/
def indexDepth (es : List (Bytes × Entry)) (j : Nat) : Nat :=
  (indexBytes ((offsetsFrom headerSize es).take j)).length

/-- Where in the file it stands. -/
def indexPlace (es : List (Bytes × Entry)) (j : Nat) : Nat :=
  headerSize + (dataBlock es).length + indexDepth es j

/-- The index entries, before one of them, that one, and behind it. -/
theorem offsetsFrom_split (hj : (offsetsFrom headerSize es)[j]? = some (k, o)) :
    offsetsFrom headerSize es = (offsetsFrom headerSize es).take j
      ++ (k, o) :: (offsetsFrom headerSize es).drop (j + 1) := by
  obtain ⟨hlt, heq⟩ := List.getElem?_eq_some_iff.mp hj
  rw [← heq, ← List.drop_eq_getElem_cons hlt, List.take_append_drop]

/-- The index, before one entry, that entry, and behind it. -/
theorem indexBlock_split (hj : (offsetsFrom headerSize es)[j]? = some (k, o)) :
    indexBlock es = indexBytes ((offsetsFrom headerSize es).take j)
      ++ ((indexParts k o).flatten ++ indexBytes ((offsetsFrom headerSize es).drop (j + 1))) := by
  rw [← indexBytes_cons (k, o), ← indexBytes_append, ← offsetsFrom_split hj]
  rfl

/-- An entry ends where the index does, or before. -/
theorem indexDepth_le (hj : (offsetsFrom headerSize es)[j]? = some (k, o)) :
    indexDepth es j + (12 + k.length) ≤ (indexBlock es).length := by
  rw [indexBlock_split hj, List.length_append, List.length_append, length_indexParts]
  unfold indexDepth
  omega

/-- If an entry of the index is altered behind the length of its key, the
index has another key or another place there, and is the same otherwise. -/
theorem indexBlock_altered {block' : Bytes} (ha : AlteredAt i (indexBlock es) block')
    (hj : (offsetsFrom headerSize es)[j]? = some (k, o)) (hlow : indexDepth es j + 4 ≤ i)
    (hhigh : i < indexDepth es j + (12 + k.length)) :
    ∃ o' < UInt64.size, block' = indexBytes ((offsetsFrom headerSize es).take j
      ++ (stretch (indexDepth es j + 12) k.length block', o')
        :: (offsetsFrom headerSize es).drop (j + 1)) := by
  rw [indexBlock_split hj] at ha
  unfold indexDepth at hlow hhigh ⊢
  obtain ⟨hpart, hblock⟩ := ha.within (by omega) (by rwa [length_indexParts])
  obtain ⟨o', ho', hentry⟩ := indexParts_altered hpart (by omega)
  rw [stretch_stretch (Nat.le_of_eq (length_indexParts k o).symm)] at hentry
  rw [hentry, ← indexBytes_cons (_, o'), ← indexBytes_append] at hblock
  exact ⟨o', ho', hblock⟩

/-- The same of the index in a file. -/
theorem blockFrom_entry_altered (h : Storable es) (ha : AlteredAt i (image es) content')
    (hj : (offsetsFrom headerSize es)[j]? = some (k, o)) (hlow : indexPlace es j + 4 ≤ i)
    (hhigh : i < indexPlace es j + (12 + k.length)) :
    (stretch (indexPlace es j + 12) k.length content').length = k.length ∧
      ∃ o' < UInt64.size, blockFrom (placeIn content') content'
        = indexBytes ((offsetsFrom headerSize es).take j
            ++ (stretch (indexPlace es j + 12) k.length content', o')
              :: (offsetsFrom headerSize es).drop (j + 1)) := by
  have hfooter : footerSize = 16 := rfl
  have hlength := length_image es
  have hdepth := indexDepth_le hj
  unfold indexPlace at hlow hhigh ⊢
  have hplace : placeIn content' = headerSize + (dataBlock es).length := by
    rw [placeIn_altered ha (by omega), placeIn_image es h.extent]
  have hblock : AlteredAt (i - (headerSize + (dataBlock es).length)) (indexBlock es)
      (blockFrom (placeIn content') content') := by
    rw [hplace, ← blockFrom_image]
    unfold blockFrom
    rw [ha.length]
    exact ha.stretch (by omega) (by omega)
  have hkey : stretch (indexDepth es j + 12) k.length (blockFrom (placeIn content') content')
      = stretch (headerSize + (dataBlock es).length + indexDepth es j + 12) k.length
          content' := by
    unfold blockFrom
    rw [hplace, stretch_stretch (by rw [ha.length]; omega), Nat.add_assoc _ _ 12]
  have hentry := indexBlock_altered hblock hj (by omega) (by omega)
  rw [hkey] at hentry
  exact ⟨Bytes.length_stretch (by rw [ha.length]; omega), hentry⟩

/-- What holds of the entries of a list holds of them with another entry for
one of them, if it holds of that one. -/
theorem forall_mem_middle {α : Type} {P : α → Prop} {front back : List α} {x y : α}
    (h : ∀ q ∈ front ++ x :: back, P q) (hy : P y) : ∀ q ∈ front ++ y :: back, P q := by
  simp only [List.mem_append, List.mem_cons] at h ⊢
  rintro q (hq | rfl | hq)
  · exact h q (Or.inl hq)
  · exact hy
  · exact h q (Or.inr (Or.inr hq))

/-- The index that is read then has the places that it had, but for the key
that the entry had and the key that it has. -/
theorem find?_entry_altered (h : Storable es) (ha : AlteredAt i (image es) content')
    (hj : (offsetsFrom headerSize es)[j]? = some (k, o)) (hlow : indexPlace es j + 4 ≤ i)
    (hhigh : i < indexPlace es j + (12 + k.length)) {l : Bytes}
    (hl : l ∉ [k, stretch (indexPlace es j + 12) k.length content']) :
    (readIndex (blockFrom (placeIn content') content')).find? l
      = (indexOf es h.sorted).find? l := by
  obtain ⟨hkey, o', ho', hblock⟩ := blockFrom_entry_altered h ha hj hlow hhigh
  have hsplit := offsetsFrom_split hj
  have hkeys : ∀ q ∈ offsetsFrom headerSize es, q.1.length < UInt32.size :=
    fun q hq => length_key_of_mem h hq
  have hoffsets : ∀ q ∈ offsetsFrom headerSize es, q.2 < UInt64.size :=
    fun q hq => offset_lt_of_mem h hq
  have hk : k.length < UInt32.size := hkeys _ (List.mem_of_getElem? hj)
  have hindex : indexOf es h.sorted = KeyMap.ofList (offsetsFrom headerSize es) :=
    (ofList_sorted (sorted_offsetsFrom h.sorted headerSize)).symm
  rw [hsplit] at hkeys hoffsets
  rw [hblock, readIndex_indexBytes (forall_mem_middle hkeys (hkey.trans_lt hk))
    (forall_mem_middle hoffsets ho'), hindex, find?_ofList, find?_ofList]
  have hne : l ≠ k ∧ l ≠ stretch (indexPlace es j + 12) k.length content' := by
    simpa only [List.mem_cons, List.not_mem_nil, or_false, not_or] using hl
  rw [lastWrite_middle hne.2]
  conv_rhs => rw [hsplit, lastWrite_middle hne.1]

-- ================================================================= opening

/-- The volume with another byte in a file. -/
def damaged (v : Volume) (file i : Nat) (b : UInt8) : Volume :=
  v.setContent file ((v.content file).set i b)

/-- The file at the path is not opened. -/
def Refused (p : Path) (v : Volume) : Prop :=
  ∃ failure, openAt p v = .error failure v

/-- A file that passes every test is opened. -/
theorem opened_of_passes {index : KeyMap Nat} (hnode : v.node? p = some (.file file))
    (h : Passes (v.content file) index) : openAt p v = .ok ⟨p, file, index⟩ v := by
  rw [openAt_eq hnode, parse_eq_ok_iff.mpr h]

/-- Any other file is refused. -/
theorem refused_or_passes (hnode : v.node? p = some (.file file)) :
    Refused p v ∨ ∃ index, Passes (v.content file) index := by
  unfold Refused
  rw [openAt_eq hnode]
  cases hparse : parse p.display (v.content file) with
  | error fault => exact Or.inl ⟨_, rfl⟩
  | ok index => exact Or.inr ⟨index, parse_eq_ok_iff.mp hparse⟩

/-- If a byte behind the data is altered, every entry is read as before. -/
theorem entryAt_altered (h : Storable es) (ha : AlteredAt i (image es) content')
    (hi : headerSize + (dataBlock es).length ≤ i)
    (ho : (indexOf es h.sorted).find? k = some o) :
    entryAt content' o = entryAt (image es) o := by
  obtain ⟨front, e, back, hsplit, -, rfl⟩ := split_of_lookup_offsetsFrom ho
  have hfront : content'.take (headerSize + (dataBlock es).length)
      = header es.length ++ dataBlock es := by
    rw [ha.take_eq hi, image_eq, ← List.append_assoc]
    refine List.take_left' ?_
    rw [List.length_append, length_header]
  rw [← List.take_append_drop (headerSize + (dataBlock es).length) content', hfront,
    List.append_assoc, image_eq, entryAt_data h hsplit (length_header _),
    entryAt_data h hsplit (length_header _)]

/-- What a byte at the place does, if another one is written there: the
table answers for these entries, and this is its file.

In the header, in the data, or in the checksum of the data: the file is not
opened. In the zeros at the end: it answers as before. In an index entry
other than in the length of its key: the file is not opened, or it answers
as before but for the key that the entry had and the key that it has. In the
place of the index: the file is not opened, or what stands before another
place has the checksum of the data. -/
structure Guarded (p : Path) (v : Volume) (t : Table) (es : List (Bytes × Entry)) (i : Nat)
    (v' : Volume) : Prop where
  checked : i < headerSize + (dataBlock es).length ∨
      (image es).length - 8 ≤ i ∧ i < (image es).length - 4 → Refused p v'
  zeros : (image es).length - 4 ≤ i → ∃ t', openAt p v' = .ok t' v' ∧ SameAnswers v t v' t'
  entry : ∀ j k, (es.map Prod.fst)[j]? = some k → indexPlace es j + 4 ≤ i →
      i < indexPlace es j + (12 + k.length) → Refused p v' ∨
        ∃ t', openAt p v' = .ok t' v' ∧
          SameAnswersBut [k, stretch (indexPlace es j + 12) k.length (v'.content t.file)] v t v' t'
  place : (image es).length - 16 ≤ i → i < (image es).length - 8 → Refused p v' ∨
      ∃ other ≤ (image es).length - 16, headerSize ≤ other ∧
        other ≠ headerSize + (dataBlock es).length ∧
        Checksum.ofBytes (dataBefore other (image es)) = Checksum.ofBytes (dataBlock es)

section Guarded

variable (h : Storable es) (hcontent : v.content file = image es)
  (halter : AlteredAt i (image es) (v'.content file)) (hnode' : v'.node? p = some (.file file))

include h hcontent halter

/-- Behind the data, a table of the same places but for some keys answers as
before but for them. -/
theorem alike_altered {index : KeyMap Nat} (hi : headerSize + (dataBlock es).length ≤ i)
    (hfind : ∀ l, l ∉ ks → index.find? l = (indexOf es h.sorted).find? l) :
    Alike ks v ⟨p, file, indexOf es h.sorted⟩ v' ⟨p, file, index⟩ := by
  refine ⟨hfind, fun l o ho => ?_⟩
  show entryAt (v'.content file) o = entryAt (v.content file) o
  rw [hcontent]
  exact entryAt_altered h halter hi ho

include hnode'

/-- With a byte of the zeros altered it answers as before. -/
theorem zeros_altered (hi : (image es).length - 4 ≤ i) :
    ∃ t', openAt p v' = .ok t' v' ∧ SameAnswers v ⟨p, file, indexOf es h.sorted⟩ v' t' := by
  have hfooter : footerSize = 16 := rfl
  have hlength := length_image es
  have hpasses := (passes_image h).zeros_altered halter (by omega)
  refine ⟨_, opened_of_passes hnode' hpasses, ?_⟩
  exact (alike_altered h hcontent halter (by omega) fun _ _ => rfl).sameAnswers

/-- With a byte of an index entry altered, behind the length of its key, it
is refused, or answers as before but for two keys. -/
theorem entry_altered (hk : (es.map Prod.fst)[j]? = some k) (hlow : indexPlace es j + 4 ≤ i)
    (hhigh : i < indexPlace es j + (12 + k.length)) :
    Refused p v' ∨ ∃ t', openAt p v' = .ok t' v' ∧
      SameAnswersBut [k, stretch (indexPlace es j + 12) k.length (v'.content file)]
        v ⟨p, file, indexOf es h.sorted⟩ v' t' := by
  obtain ⟨o, ho⟩ : ∃ o, (offsetsFrom headerSize es)[j]? = some (k, o) := by
    rw [← map_fst_offsetsFrom headerSize, List.getElem?_map] at hk
    obtain ⟨q, hq, rfl⟩ := Option.map_eq_some_iff.mp hk
    exact ⟨q.2, hq⟩
  have hbehind : headerSize + (dataBlock es).length ≤ indexPlace es j := Nat.le_add_right _ _
  rcases refused_or_passes hnode' with hrefused | ⟨index, hpasses⟩
  · exact Or.inl hrefused
  · refine Or.inr ⟨_, opened_of_passes hnode' hpasses, ?_⟩
    refine (alike_altered h hcontent halter (by omega) fun l hl => ?_).sameAnswersBut
    rw [← hpasses.found]
    exact find?_entry_altered h halter ho hlow hhigh hl

omit hcontent

/-- With a byte altered in the header, in the data or in its checksum, the
file is refused. -/
theorem checked_altered (hi : i < headerSize + (dataBlock es).length ∨
    (image es).length - 8 ≤ i ∧ i < (image es).length - 4) : Refused p v' := by
  have hfooter : footerSize = 16 := rfl
  have hlength := length_image es
  rcases refused_or_passes hnode' with hrefused | ⟨index, hpasses⟩
  · exact hrefused
  · have hbehind := (passes_image h).behind hpasses halter
    rw [placeIn_image es h.extent] at hbehind
    omega

/-- With a byte of the place of the index altered it is refused, or what
stands before the other place has the checksum of the data. -/
theorem place_altered (hlow : (image es).length - 16 ≤ i) (hhigh : i < (image es).length - 8) :
    Refused p v' ∨ ∃ other ≤ (image es).length - 16, headerSize ≤ other ∧
      other ≠ headerSize + (dataBlock es).length ∧
      Checksum.ofBytes (dataBefore other (image es)) = Checksum.ofBytes (dataBlock es) := by
  have hfooter : footerSize = 16 := rfl
  have hlength := length_image es
  rcases refused_or_passes hnode' with hrefused | ⟨index, hpasses⟩
  · exact Or.inl hrefused
  · have hmoved := (passes_image h).place_moved hpasses halter (by omega) (by omega)
    have hbefore := hpasses.high
    rw [halter.length] at hbefore
    rw [placeIn_image es h.extent, dataBefore_image] at hmoved
    exact Or.inr ⟨_, hbefore, hpasses.low, hmoved.1, hmoved.2⟩

include hcontent

/-- Every byte of the image of entries is guarded. -/
theorem guarded_image : Guarded p v ⟨p, file, indexOf es h.sorted⟩ es i v' where
  checked := checked_altered h halter hnode'
  zeros := zeros_altered h hcontent halter hnode'
  entry _ _ := entry_altered h hcontent halter hnode'
  place := place_altered h halter hnode'

end Guarded

-- ================================================================== damage

/-- The table of the entries is built at the path. Its file is opened, as
long as its size is a number of eight digits, and every byte of it is
guarded, whatever other byte is written for it. -/
def DamageGuarded (p : Path) (v : Volume) (calls : List (Bytes × Entry)) : Prop :=
  ∃ report v₁ file, build p calls v = .ok (answersBehind [] calls, report) v₁ ∧
    v₁.node? p = some (.file file) ∧ (report.fileSize < UInt64.size →
      ∃ t, openAt p v₁ = .ok t v₁ ∧ t.file = file ∧
        ∀ i b, i < report.fileSize → (v₁.content file)[i]? ≠ some b →
          Guarded p v₁ t (accepted calls) i (damaged v₁ file i b))

/-- Whatever table is built, each byte of its file is guarded. -/
theorem damage_guarded (hv : v.Sane) (hp : p ≠ [])
    (hparent : v.node? p.dropLast = some .directory) (hplain : v.node? p ≠ some .directory)
    (hkeys : ∀ c ∈ calls, c.1.length < UInt32.size)
    (hvalues : ∀ c ∈ calls, (valueBytes c.2).length < tombstoneMark) :
    DamageGuarded p v calls := by
  obtain ⟨file, v₀, hsane, hnode, hbuild⟩ := build_ok hv hp hparent hplain
  have hcontent := hsane.content_setContent_self hnode (image (accepted calls))
  have hmade := hbuild calls hvalues
  have hsane₁ := hsane.setContent file (image (accepted calls))
  have hnode₁ : (v₀.setContent file (image (accepted calls))).node? p = some (.file file) := hnode
  refine ⟨_, _, file, hmade, hnode₁, fun hsize => ?_⟩
  have hes : Storable (accepted calls) := storable_accepted hkeys hvalues hsize
  refine ⟨_, (opens_image hes hnode₁ hcontent).1, rfl, fun i b hi hb => ?_⟩
  refine guarded_image hes hcontent ?_ hnode₁
  rw [hcontent] at hb
  unfold damaged
  rw [hsane₁.content_setContent_self hnode₁, hcontent]
  exact Bytes.alteredAt_set hi hb

/-- Two entries. -/
def twoCalls : List (Bytes × Entry) :=
  [([97], .value [49]), ([98], .value [50])]

/-- Each byte of their table is guarded. -/
theorem damage_guarded_twoCalls :
    Volume.empty.Sane ∧ accepted twoCalls = twoCalls ∧
      DamageGuarded ["t.sst"] Volume.empty twoCalls :=
  ⟨Volume.sane_empty, by decide, damage_guarded Volume.sane_empty (by decide) (by decide)
    (by decide) (by decide) (by decide)⟩

/-- The table of the entries is built, another byte is written in its file,
the file is opened, and it answers something else for the key. -/
def Unnoticed (calls : List (Bytes × Entry)) (i : Nat) (b : UInt8) (k : Bytes) : Prop :=
  ∃ made v file t t', build ["t.sst"] calls Volume.empty = .ok made v ∧
    v.node? ["t.sst"] = some (.file file) ∧ i < made.2.fileSize ∧
    (v.content file)[i]? ≠ some b ∧ openAt ["t.sst"] v = .ok t v ∧
    openAt ["t.sst"] (damaged v file i b) = .ok t' (damaged v file i b) ∧
    t'.get (damaged v file i b) k ≠ t.get v k

/-- Whether it does. -/
def goesUnnoticed (calls : List (Bytes × Entry)) (i : Nat) (b : UInt8) (k : Bytes) : Bool :=
  ends (build ["t.sst"] calls) Volume.empty fun made v =>
    match v.node? ["t.sst"] with
    | some (.file file) =>
      decide (i < made.2.fileSize ∧ (v.content file)[i]? ≠ some b) &&
        ends (openAt ["t.sst"]) v fun t _ =>
          ends (openAt ["t.sst"]) (damaged v file i b) fun t' _ =>
            decide (t'.get (damaged v file i b) k ≠ t.get v k)
    | _ => false

/-- To open a file changes nothing. -/
theorem openAt_leaves (hnode : v.node? p = some (.file file)) (h : openAt p v = .ok t v') :
    v' = v := by
  rw [openAt_eq hnode] at h
  split at h
  · cases h
    rfl
  · cases h

/-- The test tells. -/
theorem unnoticed_of_test (h : goesUnnoticed calls i b k = true) : Unnoticed calls i b k := by
  obtain ⟨made, v, hbuild, h⟩ := of_ends h
  split at h
  · next file hnode =>
      rw [Bool.and_eq_true, decide_eq_true_eq] at h
      obtain ⟨⟨hi, hb⟩, h⟩ := h
      obtain ⟨t, v₁, hopen, h⟩ := of_ends h
      obtain ⟨t', v₂, hopen', h⟩ := of_ends h
      obtain rfl := openAt_leaves hnode hopen
      have hnode' : (damaged v₁ file i b).node? ["t.sst"] = some (.file file) := hnode
      obtain rfl := openAt_leaves hnode' hopen'
      exact ⟨made, v₁, file, t, t', hbuild, hnode, hi, hb, hopen, hopen', of_decide_eq_true h⟩
  · cases h

/-- One entry, the lengths of which have the checksum of all its data. -/
def collidingCalls : List (Bytes × Entry) :=
  [([], .value [12, 0, 0, 0, 83, 84, 183, 208, 0, 0, 0, 0])]

/-- Damage goes unnoticed in each field of an index entry, its place, the
length of its key and its key, and in the place of the index. -/
theorem damage_unnoticed :
    Unnoticed twoCalls 38 24 [97] ∧ Unnoticed twoCalls 47 0 [98] ∧
      Unnoticed twoCalls 59 99 [98] ∧ Unnoticed collidingCalls 46 22 [] :=
  ⟨unnoticed_of_test (by decide +kernel), unnoticed_of_test (by decide +kernel),
    unnoticed_of_test (by decide +kernel), unnoticed_of_test (by decide +kernel)⟩

end OrderedStore.Table
