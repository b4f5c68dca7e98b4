/-
Texts and numbers as parts of keys.

A text's bytes are read back as the text, and a byte below 128 stands for
itself and nothing else; so the tab, which delimits the parts of a key, is
found among the bytes of a text only where the text has one. A number in
ordered encoding is read back with whatever follows it left over: that is
what "delimits itself" comes to.
-/
import Mathlib
import OrderedStore.Index.Basic
import OrderedStore.Proofs.Wire

namespace OrderedStore

-- ================================================================== texts

namespace Text

/-- The bytes of a text are those of its characters. -/
theorem toBytes_eq (s : String) : toBytes s = s.toList.flatMap String.utf8EncodeChar := by
  unfold toBytes
  rw [← String.utf8Encode_toList]
  unfold List.utf8Encode
  rw [List.data_toByteArray]

/-- A text is read back. -/
@[simp] theorem ofBytes?_toBytes (s : String) : ofBytes? (toBytes s) = some s := by
  unfold ofBytes? toBytes String.fromUTF8?
  have hbytes : (⟨s.toByteArray.data.toList.toArray⟩ : ByteArray) = s.toByteArray := by
    rw [Array.toArray_toList]
  rw [hbytes, dif_pos s.isValidUTF8]
  rfl

/-- Bytes that are read as a text are its bytes. -/
theorem toBytes_of_ofBytes? {bs : Bytes} {s : String} (h : ofBytes? bs = some s) :
    toBytes s = bs := by
  unfold ofBytes? String.fromUTF8? at h
  split at h
  · cases h
    rfl
  · cases h

/-- Different texts have different bytes. -/
theorem toBytes_injective {s t : String} (h : toBytes s = toBytes t) : s = t := by
  have hs := ofBytes?_toBytes s
  rw [h, ofBytes?_toBytes] at hs
  exact (Option.some.inj hs).symm

/-- The bytes of a character with something behind them are equal only part
by part. -/
theorem utf8EncodeChar_append_inj {c d : Char} {xs ys : Bytes}
    (h : String.utf8EncodeChar c ++ xs = String.utf8EncodeChar d ++ ys) : c = d ∧ xs = ys := by
  have hread (c : Char) (xs : Bytes) :
      (String.utf8EncodeChar c ++ xs).toByteArray.utf8DecodeChar? 0 = some c := by
    have hparts : (String.utf8EncodeChar c ++ xs).toByteArray
        = [c].utf8Encode ++ xs.toByteArray := by
      simp [List.utf8Encode]
    rw [hparts]
    exact List.utf8DecodeChar?_utf8Encode_singleton_append
  have hc := hread c xs
  rw [h, hread d ys] at hc
  cases hc
  exact ⟨rfl, List.append_cancel_left h⟩

/-- Bytes begin like those of a text if the text begins so. -/
theorem toBytes_prefix_iff {s t : String} :
    toBytes s <+: toBytes t ↔ s.toList <+: t.toList := by
  have hlists (xs ys : List Char) :
      xs.flatMap String.utf8EncodeChar <+: ys.flatMap String.utf8EncodeChar ↔ xs <+: ys := by
    induction xs generalizing ys with
    | nil => simp
    | cons x xs ih =>
        have hpos := x.utf8Size_pos
        rw [← String.length_utf8EncodeChar] at hpos
        cases ys with
        | nil =>
            constructor
            · intro hpre
              have := hpre.length_le
              rw [List.flatMap_cons, List.length_append, List.flatMap_nil, List.length_nil] at this
              omega
            · exact fun hpre => absurd hpre.length_le (by simp)
        | cons y ys =>
            rw [List.flatMap_cons, List.flatMap_cons, List.cons_prefix_cons]
            constructor
            · rintro ⟨rest, hrest⟩
              rw [List.append_assoc] at hrest
              obtain ⟨hxy, htail⟩ := utf8EncodeChar_append_inj hrest
              exact ⟨hxy, (ih ys).mp ⟨rest, htail⟩⟩
            · rintro ⟨rfl, hpre⟩
              exact (List.prefix_append_right_inj _).mpr ((ih ys).mpr hpre)
  rw [toBytes_eq, toBytes_eq]
  exact hlists s.toList t.toList

/-- A low byte in the bytes of a character is the character. -/
theorem toNat_of_mem_utf8EncodeChar {c : Char} {b : UInt8} (hb : b.toNat < 128)
    (h : b ∈ String.utf8EncodeChar c) : c.toNat = b.toNat := by
  have hbyte (n : Nat) (hn : 128 ≤ n) (hlow : n < 256) (heq : b = UInt8.ofNat n) : False := by
    rw [heq, UInt8.toNat_ofNat', Nat.mod_eq_of_lt hlow] at hb
    omega
  simp only [String.utf8EncodeChar] at h
  split at h
  · next hsmall =>
      rw [List.mem_singleton.mp h, UInt8.toNat_ofNat', Nat.mod_eq_of_lt (by omega)]
      rfl
  · exfalso
    split at h
    · simp only [List.mem_cons, List.not_mem_nil, or_false] at h
      rcases h with h | h <;> exact hbyte _ (by omega) (by omega) h
    · split at h
      · simp only [List.mem_cons, List.not_mem_nil, or_false] at h
        rcases h with h | h | h <;> exact hbyte _ (by omega) (by omega) h
      · simp only [List.mem_cons, List.not_mem_nil, or_false] at h
        rcases h with h | h | h | h <;> exact hbyte _ (by omega) (by omega) h

/-- There is a tab among the bytes of a text only if there is one in the
text. -/
theorem delimiter_mem_toBytes {s : String} (h : DocKey.delimiter ∈ toBytes s) :
    Term.delimiter ∈ s.toList := by
  rw [toBytes_eq] at h
  obtain ⟨c, hc, hb⟩ := List.mem_flatMap.mp h
  have hnat : c.toNat = 9 := toNat_of_mem_utf8EncodeChar (by decide) hb
  have htab : c = Term.delimiter := by
    rw [← Char.ofNat_toNat c, hnat]
    rfl
  rwa [← htab]

end Text

/-- A text without the delimiter in it. -/
def Plain (s : String) : Prop :=
  DocKey.delimiter ∉ Text.toBytes s

/-- A text without a tab is plain. -/
theorem plain_of_not_mem {s : String} (h : Term.delimiter ∉ s.toList) : Plain s :=
  fun hmem => h (Text.delimiter_mem_toBytes hmem)

/-- A tab is spelled by the delimiter, so plain is what has no tab. -/
theorem plain_iff {s : String} : Plain s ↔ Term.delimiter ∉ s.toList := by
  refine ⟨fun h hmem => h ?_, plain_of_not_mem⟩
  rw [Text.toBytes_eq]
  exact List.mem_flatMap.mpr ⟨Term.delimiter, hmem, by decide⟩

/-- A sort key is plain as it is written. -/
theorem plain_cleanSortKey (s : String) : Plain (Index.cleanSortKey s) := by
  refine plain_of_not_mem fun hmem => ?_
  unfold Index.cleanSortKey at hmem
  rw [String.toList_ofList] at hmem
  obtain ⟨c, -, hc⟩ := List.mem_map.mp hmem
  split at hc
  · exact absurd hc (by decide)
  · next hne => exact hne hc

-- ================================================================= pieces

namespace Bytes

/-- What follows a beginning is found. -/
@[simp] theorem after?_append (lead rest : Bytes) : after? lead (lead ++ rest) = some rest := by
  induction lead with
  | nil => rfl
  | cons a lead ih => rw [List.cons_append, after?, if_pos rfl, ih]

/-- What is found behind a beginning follows it. -/
theorem eq_append_of_after? {lead bs rest : Bytes} (h : after? lead bs = some rest) :
    bs = lead ++ rest := by
  induction lead generalizing bs with
  | nil => exact Option.some.inj h
  | cons a lead ih =>
      cases bs with
      | nil => cases h
      | cons b bs =>
          rw [after?] at h
          split at h
          · next heq => rw [ih h, heq, List.cons_append]
          · cases h

/-- The first mark is found behind what has none. -/
theorem splitAt?_append {mark : UInt8} {front : Bytes} (h : mark ∉ front) (rest : Bytes) :
    splitAt? mark (front ++ mark :: rest) = some (front, rest) := by
  have hspan : (front ++ mark :: rest).span (· ≠ mark) = (front, mark :: rest) := by
    rw [List.span_eq_takeWhile_dropWhile]
    have hfront : ∀ b ∈ front, decide (b ≠ mark) = true := by
      intro b hb
      refine decide_eq_true fun heq => h ?_
      rwa [← heq]
    rw [List.takeWhile_append_of_pos hfront, List.dropWhile_append_of_pos hfront,
      List.takeWhile_cons_of_neg (by simp), List.dropWhile_cons_of_neg (by simp),
      List.append_nil]
  unfold splitAt?
  rw [hspan]

/-- Where a mark is found, there is none before it. -/
theorem splitAt?_eq_some_iff {mark : UInt8} {bs front rest : Bytes} :
    splitAt? mark bs = some (front, rest) ↔ bs = front ++ mark :: rest ∧ mark ∉ front := by
  constructor
  · intro h
    unfold splitAt? at h
    rw [List.span_eq_takeWhile_dropWhile] at h
    split at h
    · cases h
    · next b rest' hspan =>
        obtain ⟨hfront, hrest⟩ := Prod.mk.inj hspan
        obtain ⟨rfl, rfl⟩ := Prod.mk.inj (Option.some.inj h)
        have hb : b = mark := by
          have hhead := List.head?_dropWhile_not (fun c => decide (c ≠ mark)) bs
          rw [hrest] at hhead
          exact of_not_not fun hne => absurd (decide_eq_true hne) (by simpa using hhead)
        refine ⟨?_, fun hmem => ?_⟩
        · rw [← hb, ← hrest, ← hfront, List.takeWhile_append_dropWhile]
        · rw [← hfront] at hmem
          have hne := List.mem_takeWhile_imp (p := fun c => decide (c ≠ mark)) hmem
          exact of_decide_eq_true hne rfl
  · rintro ⟨rfl, hfront⟩
    exact splitAt?_append hfront rest

/-- What stands behind the same beginning decides the order. -/
theorem append_lt_append_iff (lead j k : Bytes) : lead ++ j < lead ++ k ↔ j < k := by
  induction lead with
  | nil => rfl
  | cons a lead ih =>
      rw [List.cons_append, List.cons_append, List.cons_lt_cons_iff, ih]
      constructor
      · rintro (haa | ⟨-, h⟩)
        · exact absurd haa (UInt8.lt_irrefl _)
        · exact h
      · exact fun h => Or.inr ⟨rfl, h⟩

/-- How many digits a number needs is how many it takes to spell it. -/
theorem lt_pow_digitCount (n : Nat) : n < 256 ^ digitCount n := by
  unfold digitCount
  split
  · next hzero => rw [hzero, pow_zero]; exact Nat.zero_lt_one
  · next hne =>
      have hlog := Nat.lt_log2_self (n := n)
      have hbase : 256 ^ (n.log2 / 8 + 1) = 2 ^ (8 * (n.log2 / 8 + 1)) := by
        rw [pow_mul]
        rfl
      rw [hbase]
      refine lt_of_lt_of_le hlog (Nat.pow_le_pow_right (by decide) ?_)
      omega

/-- A number of eight digits needs no more. -/
theorem digitCount_le {n : Nat} (h : n < UInt64.size) : digitCount n ≤ 8 := by
  unfold digitCount
  split
  · exact Nat.zero_le _
  · next hne =>
      have hlog : n.log2 < 64 := (Nat.log2_lt hne).mpr h
      omega

/-- A number takes the digits it is given, most significant first. -/
@[simp] theorem length_bigEndian (width n : Nat) : (bigEndian width n).length = width := by
  unfold bigEndian
  rw [List.length_reverse, length_littleEndian]

/-- The digits spell the number, as far as they go. -/
theorem ofBigEndian_bigEndian {width n : Nat} (h : n < 256 ^ width) :
    ofBigEndian (bigEndian width n) = n := by
  unfold ofBigEndian bigEndian
  rw [List.reverse_reverse, ofLittleEndian_littleEndian, Nat.mod_eq_of_lt h]

/-- The digits of a smaller number come first, whatever follows them. -/
theorem bigEndian_append_lt {width n n' : Nat} (h : n < n') (hn' : n' < 256 ^ width)
    (xs ys : Bytes) : bigEndian width n ++ xs < bigEndian width n' ++ ys := by
  have hstep (width n : Nat) (zs : Bytes) :
      bigEndian (width + 1) n ++ zs = bigEndian width (n / 256) ++ (UInt8.ofNat n :: zs) := by
    unfold bigEndian
    rw [littleEndian, List.reverse_cons, List.append_assoc, List.singleton_append]
  induction width generalizing n n' xs ys with
  | zero =>
      rw [pow_zero] at hn'
      omega
  | succ width ih =>
      rw [hstep, hstep]
      rw [pow_succ] at hn'
      by_cases hlt : n / 256 < n' / 256
      · exact ih hlt (Nat.div_lt_of_lt_mul (by omega)) _ _
      · -- only the last digit is smaller
        have hsame : n / 256 = n' / 256 := by omega
        rw [hsame]
        refine List.append_left_lt (List.cons_lt_cons_iff.mpr (Or.inl ?_))
        rw [UInt8.lt_iff_toNat_lt, UInt8.toNat_ofNat', UInt8.toNat_ofNat']
        omega

/-- A smaller number takes no more digits. -/
theorem digitCount_mono {n n' : Nat} (h : n ≤ n') : digitCount n ≤ digitCount n' := by
  unfold digitCount
  split
  · exact Nat.zero_le _
  · next hne =>
      have hne' : n' ≠ 0 := by omega
      have hlog : n.log2 ≤ n'.log2 := by
        rw [Nat.le_log2 hne']
        exact le_trans (Nat.log2_self_le hne) h
      rw [if_neg hne']
      omega

end Bytes

-- ================================================================ numbers

namespace Codec

/-- Bytes that are taken leave what follows them. -/
theorem takeBytes_append {n : Nat} {xs : Bytes} (h : xs.length = n) (rest : Bytes) :
    takeBytes n (xs ++ rest) = (.ok xs, rest) := by
  unfold takeBytes
  rw [Bytes.split?_append h]

/-- A number of eight digits is read back, and what follows it is left
over. -/
theorem readFixed64_append (v : UInt64) (rest : Bytes) :
    readFixed64 (fixed64 v ++ rest) = (.ok v, rest) := by
  have hread : Bytes.ofBigEndian (Bytes.bigEndian 8 v.toNat) = v.toNat :=
    Bytes.ofBigEndian_bigEndian v.toNat_lt
  unfold readFixed64 Reader.map fixed64
  rw [takeBytes_append (Bytes.length_bigEndian _ _)]
  simp only [hread, UInt64.ofNat_toNat]

/-- So it is if nothing follows. -/
theorem readFixed64_fixed64 (v : UInt64) : readFixed64 (fixed64 v) = (.ok v, []) := by
  rw [← List.append_nil (fixed64 v), readFixed64_append]

/-- A number in ordered encoding is read back, and what follows it is left
over. -/
theorem readOrdered_ordered (v : UInt64) (rest : Bytes) :
    readOrdered (ordered v ++ rest) = (.ok v, rest) := by
  have hcount : Bytes.digitCount v.toNat ≤ 8 := Bytes.digitCount_le v.toNat_lt
  have hhead : Bytes.ofBigEndian [UInt8.ofNat (Bytes.digitCount v.toNat)]
      = Bytes.digitCount v.toNat := by
    show (UInt8.ofNat (Bytes.digitCount v.toNat)).toNat + 256 * 0 = _
    rw [UInt8.toNat_ofNat', Nat.mod_eq_of_lt (by omega)]
    rfl
  have hlength : [UInt8.ofNat (Bytes.digitCount v.toNat)].length = 1 := rfl
  have hone := takeBytes_append hlength
    (Bytes.bigEndian (Bytes.digitCount v.toNat) v.toNat ++ rest)
  unfold readOrdered Reader.andThen ordered
  rw [List.cons_append, ← List.singleton_append, hone]
  simp only [hhead]
  rw [if_neg (by omega)]
  unfold Reader.map
  rw [takeBytes_append (Bytes.length_bigEndian _ _)]
  simp only [Bytes.ofBigEndian_bigEndian (Bytes.lt_pow_digitCount _), UInt64.ofNat_toNat]

/-- Numbers in ordered encoding with something behind them are equal only
part by part. -/
theorem ordered_append_inj {v w : UInt64} {xs ys : Bytes}
    (h : ordered v ++ xs = ordered w ++ ys) : v = w ∧ xs = ys := by
  have hv := readOrdered_ordered v xs
  rw [h, readOrdered_ordered w ys] at hv
  cases hv
  exact ⟨rfl, rfl⟩

/-- Numbers in ordered encoding are in the order of the numbers, whatever
follows them. -/
theorem ordered_append_lt {v w : UInt64} (h : v < w) (xs ys : Bytes) :
    ordered v ++ xs < ordered w ++ ys := by
  have hlt : v.toNat < w.toNat := UInt64.lt_iff_toNat_lt.mp h
  have hcount := Bytes.digitCount_mono (Nat.le_of_lt hlt)
  have hw := Bytes.digitCount_le w.toNat_lt
  unfold ordered
  rw [List.cons_append, List.cons_append, List.cons_lt_cons_iff, UInt8.lt_iff_toNat_lt,
    UInt8.toNat_ofNat', UInt8.toNat_ofNat', Nat.mod_eq_of_lt (by omega), Nat.mod_eq_of_lt (by omega)]
  rcases Nat.lt_or_eq_of_le hcount with hless | hsame
  · exact Or.inl hless
  · refine Or.inr ⟨congrArg UInt8.ofNat hsame, ?_⟩
    rw [hsame]
    exact Bytes.bigEndian_append_lt hlt (Bytes.lt_pow_digitCount _) _ _

end Codec

/-- A lexicon entry is read back. -/
theorem LexiconEntry.decode_encode (e : LexiconEntry) : decode e.encode = .ok e := by
  have hcount : Wire.readWord64 (Wire.word64 e.count.toNat) = .ok (e.count.toNat, []) := by
    have := Wire.readWord64_word64 e.count.toNat_lt []
    rwa [List.append_nil] at this
  unfold decode encode
  rw [Wire.readWord64_word64 e.token.toNat_lt, ok_bind]
  simp only [hcount, ok_bind, UInt64.ofNat_toNat]
  rfl

end OrderedStore
