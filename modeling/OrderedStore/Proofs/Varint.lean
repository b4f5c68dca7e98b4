/-
Numbers of variable length, exactly.

A number is spelled by groups of seven bits, the least significant one first.
Every byte but the last has its high bit set, there are ten bytes at most, and
the tenth has room for one bit (`Spells`). That is the whole of what the reader
accepts, and what it answers is the sum of the groups, each at its place, as a
number without bounds (`spelled`): the bound on the tenth byte is what keeps
the sum within a word.

`readGroups` adds numbers without bounds. `gather` is the same loop on words,
which shifts every group to its place and lays it over what it has; that none
of the bits is shifted out of the word is the invariant of `gather_eq`, that
what is laid over ends below the place that is next. What is written is the
loop on words the other way round (`varint_eq`), whose room for ten groups is
never used up.

A number has more spellings than the one that is written, since zeros may be
spelled behind it. The one that is written is shorter than all others.
-/
import Mathlib
import OrderedStore.Proofs.KeyFields

namespace OrderedStore.Codec

variable {index : Nat} {more bs : Bytes} {last : UInt8}

-- ============================================================== spellings

/-- The number that the groups of these bytes spell, the least significant
first. -/
def spelled (bs : Bytes) : Nat :=
  Nat.ofDigits 128 (bs.map fun b => b.toNat % 128)

/-- Bytes from the place `index` on that spell a number: those with more behind
them, and the last one. -/
structure Spells (index : Nat) (more : Bytes) (last : UInt8) : Prop where
  goesOn : ∀ b ∈ more, 128 ≤ b.toNat
  ends : last.toNat < 128
  room : index + more.length ≤ 9
  tenth : index + more.length = 9 → last.toNat ≤ 1

/-- A spelling stands in front. -/
def Starts (index : Nat) (bs : Bytes) : Prop :=
  ∃ more last rest, bs = more ++ last :: rest ∧ Spells index more last

/-- The byte in the tenth place, where all before it go on, has more than one
bit. -/
def Overflows (index : Nat) (bs : Bytes) : Prop :=
  ∃ more b rest, bs = more ++ b :: rest ∧ index + more.length = 9 ∧
    (∀ c ∈ more, 128 ≤ c.toNat) ∧ 1 < b.toNat % 128

/-- The lowest group, and the groups behind it. -/
theorem spelled_cons (b : UInt8) (bs : Bytes) :
    spelled (b :: bs) = b.toNat % 128 + 128 * spelled bs := by
  unfold spelled
  rw [List.map_cons, Nat.ofDigits_cons]

/-- A last byte spells itself. -/
theorem spelled_singleton (h : last.toNat < 128) : spelled [last] = last.toNat := by
  rw [spelled_cons, Nat.mod_eq_of_lt h]
  rfl

/-- One more byte in front is in the place before. -/
theorem spells_cons_iff {b : UInt8} :
    Spells index (b :: more) last ↔ 128 ≤ b.toNat ∧ Spells (index + 1) more last := by
  constructor
  · rintro ⟨hmore, hlast, hroom, htenth⟩
    obtain ⟨hb, hmore⟩ := List.forall_mem_cons.mp hmore
    rw [List.length_cons] at hroom htenth
    exact ⟨hb, hmore, hlast, by omega, fun h => htenth (by omega)⟩
  · rintro ⟨hb, hmore, hlast, hroom, htenth⟩
    refine ⟨List.forall_mem_cons.mpr ⟨hb, hmore⟩, hlast, ?_, fun h => htenth ?_⟩
    · rw [List.length_cons]
      omega
    · rw [List.length_cons] at h
      omega

/-- What starts behind a byte that goes on starts with that byte. -/
theorem Starts.cons {b : UInt8} (hb : 128 ≤ b.toNat) (h : Starts (index + 1) bs) :
    Starts index (b :: bs) := by
  obtain ⟨more, last, rest, rfl, hspells⟩ := h
  exact ⟨b :: more, last, rest, rfl, spells_cons_iff.mpr ⟨hb, hspells⟩⟩

/-- The tenth place is found behind a byte that goes on. -/
theorem Overflows.cons {b : UInt8} (hb : 128 ≤ b.toNat) (h : Overflows (index + 1) bs) :
    Overflows index (b :: bs) := by
  obtain ⟨more, c, rest, rfl, hplace, hmore, hc⟩ := h
  refine ⟨b :: more, c, rest, rfl, ?_, List.forall_mem_cons.mpr ⟨hb, hmore⟩, hc⟩
  rw [List.length_cons]
  omega

/-- What is spelled from a place on has as many bits as there are from there to
the end of a word. -/
theorem Spells.lt (h : Spells index more last) (width : Nat) (hroom : index + width = 9) :
    spelled (more ++ [last]) < 2 * 128 ^ width := by
  induction more generalizing index width with
  | nil =>
      have hlast := h.ends
      rw [List.nil_append, spelled_singleton hlast]
      cases width with
      | zero =>
          have := h.tenth hroom
          omega
      | succ width =>
          have := Nat.one_le_pow width 128 (by decide)
          rw [pow_succ]
          omega
  | cons b more ih =>
      have hlength := h.room
      rw [List.length_cons] at hlength
      obtain ⟨width, rfl⟩ : ∃ w, width = w + 1 := ⟨width - 1, by omega⟩
      have hrest := ih (spells_cons_iff.mp h).2 width (by omega)
      rw [List.cons_append, spelled_cons, pow_succ]
      omega

-- ================================================================ reading

/-- What spells a number is read, and what follows it is left over. -/
theorem readGroups_of_spells (h : Spells index more last) (rest : Bytes) :
    readGroups index (more ++ last :: rest) = .ok (spelled (more ++ [last]), rest) := by
  induction more generalizing index with
  | nil =>
      have hroom := h.room
      have htenth := h.tenth
      rw [List.length_nil] at hroom htenth
      have hbits : ¬(index = 9 ∧ 1 < last.toNat % 128) := by
        rintro ⟨rfl, hbits⟩
        have := htenth rfl
        omega
      rw [List.nil_append, List.nil_append, readGroups, if_neg (by omega), if_neg hbits,
        if_pos h.ends, spelled_singleton h.ends]
  | cons b more ih =>
      obtain ⟨hb, hrest⟩ := spells_cons_iff.mp h
      have hroom := h.room
      rw [List.length_cons] at hroom
      rw [List.cons_append, List.cons_append, readGroups, if_neg (by omega), if_neg (by omega),
        if_neg (by omega), ih hrest, spelled_cons]

/-- A tenth byte with more than one bit is refused for it. -/
theorem readGroups_overflow (h : Overflows index bs) :
    readGroups index bs = .error .varintOverflow := by
  obtain ⟨more, b, rest, rfl, hplace, hmore, hb⟩ := h
  induction more generalizing index with
  | nil => rw [List.nil_append, readGroups, if_neg (by omega), if_pos ⟨hplace, hb⟩]
  | cons c more ih =>
      obtain ⟨hc, hmore⟩ := List.forall_mem_cons.mp hmore
      rw [List.length_cons] at hplace
      rw [List.cons_append, readGroups, if_neg (by omega), if_neg (by omega), if_neg (by omega),
        ih (by omega) hmore]

/-- Other bytes that spell nothing are refused since none of them is a last
one. -/
theorem readGroups_truncated (hstarts : ¬Starts index bs) (hover : ¬Overflows index bs) :
    readGroups index bs = .error .varintTruncated := by
  induction bs generalizing index with
  | nil => rfl
  | cons b bs ih =>
      rw [readGroups]
      by_cases hend : 9 < index
      · rw [if_pos hend]
      have hbits : ¬(index = 9 ∧ 1 < b.toNat % 128) := fun h =>
        hover ⟨[], b, bs, rfl, h.1, List.forall_mem_nil _, h.2⟩
      have hmore : 128 ≤ b.toNat := by
        by_contra hlast
        refine hstarts ⟨[], b, bs, rfl, List.forall_mem_nil _, Nat.not_le.mp hlast,
          Nat.not_lt.mp hend, fun htenth => ?_⟩
        rw [List.length_nil] at htenth
        omega
      rw [if_neg hend, if_neg hbits, if_neg (Nat.not_lt.mpr hmore),
        ih (fun h => hstarts (h.cons hmore)) fun h => hover (h.cons hmore)]

/-- What spells a number is read as that number. -/
theorem readVarint_of_spells (h : Spells 0 more last) (rest : Bytes) :
    ∃ v, readVarint (more ++ last :: rest) = (.ok v, rest) ∧
      v.toNat = spelled (more ++ [last]) := by
  refine ⟨UInt64.ofNat (spelled (more ++ [last])), ?_, ?_⟩
  · unfold readVarint
    rw [readGroups_of_spells h]
  · have hlt : spelled (more ++ [last]) < UInt64.size := h.lt 9 rfl
    rw [UInt64.toNat_ofNat', Nat.mod_eq_of_lt hlt]

/-- On a fault the bytes stay as they are. -/
theorem readVarint_of_error {e : CodecFault} (h : readGroups 0 bs = .error e) :
    readVarint bs = (.error e, bs) := by
  unfold readVarint
  rw [h]

-- ================================================================== words

/-- The loop on words: the bits of a byte are shifted to their place and laid
over those before them, until a byte has no high bit. -/
def gather (word : UInt64) (index : Nat) : Bytes → Except CodecFault (UInt64 × Bytes)
  | [] => .error .varintTruncated
  | b :: rest =>
    if 9 < index then .error .varintTruncated
    else
      let bits := (b &&& 0x7f).toUInt64
      if index = 9 ∧ 1 < bits then .error .varintOverflow
      else
        let word := word ||| bits <<< UInt64.ofNat (7 * index)
        if b &&& 0x80 = 0 then .ok (word, rest) else gather word (index + 1) rest

/-- The low bits of a byte are its remainder by 128. -/
theorem toNat_and_low (b : UInt8) : (b &&& 0x7f).toUInt64.toNat = b.toNat % 128 := by
  have hlow : b.toNat &&& 127 = b.toNat % 128 := Nat.and_two_pow_sub_one_eq_mod b.toNat 7
  rw [UInt8.toNat_toUInt64, UInt8.toNat_and]
  exact hlow

/-- A byte has no high bit if it is below 128. -/
theorem and_high_eq_zero_iff (b : UInt8) : b &&& 0x80 = 0 ↔ b.toNat < 128 := by
  revert b
  decide +kernel

/-- Bits that are laid over a word at a place, above all of its own, are added
to it. -/
theorem toNat_or_shiftLeft {word bits : UInt64} (hindex : index ≤ 9)
    (hword : word.toNat < 128 ^ index) (hbits : 128 ^ index * bits.toNat < UInt64.size) :
    (word ||| bits <<< UInt64.ofNat (7 * index)).toNat
      = word.toNat + 128 ^ index * bits.toNat := by
  have hplace : 128 ^ index = 2 ^ (7 * index) := by
    rw [pow_mul]
    rfl
  have hshift : (UInt64.ofNat (7 * index)).toNat % 64 = 7 * index := by
    rw [UInt64.toNat_ofNat']
    omega
  rw [hplace] at hword hbits ⊢
  rw [UInt64.toNat_or, UInt64.toNat_shiftLeft, hshift, Nat.shiftLeft_eq,
    Nat.mul_comm, Nat.mod_eq_of_lt hbits, Nat.or_comm, ← Nat.two_pow_add_eq_or_of_lt hword,
    Nat.add_comm]

/-- The group of a byte fits into the word at its place, unless the tenth
overflows. -/
theorem group_lt {b : UInt8} (hindex : index ≤ 9) (h : ¬(index = 9 ∧ 1 < b.toNat % 128)) :
    128 ^ index * (b.toNat % 128) < UInt64.size := by
  rcases Nat.lt_or_eq_of_le hindex with hless | rfl
  · calc 128 ^ index * (b.toNat % 128)
        ≤ 128 ^ 8 * 127 := Nat.mul_le_mul (Nat.pow_le_pow_right (by decide) (by omega)) (by omega)
      _ < UInt64.size := by decide
  · have hbits : b.toNat % 128 ≤ 1 := by omega
    calc 128 ^ 9 * (b.toNat % 128) ≤ 128 ^ 9 * 1 := Nat.mul_le_mul_left _ hbits
      _ < UInt64.size := by decide

/-- The loop on words adds what the groups spell to what the word has, each at
its place: no bit is shifted out of the word. -/
theorem gather_eq {word : UInt64} (hword : word.toNat < 128 ^ index) (bs : Bytes) :
    gather word index bs
      = (readGroups index bs).map fun p => (UInt64.ofNat (word.toNat + 128 ^ index * p.1), p.2) := by
  induction bs generalizing word index with
  | nil => rfl
  | cons b bs ih =>
      rw [gather, readGroups]
      by_cases hend : 9 < index
      · rw [if_pos hend, if_pos hend]
        rfl
      have hindex : index ≤ 9 := Nat.not_lt.mp hend
      have hbits : (1 : UInt64) < (b &&& 0x7f).toUInt64 ↔ 1 < b.toNat % 128 := by
        rw [UInt64.lt_iff_toNat_lt, toNat_and_low]
        rfl
      simp only [if_neg hend, hbits, and_high_eq_zero_iff]
      by_cases hover : index = 9 ∧ 1 < b.toNat % 128
      · rw [if_pos hover, if_pos hover]
        rfl
      have hroom : 128 ^ index * (b &&& 0x7f).toUInt64.toNat < UInt64.size := by
        rw [toNat_and_low]
        exact group_lt hindex hover
      have hlaid := toNat_or_shiftLeft hindex hword hroom
      rw [toNat_and_low] at hlaid
      rw [if_neg hover, if_neg hover]
      by_cases hlast : b.toNat < 128
      · rw [Nat.mod_eq_of_lt hlast] at hlaid
        rw [if_pos hlast, if_pos hlast, ← UInt64.ofNat_toNat (x := _ ||| _), hlaid]
        rfl
      · have hnext : word.toNat + 128 ^ index * (b.toNat % 128) < 128 ^ (index + 1) := by
          have := Nat.mul_le_mul_left (128 ^ index) (show b.toNat % 128 ≤ 127 by omega)
          rw [pow_succ]
          omega
        rw [if_neg hlast, if_neg hlast, ih (by rwa [hlaid]), hlaid]
        cases readGroups (index + 1) bs with
        | error e => rfl
        | ok p =>
            have hsum : word.toNat + 128 ^ index * (b.toNat % 128) + 128 ^ (index + 1) * p.1
                = word.toNat + 128 ^ index * (b.toNat % 128 + 128 * p.1) := by
              ring
            simp only [Except.map, hsum]

-- ================================================================ writing

/-- Where there is room for all groups of a number, more room changes nothing. -/
theorem varintGroups_succ (width : Nat) {n : Nat} (h : n < 128 ^ (width + 1)) :
    varintGroups (width + 1) n = varintGroups (width + 2) n := by
  have hstep (width n : Nat) : varintGroups (width + 1) n
      = if n < 128 then [UInt8.ofNat n]
        else UInt8.ofNat (n % 128 + 128) :: varintGroups width (n / 128) := rfl
  induction width generalizing n with
  | zero =>
      rw [Nat.zero_add, pow_one] at h
      rw [hstep, hstep, if_pos h, if_pos h]
  | succ width ih =>
      have hhigh : n / 128 < 128 ^ (width + 1) := by
        rw [pow_succ] at h
        omega
      rw [hstep, ih hhigh, hstep (width + 2)]

/-- A byte with its high bit set has its low bits as they were. -/
theorem toNat_or_high (b : UInt8) : (b ||| 0x80).toNat = b.toNat % 128 + 128 := by
  revert b
  decide +kernel

/-- What is written is the lowest group of the word, and what is written of the
rest of it. -/
theorem varint_eq (v : UInt64) :
    varint v = if v < 0x80 then [v.toUInt8] else (v.toUInt8 ||| 0x80) :: varint (v >>> 7) := by
  have hlt := v.toNat_lt
  have hlow : v.toUInt8 = UInt8.ofNat v.toNat := rfl
  have hbyte : v.toUInt8 ||| 0x80 = UInt8.ofNat (v.toNat % 128 + 128) := by
    refine UInt8.toNat_inj.mp ?_
    rw [toNat_or_high, hlow, UInt8.toNat_ofNat', UInt8.toNat_ofNat']
    omega
  have hrest : (v >>> 7).toNat = v.toNat / 128 := by
    rw [UInt64.toNat_shiftRight]
    exact Nat.shiftRight_eq_div_pow v.toNat 7
  have hroom : v.toNat / 128 < 128 ^ (8 + 1) := by omega
  have hless : v < 0x80 ↔ v.toNat < 128 := UInt64.lt_iff_toNat_lt
  unfold varint
  simp only [hless, hrest, hbyte, ← varintGroups_succ 8 hroom]
  rfl

/-- Of the spellings of a number, the one that is written is the only one, or
shorter. -/
theorem varintGroups_spelled (h : Spells index more last) (width : Nat)
    (hroom : index + width = 9) :
    more ++ [last] = varintGroups (width + 1) (spelled (more ++ [last])) ∨
      (varintGroups (width + 1) (spelled (more ++ [last]))).length < (more ++ [last]).length := by
  induction more generalizing index width with
  | nil =>
      rw [List.nil_append, spelled_singleton h.ends, varintGroups, if_pos h.ends,
        UInt8.ofNat_toNat]
      exact Or.inl rfl
  | cons b more ih =>
      have hlength := h.room
      rw [List.length_cons] at hlength
      obtain ⟨width, rfl⟩ : ∃ w, width = w + 1 := ⟨width - 1, by omega⟩
      obtain ⟨hb, hrest⟩ := spells_cons_iff.mp h
      rw [List.cons_append, spelled_cons, varintGroups]
      have hlow : (b.toNat % 128 + 128 * spelled (more ++ [last])) % 128 = b.toNat % 128 := by
        omega
      have hhigh : (b.toNat % 128 + 128 * spelled (more ++ [last])) / 128
          = spelled (more ++ [last]) := by omega
      split
      · -- only zeros are spelled behind the first byte
        rw [List.length_singleton, List.length_cons, List.length_append, List.length_singleton]
        exact Or.inr (by omega)
      · have hbyte : UInt8.ofNat (b.toNat % 128 + 128) = b := by
          have hlt := b.toNat_lt
          have hsum : b.toNat % 128 + 128 = b.toNat := by omega
          rw [hsum, UInt8.ofNat_toNat]
        rw [hlow, hhigh, hbyte, List.length_cons, List.length_cons, List.cons.injEq]
        rcases ih hrest width (by omega) with heq | hlt
        · exact Or.inl ⟨rfl, heq⟩
        · exact Or.inr (Nat.succ_lt_succ hlt)

-- ============================================================= exactness

/-- What the reader makes of these bytes is what they spell. It answers if a
spelling stands in front of them; it answers a number and leaves a rest exactly
if a spelling of that number stands in front of that rest. Otherwise it leaves
the bytes as they are, for a tenth byte that has too much or for want of a last
one. The loop on words answers the same. -/
structure ReadAsSpelled (bs : Bytes) : Prop where
  answers_iff : (∃ v rest, readVarint bs = (.ok v, rest)) ↔ Starts 0 bs
  read_iff : ∀ v rest, readVarint bs = (.ok v, rest) ↔
    ∃ more last, bs = more ++ last :: rest ∧ Spells 0 more last ∧
      v.toNat = spelled (more ++ [last])
  overflow : Overflows 0 bs → readVarint bs = (.error .varintOverflow, bs)
  truncated : ¬Starts 0 bs → ¬Overflows 0 bs → readVarint bs = (.error .varintTruncated, bs)
  onWords : readVarint bs =
    match gather 0 0 bs with
    | .ok (v, rest) => (.ok v, rest)
    | .error e => (.error e, bs)

/-- What is written for a number is read as the number, and everything else that
is read as it is longer. The loop on words writes it, group by group. -/
structure WrittenShortest (v : UInt64) : Prop where
  onWords : varint v =
    if v < 0x80 then [v.toUInt8] else (v.toUInt8 ||| 0x80) :: varint (v >>> 7)
  read : readVarint (varint v) = (.ok v, [])
  shortest : ∀ bs, readVarint bs = (.ok v, []) → bs = varint v ∨ (varint v).length < bs.length

/-- Where the reader answers, a spelling stands in front. -/
theorem starts_of_readVarint {v : UInt64} {rest : Bytes} (h : readVarint bs = (.ok v, rest)) :
    Starts 0 bs := by
  by_contra hstarts
  by_cases hover : Overflows 0 bs
  · rw [readVarint_of_error (readGroups_overflow hover)] at h
    cases h
  · rw [readVarint_of_error (readGroups_truncated hstarts hover)] at h
    cases h

/-- The reader answers what the loop on words answers. -/
theorem readVarint_eq_gather (bs : Bytes) : readVarint bs =
    match gather 0 0 bs with
    | .ok (v, rest) => (.ok v, rest)
    | .error e => (.error e, bs) := by
  unfold readVarint
  rw [gather_eq (show (0 : UInt64).toNat < 128 ^ 0 by decide)]
  cases readGroups 0 bs with
  | error e => rfl
  | ok p =>
      have hvalue : (0 : UInt64).toNat + 128 ^ 0 * p.1 = p.1 := by
        rw [UInt64.toNat_zero, pow_zero, Nat.zero_add, Nat.one_mul]
      simp only [Except.map, hvalue]

/-- Bytes are read as what they spell. -/
theorem readAsSpelled (bs : Bytes) : ReadAsSpelled bs := by
  refine ⟨⟨?_, ?_⟩, fun v rest => ⟨fun h => ?_, ?_⟩,
    fun hover => readVarint_of_error (readGroups_overflow hover),
    fun hstarts hover => readVarint_of_error (readGroups_truncated hstarts hover),
    readVarint_eq_gather bs⟩
  · rintro ⟨v, rest, h⟩
    exact starts_of_readVarint h
  · rintro ⟨more, last, rest, rfl, hspells⟩
    obtain ⟨v, hv, -⟩ := readVarint_of_spells hspells rest
    exact ⟨v, rest, hv⟩
  · obtain ⟨more, last, rest', rfl, hspells⟩ := starts_of_readVarint h
    obtain ⟨w, hw, hvalue⟩ := readVarint_of_spells hspells rest'
    rw [h] at hw
    cases hw
    exact ⟨more, last, rfl, hspells, hvalue⟩
  · rintro ⟨more, last, rfl, hspells, hvalue⟩
    obtain ⟨w, hw, hvalue'⟩ := readVarint_of_spells hspells rest
    rw [hw, UInt64.toNat_inj.mp (hvalue.trans hvalue'.symm)]

/-- A number is written as the shortest of what is read as it. -/
theorem writtenShortest (v : UInt64) : WrittenShortest v := by
  refine ⟨varint_eq v, ?_, fun bs h => ?_⟩
  · rw [← List.append_nil (varint v), readVarint_append]
  · obtain ⟨more, last, rfl, hspells, hvalue⟩ := ((readAsSpelled bs).read_iff v []).mp h
    have hgroups := varintGroups_spelled hspells 9 rfl
    rwa [← hvalue] at hgroups

/-- Numbers of variable length are read exactly and written shortest. -/
theorem varint_exact : (∀ bs, ReadAsSpelled bs) ∧ ∀ v, WrittenShortest v :=
  ⟨readAsSpelled, writtenShortest⟩

/-- Zeros may be spelled behind a number; the tenth byte may have one bit, and
two are too many even if it is not the last. -/
example : readVarint [0x81, 0x80, 0x00, 0x07] = (.ok 1, [0x07]) ∧
    readVarint (List.replicate 9 0xff ++ [0x01]) = (.ok 0xFFFFFFFFFFFFFFFF, []) ∧
    readVarint (List.replicate 9 0x80 ++ [0x82, 0x00])
      = (.error .varintOverflow, List.replicate 9 0x80 ++ [0x82, 0x00]) := by
  decide

end OrderedStore.Codec
