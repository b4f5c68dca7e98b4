/-
A byte that is altered alters the checksum.

`AlteredAt i bs bs'` says that two strings of one length differ in byte `i`
and nowhere else. What is taken off the front of both, or dropped from it,
is the same or is altered in turn, so an alteration is followed down to the
one field of a format that it hits; there a number is a different number,
and a checked string has a different checksum.

The latter rests on the shift. The top bit of the polynomial is set, and a
remainder that was shifted has none there, so the bit that was shifted out
can be told from the result: the shift is injective (`shift_injective`).
Then so is the step, in the remainder for each byte and in the byte for
each remainder, and two strings that differ in one byte lead to remainders
that differ from there on. No two such strings collide, however long they
are.
-/
import Mathlib
import OrderedStore.Checksum
import OrderedStore.Proofs.Wire

namespace OrderedStore

namespace Bytes

-- ========================================================= altered strings

/-- The second string is the first with another byte at the position, and
the same everywhere else. -/
structure AlteredAt (i : Nat) (bs bs' : Bytes) : Prop where
  length : bs'.length = bs.length
  there : bs'[i]? ≠ bs[i]?
  elsewhere : ∀ j, j ≠ i → bs'[j]? = bs[j]?

variable {i m n : Nat} {bs bs' : Bytes}

/-- A string in which another byte is written is altered there. -/
theorem alteredAt_set {b : UInt8} (hi : i < bs.length) (hb : bs[i]? ≠ some b) :
    AlteredAt i bs (bs.set i b) := by
  refine ⟨List.length_set, ?_, fun j hj => List.getElem?_set_ne (Ne.symm hj)⟩
  rw [List.getElem?_set_self hi]
  exact Ne.symm hb

/-- There is no alteration behind the end. -/
theorem AlteredAt.lt (h : AlteredAt i bs bs') : i < bs.length := by
  have hlength := h.length
  by_contra hi
  apply h.there
  rw [List.getElem?_eq_none (by omega), List.getElem?_eq_none (by omega)]

/-- An altered string is another string. -/
theorem AlteredAt.ne (h : AlteredAt i bs bs') : bs' ≠ bs := by
  intro heq
  apply h.there
  rw [heq]

/-- The beginning of an altered string, if the alteration is in it. -/
theorem AlteredAt.take (h : AlteredAt i bs bs') (hn : i < n) :
    AlteredAt i (bs.take n) (bs'.take n) := by
  refine ⟨?_, ?_, fun j hj => ?_⟩
  · simp [h.length]
  · simp only [List.getElem?_take, hn, if_true]
    exact h.there
  · simp only [List.getElem?_take, h.elsewhere j hj]

/-- What follows the beginning of an altered string, if the alteration is
in it. -/
theorem AlteredAt.drop (h : AlteredAt i bs bs') (hn : n ≤ i) :
    AlteredAt (i - n) (bs.drop n) (bs'.drop n) := by
  refine ⟨?_, ?_, fun j hj => ?_⟩
  · simp [h.length]
  · simp only [List.getElem?_drop, Nat.add_sub_of_le hn]
    exact h.there
  · simp only [List.getElem?_drop]
    exact h.elsewhere (n + j) (by omega)

/-- The beginning of a string that is altered behind it. -/
theorem AlteredAt.take_eq (h : AlteredAt i bs bs') (hn : n ≤ i) : bs'.take n = bs.take n := by
  apply List.ext_getElem?
  intro j
  simp only [List.getElem?_take]
  split
  · exact h.elsewhere j (by omega)
  · rfl

/-- What follows the beginning that a string is altered in. -/
theorem AlteredAt.drop_eq (h : AlteredAt i bs bs') (hn : i < n) : bs'.drop n = bs.drop n := by
  apply List.ext_getElem?
  intro j
  simp only [List.getElem?_drop]
  exact h.elsewhere (n + j) (by omega)

/-- The `n` bytes of a string from the position on. -/
def stretch (m n : Nat) (bs : Bytes) : Bytes :=
  (bs.drop m).take n

/-- A stretch that lies in the string has all its bytes. -/
theorem length_stretch (h : m + n ≤ bs.length) : (stretch m n bs).length = n := by
  unfold stretch
  rw [List.length_take, List.length_drop]
  omega

/-- A stretch of a stretch is a stretch. -/
theorem stretch_stretch {a b : Nat} (h : a + b ≤ n) (m : Nat) (bs : Bytes) :
    stretch a b (stretch m n bs) = stretch (m + a) b bs := by
  unfold stretch
  rw [List.drop_take, List.take_take, List.drop_drop, Nat.min_eq_left (by omega)]

/-- A stretch of an altered string, if the alteration is in it. -/
theorem AlteredAt.stretch (h : AlteredAt i bs bs') (hm : m ≤ i) (hn : i < m + n) :
    AlteredAt (i - m) (stretch m n bs) (stretch m n bs') :=
  (h.drop hm).take (by omega)

/-- A stretch of an altered string, if the alteration is not in it. -/
theorem AlteredAt.stretch_eq (h : AlteredAt i bs bs') (hout : i < m ∨ m + n ≤ i) :
    Bytes.stretch m n bs' = Bytes.stretch m n bs := by
  unfold Bytes.stretch
  by_cases hi : i < m
  · rw [h.drop_eq hi]
  · exact (h.drop (Nat.le_of_not_lt hi)).take_eq (by omega)

/-- Of a string of two parts the first is altered. -/
theorem AlteredAt.append_right (h : AlteredAt i bs bs') (rest : Bytes) :
    AlteredAt i (bs ++ rest) (bs' ++ rest) := by
  have hi := h.lt
  have hi' : i < bs'.length := by rw [h.length]; exact hi
  refine ⟨?_, ?_, fun j hj => ?_⟩
  · simp [h.length]
  · rw [List.getElem?_append_left hi, List.getElem?_append_left hi']
    exact h.there
  · simp only [List.getElem?_append, h.length, h.elsewhere j hj]

/-- Of a string of two parts the second is altered. -/
theorem AlteredAt.append_left (h : AlteredAt i bs bs') (front : Bytes) :
    AlteredAt (front.length + i) (front ++ bs) (front ++ bs') := by
  refine ⟨?_, ?_, fun j hj => ?_⟩
  · simp [h.length]
  · simp only [List.getElem?_append_right (Nat.le_add_right _ _), Nat.add_sub_cancel_left]
    exact h.there
  · simp only [List.getElem?_append]
    split
    · rfl
    · exact h.elsewhere _ (by omega)

/-- Of a string of three parts the middle one is altered, if the alteration
is in it. -/
theorem AlteredAt.within {front part back : Bytes}
    (h : AlteredAt i (front ++ (part ++ back)) bs') (hlow : front.length ≤ i)
    (hhigh : i < front.length + part.length) :
    AlteredAt (i - front.length) part (Bytes.stretch front.length part.length bs') ∧
      bs' = front ++ (Bytes.stretch front.length part.length bs' ++ back) := by
  have hpart : Bytes.stretch front.length part.length (front ++ (part ++ back)) = part := by
    unfold Bytes.stretch
    rw [List.drop_left' rfl, List.take_left' rfl]
  have halter := h.stretch hlow hhigh
  rw [hpart] at halter
  refine ⟨halter, ?_⟩
  have hfront : bs'.take front.length = front := by
    rw [h.take_eq hlow, List.take_left' rfl]
  have hback : (bs'.drop front.length).drop part.length = back := by
    rw [List.drop_drop, h.drop_eq hhigh, ← List.append_assoc]
    exact List.drop_left' List.length_append
  calc bs' = bs'.take front.length ++ bs'.drop front.length := (List.take_append_drop _ _).symm
    _ = front ++ bs'.drop front.length := by rw [hfront]
    _ = front ++ (Bytes.stretch front.length part.length bs'
          ++ (bs'.drop front.length).drop part.length) := by
        rw [Bytes.stretch, List.take_append_drop]
    _ = front ++ (Bytes.stretch front.length part.length bs' ++ back) := by rw [hback]

/-- The parts of a string and of the one that it is altered to: before and
behind the one byte they are equal. -/
theorem AlteredAt.parts (h : AlteredAt i bs bs') :
    ∃ front a b back, a ≠ b ∧ bs = front ++ a :: back ∧ bs' = front ++ b :: back := by
  have hi := h.lt
  have hi' : i < bs'.length := by rw [h.length]; exact hi
  refine ⟨bs.take i, bs[i], bs'[i], bs.drop (i + 1), ?_, ?_, ?_⟩
  · intro heq
    apply h.there
    rw [List.getElem?_eq_getElem hi, List.getElem?_eq_getElem hi', heq]
  · rw [← List.drop_eq_getElem_cons hi, List.take_append_drop]
  · rw [← h.take_eq (Nat.le_refl i), ← h.drop_eq (Nat.lt_succ_self i),
      ← List.drop_eq_getElem_cons hi', List.take_append_drop]

-- ========================================================= altered numbers

/-- Strings of one length spell different numbers if they are different. -/
theorem ofLittleEndian_injective {xs ys : Bytes} (hlength : xs.length = ys.length)
    (h : ofLittleEndian xs = ofLittleEndian ys) : xs = ys := by
  induction xs generalizing ys with
  | nil => exact (List.length_eq_zero_iff.mp hlength.symm).symm
  | cons x xs ih =>
      cases ys with
      | nil => cases hlength
      | cons y ys =>
          have hx := x.toNat_lt
          have hy := y.toNat_lt
          rw [ofLittleEndian, ofLittleEndian] at h
          have hfirst : x = y := UInt8.toNat_inj.mp (by omega)
          have hrest : xs = ys := ih (Nat.succ.inj hlength) (by omega)
          rw [hfirst, hrest]

/-- An altered string spells another number. -/
theorem AlteredAt.ofLittleEndian_ne (h : AlteredAt i bs bs') :
    ofLittleEndian bs' ≠ ofLittleEndian bs :=
  fun heq => h.ne (ofLittleEndian_injective h.length heq)

/-- The number that a string spells has no more digits than the string. -/
theorem ofLittleEndian_lt (bs : Bytes) : ofLittleEndian bs < 256 ^ bs.length := by
  induction bs with
  | nil => exact Nat.one_pos
  | cons b bs ih =>
      have hb := b.toNat_lt
      rw [ofLittleEndian, List.length_cons, Nat.pow_succ]
      omega

/-- A string is what its number is written as. -/
theorem littleEndian_ofLittleEndian (h : bs.length = n) :
    littleEndian n (ofLittleEndian bs) = bs := by
  subst h
  refine ofLittleEndian_injective (length_littleEndian _ _) ?_
  rw [ofLittleEndian_littleEndian]
  exact Nat.mod_eq_of_lt (ofLittleEndian_lt bs)

end Bytes

namespace Checksum

-- =========================================================== the remainder

/-- Whether a bit is shifted out. -/
theorem and_one_eq_one_iff (c : UInt32) : c &&& 1 = 1 ↔ c.toNat % 2 = 1 := by
  rw [← UInt32.toNat_inj, UInt32.toNat_and]
  exact Iff.of_eq (congrArg (· = 1) (Nat.and_one_is_mod c.toNat))

/-- What is left of a number that is shifted. -/
theorem toNat_shiftRight_one (c : UInt32) : (c >>> 1).toNat = c.toNat / 2 := by
  rw [UInt32.toNat_shiftRight]
  exact Nat.shiftRight_eq_div_pow c.toNat 1

/-- A number is made of what is left of it and the bit that is shifted
out. -/
theorem shiftRight_one_inj {c d : UInt32} (hbit : c.toNat % 2 = d.toNat % 2)
    (h : c >>> 1 = d >>> 1) : c = d := by
  have hhalf := congrArg UInt32.toNat h
  rw [toNat_shiftRight_one, toNat_shiftRight_one] at hhalf
  refine UInt32.toNat_inj.mp ?_
  omega

/-- The top bit of the polynomial is set, and none of a number that was
shifted. -/
theorem shiftRight_one_xor_ne (c d : UInt32) : (c >>> 1) ^^^ (d >>> 1) ≠ polynomial := by
  intro h
  have hlow (x : UInt32) : (x >>> 1).toNat < 2 ^ 31 := by
    have := x.toNat_lt
    rw [toNat_shiftRight_one]
    omega
  have hxor := Nat.xor_lt_two_pow (hlow c) (hlow d)
  rw [← UInt32.toNat_xor, h] at hxor
  exact absurd hxor (by decide)

/-- Different remainders are different after a shift. -/
theorem shift_injective : Function.Injective shift := by
  intro c d h
  have hmixed (x y : UInt32) : (x >>> 1) ^^^ polynomial ≠ y >>> 1 := by
    intro hxy
    apply shiftRight_one_xor_ne x y
    rw [← hxy, ← UInt32.xor_assoc, UInt32.xor_self, UInt32.zero_xor]
  unfold shift at h
  by_cases hc : c &&& 1 = 1 <;> by_cases hd : d &&& 1 = 1
  · rw [if_pos hc, if_pos hd, UInt32.xor_left_inj] at h
    rw [and_one_eq_one_iff] at hc hd
    exact shiftRight_one_inj (hc.trans hd.symm) h
  · rw [if_pos hc, if_neg hd] at h
    exact absurd h (hmixed c d)
  · rw [if_neg hc, if_pos hd] at h
    exact absurd h.symm (hmixed d c)
  · rw [if_neg hc, if_neg hd] at h
    rw [and_one_eq_one_iff] at hc hd
    exact shiftRight_one_inj (by omega) h

/-- A step is eight shifts of the remainder with the byte laid over it. -/
theorem step_inj_iff {c d : UInt32} {a b : UInt8} :
    step c a = step d b ↔ c ^^^ a.toUInt32 = d ^^^ b.toUInt32 := by
  unfold step
  simp only [shift_injective.eq_iff]

/-- Different remainders are different after more bytes. -/
theorem extend_injective (bs : Bytes) : Function.Injective fun c => extend c bs := by
  induction bs with
  | nil => exact Function.injective_id
  | cons b bs ih =>
      intro c d h
      have hstep : step c b = step d b := ih h
      rwa [step_inj_iff, UInt32.xor_left_inj] at hstep

-- ========================================================= the check value

/-- Different remainders have different check values. -/
theorem finish_injective : Function.Injective finish := fun _ _ h => UInt32.not_inj.mp h

/-- Strings that differ in one byte have different check values. -/
theorem ofBytes_middle_ne (front back : Bytes) {a b : UInt8} (hab : a ≠ b) :
    ofBytes (front ++ a :: back) ≠ ofBytes (front ++ b :: back) := by
  intro h
  apply hab
  have hextend := finish_injective h
  rw [extend_append, extend_append] at hextend
  have hstep : step (extend start front) a = step (extend start front) b :=
    extend_injective back hextend
  rw [step_inj_iff, UInt32.xor_right_inj] at hstep
  refine UInt8.toNat_inj.mp ?_
  rw [← UInt8.toNat_toUInt32 a, ← UInt8.toNat_toUInt32 b, hstep]

/-- An altered string has another check value. -/
theorem ofBytes_altered {i : Nat} {bs bs' : Bytes} (h : Bytes.AlteredAt i bs bs') :
    ofBytes bs' ≠ ofBytes bs := by
  obtain ⟨front, a, b, back, hab, rfl, rfl⟩ := h.parts
  exact ofBytes_middle_ne front back (Ne.symm hab)

end Checksum

end OrderedStore
