/-
The order of encoded numbers.

An encoding keeps an order of the numbers if the one that comes first is
written as the smaller string, whatever stands behind either of the two. That
already makes it delimit itself: were one number's string the beginning of
another's, what stands behind it could turn the two over (`keeps_of_append_lt`).
So nothing but "whatever stands behind" has to be shown of an encoding, and
then the order of what is written behind numbers follows the order of the
numbers themselves (`Keeps.append_lt_iff`).

The ordered encoding keeps the order of the numbers. To turn all bits over
turns the order of two strings over, unless one is the beginning of the other,
in which case it leaves it as it is. Encoded numbers are never in that case, so
the decreasing encoding keeps the order the other way round. Pairs are: a pair
with a zero in second place is the beginning of all others with the same
number in front, and comes first under either encoding.
-/
import Mathlib
import OrderedStore.Proofs.KeyFields

namespace OrderedStore

-- ============================================================ complements

namespace Bytes

/-- Of two strings the later comes first when both are turned over, whatever
stands behind, unless the first is the beginning of the other. -/
theorem complement_append_lt {xs ys : Bytes} (h : xs < ys) (hpre : ¬xs <+: ys)
    (us vs : Bytes) : complement ys ++ us < complement xs ++ vs := by
  induction xs generalizing ys with
  | nil => exact absurd List.nil_prefix hpre
  | cons a xs ih =>
      cases ys with
      | nil => exact absurd h (List.not_lt_nil _)
      | cons b ys =>
          show ~~~b :: (complement ys ++ us) < ~~~a :: (complement xs ++ vs)
          rw [List.cons_lt_cons_iff]
          rcases List.cons_lt_cons_iff.mp h with hab | ⟨rfl, hrest⟩
          · refine Or.inl ?_
            have hb := b.toNat_lt
            rw [UInt8.lt_iff_toNat_lt] at hab ⊢
            rw [UInt8.toNat_not, UInt8.toNat_not, UInt8.size]
            omega
          · exact Or.inr ⟨rfl, ih hrest fun h => hpre (List.cons_prefix_cons.mpr ⟨rfl, h⟩)⟩

end Bytes

namespace Codec

variable {r : UInt64 → UInt64 → Prop} {write : UInt64 → Bytes}

-- ========================================================= orders are kept

/-- Numbers are written in the order `r`. No number's string is the beginning of
another's, and whatever stands behind them counts only between equal numbers. -/
structure Keeps (r : UInt64 → UInt64 → Prop) (write : UInt64 → Bytes) : Prop where
  lt_iff : ∀ v w, write v < write w ↔ r v w
  delimited : ∀ v w, write v <+: write w → v = w
  append_lt_iff : ∀ v w xs ys, write v ++ xs < write w ++ ys ↔ r v w ∨ v = w ∧ xs < ys

/-- For that it is enough that what comes first in the order is smaller as it is
written, whatever stands behind it. -/
theorem keeps_of_append_lt [Std.Trichotomous r]
    (h : ∀ {v w}, r v w → ∀ xs ys, write v ++ xs < write w ++ ys) : Keeps r write := by
  have htri (v w : UInt64) : r v w ∨ v = w ∨ r w v := Std.Trichotomous.rel_or_eq_or_rel_swap
  have hne {v w : UInt64} (hr : r v w) (xs ys : Bytes) : write v ++ xs ≠ write w ++ ys := by
    intro heq
    have hlt := h hr xs ys
    rw [heq] at hlt
    exact List.lt_irrefl _ hlt
  have happend (v w : UInt64) (xs ys : Bytes) :
      write v ++ xs < write w ++ ys ↔ r v w ∨ v = w ∧ xs < ys := by
    constructor
    · intro hlt
      rcases htri v w with hvw | rfl | hwv
      · exact Or.inl hvw
      · exact Or.inr ⟨rfl, (Bytes.append_lt_append_iff _ _ _).mp hlt⟩
      · exact absurd (h hwv ys xs) (List.lt_asymm hlt)
    · rintro (hvw | ⟨rfl, hlt⟩)
      · exact h hvw xs ys
      · exact List.append_left_lt hlt
  refine ⟨fun v w => ?_, fun v w hpre => ?_, happend⟩
  · have hends := happend v w [] []
    rw [List.append_nil, List.append_nil] at hends
    rw [hends, or_iff_left]
    exact fun hnil => List.lt_irrefl _ hnil.2
  · -- what is missing of the longer one would stand behind the other
    obtain ⟨rest, hrest⟩ := hpre
    have hsame : write v ++ rest = write w ++ [] := by rw [hrest, List.append_nil]
    rcases htri v w with hvw | heq | hwv
    · exact absurd hsame (hne hvw rest [])
    · exact heq
    · exact absurd hsame.symm (hne hwv [] rest)

/-- Two numbers, the second left out if it is zero, are in the order of the
first ones; between equal ones the left out second comes first. -/
theorem Keeps.two_lt_iff (h : Keeps r write) (hsome : ∀ v, write v ≠ []) (a b a' b' : UInt64) :
    (write a ++ if b = 0 then [] else write b) < (write a' ++ if b' = 0 then [] else write b') ↔
      r a a' ∨ a = a' ∧ b' ≠ 0 ∧ (b = 0 ∨ r b b') := by
  have hsecond : ((if b = 0 then [] else write b) < if b' = 0 then [] else write b') ↔
      b' ≠ 0 ∧ (b = 0 ∨ r b b') := by
    by_cases hb' : b' = 0
    · rw [if_pos hb']
      exact ⟨fun hlt => absurd hlt (List.not_lt_nil _), fun hne => absurd hb' hne.1⟩
    · rw [if_neg hb']
      by_cases hb : b = 0
      · obtain ⟨c, cs, hcs⟩ := List.exists_cons_of_ne_nil (hsome b')
        rw [if_pos hb, hcs]
        exact ⟨fun _ => ⟨hb', Or.inl hb⟩, fun _ => List.nil_lt_cons c cs⟩
      · rw [if_neg hb, h.lt_iff]
        exact ⟨fun hr => ⟨hb', Or.inr hr⟩, fun hor => hor.2.resolve_left hb⟩
  rw [h.append_lt_iff, hsecond]

-- ========================================================== the encodings

/-- The ordered encoding keeps the order of the numbers. -/
theorem keeps_ordered : Keeps (· < ·) ordered :=
  keeps_of_append_lt fun h => ordered_append_lt h

/-- The decreasing encoding turns it over. -/
theorem keeps_decreasing : Keeps (· > ·) decreasing := by
  refine keeps_of_append_lt fun {v w} h xs ys => ?_
  have hlt : ordered w < ordered v := (keeps_ordered.lt_iff w v).mpr h
  have hpre : ¬ordered w <+: ordered v := by
    intro hpre
    rw [keeps_ordered.delimited w v hpre] at hlt
    exact List.lt_irrefl _ hlt
  exact Bytes.complement_append_lt hlt hpre xs ys

/-- The first byte tells the two encodings apart. -/
theorem count_ne_complement (v w : UInt64) :
    UInt8.ofNat (Bytes.digitCount v.toNat) ≠ ~~~UInt8.ofNat (Bytes.digitCount w.toNat) := by
  have hv := Bytes.digitCount_le v.toNat_lt
  have hw := Bytes.digitCount_le w.toNat_lt
  intro h
  have hnat := congrArg UInt8.toNat h
  rw [UInt8.toNat_not, UInt8.toNat_ofNat', UInt8.toNat_ofNat', UInt8.size] at hnat
  omega

-- ================================================================== pairs

/-- A pair with a zero in second place is its first number. -/
theorem pair_zero (a : UInt64) : pair a 0 = ordered a := by
  unfold pair
  rw [if_pos rfl, List.append_nil]

/-- Pairs are in the order of their first numbers, and then of their second
ones. -/
theorem pair_lt_iff (a b a' b' : UInt64) :
    pair a b < pair a' b' ↔ a < a' ∨ a = a' ∧ b < b' := by
  have hzero : b' ≠ 0 ∧ (b = 0 ∨ b < b') ↔ b < b' := by
    simp only [UInt64.lt_iff_toNat_lt, ← UInt64.toNat_inj, UInt64.toNat_zero, ne_eq]
    omega
  rw [← hzero]
  exact keeps_ordered.two_lt_iff (fun _ => List.cons_ne_nil _ _) a b a' b'

/-- A pair begins like the one with a zero in second place, and is that one only
if it has a zero there. -/
theorem pair_zero_strict_prefix_iff (a b : UInt64) :
    pair a 0 <+: pair a b ∧ pair a 0 ≠ pair a b ↔ b ≠ 0 := by
  constructor
  · rintro ⟨-, hne⟩ rfl
    exact hne rfl
  · intro hb
    have hpair : pair a b = ordered a ++ ordered b := by
      unfold pair
      rw [if_neg hb]
    rw [pair_zero, hpair]
    exact ⟨List.prefix_append _ _, fun h => List.cons_ne_nil _ _ (List.self_eq_append_right.mp h)⟩

/-- Decreasing pairs are in the order of their first numbers turned over; with
equal ones a zero in second place comes first, and then the larger number. -/
theorem decreasingPair_lt_iff (a b a' b' : UInt64) :
    decreasingPair a b < decreasingPair a' b' ↔ a' < a ∨ a = a' ∧ b' ≠ 0 ∧ (b = 0 ∨ b' < b) :=
  keeps_decreasing.two_lt_iff (fun _ => List.cons_ne_nil _ _) a b a' b'

-- ============================================================= main result

/-- The encodings keep their orders. Ordered numbers are in the order of the
numbers and decreasing ones in the order turned over, with anything behind
them, and none is the beginning of another; ordered pairs are in the order of
both numbers, and decreasing ones in that turned over, but for a zero in second
place, which is left out and comes first either way. -/
theorem encodings_keep_orders :
    Keeps (· < ·) ordered ∧ Keeps (· > ·) decreasing ∧
      (∀ v w, ¬ordered v <+: decreasing w ∧ ¬decreasing v <+: ordered w) ∧
      (∀ a b a' b', pair a b < pair a' b' ↔ a < a' ∨ a = a' ∧ b < b') ∧
      (∀ a b, pair a 0 <+: pair a b ∧ pair a 0 ≠ pair a b ↔ b ≠ 0) ∧
      ∀ a b a' b', decreasingPair a b < decreasingPair a' b' ↔
        a' < a ∨ a = a' ∧ b' ≠ 0 ∧ (b = 0 ∨ b' < b) := by
  refine ⟨keeps_ordered, keeps_decreasing, fun v w => ⟨fun h => ?_, fun h => ?_⟩, pair_lt_iff,
    pair_zero_strict_prefix_iff, decreasingPair_lt_iff⟩
  · exact count_ne_complement v w (List.cons_prefix_cons.mp h).1
  · exact count_ne_complement w v (List.cons_prefix_cons.mp h).1.symm

end Codec

end OrderedStore
