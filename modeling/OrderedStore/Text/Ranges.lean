/-
Sets of characters given by ranges of code points. The tables of this
folder are of Unicode 17.
-/
import OrderedStore.Bytes

namespace OrderedStore.Text

/-- Some code points, as the closed ranges they form, in ascending order. -/
abbrev CodeRanges := List (Nat × Nat)

/-- Whether the character's code point is in one of the ranges. The search
ends at the first range that lies behind the code point. -/
def CodeRanges.holds : CodeRanges → Char → Bool
  | [], _ => false
  | (first, last) :: ranges, c =>
    first ≤ c.toNat && (c.toNat ≤ last || holds ranges c)

end OrderedStore.Text
