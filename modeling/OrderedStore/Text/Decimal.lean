/-
Decimal numbers of 64 bits: how they are read, and how they are padded.
-/

namespace OrderedStore.Text

/-- The number that decimal digits spell, a plus sign in front allowed, if
it is below 2^64. -/
def readDecimal (cs : List Char) : Option UInt64 :=
  let digits := match cs with
    | '+' :: rest => rest
    | _ => cs
  if digits.isEmpty || !digits.all Char.isDigit then none
  else
    let n := digits.foldl (fun n c => 10 * n + (c.toNat - 48)) 0
    if n < UInt64.size then some (UInt64.ofNat n) else none

/-- The decimal digits of the number, with zeros in front if there are
fewer than `width` of them. -/
def paddedDecimal (width n : Nat) : String :=
  let digits := (toString n).toList
  String.ofList (List.replicate (width - digits.length) '0' ++ digits)

end OrderedStore.Text
