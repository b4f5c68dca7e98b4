/-
White space of all scripts.
-/
import OrderedStore.Text.Ranges

namespace OrderedStore.Text

/-- The code points that are white space. -/
def whitespaces : CodeRanges :=
  [(0x9, 0xD), (0x20, 0x20), (0x85, 0x85), (0xA0, 0xA0), (0x1680, 0x1680),
   (0x2000, 0x200A), (0x2028, 0x2029), (0x202F, 0x202F), (0x205F, 0x205F),
   (0x3000, 0x3000)]

/-- Whether the character is white space. -/
def isWhitespace (c : Char) : Bool :=
  whitespaces.holds c

/-- Whether the text ends in white space. -/
def endsInWhitespace (s : String) : Bool :=
  match s.toList.getLast? with
  | some c => isWhitespace c
  | none => false

end OrderedStore.Text
