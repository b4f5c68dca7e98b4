/-
Transliteration: the Latin letters and digits that stand for a character
in a folded word. An ASCII letter stands for itself in lower case, an ASCII
digit for itself. Letters that only differ from those in shape, the letter
pairs of flags, and the syllables of Hangul follow rules; Han characters
have their readings, and for everything else there are rows.
-/
import OrderedStore.Text.HanReadings
import OrderedStore.Text.LetterTables

namespace OrderedStore.Text

/-- Whether the character is an ASCII letter or digit. -/
def isAsciiAlphanumeric (c : Char) : Bool :=
  c.isAlphanum

/-- An ASCII letter in lower case, or a digit. -/
def transliterateAscii (c : Char) : List Char :=
  if isAsciiAlphanumeric c then [c.toLower] else []

-- =============================================================== Hangul

/-- The sounds a syllable of Hangul begins with. -/
def hangulLeads : List String :=
  ["g", "gg", "n", "d", "dd", "r", "m", "b", "bb", "s", "ss", "", "j", "jj", "c", "k",
   "t", "p", "h"]

/-- The vowels of a syllable of Hangul. -/
def hangulVowels : List String :=
  ["a", "ae", "ya", "yae", "eo", "e", "yeo", "ye", "o", "wa", "wae", "oe", "yo", "u",
   "weo", "we", "wi", "yu", "eu", "yi", "i"]

/-- The sounds a syllable of Hangul ends with. -/
def hangulTails : List String :=
  ["", "g", "gg", "gs", "n", "nj", "nh", "d", "l", "lg", "lm", "lb", "ls", "lt", "lp",
   "lh", "m", "b", "bs", "s", "ss", "ng", "j", "c", "k", "t", "p", "h"]

/-- The letters of the syllable at `index` in the order of all syllables:
by the first sound, then the vowel, then the last sound. -/
def hangulSyllable (index : Nat) : String :=
  hangulLeads.getD (index / 588) "" ++ hangulVowels.getD (index / 28 % 21) ""
    ++ hangulTails.getD (index % 28) ""

-- ============================================================ the rules

/-- The reading of the Han character at a code point; nothing outside their two
blocks. -/
def hanReading (n : Nat) : List Char :=
  hanReadings.getD (n - hanFirst) []

/-- What the rows have for a code point. -/
def rowLetters (n : Nat) : List Char :=
  (letterRows.findSome? fun row => row.letters? n).getD []

/-- The letters and digits that stand for a character. -/
def transliterate (c : Char) : List Char :=
  let n := c.toNat
  if n < 0x80 then transliterateAscii c
  else if 0xAC00 ≤ n ∧ n ≤ 0xD7A3 then (hangulSyllable (n - 0xAC00)).toList
  else if 0xFF01 ≤ n ∧ n ≤ 0xFF5E then transliterateAscii (Char.ofNat (n - 0xFEE0))
  else if 0x1D400 ≤ n ∧ n ≤ 0x1D6A3 then
    [Char.ofNat (0x61 + (n - 0x1D400) % 26)]
  else if 0x1D7CE ≤ n ∧ n ≤ 0x1D7FF then
    [Char.ofNat (0x30 + (n - 0x1D7CE) % 10)]
  else if 0x1F1E6 ≤ n ∧ n ≤ 0x1F1FF then [Char.ofNat (0x61 + (n - 0x1F1E6))]
  else if hanFirst ≤ n ∧ n < hanFirst + hanCount then hanReading n
  else rowLetters n

/-- The letters and digits that stand for a text. -/
def fold (cs : List Char) : List Char :=
  cs.flatMap transliterate

end OrderedStore.Text
