/-
Terms: what a text is indexed and searched by. Each word of a text gives
the word itself in lower case, and those of its variants that are new: the
word without what is neither letter nor digit, and the word folded into
ASCII letters and digits. Every variant keeps the place of its word in the
text and the word itself, for showing.
-/
import OrderedStore.Text.LowerCase
import OrderedStore.Text.Transliteration
import OrderedStore.Text.Words

namespace OrderedStore

/-- A term, the word it comes from, and the place of that word. -/
structure Term where
  index : String
  raw : String
  position : Nat
deriving DecidableEq, Repr

namespace Term

/-- What is kept of the word: nothing if the term says it all. -/
def storedRaw (t : Term) : String :=
  if t.raw = t.index then "" else t.raw

/-- The row with one more form, unless that is empty or there already. -/
def addForm (forms : List (List Char)) (form : List Char) : List (List Char) :=
  if form.isEmpty || forms.contains form then forms else forms ++ [form]

/-- The forms of a word: itself and its variants. -/
def forms (word : List Char) : List (List Char) :=
  addForm (addForm [word] (word.filter Text.isAlphanumeric)) (Text.fold word)

/-- The terms of a word at a place. Places are written down in 32 bits. -/
def ofWord (position : Nat) (word : List Char) : List Term :=
  let raw := Text.lower word
  (forms raw).map fun form =>
    ⟨String.ofList form, String.ofList raw, position % UInt32.size⟩

/-- The terms of words from a place on. -/
def ofWords : Nat → List (List Char) → List Term
  | _, [] => []
  | position, w :: ws => ofWord position w ++ ofWords (position + 1) ws

/-- The terms of a text. -/
def ofText (text : String) : List Term :=
  ofWords 0 (Text.words text.toList)

/-- The mark between the parts of a key. -/
def delimiter : Char := Char.ofNat 9

/-- A text as one term, as it is but for delimiters. -/
def verbatim (text : String) : Term :=
  let term := String.ofList (text.toList.filter (· ≠ delimiter))
  ⟨term, term, 0⟩

end Term

end OrderedStore
