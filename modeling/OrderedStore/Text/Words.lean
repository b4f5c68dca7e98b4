/-
Words. A text falls into segments between word boundaries; a segment with
a letter or digit in it is a word. The boundary rules decide, for each
place between two characters, from the classes on both sides, nearest
first. There is a boundary wherever no rule forbids one.
-/
import OrderedStore.Text.Alphanumeric
import OrderedStore.Text.WordClass

namespace OrderedStore.Text

namespace WordClass

/-- The classes a rule sees: transparent ones at the near end are passed
over. -/
def visible (ks : List WordClass) : List WordClass :=
  ks.dropWhile isTransparent

/-- Whether a mark is followed by what it waits for: the first class ahead
that the rules see fits. A tied pictograph ends its waiting as well. -/
def isAwaited (ahead : List (Char × WordClass)) (fits : WordClass → Bool) : Bool :=
  match ahead.find? fun p => !p.2.isTransparent with
  | some (_, k) => fits k || k = .tied
  | none => false

/-- Whether one of the rules that look past transparent characters joins
`k`, with `ahead` behind it, to `before`. -/
def joins (before : List WordClass) (k : WordClass) (ahead : List (Char × WordClass)) :
    Bool :=
  match visible before with
  | [] => false
  | l :: farther =>
    let last := (visible farther).head?
    -- letters and digits among themselves
    (l.isLetter && k.isLetter)
    || (l = .numeric && k = .numeric)
    || (l.isLetter && k = .numeric)
    || (l = .numeric && k.isLetter)
    -- a mark between two letters
    || (l.isLetter && k.joinsLetters && isAwaited ahead isLetter)
    || (l.joinsLetters && k.isLetter && last.any isLetter)
    -- quotes after and between Hebrew letters
    || (l = .hebrew && k = .singleQuote)
    || (l = .hebrew && k = .doubleQuote && isAwaited ahead (· = .hebrew))
    || (l = .doubleQuote && k = .hebrew && last == some .hebrew)
    -- a mark between two digits
    || (l = .numeric && k.joinsNumbers && isAwaited ahead (· = .numeric))
    || (l.joinsNumbers && k = .numeric && last == some .numeric)
    -- Katakana, and connecting punctuation
    || (l = .katakana && k = .katakana)
    || ((l.isLetter || l = .numeric || l = .katakana || l = .extendNumLet)
        && k = .extendNumLet)
    || (l = .extendNumLet && (k.isLetter || k = .numeric || k = .katakana))
    -- regional indicators in pairs
    || (l = .regional && k = .paired)

/-- Whether there is a boundary between what ends in `before`, nearest
first, and a character of class `k` with `ahead` behind it. -/
def boundary (before : List WordClass) (k : WordClass) (ahead : List (Char × WordClass)) :
    Bool :=
  match before with
  | [] => true
  | l :: _ =>
    if l = .carriageReturn && k = .lineFeed then false
    else if l.endsLine || k.endsLine then true
    else if k = .tied then false
    else if l = .space && k = .space then false
    else if k.isTransparent then false
    else !joins before k ahead

/-- The class of a character in its text. `joined` says whether a joiner
comes right before it, `odd` whether an odd number of regional indicators
does, transparent characters not counted. -/
def inText (joined odd : Bool) (c : Char) : WordClass :=
  if joined && isPictograph c then .tied
  else
    match ofChar c with
    | .regional => if odd then .paired else .regional
    | k => k

end WordClass

/-- The characters of a text with their classes, behind those of `done`,
which has the last one first; `joined` and `odd` are said of what comes
before the text. -/
def classifiedOnto (done : List (Char × WordClass)) (joined odd : Bool) :
    List Char → List (Char × WordClass)
  | [] => done.reverse
  | c :: cs =>
    let k := WordClass.inText joined odd c
    classifiedOnto ((c, k) :: done) (k = .joiner)
      (k = .regional || (k.isTransparent && odd)) cs

/-- The characters of a text with their classes. -/
def classified (cs : List Char) : List (Char × WordClass) :=
  classifiedOnto [] false false cs

/-- The segments of a text that is left: `before` has been passed, nearest
first, `segment` holds the characters since the last boundary in the same
order, and `done` the segments before that, last first. -/
def segmentsOnto (done : List (List Char)) (segment : List Char)
    (before : List WordClass) : List (Char × WordClass) → List (List Char)
  | [] => (segment.reverse :: done).reverse
  | (c, k) :: rest =>
    if WordClass.boundary before k rest then
      segmentsOnto (segment.reverse :: done) [c] (k :: before) rest
    else segmentsOnto done (c :: segment) (k :: before) rest

/-- The segments of a text. Put together they are the text. -/
def segments (cs : List Char) : List (List Char) :=
  match classified cs with
  | [] => []
  | (c, k) :: rest => segmentsOnto [] [c] [k] rest

/-- The words of a text, in order. -/
def words (cs : List Char) : List (List Char) :=
  (segments cs).filter fun w => w.any isAlphanumeric

end OrderedStore.Text
