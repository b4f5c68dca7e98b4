/-
The keys of an index. All of them begin with `ft/`, the name and `/`; what
follows says what the key is for.

    i/<token>\t<sort key>\t<document>   a posting, without value
    l/<term>\t<word>                    a lexicon entry
    r/<token>                           the lexicon key of a token
    ti/<token>                          the mark of a token to be counted
    m/next_id                           the number of the next token
    d/<document>                        the postings of a document

Tokens are numbers in ordered encoding, so the postings of a token lie
together and tokens lie in order. The encoding delimits itself; the tab
behind it is found even if the encoding holds a tab.
-/
import OrderedStore.Codec
import OrderedStore.Text.Decimal
import OrderedStore.Text.Utf8

namespace OrderedStore

/-- The keys of one index, as what they begin with. -/
structure IndexKeys where
  lead : Bytes

/-- A document in the order of results: its sort key and its name. -/
structure DocKey where
  sortKey : String
  docId : String
deriving DecidableEq, Repr

namespace DocKey

/-- The delimiter between the parts of a key: the tab. -/
def delimiter : UInt8 := 9

/-- The bytes that order documents: the end of a posting key. -/
def tail (d : DocKey) : Bytes :=
  Text.toBytes d.sortKey ++ delimiter :: Text.toBytes d.docId

/-- Whether `d` comes before `e`. -/
def before (d e : DocKey) : Bool :=
  d.tail < e.tail

/-- Whether the order does not tell the documents apart. -/
def same (d e : DocKey) : Bool :=
  d.tail == e.tail

/-- The document whose posting key ends so. -/
def ofTail? (tail : Bytes) : Option DocKey :=
  match Bytes.splitAt? delimiter tail with
  | none => none
  | some (sortKey, docId) =>
    match Text.ofBytes? sortKey, Text.ofBytes? docId with
    | some sortKey, some docId => some ⟨sortKey, docId⟩
    | _, _ => none

end DocKey

namespace IndexKeys

/-- The keys of the index with this name. -/
def ofName (name : String) : IndexKeys :=
  ⟨Text.toBytes "ft/" ++ Text.toBytes name ++ Text.toBytes "/"⟩

/-- The beginning of the keys of one kind. -/
def part (ks : IndexKeys) (kind : String) : Bytes :=
  ks.lead ++ Text.toBytes kind

/-- What follows the beginning of one kind's keys. -/
def afterPart? (ks : IndexKeys) (kind : String) (key : Bytes) : Option Bytes :=
  Bytes.after? (ks.part kind) key

-- ============================================================== postings

/-- The beginning of a token's postings. -/
def postings (ks : IndexKeys) (token : UInt64) : Bytes :=
  ks.part "i/" ++ Codec.ordered token ++ [DocKey.delimiter]

/-- The posting of a document under a token. -/
def posting (ks : IndexKeys) (token : UInt64) (d : DocKey) : Bytes :=
  ks.postings token ++ d.tail

/-- The token of a posting key. Keys with the token in decimal are
understood too. -/
def postingToken? (ks : IndexKeys) (key : Bytes) : Option UInt64 := do
  let rest ← ks.afterPart? "i/" key
  match Codec.readOrdered rest with
  | (.ok token, b :: _) => if b = DocKey.delimiter then some token else decimal rest
  | _ => decimal rest
where
  /-- The number in decimal before the first delimiter. -/
  decimal (rest : Bytes) : Option UInt64 := do
    let (digits, _) ← Bytes.splitAt? DocKey.delimiter rest
    Text.readDecimal (digits.map fun b => Char.ofNat b.toNat)

-- =============================================================== lexicon

/-- The beginning of the lexicon keys whose terms begin with `lead`. -/
def lexiconFrom (ks : IndexKeys) (lead : String) : Bytes :=
  ks.part "l/" ++ Text.toBytes lead

/-- The beginning of the lexicon keys of a term. -/
def lexiconOf (ks : IndexKeys) (term : String) : Bytes :=
  ks.lexiconFrom term ++ [DocKey.delimiter]

/-- The lexicon key of a term and the word that is kept with it. -/
def lexicon (ks : IndexKeys) (term raw : String) : Bytes :=
  ks.lexiconOf term ++ Text.toBytes raw

/-- The term and the word of a lexicon key. -/
def parseLexicon? (ks : IndexKeys) (key : Bytes) : Option (String × String) := do
  let rest ← ks.afterPart? "l/" key
  let (term, raw) ← Bytes.splitAt? DocKey.delimiter rest
  return (← Text.ofBytes? term, ← Text.ofBytes? raw)

-- =========================================================== bookkeeping

/-- The key that leads from a token back to its lexicon key. -/
def reverse (ks : IndexKeys) (token : UInt64) : Bytes :=
  ks.part "r/" ++ Codec.ordered token

/-- The beginning of the marks. -/
def marks (ks : IndexKeys) : Bytes :=
  ks.part "ti/"

/-- The mark of a token that is to be counted. -/
def mark (ks : IndexKeys) (token : UInt64) : Bytes :=
  ks.marks ++ Codec.ordered token

/-- The token of a mark. -/
def parseMark? (ks : IndexKeys) (key : Bytes) : Option UInt64 := do
  let rest ← ks.afterPart? "ti/" key
  match Codec.readOrdered rest with
  | (.ok token, []) => some token
  | _ => none

/-- The key of the next token's number. -/
def nextToken (ks : IndexKeys) : Bytes :=
  ks.part "m/next_id"

/-- The key of a document's postings. -/
def document (ks : IndexKeys) (docId : String) : Bytes :=
  ks.part "d/" ++ Text.toBytes docId

end IndexKeys

end OrderedStore
