/-
Lexicon entries: the token of a term, and how many postings it was last
counted to have. The tokens met of late are kept in memory; when there are
too many, all are let go.
-/
import OrderedStore.Wire

namespace OrderedStore

/-- A token, and the postings it was counted to have. -/
structure LexiconEntry where
  token : UInt64
  count : UInt64
deriving DecidableEq, Repr

namespace LexiconEntry

/-- The entry in serialized form. -/
def encode (e : LexiconEntry) : Bytes :=
  Wire.word64 e.token.toNat ++ Wire.word64 e.count.toNat

/-- The entry that the bytes begin with. -/
def decode (bs : Bytes) : Except WireFault LexiconEntry := do
  let (token, rest) ← Wire.readWord64 bs
  let (count, _) ← Wire.readWord64 rest
  return ⟨UInt64.ofNat token, UInt64.ofNat count⟩

end LexiconEntry

/-- Tokens of terms and words, and how many of them are kept. -/
structure TokenCache where
  tokens : List ((String × String) × UInt64)
  capacity : Nat

namespace TokenCache

/-- Nothing kept yet. At least one token can be. -/
def empty (capacity : Nat) : TokenCache :=
  ⟨[], max capacity 1⟩

/-- The token of a term and a word, if it is kept. -/
def find? (c : TokenCache) (term raw : String) : Option UInt64 :=
  c.tokens.lookup (term, raw)

/-- Keeps one more token, and only that one if there was no room. -/
def insert (c : TokenCache) (term raw : String) (token : UInt64) : TokenCache :=
  let kept := if c.capacity ≤ c.tokens.length then [] else c.tokens
  { c with tokens := ((term, raw), token) :: kept }

end TokenCache

end OrderedStore
