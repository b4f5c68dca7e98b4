/-
Full-text indexes. An index lives in the database, under keys of its own.

A document is indexed by replacing whatever postings it has with one
posting for each of its terms; which postings those are is written down
under the document, so that they can be found when it is replaced or
removed. Tokens are numbers given to terms for good, in a transaction of
their own, so a transaction that is abandoned may leave terms without
postings behind, which does no harm.
-/
import OrderedStore.Index.Sweep
import OrderedStore.Settings

namespace OrderedStore

/-- An open index: its name and keys, the tokens it keeps in memory, how
many marks a sweep takes at a time, and the stamp of the next marks. -/
structure Index where
  name : String
  keys : IndexKeys
  cache : TokenCache
  sweepBatch : Nat
  stamp : UInt64

namespace Index

/-- Whether an index can have the name. -/
def isValidName (name : String) : Bool :=
  name ≠ "" && !name.toList.contains '/'

/-- Opens the index with this name. `stamp` is to differ from the stamps of
marks that may have been left behind. -/
def openNamed (name : String) (settings : IndexSettings) (stamp : UInt64) :
    Except Failure Index :=
  if isValidName name then
    .ok { name := name, keys := IndexKeys.ofName name
          cache := TokenCache.empty settings.cacheCapacity
          sweepBatch := settings.sweepBatch, stamp := stamp }
  else .error (.indexName name)

-- ================================================================ tokens

/-- What is kept of the word. -/
def stored (term raw : String) : String :=
  if raw = term then "" else raw

/-- The token of a lexicon key, if the lexicon has a readable entry. -/
def readToken (lexiconKey : Bytes) : DbM (Option UInt64) := do
  match ← Database.get lexiconKey with
  | none => return none
  | some bytes =>
    match LexiconEntry.decode bytes with
    | .ok e => return some e.token
    | .error _ => return none

/-- Gives a new token to a lexicon key, at once. -/
def mint (keys : IndexKeys) (lexiconKey : Bytes) : DbM UInt64 := do
  let t : Transaction Unit := Transaction.empty
  let token ← match ← t.get keys.nextToken with
    | none => pure 1
    | some bytes =>
      match (Codec.readFixed64 bytes).1 with
      | .ok token => pure token
      | .error e => throw ⟨.codec e⟩
  let t := t.put keys.nextToken (Codec.fixed64 (token + 1))
  let t := t.put lexiconKey (LexiconEntry.encode ⟨token, 0⟩)
  let t := t.put (keys.reverse token) lexiconKey
  let _ ← t.commit
  return token

/-- The token of a term and a word, a new one if there is none yet. -/
def tokenOf (x : Index) (term raw : String) : DbM (UInt64 × Index) := do
  let raw := stored term raw
  match x.cache.find? term raw with
  | some token => return (token, x)
  | none =>
    let lexiconKey := x.keys.lexicon term raw
    let token ← match ← readToken lexiconKey with
      | some token => pure token
      | none => mint x.keys lexiconKey
    return (token, { x with cache := x.cache.insert term raw token })

/-- What the lexicon says of a term and a word. -/
def lexiconEntry (x : Index) (mem : Memory) (r : ReadView) (term raw : String) :
    Except Failure (Option LexiconEntry) := do
  match ← r.get mem (x.keys.lexicon term (stored term raw)) with
  | none => return none
  | some bytes =>
    match LexiconEntry.decode bytes with
    | .ok e => return some e
    | .error _ => return none

-- ================================================================ writing

/-- The list with the token in its place, each token once. -/
def insertToken (token : UInt64) : List UInt64 → List UInt64
  | [] => [token]
  | t :: ts =>
    if token < t then token :: t :: ts
    else if t < token then t :: insertToken token ts
    else t :: ts

/-- The tokens, each once, in order. -/
def sortTokens (tokens : List UInt64) : List UInt64 :=
  tokens.foldr insertToken []

/-- A sort key as it is written: with a space for every delimiter. -/
def cleanSortKey (sortKey : String) : String :=
  String.ofList (sortKey.toList.map fun c => if c = Term.delimiter then ' ' else c)

variable {ν : Type}

/-- Deletes what is written down as the postings of a document. Answers
their tokens. -/
def deletePostings (keys : IndexKeys) (docId : String) : WriteM ν (List UInt64) := do
  match ← WriteM.get (keys.document docId) with
  | none => return []
  | some bytes =>
    match Wire.readBlobs bytes with
    | .error _ => return []
    | .ok (postings, _) =>
      postings.forM WriteM.delete
      return postings.filterMap keys.postingToken?

/-- Marks tokens as to be counted. -/
def markTokens (x : Index) (tokens : List UInt64) : WriteM ν Index := do
  if tokens.isEmpty then return x
  (sortTokens tokens).forM fun token =>
    WriteM.put (x.keys.mark token) (Codec.fixed64 x.stamp)
  WriteM.afterCommit ("fulltext-stats/" ++ x.name) (pure (Notice.statistics x.name) : DbM (Notice ν))
  return { x with stamp := x.stamp + 1 }

/-- The tokens of terms, in the order of the terms. -/
def tokensOf (x : Index) : List Term → DbM (List UInt64 × Index)
  | [] => return ([], x)
  | t :: ts => do
    let (token, x) ← x.tokenOf t.index t.raw
    let (tokens, x) ← tokensOf x ts
    return (token :: tokens, x)

/-- The postings of a document under tokens, each once, in key order. -/
def postingsOf (keys : IndexKeys) (d : DocKey) (tokens : List UInt64) : List Bytes :=
  (KeyMap.ofList (tokens.map fun token => (keys.posting token d, ()))).entries.map Prod.fst

/-- Replaces the postings of a document by those of the terms. -/
def update (x : Index) (docId sortKey : String) (terms : List Term) : WriteM ν Index := do
  let gone ← deletePostings x.keys docId
  let (tokens, x) ← x.tokensOf terms
  let postings := postingsOf x.keys ⟨cleanSortKey sortKey, docId⟩ tokens
  postings.forM fun key => WriteM.put key []
  if postings.isEmpty then WriteM.delete (x.keys.document docId)
  else WriteM.put (x.keys.document docId) (Wire.blobs postings)
  x.markTokens (gone ++ tokens)

/-- Removes the postings of a document. -/
def remove (x : Index) (docId : String) : WriteM ν Index := do
  let gone ← deletePostings x.keys docId
  WriteM.delete (x.keys.document docId)
  x.markTokens gone

/-- Brings the counts of the lexicon up to date. -/
def sweep (x : Index) : DbM Nat :=
  x.keys.sweep x.sweepBatch

end Index

end OrderedStore
