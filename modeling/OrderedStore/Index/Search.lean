/-
Searching: from a query to the documents it finds, and from the beginning
of a term to the terms that begin so.

A term or a beginning of one is looked up in the lexicon; each entry found
leads to the postings of its token. Lexicon entries that cannot be read are
passed over.
-/
import OrderedStore.Index.Lexicon
import OrderedStore.Index.Query
import OrderedStore.Index.Results

namespace OrderedStore

/-- A term that a beginning can be completed to, and how many postings it
was last counted to have. -/
structure Suggestion where
  term : String
  count : UInt64
deriving DecidableEq, Repr

namespace IndexKeys

/-- How a lexicon entry is shown: by its word if one is kept, otherwise by
its term. -/
def display (term raw : String) : String :=
  if raw = "" then term else raw

/-- The readable lexicon entries among pairs: what each is shown by, and
what it says. -/
def readableEntries (ks : IndexKeys) (pairs : List (Bytes × Bytes)) :
    List (String × LexiconEntry) :=
  pairs.filterMap fun p =>
    match ks.parseLexicon? p.1, LexiconEntry.decode p.2 with
    | some (term, raw), .ok e => some (display term raw, e)
    | _, _ => none

/-- One row for itself, several joined by choice, none for nothing. -/
def union (rows : List Results) : Results :=
  match rows with
  | [] => .empty
  | [x] => x
  | xs => Results.ofAny xs

/-- The postings of all readable lexicon entries whose keys begin with
`lead`. -/
def searchLexicon (ks : IndexKeys) (mem : Memory) (r : ReadView) (lead : Bytes) :
    Except Failure Results := do
  let pairs ← r.scan mem lead
  let rows ← (ks.readableEntries pairs).mapM fun e =>
    (Postings.start mem r (ks.postings e.2.token) e.1).map Results.token
  return union (rows.filter Results.isValid)

mutual

/-- The documents that a query finds. -/
def search (ks : IndexKeys) (mem : Memory) (r : ReadView) : Query → Except Failure Results
  | .term t => ks.searchLexicon mem r (ks.lexiconOf t)
  | .beginning lead => ks.searchLexicon mem r (ks.lexiconFrom lead)
  | .all children => do
    match ← searchAll ks mem r children with
    | none => return .empty
    | some [] => return .empty
    | some [x] => return x
    | some xs => Results.ofAll mem r xs
  | .any children => do
    let rows ← searchEach ks mem r children
    return union (rows.filter Results.isValid)

/-- What each of the queries finds, unless one of them finds nothing. -/
def searchAll (ks : IndexKeys) (mem : Memory) (r : ReadView) :
    List Query → Except Failure (Option (List Results))
  | [] => return some []
  | q :: qs => do
    let x ← search ks mem r q
    if x.isValid then
      match ← searchAll ks mem r qs with
      | none => return none
      | some xs => return some (x :: xs)
    else return none

/-- What each of the queries finds. -/
def searchEach (ks : IndexKeys) (mem : Memory) (r : ReadView) :
    List Query → Except Failure (List Results)
  | [] => return []
  | q :: qs => do
    let x ← search ks mem r q
    return x :: (← searchEach ks mem r qs)

end

/-- The names of the first `limit` documents that a query finds. -/
def searchDocIds (ks : IndexKeys) (mem : Memory) (r : ReadView) (q : Query) (limit : Nat) :
    Except Failure (List String) := do
  let x ← ks.search mem r q
  let found ← x.take mem r (min limit (r.extent mem + 1))
  return found.map fun hit => hit.1.docId

-- =========================================================== suggestions

/-- The suggestions with one more: of two for one term the higher count is
kept. -/
def addSuggestion (found : List Suggestion) (s : Suggestion) : List Suggestion :=
  match found with
  | [] => [s]
  | t :: rest =>
    if t.term = s.term then ⟨t.term, max t.count s.count⟩ :: rest
    else t :: addSuggestion rest s

/-- Whether `s` is to be shown before `t`: it has been counted to have more
postings, or as many and comes first by its term. -/
def suggestedBefore (s t : Suggestion) : Bool :=
  t.count < s.count || (s.count == t.count && s.term ≤ t.term)

/-- The first `limit` terms that begin with `lead`, those with most
postings first. -/
def suggestions (ks : IndexKeys) (mem : Memory) (r : ReadView) (lead : String) (limit : Nat) :
    Except Failure (List Suggestion) := do
  let pairs ← r.scan mem (ks.lexiconFrom lead)
  let found := (ks.readableEntries pairs).foldl
    (fun found e => addSuggestion found ⟨e.1, e.2.count⟩) []
  return (found.mergeSort suggestedBefore).take limit

-- ============================================================== counting

/-- How many postings of a token can be read. -/
def countPostings (ks : IndexKeys) (mem : Memory) (r : ReadView) (token : UInt64) :
    Except Failure Nat := do
  let c ← r.cursorAt mem (ks.postings token)
  return (← r.takeFrom mem (ks.postings token).isPrefixOf (r.extent mem + 1) c).length

end IndexKeys

end OrderedStore
