/-
Results: the documents that a query finds, in order, one at a time.

A row of postings is read off a cursor as the caller moves on. Rows are
joined: `all` moves those that lag to the farthest until they stand on one
document; `any` stands on the nearest of its rows. No row ever moves back,
so a document is met once.

Every step is given what is read from at that moment. The fuel of a step
bounds how far its rows can move together; `Results.budget` is enough of
it for what is read from.
-/
import OrderedStore.Index.Keys
import OrderedStore.ReadView

namespace OrderedStore

-- ============================================================= postings

/-- The postings of one token: a cursor, what their keys begin with, the
term to show, and the document of the posting the cursor stands on. -/
structure Postings where
  cursor : Cursor
  lead : Bytes
  display : String
  current : Option DocKey

namespace Postings

/-- Stands on the posting of the cursor, or on the next one that is well
formed. -/
def load (mem : Memory) (r : ReadView) : Nat → Postings → Except Failure Postings
  | 0, p => .ok { p with current := none }
  | fuel + 1, p =>
    match p.cursor.current with
    | none => .ok { p with current := none }
    | some (k, _) =>
      match Bytes.after? p.lead k with
      | none => .ok { p with current := none }
      | some tail =>
        match DocKey.ofTail? tail with
        | some d => .ok { p with current := some d }
        | none =>
          match r.next mem p.cursor with
          | .error f => .error f
          | .ok c => load mem r fuel { p with cursor := c }

/-- The postings whose keys begin with `lead`, at the first. -/
def start (mem : Memory) (r : ReadView) (lead : Bytes) (display : String) :
    Except Failure Postings :=
  match r.cursorAt mem lead with
  | .error f => .error f
  | .ok c => load mem r (r.extent mem + 1) ⟨c, lead, display, none⟩

/-- To the next posting. -/
def next (mem : Memory) (r : ReadView) (p : Postings) : Except Failure Postings :=
  match p.current with
  | none => .ok p
  | some _ =>
    match r.next mem p.cursor with
    | .error f => .error f
    | .ok c => load mem r (r.extent mem + 1) { p with cursor := c }

/-- To the first posting that is not before the document, from here on. -/
def seek (mem : Memory) (r : ReadView) (target : DocKey) (p : Postings) :
    Except Failure Postings :=
  match p.current with
  | none => .ok p
  | some d =>
    if d.before target then
      match r.seek mem (p.lead ++ target.tail) p.cursor with
      | .error f => .error f
      | .ok c => load mem r (r.extent mem + 1) { p with cursor := c }
    else .ok p

end Postings

-- =============================================================== results

/-- The documents that a query finds. The document a joined row stands on
is kept beside its rows. -/
inductive Results where
  | empty
  | token (postings : Postings)
  | all (children : List Results) (current : Option DocKey)
  | any (children : List Results) (current : Option DocKey)

/-- How results are moved: to the next document, or to the first that is
not before a given one. -/
inductive Move where
  | next
  | seek (target : DocKey)

namespace Results

/-- The document the results stand on. -/
def position : Results → Option DocKey
  | .empty => none
  | .token p => p.current
  | .all _ current => current
  | .any _ current => current

/-- Whether the results stand on a document. -/
def isValid (x : Results) : Bool :=
  x.position.isSome

/-- The farther of two documents. -/
def farther (d e : DocKey) : DocKey :=
  if d.before e then e else d

/-- The nearer of two documents. -/
def nearer (d e : DocKey) : DocKey :=
  if e.before d then e else d

/-- The nearer of two documents, if there are two. -/
def nearerOf : Option DocKey → Option DocKey → Option DocKey
  | none, p => p
  | some d, none => some d
  | some d, some e => some (nearer d e)

/-- The nearest document that one of the rows stands on. -/
def nearest (children : List Results) : Option DocKey :=
  children.foldl (fun found x => nearerOf found x.position) none

/-- The farthest document that the rows stand on, if all stand on one. -/
def farthest : List Results → Option DocKey
  | [] => none
  | [x] => x.position
  | x :: xs =>
    match x.position, farthest xs with
    | some d, some e => some (farther d e)
    | _, _ => none

/-- Whether the results stand on this document. -/
def standsOn (x : Results) (d : DocKey) : Bool :=
  x.position.any d.same

/-- The rows that stand on a document, joined by choice. -/
def ofAny (children : List Results) : Results :=
  let valid := children.filter isValid
  .any valid (nearest valid)

mutual

/-- The results moved. -/
def move (mem : Memory) (r : ReadView) : Nat → Move → Results → Except Failure Results
  | 0, _, x => .ok x
  | _ + 1, _, .empty => .ok .empty
  | _ + 1, .next, .token p => (p.next mem r).map .token
  | _ + 1, .seek target, .token p => (p.seek mem r target).map .token
  | fuel + 1, m, .all children current =>
    match m, current with
    | _, none => .ok (.all children none)
    | .next, some _ =>
      match children with
      | [] => .ok (.all [] none)
      | x :: xs =>
        match move mem r fuel .next x with
        | .error f => .error f
        | .ok x => align mem r fuel (x :: xs)
    | .seek target, some d =>
      if d.before target then
        match children.mapM (move mem r fuel (.seek target)) with
        | .error f => .error f
        | .ok children => align mem r fuel children
      else .ok (.all children current)
  | fuel + 1, m, .any children current =>
    match m, current with
    | _, none => .ok (.any children none)
    | .next, some emitted =>
      match children.mapM (pass mem r fuel emitted) with
      | .error f => .error f
      | .ok children => .ok (ofAny children)
    | .seek target, some d =>
      if d.before target then
        match children.mapM (move mem r fuel (.seek target)) with
        | .error f => .error f
        | .ok children => .ok (ofAny children)
      else .ok (.any children current)

/-- The rows joined so that all stand on one document: those that are not
on the farthest move to it, until all are. -/
def align (mem : Memory) (r : ReadView) : Nat → List Results → Except Failure Results
  | 0, children => .ok (.all children none)
  | fuel + 1, children =>
    match farthest children with
    | none => .ok (.all children none)
    | some target =>
      if children.all fun x => x.standsOn target then
        .ok (.all children (some target))
      else
        match children.mapM fun x =>
            if x.standsOn target then .ok x
            else move mem r fuel (.seek target) x with
        | .error f => .error f
        | .ok children => align mem r fuel children

/-- A row moved on until it is behind the document. -/
def pass (mem : Memory) (r : ReadView) : Nat → DocKey → Results → Except Failure Results
  | 0, _, x => .ok x
  | fuel + 1, emitted, x =>
    match x.position with
    | none => .ok x
    | some d =>
      if emitted.before d then .ok x
      else
        match move mem r fuel .next x with
        | .error f => .error f
        | .ok x => pass mem r fuel emitted x

end

mutual

/-- How many rows the results are joined from, themselves included. -/
def rows : Results → Nat
  | .empty => 1
  | .token _ => 1
  | .all children _ => rowsOfAll children + 1
  | .any children _ => rowsOfAll children + 1

/-- How many rows several results are joined from. -/
def rowsOfAll : List Results → Nat
  | [] => 0
  | x :: xs => x.rows + rowsOfAll xs

end

/-- Enough fuel for any step: each row moves over each posting at most
once, and each of these moves goes through each row at most once. -/
def budget (mem : Memory) (r : ReadView) (rows : Nat) : Nat :=
  4 * (rows + 1) * (r.extent mem + 2)

/-- The rows joined so that a document is found by all of them. -/
def ofAll (mem : Memory) (r : ReadView) (children : List Results) :
    Except Failure Results :=
  align mem r (budget mem r (rowsOfAll children)) children

/-- To the next document. -/
def next (mem : Memory) (r : ReadView) (x : Results) : Except Failure Results :=
  move mem r (budget mem r x.rows) .next x

/-- To the first document that is not before the target, from here on. -/
def seek (mem : Memory) (r : ReadView) (target : DocKey) (x : Results) :
    Except Failure Results :=
  move mem r (budget mem r x.rows) (.seek target) x

-- =========================================================== highlighting

mutual

/-- The terms to show for the document the results stand on. -/
def rawTerms : Results → List String
  | .empty => []
  | .token p => if p.current.isSome then [p.display] else []
  | .all children current => if current.isSome then rawTermsOfAll children else []
  | .any children current =>
    match current with
    | none => []
    | some d => rawTermsAt d children

/-- The terms to show for the documents that several results stand on. -/
def rawTermsOfAll : List Results → List String
  | [] => []
  | x :: xs => x.rawTerms ++ rawTermsOfAll xs

/-- The terms to show of those results that stand on this document. -/
def rawTermsAt (d : DocKey) : List Results → List String
  | [] => []
  | x :: xs =>
    if x.standsOn d then x.rawTerms ++ rawTermsAt d xs else rawTermsAt d xs

end

/-- The terms to show, in order, each once. -/
def highlights (x : Results) : List String :=
  let terms := x.rawTerms.mergeSort fun s t => s ≤ t
  terms.eraseDups

/-- All documents from here on with what is to be shown of them, at most
`limit` of them. -/
def take (mem : Memory) (r : ReadView) :
    Nat → Results → Except Failure (List (DocKey × List String))
  | 0, _ => .ok []
  | limit + 1, x =>
    match x.position with
    | none => .ok []
    | some d =>
      match x.next mem r with
      | .error f => .error f
      | .ok y =>
        match take mem r limit y with
        | .error f => .error f
        | .ok rest => .ok ((d, x.highlights) :: rest)

end Results

end OrderedStore
