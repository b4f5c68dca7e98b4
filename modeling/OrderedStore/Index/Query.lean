/-
Queries: terms and beginnings of terms, combined.
-/
import OrderedStore.Index.Term
import OrderedStore.Text.Whitespace

namespace OrderedStore

/-- What documents are asked for. -/
inductive Query where
  /-- Those with this very term. -/
  | term (term : String)
  /-- Those with a term that begins like this. -/
  | beginning (lead : String)
  /-- Those that all of the queries find. -/
  | all (children : List Query)
  /-- Those that some of the queries find. -/
  | any (children : List Query)
deriving BEq, Repr, Inhabited

namespace Query

-- ================================================================ reading

/-- One query stands for itself, several for a choice. -/
def choice : List Query → Query
  | [q] => q
  | qs => .any qs

/-- One query stands for itself, several are asked together. -/
def together : List Query → Query
  | [q] => q
  | qs => .all qs

/-- The terms of one place after the other, each with its place. -/
def byPosition (terms : List Term) : List (Nat × List Term) :=
  terms.foldr (fun t groups =>
    match groups with
    | (position, ts) :: rest =>
      if position = t.position then (position, t :: ts) :: rest
      else (t.position, [t]) :: groups
    | [] => [(t.position, [t])]) []

/-- What a search box asks: every word, in any of its forms. The last word
may be the beginning of one, unless white space ends the text. Without
words nothing is asked. -/
def ofText? (text : String) : Option Query :=
  let terms := Term.ofText text
  match terms.getLast? with
  | none => none
  | some last =>
    let unfinished := !Text.endsInWhitespace text
    some (together ((byPosition terms).map fun group =>
      choice (group.2.map fun t =>
        if unfinished && t.position = last.position then .beginning t.index else .term t.index)))

-- ================================================================ showing

mutual

/-- The query as it is shown. -/
def render : Query → String
  | .term t => t
  | .beginning lead => lead ++ "*"
  | .all children => "(" ++ renderJoined " AND " children ++ ")"
  | .any children => "(" ++ renderJoined " OR " children ++ ")"

/-- Queries as they are shown, with a word between them. -/
def renderJoined (word : String) : List Query → String
  | [] => ""
  | [q] => q.render
  | q :: qs => q.render ++ word ++ renderJoined word qs

end

end Query

end OrderedStore
