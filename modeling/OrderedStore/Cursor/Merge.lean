/-
Cursors over a view with pending writes laid over it: what the view holds,
with pending values added and pending deletions taken away.

Two sides are met in one order: the pending entries from a bound on, and a
cursor on the view. Whichever is met first has its turn. A pending entry
uses up its turn and moves the bound behind it, and it takes the view's
pair of the same key along; a pending deletion shows nothing.

The pending entries are not part of the cursor: every step is given those
of the moment, so what is written while a cursor is open shows when the
cursor comes to it.
-/
import OrderedStore.Cursor.Store

namespace OrderedStore

/-- Entries that are to be written over a view. -/
abbrev Pending := KeyMap Entry

/-- What a merging cursor stands on. -/
inductive Standing where
  | nowhere
  | onView
  | onPending (key value : Bytes)

/-- A cursor on the view, the bound of the pending entries whose turn is to
come, and what the cursor stands on. -/
structure MergeCursor where
  base : StoreCursor
  ahead : Bound
  standing : Standing

namespace MergeCursor

/-- A cursor that stands nowhere yet. -/
def start (w : View) (d : Direction) : MergeCursor :=
  ⟨StoreCursor.start w d, .unbounded, .nowhere⟩

/-- The way of the cursor. -/
def direction (c : MergeCursor) : Direction :=
  c.base.direction

/-- The pair the cursor stands on. -/
def current (c : MergeCursor) : Option (Bytes × Bytes) :=
  match c.standing with
  | .nowhere => none
  | .onView => c.base.current
  | .onPending k value => some (k, value)

/-- Stands on the view's pair, if there is one. -/
def onBase (c : MergeCursor) : MergeCursor :=
  { c with standing := if c.base.current.isSome then .onView else .nowhere }

/-- Whether the view's pair is met before the key. -/
def viewFirst (c : MergeCursor) (k : Bytes) : Bool :=
  match c.base.current with
  | none => false
  | some (l, _) => c.direction.before l k

/-- The cursor on the view, moved on if it stands on the key. -/
def consume (mem : Memory) (c : MergeCursor) (k : Bytes) : Except Failure StoreCursor :=
  match c.base.current with
  | none => .ok c.base
  | some (l, _) => if k = l then c.base.next mem else .ok c.base

/-- Gives each side its turn until there is something to stand on. The
pending entries from the bound on are given in the order they are met. -/
def settleOver (mem : Memory) : MergeCursor → List (Bytes × Entry) →
    Except Failure MergeCursor
  | c, [] => .ok c.onBase
  | c, (k, e) :: rest =>
    if c.viewFirst k then .ok { c with standing := .onView }
    else
      match c.consume mem k with
      | .error f => .error f
      | .ok base =>
        let c := { c with base := base, ahead := .excluded k }
        match e with
        | .value value => .ok { c with standing := .onPending k value }
        | .tombstone => settleOver mem c rest

/-- Gives each side its turn until there is something to stand on. -/
def settle (mem : Memory) (pending : Pending) (c : MergeCursor) :
    Except Failure MergeCursor :=
  settleOver mem c (pending.beyond c.ahead c.direction)

/-- To the next pair. A cursor that stands nowhere stays there. -/
def next (mem : Memory) (pending : Pending) (c : MergeCursor) :
    Except Failure MergeCursor :=
  match c.standing with
  | .nowhere => .ok c
  | .onPending _ _ => c.settle mem pending
  | .onView =>
    match c.base.next mem with
    | .ok base => { c with base := base }.settle mem pending
    | .error f => .error f

/-- To the nearest pair at or beyond the key, on the latest view. -/
def seek (mem : Memory) (pending : Pending) (latest : View) (c : MergeCursor)
    (target : Bytes) : Except Failure MergeCursor :=
  match (StoreCursor.start latest c.direction).seek mem target with
  | .ok base => { c with base := base, ahead := .included target }.settle mem pending
  | .error f => .error f

/-- To the first pair, on the latest view. -/
def rewind (mem : Memory) (pending : Pending) (latest : View) (c : MergeCursor) :
    Except Failure MergeCursor :=
  match (StoreCursor.start latest c.direction).rewind mem with
  | .ok base => { c with base := base, ahead := .unbounded }.settle mem pending
  | .error f => .error f

end MergeCursor

end OrderedStore
