/-
Cursors over one view. A cursor stands on a live pair or nowhere; every
step is a search of its own from the key it stands on, so a cursor holds
nothing of the files between steps.
-/
import OrderedStore.View

namespace OrderedStore

/-- A view, the way through it, and the pair the cursor stands on. -/
structure StoreCursor where
  view : View
  direction : Direction
  current : Option (Bytes × Bytes)

namespace StoreCursor

/-- A cursor that stands nowhere yet. -/
def start (w : View) (d : Direction) : StoreCursor :=
  ⟨w, d, none⟩

/-- To the nearest pair at or beyond the bound. -/
def moveTo (mem : Memory) (c : StoreCursor) (b : Bound) : Except Failure StoreCursor :=
  match c.view.seek mem b c.direction with
  | .ok found => .ok { c with current := found }
  | .error f => .error f

/-- To the next pair. A cursor that stands nowhere stays there. -/
def next (mem : Memory) (c : StoreCursor) : Except Failure StoreCursor :=
  match c.current with
  | none => .ok c
  | some (k, _) => c.moveTo mem (.excluded k)

/-- To the nearest pair at or beyond the key. -/
def seek (mem : Memory) (c : StoreCursor) (target : Bytes) : Except Failure StoreCursor :=
  c.moveTo mem (.included target)

/-- To the first pair. -/
def rewind (mem : Memory) (c : StoreCursor) : Except Failure StoreCursor :=
  c.moveTo mem .unbounded

end StoreCursor

end OrderedStore
