/-
Several tables, newest first, read as one. For a key the newest table that
holds it decides.
-/
import OrderedStore.Table.Reader

namespace OrderedStore

/-- Open tables, newest first. -/
abbrev Tables := List Table

namespace Tables

/-- What the tables hold under the key: the entry of the first that holds
it. A table whose range of keys leaves the key out is not asked. -/
def lookup (v : Volume) : Tables → Bytes → Except Failure (Option Entry)
  | [], _ => .ok none
  | t :: ts, k =>
    if t.mightContain k then
      match t.get v k with
      | .ok e => .ok (some e)
      | .error .keyNotFound => lookup v ts k
      | .error f => .error f
    else lookup v ts k

/-- Of two entries met on the way, the newer first, the one met earlier.
Where the keys are equal the newer one counts. -/
def nearer (d : Direction) (newer older : Bytes × Entry) : Bytes × Entry :=
  if d.before older.1 newer.1 then older else newer

/-- The nearest entry at or beyond the bound in any table, given the best
of the newer tables. -/
def seekFrom (v : Volume) (b : Bound) (d : Direction) :
    Option (Bytes × Entry) → Tables → Except Failure (Option (Bytes × Entry))
  | best, [] => .ok best
  | best, t :: ts =>
    match t.seek v b d with
    | .error f => .error f
    | .ok none => seekFrom v b d best ts
    | .ok (some found) =>
      seekFrom v b d
        (some (match best with
          | none => found
          | some held => nearer d held found)) ts

/-- The nearest entry at or beyond the bound in any table. -/
def seek (v : Volume) (ts : Tables) (b : Bound) (d : Direction) :
    Except Failure (Option (Bytes × Entry)) :=
  seekFrom v b d none ts

/-- How many entries the tables have together. -/
def entryCount (ts : Tables) : Nat :=
  ts.foldr (fun t n => t.entryCount + n) 0

end Tables

end OrderedStore
