/-
Reading a range of keys backward. The keys that begin with a string end
before its successor: the shortest string that is above all of them. A
string of nothing but all-ones bytes has no successor, and then the keys
go on to the end.
-/
import OrderedStore.ReadView

namespace OrderedStore

/-- The least string above every string that begins with this one: its last
byte that can be raised is raised, and what follows it dropped. -/
def Bytes.successor? : Bytes → Option Bytes
  | [] => none
  | b :: bs =>
    match successor? bs with
    | some up => some (b :: up)
    | none => if b < 0xFF then some [b + 1] else none

namespace ReadView

/-- The pairs from the cursor's on whose keys begin with the string, at
most `limit` of them. Keys above the range are passed over, the first below
it ends the search. -/
def takeBackward (mem : Memory) (r : ReadView) (lead : Bytes) :
    Nat → Nat → Cursor → Except Failure (List (Bytes × Bytes))
  | 0, _, _ => .ok []
  | _ + 1, 0, _ => .ok []
  | fuel + 1, limit + 1, c =>
    match c.current with
    | none => .ok []
    | some p =>
      if lead.isPrefixOf p.1 then
        match r.next mem c with
        | .error f => .error f
        | .ok c =>
          match takeBackward mem r lead fuel limit c with
          | .error f => .error f
          | .ok ps => .ok (p :: ps)
      else if p.1 < lead then .ok []
      else
        match r.next mem c with
        | .error f => .error f
        | .ok c => takeBackward mem r lead fuel (limit + 1) c

/-- The last `limit` live pairs whose keys begin with the string, last
first. -/
def scanBackward (mem : Memory) (r : ReadView) (lead : Bytes) (limit : Nat) :
    Except Failure (List (Bytes × Bytes)) := do
  let c ← r.cursor mem .reverse
  let c ← match lead.successor? with
    | some up => r.seek mem up c
    | none => pure c
  r.takeBackward mem lead (r.extent mem + 1) limit c

end ReadView

end OrderedStore
