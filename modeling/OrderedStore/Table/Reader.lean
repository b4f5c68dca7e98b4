/-
Tables opened for reading: the index in memory, the entries in the file.
-/
import OrderedStore.Table.Format
import OrderedStore.Volume

namespace OrderedStore

/-- An open table: its path, its file, and where each key's entry is. -/
structure Table where
  path : Path
  file : Nat
  index : KeyMap Nat

namespace Table

/-- Opens the table file at the path. -/
def openAt (p : Path) : Disk Table := do
  match ← Disk.existing p with
  | .directory => throw .io
  | .file number =>
    match parse p.display (← Disk.content number) with
    | .ok index => return ⟨p, number, index⟩
    | .error fault => throw (.table fault)

/-- How many entries the table has. -/
def entryCount (t : Table) : Nat :=
  t.index.size

/-- What the table says of the key; not to know the key is a failure. -/
def get (v : Volume) (t : Table) (k : Bytes) : Except Failure Entry :=
  match t.index.find? k with
  | some offset => entryAt (v.content t.file) offset
  | none => .error .keyNotFound

/-- The nearest entry at or beyond the bound. -/
def seek (v : Volume) (t : Table) (b : Bound) (d : Direction) :
    Except Failure (Option (Bytes × Entry)) :=
  match t.index.seek b d with
  | none => .ok none
  | some (k, offset) =>
    match entryAt (v.content t.file) offset with
    | .ok e => .ok (some (k, e))
    | .error f => .error f

/-- Whether the key lies between the table's lowest and highest key. -/
def mightContain (t : Table) (k : Bytes) : Bool :=
  match t.index.minKey?, t.index.maxKey? with
  | some low, some high => low ≤ k && k ≤ high
  | _, _ => false

end Table

end OrderedStore
