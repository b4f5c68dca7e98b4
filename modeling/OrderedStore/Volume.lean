/-
A volume: named files and directories.

A name leads to a directory or to a file, and a file is its number. Whoever
has opened a file holds the number, so a file that is renamed or removed
goes on existing for those who hold it, and a file written in place changes
for all of them.

A step on a volume may fail; what it did before that stays done.
-/
import OrderedStore.Content
import OrderedStore.Failure

namespace OrderedStore

/-- A path, as its parts from the outside in. -/
abbrev Path := List String

/-- The path as it is shown. -/
def Path.display (p : Path) : String :=
  String.intercalate "/" p

/-- What a name leads to. -/
inductive Node where
  | directory
  | file (number : Nat)
deriving DecidableEq, Repr

/-- The names of a volume, and the contents of its files by number. -/
structure Volume where
  names : List (Path × Node)
  contents : List Content

/-- A step on a volume. -/
abbrev Disk := EStateM Failure Volume

namespace Volume

/-- Nothing but the outermost directory, which has no name. -/
def empty : Volume :=
  ⟨[], []⟩

/-- What the path leads to. -/
def node? (v : Volume) (p : Path) : Option Node :=
  if p = [] then some .directory
  else v.names.lookup p

/-- The file's content. -/
def file (v : Volume) (number : Nat) : Content :=
  v.contents.getD number Content.empty

/-- What the file holds. -/
def content (v : Volume) (number : Nat) : Bytes :=
  (v.file number).toBytes

/-- The file, holding `bs`. -/
def setContent (v : Volume) (number : Nat) (bs : Bytes) : Volume :=
  { v with contents := v.contents.set number (.ofBytes bs) }

/-- The file, cut or stretched to `length` bytes. -/
def resize (v : Volume) (number length : Nat) : Volume :=
  { v with contents := v.contents.set number ((v.file number).resize length) }

/-- The name without what it leads to. -/
def unbind (v : Volume) (p : Path) : Volume :=
  { v with names := v.names.filter fun entry => entry.1 ≠ p }

/-- The name, leading to `node` from now on. -/
def bind (v : Volume) (p : Path) (node : Node) : Volume :=
  { v with names := (p, node) :: (v.unbind p).names }

/-- The volume with a new file under the path. -/
def addFile (v : Volume) (p : Path) (bs : Bytes) : Volume :=
  { v.bind p (.file v.contents.length) with contents := v.contents ++ [.ofBytes bs] }

/-- Whether a file can be made at the path: its directory is there. -/
def hasParent (v : Volume) (p : Path) : Bool :=
  p ≠ [] && v.node? p.dropLast == some .directory

/-- The names in a directory, and what they lead to. -/
def children (v : Volume) (p : Path) : List (String × Node) :=
  v.names.filterMap fun entry =>
    if entry.1.dropLast = p then entry.1.getLast?.map fun name => (name, entry.2)
    else none

end Volume

namespace Disk

/-- What the path leads to. -/
def node? (p : Path) : Disk (Option Node) := do
  return (← get).node? p

/-- What the file holds. -/
def content (number : Nat) : Disk Bytes := do
  return (← get).content number

/-- What can be read through a node: a directory has no bytes to read. -/
def read (node : Node) : Disk Bytes :=
  match node with
  | .directory => throw .io
  | .file number => content number

/-- The node at the path, which has to exist. -/
def existing (p : Path) : Disk Node := do
  match ← node? p with
  | some node => return node
  | none => throw .io

/-- The file at the path, which has to exist. -/
def existingFile (p : Path) : Disk Nat := do
  match ← existing p with
  | .file number => return number
  | .directory => throw .io

/-- The content that can be read through a node. -/
def contentOf (node : Node) : Disk Content := do
  match node with
  | .directory => throw .io
  | .file number => return (← get).file number

/-- The file holds `bs` from now on. -/
def setContent (number : Nat) (bs : Bytes) : Disk Unit :=
  modify fun v => v.setContent number bs

/-- The file is cut or stretched to `length` bytes. -/
def resize (number length : Nat) : Disk Unit :=
  modify fun v => v.resize number length

/-- More bytes at the end of the file. -/
def append (number : Nat) (bs : Bytes) : Disk Unit := do
  setContent number ((← content number) ++ bs)

/-- Bytes laid over the file's own from `offset` on. -/
def overwrite (number offset : Nat) (bs : Bytes) : Disk Unit := do
  setContent number (Bytes.overwrite (← content number) offset bs)

/-- The file at the path, a new one if there is none. -/
def openOrCreate (p : Path) : Disk Nat := do
  let v ← get
  match v.node? p with
  | some (.file number) => return number
  | some .directory => throw .io
  | none =>
    if v.hasParent p then
      set (v.addFile p [])
      return v.contents.length
    else throw .io

/-- The file at the path, emptied, or a new one. -/
def create (p : Path) : Disk Nat := do
  let number ← openOrCreate p
  setContent number []
  return number

/-- Directories are made one inside the other where none are; `outer` is
the directory reached so far. -/
def createDirectoriesFrom (outer : Path) : List String → Disk Unit
  | [] => return ()
  | name :: names => do
    let p := outer ++ [name]
    match ← node? p with
    | some .directory => pure ()
    | some (.file _) => throw .io
    | none => modify fun v => v.bind p .directory
    createDirectoriesFrom p names

/-- The directory at the path and those around it, where they are not
there yet. -/
def createDirectories (p : Path) : Disk Unit :=
  createDirectoriesFrom [] p

/-- The file at `source` is found at `target` from now on, instead of what
was there. -/
def rename (source target : Path) : Disk Unit := do
  let number ← existingFile source
  match ← node? target with
  | some .directory => throw .io
  | _ => modify fun v => (v.unbind source).bind target (.file number)

/-- The name of a file goes; whoever holds the file keeps it. -/
def removeFile (p : Path) : Disk Unit := do
  let _ ← existingFile p
  modify fun v => v.unbind p

end Disk

end OrderedStore
