/-
A directory of tables. Tables have numbers; the one with the highest number
is the newest. A table is written under a temporary name and renamed when
it is complete, so a file under a table's name is always a whole table.
-/
import OrderedStore.Memtable
import OrderedStore.Table.Builder
import OrderedStore.Tables
import OrderedStore.Text.Decimal

namespace OrderedStore

/-- The directory, its tables, newest first, and the number of the next
table. -/
structure Catalog where
  directory : Path
  tables : Tables
  nextId : UInt64

namespace Catalog

-- ================================================================= names

/-- The file name of a table. -/
def tableName (id : UInt64) : String :=
  "sstable_" ++ Text.paddedDecimal 6 id.toNat ++ ".sst"

/-- What stands before and after the last dot of a file name. A dot in
front counts as part of the name, and so does a lone one. -/
def splitExtension (name : String) : String × Option String :=
  let backwards := name.toList.reverse
  let extension := backwards.takeWhile (· ≠ '.')
  match backwards.dropWhile (· ≠ '.') with
  | [] => (name, none)
  | _ :: stem =>
    if stem.isEmpty || name == ".." then (name, none)
    else (String.ofList stem.reverse, some (String.ofList extension.reverse))

/-- What follows `lead` in a list that begins with it. -/
def after? : List Char → List Char → Option (List Char)
  | [], cs => some cs
  | _ :: _, [] => none
  | a :: lead, c :: cs => if a = c then after? lead cs else none

/-- The table number in a file name, if it is a table's. -/
def tableId? (name : String) : Option UInt64 :=
  match splitExtension name with
  | (stem, some extension) =>
    if extension = "sst" then
      (after? "sstable_".toList stem.toList).bind Text.readDecimal
    else none
  | _ => none

/-- Whether the file name is that of a table left unfinished. -/
def isUnfinished (name : String) : Bool :=
  (splitExtension name).2 == some "tmp"

-- =============================================================== opening

/-- The list with `id` in its place among descending numbers. -/
def insertDescending (id : UInt64) : List UInt64 → List UInt64
  | [] => [id]
  | other :: rest =>
    if other ≤ id then id :: other :: rest else other :: insertDescending id rest

/-- Removes unfinished tables. -/
def removeUnfinished (directory : Path) : List (String × Node) → Disk Unit
  | [] => return ()
  | (name, node) :: rest => do
    if node ≠ .directory && isUnfinished name then
      Disk.removeFile (directory ++ [name])
    removeUnfinished directory rest

/-- The numbers of the tables in a directory, highest first. -/
def tableIds (children : List (String × Node)) : List UInt64 :=
  (children.filterMap fun child =>
    if child.2 = .directory then none else tableId? child.1).foldr insertDescending []

/-- Opens the tables with these numbers. -/
def openTables (directory : Path) : List UInt64 → Disk Tables
  | [] => return []
  | id :: ids => do
    let t ← Table.openAt (directory ++ [tableName id])
    return t :: (← openTables directory ids)

/-- Opens a directory of tables, or makes it. -/
def openAt (directory : Path) : Disk Catalog := do
  Disk.createDirectories directory
  let children := (← get).children directory
  removeUnfinished directory children
  let ids := tableIds children
  let tables ← openTables directory ids
  return ⟨directory, tables, match ids.head? with
    | some id => id + 1
    | none => 1⟩

-- ============================================================== flushing

/-- Writes entries, in ascending key order, to a new table file. -/
def writeTable (p : Path) (entries : List (Bytes × Entry)) : Disk Table.Report := do
  let b ← Table.Builder.start p
  let b ← entries.foldlM (fun b e => b.add e.1 e.2) b
  b.finish

/-- Writes a table under a temporary name, gives it its own, and opens
it. -/
def install (directory : Path) (id : UInt64) (entries : List (Bytes × Entry)) :
    Disk Table := do
  let target := directory ++ [tableName id]
  let temporary := directory ++ [tableName id ++ ".tmp"]
  let _ ← writeTable temporary entries
  Disk.rename temporary target
  Table.openAt target

/-- Makes a table of the newest versions in a memtable and puts it in
front. Answers whether that worked, and the directory as it is now: a
number that was tried is not used again. -/
def flush (c : Catalog) (m : Memtable) : Disk (Except Failure Unit × Catalog) :=
  if m.isEmpty then return (.error (.table .nothingToFlush), c)
  else
    let tried := { c with nextId := c.nextId + 1 }
    tryCatch
      (do
        let t ← install c.directory c.nextId m.latest
        return (.ok (), { tried with tables := t :: c.tables }))
      (fun failure => return (.error failure, tried))

end Catalog

end OrderedStore
