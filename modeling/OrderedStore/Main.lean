/-
The program. It loads the data directory into a volume, runs the command
line on that and saves what the run changed.

A run reads and writes one file of the directory, the log, and the files of
the directory of tables in it; nothing deeper is loaded.
-/
import OrderedStore.CommandLine.Run
import Std.Time

namespace OrderedStore.CommandLine

/-- The system's name for a path. -/
def systemName (p : Path) : String :=
  if p = [""] then "/" else p.display

/-- The volume with what is found at the path, and the names in it, of a
directory. What is not there is left out. -/
def loadOne (p : Path) (v : Volume) : IO (Volume × List String) := do
  let found ← try some <$> IO.FS.realPath (systemName p) catch _ => pure none
  match found with
  | none => return (v, [])
  | some place =>
    if ← place.isDir then
      let entries ← place.readDir
      return (v.bind p .directory, (entries.map fun entry => entry.fileName).toList)
    else
      let bytes ← IO.FS.readBinFile place
      return (v.addFile p bytes.toList, [])

/-- The volume with what is found at the path and, to a depth, below it. -/
def loadBelow : Nat → Path → Volume → IO Volume
  | 0, _, v => return v
  | depth + 1, p, v => do
    let (v, names) ← loadOne p v
    names.foldlM (fun v name => loadBelow depth (p ++ [name]) v) v

/-- The volume with the path, the directories around it and what is below
it down to the tables. -/
def loadStore (p : Path) : IO Volume := do
  let around := (List.range p.length).map fun n => p.take n
  let v ← (around.filter (· ≠ [])).foldlM (fun v p => do return (← loadOne p v).1) Volume.empty
  loadBelow 3 p v

/-- What the name leads to in the volume: nothing, a directory, or a file
with these bytes. -/
def held (v : Volume) (p : Path) : Option (Option Bytes) :=
  (v.node? p).map fun node =>
    match node with
    | .directory => none
    | .file number => some (v.content number)

/-- Makes the names lead to what they lead to after a run. -/
def save (before after : Volume) : IO Unit := do
  for (p, _) in before.names do
    if (held after p).isNone then IO.FS.removeFile (systemName p)
  for (p, _) in after.names.reverse do
    if held after p ≠ held before p then
      match held after p with
      | some (some bytes) => IO.FS.writeBinFile (systemName p) ⟨bytes.toArray⟩
      | some none => IO.FS.createDirAll (systemName p)
      | none => pure ()

/-- Prints what a run prints. The exit code of an aborted run is the one
that stands for the signal. -/
def report (outcome : Outcome) : IO UInt32 := do
  IO.print outcome.output
  return outcome.exitCode?.getD 134

/-- Runs the command line on the system's own files. -/
def runOnFiles (arguments : List String) : IO UInt32 := do
  match Request.ofArguments? arguments with
  | some (.invoke inv) =>
    let now ← Std.Time.Timestamp.now
    let clock := UInt64.ofNat now.toMillisecondsSinceUnixEpoch.toInt.toNat
    let before ← loadStore (pathOf inv.directory)
    let (outcome, after) := invoke inv clock before
    save before after
    report outcome
  | _ => report (run arguments 0 Volume.empty).1

end OrderedStore.CommandLine

/-- Runs the command line. A file that cannot be read or written is a
failure of the program. -/
def main (arguments : List String) : IO UInt32 :=
  try OrderedStore.CommandLine.runOnFiles arguments catch _ => return 1
