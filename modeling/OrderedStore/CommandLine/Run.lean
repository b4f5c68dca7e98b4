/-
Running the command line: the arguments and a volume in, an exit code, the
text for standard output and the volume out.

Arguments that cannot be understood exit with 2, a store that cannot be
opened or an index that cannot exist with 1. A run that a failing store
brings to its end is aborted and has no exit code.
-/
import OrderedStore.Backward
import OrderedStore.CommandLine.Arguments
import OrderedStore.Index.Basic

namespace OrderedStore.CommandLine

/-- What a run leaves: its exit code, unless it is aborted, and what it
prints. -/
structure Outcome where
  exitCode? : Option UInt32
  output : String
deriving DecidableEq, Repr

/-- Lines, each with its end. -/
def unlines (lines : List String) : String :=
  String.join (lines.map fun line => line ++ "\n")

/-- A pair as it is listed. -/
def pairLine (p : Bytes × Bytes) : String :=
  Text.shown p.1 ++ "\t" ++ Text.shown p.2

/-- A document as it is listed. -/
def hitLine (hit : DocKey × List String) : String :=
  hit.1.docId ++ "\t" ++ hit.1.sortKey ++ "\t[" ++ String.intercalate ", " hit.2 ++ "]"

/-- What is reported of the engine. -/
def statsLines (directory : String) (s : Stats) : List String :=
  ["data_dir:        " ++ directory,
   "memtable_bytes:  " ++ toString s.memtableBytes,
   "memtable_keys:   " ++ toString s.memtableKeys,
   "sstables:        " ++ toString s.tables,
   "last_sequence:   " ++ toString s.lastSeq.toNat]

/-- A step with an index: it is opened and brought up to date first. The
index may not exist, which is a failure and not the end. Its marks are
stamped from the engine's time on. -/
def withIndex (name : String) (step : Index → DbM (List String)) :
    DbM (Except Failure (List String)) := do
  let clock := (← get).engine.clock
  match Index.openNamed name IndexSettings.standard (clock * 1000000) with
  | .error f => return .error f
  | .ok x =>
    let _ ← x.sweep
    return .ok (← step x)

/-- Changes an index in a transaction of its own and brings it up to
date. -/
def changeIndex (x : Index) (change : Index → WriteM Unit Index) : DbM Unit := do
  let (x, target, _) ← (change x).runOn (.transaction Transaction.empty)
  match target with
  | .transaction t => let _ ← t.commit
  | .database => pure ()
  let _ ← x.sweep

/-- Carries out a command. Answers the lines to print. -/
def perform (inv : Invocation) : DbM (Except Failure (List String)) := do
  match inv.command with
  | .get key =>
    match ← Database.get (Text.toBytes key) with
    | some value => return .ok [Text.shown value]
    | none => return .ok ["(nil)"]
  | .put key value =>
    Database.put (Text.toBytes key) (Text.toBytes value)
    return .ok ["OK"]
  | .delete key =>
    let found ← Database.get (Text.toBytes key)
    Database.delete (Text.toBytes key)
    return .ok [if found.isSome then "1" else "0"]
  | .scan lead reverse limit =>
    let r ← Database.readView
    let lead := Text.toBytes lead
    let pairs ← Database.reading fun mem =>
      if reverse then r.scanBackward mem lead limit
      else (r.scan mem lead).map fun pairs => pairs.take limit
    return .ok (pairs.map pairLine)
  | .index docId text sortKey verbatim =>
    withIndex inv.index fun x => do
      let terms := if verbatim then [Term.verbatim text] else Term.ofText text
      changeIndex x fun x => x.update docId sortKey terms
      return ["indexed " ++ toString terms.length ++ " terms"]
  | .unindex docId =>
    withIndex inv.index fun x => do
      changeIndex x fun x => x.remove docId
      return ["OK"]
  | .search text limit =>
    withIndex inv.index fun x => do
      match Query.ofText? text with
      | none => return []
      | some q =>
        let r ← Database.readView
        let hits ← Database.reading fun mem => do
          let found ← x.keys.search mem r q
          found.take mem r (min limit (r.extent mem + 1))
        return hits.map hitLine
  | .suggest lead limit =>
    withIndex inv.index fun x => do
      let r ← Database.readView
      let found ← Database.reading fun mem =>
        x.keys.suggestions mem r (String.ofList (Text.lower lead.toList)) limit
      return found.map fun s => s.term ++ "\t" ++ toString s.count.toNat
  | .stats =>
    return .ok (statsLines inv.directory (← get).stats)

/-- Carries out a command and closes the database, unless the command
failed. -/
def performAndClose (inv : Invocation) : DbM (Except Failure (List String)) := do
  match ← perform inv with
  | .error f => return .error f
  | .ok lines =>
    Database.close
    return .ok lines

/-- The path that a directory argument stands for. -/
def pathOf (directory : String) : Path :=
  match directory.splitOn "/" with
  | [] => []
  | first :: rest => first :: rest.filter (· ≠ "")

/-- What is printed of the program itself. -/
def versionLine : String :=
  "tidekv-cli " ++ version

/-- Carries out an invocation on the store in its directory. -/
def invoke (inv : Invocation) (clock : UInt64) (v : Volume) : Outcome × Volume :=
  let settings := { Settings.standard with directory := inv.directory }
  match Engine.openAt settings (pathOf inv.directory) clock v with
  | .error _ v => (⟨some 1, ""⟩, v)
  | .ok engine v =>
    match performAndClose inv (Store.opened v engine) with
    | .ok (.ok lines) s => (⟨some 0, unlines lines⟩, s.volume)
    | .ok (.error _) s => (⟨some 1, ""⟩, s.volume)
    | .error _ s => (⟨none, ""⟩, s.volume)

/-- Runs the command line at a time in milliseconds. -/
def run (arguments : List String) (clock : UInt64) (v : Volume) : Outcome × Volume :=
  match Request.ofArguments? arguments with
  | none => (⟨some 2, ""⟩, v)
  | some .version => (⟨some 0, unlines [versionLine]⟩, v)
  | some (.invoke inv) => invoke inv clock v

end OrderedStore.CommandLine
