/-
The arguments of the command line.

    [-d DIR] [-i NAME] COMMAND ...
    [-d DIR] [-i NAME] --version

    get KEY          put KEY VALUE        del KEY
    scan [-p LEAD] [-r] [-l LIMIT]
    index DOC TEXT [-s SORTKEY] [--verbatim]      unindex DOC
    search TEXT [-l LIMIT]                        suggest LEAD [-l LIMIT]
    stats

An option has a long name and most have a short one. Its value is the next
argument, or is put behind the name, with an equals sign or, after a short
name, without. Short names can be put together. An option is given once at
most, and two hyphens end the options. The option that asks for the version
ends the reading where it stands, whatever follows it.
-/
import OrderedStore.Settings
import OrderedStore.Text.Decimal

namespace OrderedStore.CommandLine

-- =============================================================== options

/-- What an option does: it is a mark, it has a value, or it ends the
reading. -/
inductive Role where
  | mark
  | value
  | last
deriving DecidableEq, Repr

/-- An option: its long name, its short one, and what it does. -/
structure Switch where
  long : String
  short : Option Char
  role : Role

/-- What was given: options with their values, and the other arguments. -/
structure Given where
  options : List (String × String)
  rest : List String

/-- The options with one more, unless it is there already. -/
def addOption (name value : String) (g : Given) : Option Given :=
  if (g.options.lookup name).isSome then none
  else some { g with options := (name, value) :: g.options }

/-- Whether the argument can be no option: it does not begin with a hyphen
or is nothing but one. -/
def isPlain (argument : String) : Bool :=
  argument == "-" || !argument.startsWith "-"

/-- Where to go on after an option. -/
inductive Cluster where
  /-- With the next argument. -/
  | done (g : Given)
  /-- With the next argument, which is the value of this option. -/
  | wants (name : String) (g : Given)
  /-- Nowhere. -/
  | ended (g : Given)

/-- Short options put together. -/
def readCluster (switches : List Switch) : List Char → Given → Option Cluster
  | [], g => some (.done g)
  | c :: cs, g => do
    let s ← switches.find? fun s => s.short == some c
    match s.role, cs with
    | .value, [] => some (.wants s.long g)
    | .value, '=' :: value => return .done (← addOption s.long (String.ofList value) g)
    | .value, value => return .done (← addOption s.long (String.ofList value) g)
    | .mark, _ => readCluster switches cs (← addOption s.long "" g)
    | .last, _ => return .ended (← addOption s.long "" g)

/-- A long option, without its hyphens. -/
def readLong (switches : List Switch) (cs : List Char) (g : Given) : Option Cluster := do
  let name := String.ofList (cs.takeWhile (· ≠ '='))
  let s ← switches.find? fun s => s.long == name
  match cs.dropWhile (· ≠ '='), s.role with
  | [], .value => some (.wants s.long g)
  | [], .mark => return .done (← addOption s.long "" g)
  | [], .last => return .ended (← addOption s.long "" g)
  | _ :: value, .value => return .done (← addOption s.long (String.ofList value) g)
  | _ :: _, _ => none

/-- Reads arguments. `pending` is an option that waits for its value. With
`stopAtPlain` the first argument that is no option ends the reading, and
stays with all that follow it. -/
def readArguments (switches : List Switch) (stopAtPlain : Bool) :
    Option String → List String → Given → Option Given
  | some _, [], _ => none
  | some name, a :: as, g => do
    if isPlain a then
      readArguments switches stopAtPlain none as (← addOption name a g)
    else none
  | none, [], g => some { g with rest := g.rest.reverse }
  | none, a :: as, g => do
    if isPlain a then
      if stopAtPlain then some { g with rest := a :: as }
      else readArguments switches stopAtPlain none as { g with rest := a :: g.rest }
    else if a = "--" then
      if stopAtPlain then none else some { g with rest := g.rest.reverse ++ as }
    else
      let next ← match a.toList with
        | '-' :: '-' :: cs => readLong switches cs g
        | _ :: cs => readCluster switches cs g
        | [] => none
      match next with
      | .done g => readArguments switches stopAtPlain none as g
      | .wants name g => readArguments switches stopAtPlain (some name) as g
      | .ended g => some { g with rest := [] }

-- ============================================================== commands

/-- What is to be done. -/
inductive Command where
  | get (key : String)
  | put (key value : String)
  | delete (key : String)
  | scan (lead : String) (reverse : Bool) (limit : Nat)
  | index (docId text sortKey : String) (verbatim : Bool)
  | unindex (docId : String)
  | search (text : String) (limit : Nat)
  | suggest (lead : String) (limit : Nat)
  | stats
deriving DecidableEq, Repr

/-- What is to be done, where, and with which index. -/
structure Invocation where
  directory : String
  index : String
  command : Command
deriving DecidableEq, Repr

/-- The options before the command. -/
def commonSwitches : List Switch :=
  [⟨"data-dir", some 'd', .value⟩, ⟨"index", some 'i', .value⟩,
   ⟨"version", some 'V', .last⟩]

/-- The option that limits what is listed. -/
def limitSwitch : Switch :=
  ⟨"limit", some 'l', .value⟩

/-- The options of a command. -/
def switchesOf (command : String) : List Switch :=
  match command with
  | "scan" => [⟨"prefix", some 'p', .value⟩, ⟨"reverse", some 'r', .mark⟩, limitSwitch]
  | "index" => [⟨"sort-key", some 's', .value⟩, ⟨"verbatim", none, .mark⟩]
  | "search" => [limitSwitch]
  | "suggest" => [limitSwitch]
  | _ => []

/-- The limit that is given, or the usual one. -/
def limitOf (g : Given) (usual : Nat) : Option Nat :=
  match g.options.lookup "limit" with
  | none => some usual
  | some s => (Text.readDecimal s.toList).map UInt64.toNat

/-- The command that its name, options and arguments make. -/
def commandOf? (name : String) (g : Given) : Option Command :=
  match name, g.rest with
  | "get", [key] => some (.get key)
  | "put", [key, value] => some (.put key value)
  | "del", [key] => some (.delete key)
  | "scan", [] => do
    let limit ← limitOf g 100
    return .scan ((g.options.lookup "prefix").getD "")
      (g.options.lookup "reverse").isSome limit
  | "index", [docId, text] =>
    some (.index docId text ((g.options.lookup "sort-key").getD docId)
      (g.options.lookup "verbatim").isSome)
  | "unindex", [docId] => some (.unindex docId)
  | "search", [text] => do return .search text (← limitOf g 20)
  | "suggest", [lead] => do return .suggest lead (← limitOf g 10)
  | "stats", [] => some .stats
  | _, _ => none

/-- What is asked of the program. -/
inductive Request where
  | version
  | invoke (inv : Invocation)
deriving DecidableEq, Repr

/-- What the arguments ask for, if they can be understood. -/
def Request.ofArguments? (arguments : List String) : Option Request := do
  let common ← readArguments commonSwitches true none arguments ⟨[], []⟩
  if common.options.lookup "data-dir" = some "" then none
  if (common.options.lookup "version").isSome then return .version
  match common.rest with
  | [] => none
  | name :: rest =>
    let given ← readArguments (switchesOf name) false none rest ⟨[], []⟩
    let command ← commandOf? name given
    return .invoke
      { directory := (common.options.lookup "data-dir").getD Settings.standard.directory
        index := (common.options.lookup "index").getD "default"
        command := command }

end OrderedStore.CommandLine
