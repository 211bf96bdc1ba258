import CommandDispatch.Command.Program
import CommandDispatch.Scan.Function
import CommandDispatch.Source.File

/-!
# Scanning a directory

The sources of a directory are its files whose names end in `.rs`, without those that were
generated. They are read in the order of their names. All their commands make one program; two
commands whose names have the same lower-case form exclude each other.
-/

namespace CommandDispatch.Scan

open Command Files Source Text

/-- How a directory is scanned. -/
structure ScanOptions where
  /-- The name of the module to generate. -/
  moduleName : String := "cli"
  /-- The path that leads to the scanned functions. -/
  rootPath : String := "crate"

def isSourceName (name : String) : Bool :=
  endsWith name ".rs" && !endsWith name ".cligen.rs"

/-- The name of a file without its last extension. A dot at the start of the name begins no
extension. -/
def stem (name : String) : String :=
  let cs := name.toList.reverse
  match cs.dropWhile (· != '.') with
  | _ :: before => if before.isEmpty then name else String.ofList before.reverse
  | [] => name

/-- The path of the module in a file. The files that hold a whole module or library stand for the
path itself. -/
def modulePath (rootPath name : String) : String :=
  let s := stem name
  if ["lib", "main", "mod", ""].contains s then rootPath else rootPath ++ "::" ++ s

def scanText (path modulePath text : String) : Except ScanError (List Command) :=
  match parseFile text with
  | some items => commandsOf modulePath items
  | none => .error (.malformed path)

def scanFile (directory : String) (options : ScanOptions) (f : NamedFile) :
    Except ScanError (List Command) := do
  let path := joinPath directory f.name
  let text ← f.text.mapError (.unreadable path)
  scanText path (modulePath options.rootPath f.name) text

/-- A program while its files are scanned, with the targets of its commands by the lower-case forms
of their names. -/
structure Collected where
  program : Program
  owners : Std.ExtTreeMap String String := ∅

def Collected.add (s : Collected) (c : Command) : Except ScanError Collected :=
  let key := lower c.exposed
  match s.owners[key]? with
  | some first => .error (.duplicateCommand c.exposed first c.target)
  | none => .ok { program := s.program.insert c, owners := s.owners.insert key c.target }

def Collected.addFile (directory : String) (options : ScanOptions) (s : Collected)
    (f : NamedFile) : Except ScanError Collected := do
  (← scanFile directory options f).foldlM add s

/-- The sources among the files of a directory, in the order of their names. -/
def sources (files : List NamedFile) : List NamedFile :=
  (files.filter fun f => isSourceName f.name).mergeSort fun f g => f.name ≤ g.name

def scan (directory : String) (options : ScanOptions) (files : List NamedFile) :
    Except ScanError Program := do
  let start : Collected := { program := { moduleName := options.moduleName } }
  return (← (sources files).foldlM (Collected.addFile directory options) start).program

end CommandDispatch.Scan
