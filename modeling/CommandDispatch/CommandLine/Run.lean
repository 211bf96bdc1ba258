import CommandDispatch.CommandLine.Options
import CommandDispatch.Dispatcher.Generate
import CommandDispatch.Files.Tree
import CommandDispatch.Scan.Directory

/-!
# Running the tool

A run scans a directory, generates the dispatcher of its program, and prints or writes it. Nothing
is printed or written unless all of it succeeded.
-/

namespace CommandDispatch.CommandLine

open Dispatcher Files Scan

/-- Why a run fails. -/
inductive RunError where
  | scan (directory : String) (cause : ScanError)
  | generation (moduleName : String) (cause : GenerationError)
  | write (path : String)
deriving Repr, DecidableEq

/-- What a run was about when it failed. -/
def RunError.context : RunError → String
  | scan directory _ => "failed to scan " ++ directory
  | generation moduleName _ => "failed to generate module `" ++ moduleName ++ "`"
  | write path => "failed to write " ++ path

def RunError.cause? : RunError → Option String
  | scan _ e => some e.message
  | generation _ e => some e.message
  | write _ => none

def Options.scanOptions (o : Options) : ScanOptions where
  moduleName := o.moduleName
  rootPath := o.rootPath

/-- The path of the file to write: unless it is given, a file in the directory. -/
def Options.target (o : Options) : String :=
  o.output.getD (joinPath o.directory "commands.cligen.rs")

/-- The program of a directory, from the files in it. -/
def scanProgram (o : Options) (files : Except ReadFault (List NamedFile)) :
    Except ScanError Command.Program :=
  match files with
  | .ok files => scan o.directory o.scanOptions files
  | .error fault => .error (.unreadable o.directory fault)

/-- The text of the dispatcher of a directory, from the files in it. -/
def dispatcherText (o : Options) (files : Except ReadFault (List NamedFile)) :
    Except RunError String := do
  let program ← (scanProgram o files).mapError (.scan o.directory)
  (generate program).mapError (.generation o.moduleName)

/-- What a run leaves behind. -/
structure Outcome where
  printed : String := ""
  files : Tree
  error : Option RunError := none

def deliver (o : Options) (here : Place) (text : String) (files : Tree) : Outcome :=
  if o.toStandardOutput then { printed := text, files }
  else
    match files.write? here o.target text with
    | some written => { files := written }
    | none => { files, error := some (.write o.target) }

/-- Runs the tool on a tree of files, in the working directory `here`. -/
def run (o : Options) (here : Place) (files : Tree) : Outcome :=
  match dispatcherText o (files.list here o.directory) with
  | .error e => { files, error := some e }
  | .ok text => deliver o here text files

end CommandDispatch.CommandLine
