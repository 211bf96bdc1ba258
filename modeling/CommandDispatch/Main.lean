import CommandDispatch.CommandLine.Run

/-!
# The command line tool

Reads a directory, and prints or writes the dispatcher of its program.
-/

namespace CommandDispatch.Main

open CommandLine Dispatcher Files Scan

def readFault : IO.Error → ReadFault
  | .noFileOrDirectory .. => .notFound
  | .inappropriateType .. => .notADirectory
  | _ => .otherFault

def readFiles (directory : String) : IO (Except ReadFault (List NamedFile)) := do
  let root ← IO.currentDir
  try
    let mut files := #[]
    for entry in ← (root / directory).readDir do
      if isSourceName entry.fileName && !(← entry.path.isDir) then
        let text ← try
            pure (Tree.textOf (← IO.FS.readBinFile entry.path))
          catch e => pure (.error (readFault e))
        files := files.push ⟨entry.fileName, text⟩
    return .ok files.toList
  catch e => return .error (readFault e)

def report (e : RunError) (cause? : Option String) : IO UInt32 := do
  IO.eprintln ("Error: " ++ e.context)
  if let some cause := cause? then
    IO.eprintln ("\nCaused by:\n    " ++ cause)
  return 1

def deliver (o : Options) (text : String) : IO UInt32 := do
  if o.toStandardOutput then
    IO.print text
    return 0
  try
    IO.FS.writeFile ((← IO.currentDir) / o.target) text
    return 0
  catch e => report (.write o.target) (some (toString e))

def usage : String :=
  "Usage: cligen [OPTIONS] [DIR]\n\n" ++
  "  -o, --output <FILE>      the file to write, unless <DIR>/commands.cligen.rs\n" ++
  "  -m, --module <NAME>      the name of the generated module, unless cli\n" ++
  "      --crate-path <PATH>  the path of the scanned functions, unless crate\n" ++
  "      --stdout             print the text instead of writing it\n" ++
  "  -v, --verbose            tell more\n" ++
  "  -h, --help               show this message\n" ++
  "  -V, --version            show the version\n"

/-- Answers arguments that give no options. -/
def answerUsage : UsageError → IO UInt32
  | .displayHelp => do
    IO.print usage
    return 0
  | .displayVersion => do
    IO.println "cligen 0.1.0"
    return 0
  | _ => do
    IO.eprint usage
    return 2

end CommandDispatch.Main

open CommandDispatch.CommandLine CommandDispatch.Main in
def main (arguments : List String) : IO UInt32 := do
  match Options.read arguments with
  | .error e => answerUsage e
  | .ok o =>
    match dispatcherText o (← readFiles o.directory) with
    | .error e => report e e.cause?
    | .ok text => deliver o text
