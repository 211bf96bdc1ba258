import CommandDispatch.Dispatcher.Emission
import CommandDispatch.Dispatcher.Printer
import CommandDispatch.Layout.Page
import CommandDispatch.Naming.ChaCha

/-!
# Generating a dispatcher

A program is checked first. Then the words that must not be taken for names are reserved: those that
every dispatcher defines and the first words of the paths that it calls. The names of the dispatcher
are drawn from the allocator in one run, and put in the place of their numbers. The calls are read
before the code is laid out, and the text is read afterwards.
-/

namespace CommandDispatch.Dispatcher

open Command Layout Naming Source Text

/-- What every dispatcher defines. -/
def definedNames : List String :=
  ["Target", "COMMANDS", "USAGE", "lookup", "start"]

def firstWord (p : Path) : List String :=
  (p.segments.head?.map Segment.name).toList

/-- The words that must not be taken for names. -/
def reservedNames (entries : List Entry) : List String :=
  definedNames ++ entries.flatMap fun e => firstWord e.path

def header : String :=
  "// @generated by cligen. Do not edit.\n"

def text (d : Dispatcher String) : String :=
  header ++ render d.doc

/-- Which of the names of a dispatcher are exported: those of the variants. -/
def exportedNames {ι : Type} (d : Dispatcher ι) : List Bool :=
  d.variants.map (fun _ => true) ++ d.locals.map fun _ => false

def withNames (d : Dispatcher Nat) (names : List String) : Dispatcher String :=
  let names := names.toArray
  d.map fun i => names.getD i ""

variable {σ : Type} [Naming.Source σ]

/-- The dispatcher if the calls in it are read, and if there is a layout for all of them. -/
def readCalls (d : Dispatcher String) : Except GenerationError (Dispatcher String) :=
  if !d.arms.all (Arm.isRead .all) then .error .malformed
  else if !d.arms.all (Arm.isRead .laidOut) then .error .unprintable
  else .ok d

/-- The dispatcher of checked commands with names from an allocator. -/
def named (moduleName : String) (entries : List Entry) (a : Allocator σ) :
    Except GenerationError (Dispatcher String) × Allocator σ :=
  if parseName moduleName ≠ some moduleName then (.error (.untrimmedModuleName moduleName), a)
  else
    let d := ofEntries moduleName entries
    match a.nextEach d.exportedNames with
    | (none, b) => (.error .identifiersExhausted, b)
    | (some names, b) => (readCalls (d.withNames names), b)

/-- The dispatcher of a program with names from an allocator. An allocator is left as it is if the
program is refused. -/
def ofProgram (p : Program) (a : Allocator σ) :
    Except GenerationError (Dispatcher String) × Allocator σ :=
  match check p with
  | .error e => (.error e, a)
  | .ok entries => named p.moduleName entries ((reservedNames entries).foldl Allocator.reserve a)

/-- The text of a dispatcher, if it is source text. -/
def checkedText (d : Dispatcher String) : Except GenerationError String :=
  if (parseFile d.text).isNone then .error .malformed else .ok d.text

/-- Generates the text for a program with names from an allocator. -/
def generateWith (p : Program) (a : Allocator σ) : Except GenerationError String × Allocator σ :=
  let (d, b) := ofProgram p a
  (d >>= checkedText, b)

/-- Generates the text for a program with the names of the default seed. -/
def generate (p : Program) : Except GenerationError String :=
  (generateWith p (Allocator.ofSeed defaultSeed)).1

end CommandDispatch.Dispatcher
