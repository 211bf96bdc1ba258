import CommandDispatch.Dispatcher.Entry

/-!
# Dispatchers

A dispatcher is a module of source code: a table of commands, a function that looks a name up in it,
and a function `start` that runs a command on raw arguments. Here it is data over the names that the
module binds, apart from those that are the same in every dispatcher.

* `Dispatcher.map` changes the names and nothing else,
* `Dispatcher.binders` lists them in the order in which they are drawn,
* `Dispatcher.ofEntries` is the dispatcher of checked commands, its names numbered in this order.
-/

namespace CommandDispatch.Dispatcher

open Arguments Command Source

/-- A statement that binds an argument of a command. -/
inductive Binding (ι : Type) where
  /-- Binds the value of the positional at an index. -/
  | positional (name : ι) (kind : TextKind) (index : Nat) (label : String)
  /-- Binds the value of a flag, if it is given; `raw` names its text meanwhile. -/
  | flag (name raw : ι) (kind : TextKind) (key label : String)
  /-- Binds the absence of a value. -/
  | absent (name : ι)
deriving Repr, DecidableEq

/-- What is done for a command: a check of the number of positionals, unless none is required, the
bindings of the arguments, and the call. -/
structure Arm (ι : Type) where
  variant : ι
  required : Nat
  bindings : List (Binding ι)
  /-- The path of the function as it was given, and as it is read. -/
  target : String
  path : Path
  /-- The name of an error that the function returns, if it may return one. -/
  error : Option ι

/-- A row of the table of commands. -/
structure Row (ι : Type) where
  variant : ι
  key : String
  exposed : String
  description : String
  target : String
deriving Repr, DecidableEq

/-- The names of the function that looks up a command. -/
structure LookupNames (ι : Type) where
  name : ι
  key : ι
  row : ι
  index : ι
deriving Repr, DecidableEq

/-- The names of the function that runs a command. -/
structure StartNames (ι : Type) where
  input : ι
  first : ι
  target : ι
  flags : ι
  positionals : ι
deriving Repr, DecidableEq

end Dispatcher

open Dispatcher

/-- A module that dispatches to commands. -/
structure Dispatcher (ι : Type) where
  moduleName : String
  rows : List (Row ι)
  lookupNames : LookupNames ι
  usage : String
  startNames : StartNames ι
  arms : List (Arm ι)

namespace Dispatcher

open Arguments Command Source

/-! ## Names -/

section

variable {ι κ : Type}

def Binding.name : Binding ι → ι
  | positional name .. => name
  | flag name .. => name
  | absent name => name

def Binding.binders : Binding ι → List ι
  | positional name .. => [name]
  | flag name raw .. => [name, raw]
  | absent name => [name]

/-- Changes the names of a statement. -/
def Binding.map (f : ι → κ) : Binding ι → Binding κ
  | positional name kind index label => positional (f name) kind index label
  | flag name raw kind key label => flag (f name) (f raw) kind key label
  | absent name => absent (f name)

def Arm.binders (a : Arm ι) : List ι :=
  a.bindings.flatMap Binding.binders ++ a.error.toList

def Arm.map (f : ι → κ) (a : Arm ι) : Arm κ :=
  { a with variant := f a.variant, bindings := a.bindings.map (·.map f), error := a.error.map f }

def Row.map (f : ι → κ) (r : Row ι) : Row κ :=
  { r with variant := f r.variant }

def LookupNames.toList (l : LookupNames ι) : List ι :=
  [l.name, l.key, l.row, l.index]

def LookupNames.map (f : ι → κ) (l : LookupNames ι) : LookupNames κ :=
  ⟨f l.name, f l.key, f l.row, f l.index⟩

def StartNames.toList (s : StartNames ι) : List ι :=
  [s.input, s.first, s.target, s.flags, s.positionals]

def StartNames.map (f : ι → κ) (s : StartNames ι) : StartNames κ :=
  ⟨f s.input, f s.first, f s.target, f s.flags, f s.positionals⟩

def variants (d : Dispatcher ι) : List ι :=
  d.rows.map (·.variant)

def locals (d : Dispatcher ι) : List ι :=
  d.lookupNames.toList ++ d.startNames.toList ++ d.arms.flatMap Arm.binders

/-- The names that the module binds, in the order in which they are drawn. -/
def binders (d : Dispatcher ι) : List ι :=
  d.variants ++ d.locals

def map (f : ι → κ) (d : Dispatcher ι) : Dispatcher κ where
  moduleName := d.moduleName
  rows := d.rows.map (·.map f)
  lookupNames := d.lookupNames.map f
  usage := d.usage
  startNames := d.startNames.map f
  arms := d.arms.map (·.map f)

end

/-! ## The dispatcher of checked commands -/

def parameterUsage (p : Parameter) (position : Nat) : String :=
  let label := p.label position
  if p.isOptional then " [--" ++ Text.lower label ++ "=<" ++ p.kind.text ++ ">]"
  else " <" ++ label ++ ": " ++ p.kind.text ++ ">"

/-- How parameters are shown in the usage text, from a position on. -/
def parametersUsage : Nat → List Parameter → String
  | _, [] => ""
  | position, p :: others => parameterUsage p position ++ parametersUsage (position + 1) others

/-- The lines for a command in the usage text. -/
def commandUsage (c : Command) : String :=
  "  " ++ c.exposed ++ parametersUsage 1 c.signature.arguments ++ "\n" ++
    (if c.description.isEmpty then "" else "      " ++ c.description ++ "\n")

def usageText (entries : List Entry) : String :=
  "Usage: <command> [flags] [arguments]\n\nCommands:\n" ++
    String.join (entries.map fun e => commandUsage e.command) ++
      "  help\n      Show this message\n"

/-- The statement for an argument, its names numbered from `next` on. The index is that of the next
positional. -/
def bindingOf (next index : Nat) : Argument → Binding Nat
  | .positional kind label => .positional next kind index label
  | .flag kind key label => .flag next (next + 1) kind key label
  | .absent => .absent next

/-- The index of the next positional after an argument. -/
def indexAfter (index : Nat) : Argument → Nat
  | .positional .. => index + 1
  | _ => index

/-- The statements for arguments, their names numbered from `next` on. -/
def bindingsFrom : (next index : Nat) → List Argument → List (Binding Nat)
  | _, _, [] => []
  | next, index, a :: others =>
    let b := bindingOf next index a
    b :: bindingsFrom (next + b.binders.length) (indexAfter index a) others

/-- The arm for an entry, its names numbered from `next` on. -/
def armOf (variant next : Nat) (e : Entry) : Arm Nat :=
  let bindings := bindingsFrom next 0 e.arguments
  { variant
    required := e.command.signature.requiredCount
    bindings
    target := e.command.target
    path := e.path
    error := if e.mayFail then some (next + (bindings.flatMap Binding.binders).length) else none }

/-- The arms for entries, their variants and names numbered from two numbers on. -/
def armsFrom : (variant next : Nat) → List Entry → List (Arm Nat)
  | _, _, [] => []
  | variant, next, e :: others =>
    let arm := armOf variant next e
    arm :: armsFrom (variant + 1) (next + arm.binders.length) others

/-- The row for an entry. -/
def rowOf (e : Entry) (variant : Nat) : Row Nat where
  variant
  key := e.key
  exposed := e.command.exposed
  description := e.command.description
  target := e.command.target

/-- The dispatcher of checked commands. Its names are numbered in the order in which they are
drawn. -/
def ofEntries (moduleName : String) (entries : List Entry) : Dispatcher Nat :=
  let n := entries.length
  { moduleName
    rows := entries.mapIdx fun i e => rowOf e i
    lookupNames := ⟨n, n + 1, n + 2, n + 3⟩
    usage := usageText entries
    startNames := ⟨n + 4, n + 5, n + 6, n + 7, n + 8⟩
    arms := armsFrom 0 (n + 9) entries }

end Dispatcher

end CommandDispatch
