/-!
# Options of the command line

The arguments are read one after the other. A long option is `--name` or `--name=value`, several
short ones can stand together behind one hyphen, and after `--` no argument is an option. An option
that needs a value waits for the next argument; what it was given is looked at when the following
argument turns out to be known, or at the end.
-/

namespace CommandDispatch.CommandLine

/-- What the command line asks for. -/
structure Options where
  directory : String := "."
  output : Option String := none
  moduleName : String := "cli"
  rootPath : String := "crate"
  toStandardOutput : Bool := false
  isVerbose : Bool := false
deriving Repr, DecidableEq

/-- Why the arguments give no options. -/
inductive UsageError where
  | unknownArgument
  /-- A value is missing, or a path is empty. -/
  | invalidValue
  /-- Something is given twice, or together with what it excludes. -/
  | argumentConflict
  /-- A value is given to an option that takes none. -/
  | tooManyValues
  /-- Help was asked for. -/
  | displayHelp
  /-- The version was asked for. -/
  | displayVersion
deriving Repr, DecidableEq

/-- What can be set to a value. -/
inductive Setting where
  | directory
  | output
  | moduleName
  | rootPath
deriving Repr, DecidableEq

/-- What can be switched on. -/
inductive Switch where
  | toStandardOutput
  | verbose
  | help
  | version
deriving Repr, DecidableEq

/-- What an option refers to. -/
inductive Key where
  | setting (s : Setting)
  | switch (s : Switch)
deriving Repr, DecidableEq

def longKey? : String → Option Key
  | "output" => some (.setting .output)
  | "module" => some (.setting .moduleName)
  | "crate-path" => some (.setting .rootPath)
  | "stdout" => some (.switch .toStandardOutput)
  | "verbose" => some (.switch .verbose)
  | "help" => some (.switch .help)
  | "version" => some (.switch .version)
  | _ => none

def shortKey? : Char → Option Key
  | 'o' => some (.setting .output)
  | 'm' => some (.setting .moduleName)
  | 'v' => some (.switch .verbose)
  | 'h' => some (.switch .help)
  | 'V' => some (.switch .version)
  | _ => none

/-- A setting that was begun, with its value if that was given. -/
structure Pending where
  setting : Setting
  value : Option String
deriving Repr, DecidableEq

/-- What has been read. -/
structure Reading where
  given : List (Setting × String) := []
  switched : List Switch := []
  pending : Option Pending := none
  /-- The pending setting takes the next argument that is no option. -/
  isWaiting : Bool := false
  /-- The one positional argument has been seen. -/
  hasDirectory : Bool := false
  /-- No further argument is an option. -/
  isEscaped : Bool := false

namespace Reading

def isValid (s : Setting) (value : String) : Bool :=
  match s with
  | .directory | .output => !value.isEmpty
  | .moduleName | .rootPath => true

def set (r : Reading) (s : Setting) (value : String) : Except UsageError Reading :=
  if r.given.any (·.1 == s) then .error .argumentConflict
  else if !isValid s value then .error .invalidValue
  else .ok { r with given := (s, value) :: r.given }

def settle (r : Reading) : Except UsageError Reading :=
  match r.pending with
  | none => .ok r
  | some ⟨_, none⟩ => .error .invalidValue
  | some ⟨s, some value⟩ => Reading.set { r with pending := none } s value

/-- Begins a setting without a value, or sets it to an attached one. -/
def begin (r : Reading) (s : Setting) (attached : Option String) : Except UsageError Reading := do
  let r ← r.settle
  match attached with
  | some value => Reading.set { r with isWaiting := false } s value
  | none => return { r with pending := some ⟨s, none⟩, isWaiting := true }

def switch (r : Reading) (s : Switch) : Except UsageError Reading := do
  let r ← r.settle
  match s with
  | .help => throw .displayHelp
  | .version => throw .displayVersion
  | s =>
    if r.switched.contains s then throw .argumentConflict
    return { r with switched := s :: r.switched, isWaiting := false }

def readLong (r : Reading) (body : List Char) : Except UsageError Reading :=
  let name := String.ofList (body.takeWhile (· != '='))
  let attached := match body.dropWhile (· != '=') with
    | [] => none
    | _ :: value => some (String.ofList value)
  match longKey? name, attached with
  | none, _ => .error .unknownArgument
  | some (.setting s), attached => r.begin s attached
  | some (.switch _), some _ => .error .tooManyValues
  | some (.switch s), none => r.switch s

/-- Reads short options. A setting takes what follows it as its value, without an equals sign. -/
def readShort (r : Reading) : List Char → Except UsageError Reading
  | [] => .ok r
  | c :: rest =>
    match shortKey? c with
    | none => .error .unknownArgument
    | some (.setting s) =>
      match rest with
      | [] => r.begin s none
      | '=' :: value => r.begin s (some (String.ofList value))
      | value => r.begin s (some (String.ofList value))
    | some (.switch s) => do
      let r ← r.switch s
      r.readShort rest

/-- Reads the one argument that is neither an option nor the value of one. -/
def readDirectory (r : Reading) (argument : String) : Except UsageError Reading := do
  if r.hasDirectory then throw .unknownArgument
  let r ← r.settle
  return { r with
    pending := some ⟨.directory, some argument⟩, isWaiting := false, hasDirectory := true }

/-- Reads a value or the directory. -/
def readPlain (r : Reading) (argument : String) : Except UsageError Reading :=
  match r.isWaiting, r.pending with
  | true, some p =>
    .ok { r with pending := some { p with value := some argument }, isWaiting := false }
  | _, _ => r.readDirectory argument

def read (r : Reading) (argument : String) : Except UsageError Reading :=
  if r.isEscaped then r.readDirectory argument
  else
    match argument.toList with
    | ['-', '-'] => .ok { r with isEscaped := true }
    | '-' :: '-' :: body => r.readLong body
    | '-' :: c :: rest => r.readShort (c :: rest)
    | _ => r.readPlain argument

def value? (r : Reading) (s : Setting) : Option String :=
  r.given.lookup s

def finish (r : Reading) : Except UsageError Options := do
  let r ← r.settle
  let toStandardOutput := r.switched.contains .toStandardOutput
  if toStandardOutput && (r.value? .output).isSome then throw .argumentConflict
  let default : Options := {}
  return {
    directory := (r.value? .directory).getD default.directory
    output := r.value? .output
    moduleName := (r.value? .moduleName).getD default.moduleName
    rootPath := (r.value? .rootPath).getD default.rootPath
    toStandardOutput
    isVerbose := r.switched.contains .verbose }

end Reading

def Options.read (arguments : List String) : Except UsageError Options := do
  (← arguments.foldlM Reading.read {}).finish

end CommandDispatch.CommandLine
