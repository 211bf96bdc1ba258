import CommandDispatch.Command.Program
import CommandDispatch.Dispatcher.Error
import CommandDispatch.Source.File

/-!
# Checked commands

A program has a dispatcher if its commands can be told apart by the lower-case forms of their names,
if each target is a path, and if the arguments of each command can be given as text. Checking turns
each command into an entry, in which every argument says how it is bound, and sorts the entries by
their keys.
-/

namespace CommandDispatch.Dispatcher

open Arguments Command Source Text

/-- How an argument is bound. The label is what messages call it. -/
inductive Argument where
  /-- Converted from the next positional. -/
  | positional (kind : TextKind) (label : String)
  /-- Converted from the flag with this key, if it is given. -/
  | flag (kind : TextKind) (key label : String)
  /-- Absent, since no text stands for its values. -/
  | absent
deriving Repr, DecidableEq

/-- A checked command. -/
structure Entry where
  /-- The lower-case form of the name. -/
  key : String
  command : Command
  path : Path
  arguments : List Argument
  /-- It returns an error in place of its results. -/
  mayFail : Bool

/-- How a parameter of a command is bound; positions count from 1. -/
def argumentOf (command : String) (p : Parameter) (position : Nat) :
    Except GenerationError Argument :=
  match p.kind with
  | .error => .error (.errorParameter command (p.label position))
  | .foreign =>
    if !p.isOptional then .error (.unsupportedType command (p.label position))
    else if p.name.isNone then .error (.unnamedOptional command position)
    else .ok .absent
  | .readable kind =>
    if p.isOptional then
      match p.name with
      | some name => .ok (.flag kind (lower name) name)
      | none => .error (.unnamedOptional command position)
    else .ok (.positional kind (p.label position))

def argumentsFrom (command : String) : Nat → List Parameter → Except GenerationError (List Argument)
  | _, [] => .ok []
  | position, p :: others => do
    let argument ← argumentOf command p position
    return argument :: (← argumentsFrom command (position + 1) others)

/-- Checks a command that is registered under a name, after those with the given keys. -/
def checkCommand (keys : List String) (registered : String) (c : Command) :
    Except GenerationError Entry := do
  if registered != c.exposed then throw (.mismatchedKey registered c.exposed)
  let key := lower c.exposed
  if key = helpName then throw (.reservedName c.target)
  if keys.contains key then throw (.duplicateCommand c.exposed)
  match parsePath c.target with
  | none => throw (.invalidPath c.exposed c.target)
  | some path =>
    let arguments ← argumentsFrom c.exposed 1 c.signature.arguments
    if 1 < c.signature.errorReturns then throw (.multipleErrorReturns c.exposed)
    return { key, command := c, path, arguments, mayFail := c.signature.errorReturns == 1 }

/-- Checks commands one after the other; `keys` are those seen before. -/
def checkCommands : (keys : List String) → List (String × Command) →
    Except GenerationError (List Entry)
  | _, [] => .ok []
  | keys, (registered, c) :: others => do
    let entry ← checkCommand keys registered c
    return entry :: (← checkCommands (entry.key :: keys) others)

/-- The entries of a program, in the order of their keys. -/
def check (p : Program) : Except GenerationError (List Entry) := do
  if (parseName p.moduleName).isNone then throw (.invalidModuleName p.moduleName)
  let entries ← checkCommands [] p.toList
  return entries.mergeSort fun a b => a.key ≤ b.key

end CommandDispatch.Dispatcher
