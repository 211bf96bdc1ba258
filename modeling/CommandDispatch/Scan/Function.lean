import CommandDispatch.Scan.Error

/-!
# From functions to commands

A function with directives in its documentation is a command. Its directives apply in order to what
its signature says.
-/

namespace CommandDispatch.Scan

open Command Source Text

/-- A command while its directives are read. -/
structure Draft where
  exposed : String
  arguments : List Parameter
  description : String

/-- Applies a directive. Renaming a parameter that does not exist has no effect. -/
def Draft.apply (d : Draft) : Directive → Draft
  | .name name => { d with exposed := name }
  | .rename old new => { d with arguments := (rename old new d.arguments).getD d.arguments }
  | .description text => { d with description := text }

/-- Applies the line of a directive, if it has a known meaning. -/
def Draft.read (d : Draft) (line : String) : Except DirectiveFault Draft := do
  match ← Directive.parse line with
  | some directive => return d.apply directive
  | none => return d

/-- The command that calls a function of this target path, from its signature and the lines of its
directives. -/
def commandOfLines (target : String) (s : FunctionSignature) (lines : List String) :
    Except ScanError Command := do
  let signature ← (describe s).mapError (.unsupported target)
  let start : Draft := { exposed := s.name, arguments := signature.arguments, description := "" }
  let draft ← (lines.foldlM Draft.read start).mapError (.directive target)
  if sameUpToAsciiCase draft.exposed helpName then throw (.reservedName target)
  return {
    target
    exposed := draft.exposed
    signature := { signature with arguments := draft.arguments }
    description := draft.description }

/-- The command that a function of a module is, if its documentation has directives. -/
def commandOf (modulePath : String) (f : Function) : Except ScanError (Option Command) :=
  match directiveLines f.attributes with
  | [] => .ok none
  | lines => some <$> commandOfLines (modulePath ++ "::" ++ f.signature.name) f.signature lines

def commandOfItem (modulePath : String) : Item → Except ScanError (Option Command)
  | .function f => commandOf modulePath f
  | .other => .ok none

def commandsOf (modulePath : String) (items : List Item) : Except ScanError (List Command) := do
  return (← items.mapM (commandOfItem modulePath)).filterMap id

end CommandDispatch.Scan
