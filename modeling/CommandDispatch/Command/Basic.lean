import CommandDispatch.Command.Kind

/-!
# Commands

A command is a function that users call by a name of its own. Its required parameters are given by
position and its optional ones by flags.
-/

namespace CommandDispatch

namespace Command

/-- An argument or a return value. -/
structure Parameter where
  name : Option String
  kind : Kind
  /-- It is given by a flag, or not at all. -/
  isOptional : Bool
deriving Repr, DecidableEq

/-- What the parameter is called in messages; positions count from 1. -/
def Parameter.label (p : Parameter) (position : Nat) : String :=
  match p.name with
  | some name => name
  | none => "argument " ++ toString position

/-- Arguments in the order of the call, and return values. -/
structure Signature where
  arguments : List Parameter
  returns : List Parameter
deriving Repr, DecidableEq

def Signature.requiredCount (s : Signature) : Nat :=
  s.arguments.countP (!·.isOptional)

def Signature.errorReturns (s : Signature) : Nat :=
  s.returns.countP (·.kind == .error)

/-- The name under which users ask for the usage text. No command has it. -/
def helpName : String :=
  "help"

end Command

open Command

/-- A function that users call by a name. -/
structure Command where
  /-- The path of the function. -/
  target : String
  /-- The name that users type. -/
  exposed : String
  signature : Signature
  description : String
deriving Repr, DecidableEq

end CommandDispatch
