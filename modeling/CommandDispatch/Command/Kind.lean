import CommandDispatch.Arguments.Value

/-!
# Kinds of parameters and returns

A parameter is readable when its values are written as text. The error kind marks the failing half
of what a command returns, and every other type is foreign: no text stands for its values.
-/

namespace CommandDispatch.Command

open Arguments

/-- The kind of an argument or of a return value. -/
inductive Kind where
  | readable (kind : TextKind)
  | error
  | foreign
deriving Repr, DecidableEq

def Kind.text : Kind → String
  | readable kind => kind.typeName
  | error => "error"
  | foreign => "value"

end CommandDispatch.Command
