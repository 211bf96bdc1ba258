/-!
# Why no dispatcher is generated
-/

namespace CommandDispatch.Dispatcher

/-- Causes for which a program has no dispatcher. -/
inductive GenerationError where
  | multipleErrorReturns (command : String)
  | unsupportedType (command parameter : String)
  | unnamedOptional (command : String) (position : Nat)
  | errorParameter (command parameter : String)
  /-- The target of this path cannot be exposed under the name for help. -/
  | reservedName (target : String)
  | duplicateCommand (name : String)
  | mismatchedKey (key exposed : String)
  | invalidPath (command path : String)
  | invalidModuleName (name : String)
  /-- The name of the module has blanks or comments around it. -/
  | untrimmedModuleName (name : String)
  | identifiersExhausted
  /-- The code would not be source text. -/
  | malformed
  /-- The code has a form for which there is no layout. -/
  | unprintable
deriving Repr, DecidableEq

def GenerationError.message : GenerationError → String
  | multipleErrorReturns command =>
    "command `" ++ command ++ "` declares more than one error return"
  | unsupportedType command parameter =>
    "command `" ++ command ++ "`: required parameter `" ++ parameter ++
      "` has a type that cannot be parsed from text"
  | unnamedOptional command position =>
    "command `" ++ command ++ "`: optional parameter #" ++ toString position ++
      " has no name to match a flag against"
  | errorParameter command parameter =>
    "command `" ++ command ++ "`: parameter `" ++ parameter ++ "` cannot be of the error kind"
  | reservedName target =>
    "command `" ++ target ++ "` cannot be exposed as `help`, the name is reserved"
  | duplicateCommand name =>
    "exposed command name `" ++ name ++ "` collides with another command"
  | mismatchedKey key exposed =>
    "command registered as `" ++ key ++ "` is exposed as `" ++ exposed ++ "`"
  | invalidPath command path =>
    "command `" ++ command ++ "`: `" ++ path ++ "` is not a valid Rust path"
  | invalidModuleName name => "`" ++ name ++ "` is not a valid module name"
  | untrimmedModuleName name => "`" ++ name ++ "` is more than a module name"
  | identifiersExhausted => "no unused identifier left to allocate"
  | malformed => "generated code does not parse"
  | unprintable => "generated code has no layout"

end CommandDispatch.Dispatcher
