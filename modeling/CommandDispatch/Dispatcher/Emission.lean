import CommandDispatch.Dispatcher.Basic
import CommandDispatch.Dispatcher.Callee
import CommandDispatch.Source.File

/-!
# The call of a function as it is emitted

The path of a function is the only part of a dispatcher that need not be what it is meant to be once
it stands in the code. So the statement that calls the function is read before the code is laid out.
-/

namespace CommandDispatch.Dispatcher

open Source

/-- The path of a value of this project, called with one name. -/
def commandErrorTokens (error : String) : Tokens :=
  doubleColon ++ .word "cligen_runtime" :: doubleColon ++ .word "DispatchError" ::
    doubleColon ++ [.word "command", .group .parenthesis [.word error]]

/-- The statement that calls a function. If the function may return an error, it is returned. -/
def callTokens (path : Path) (names : List String) (error : Option String) : Tokens :=
  let call := pathTokens path ++ [.group .parenthesis (commaTokens (names.map ([.word ·])))]
  match error with
  | none => [.word "let", .word "_", .mark '=' false] ++ call ++ [.mark ';' false]
  | some e =>
    [.word "if", .word "let", .word "Err", .group .parenthesis [.word e], .mark '=' false] ++
      call ++
      [ .group .brace
          [ .word "return", .word "Err", .group .parenthesis (commandErrorTokens e),
            .mark ';' false ] ]

/-- The statement of an arm that calls its function is read. -/
def Arm.isRead (forms : Forms) (a : Arm String) : Bool :=
  (readAll Grammar.statementsRule (callTokens a.path (a.bindings.map (·.name)) a.error)
    forms).isSome

end CommandDispatch.Dispatcher
