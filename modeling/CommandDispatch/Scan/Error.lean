import CommandDispatch.Files.Basic
import CommandDispatch.Scan.Directive
import CommandDispatch.Scan.Signature

/-!
# What can go wrong in sources
-/

namespace CommandDispatch.Scan

open Files

/-- Causes for which sources give no program. -/
inductive ScanError where
  | unreadable (path : String) (fault : ReadFault)
  /-- The text is no source file. -/
  | malformed (path : String)
  | directive (function : String) (fault : DirectiveFault)
  | unsupported (function : String) (cause : Unfit)
  | reservedName (function : String)
  | duplicateCommand (name first second : String)
deriving Repr, DecidableEq

def ScanError.message : ScanError → String
  | unreadable path _ => "failed to read " ++ path
  | malformed path => "failed to parse " ++ path
  | directive function fault => function ++ ": " ++ fault.message
  | unsupported function cause => function ++ ": " ++ cause.message
  | reservedName function =>
    function ++ ": `help` is reserved and cannot be used as a command name"
  | duplicateCommand name first second =>
    "command `" ++ name ++ "` is exposed by both `" ++ first ++ "` and `" ++ second ++ "`"

end CommandDispatch.Scan
