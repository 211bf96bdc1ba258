import CommandDispatch.Dispatcher.Basic

/-!
# The statements of `start`

What `start` does is a sequence of statements. The last one chooses the arm of a command, which is a
sequence of statements of its own. Each kind of statement is laid out as source text and has a
meaning, so that what is printed and what is run are the same statements.
-/

namespace CommandDispatch.Dispatcher

open Source

/-- A statement of an arm. -/
inductive ArmStatement (ι : Type) where
  /-- Returns an error if there are fewer positionals. -/
  | require (positionals : ι) (count : Nat)
  | bind (flags positionals : ι) (binding : Binding ι)
  /-- Calls a function and returns its error, if it may return one; otherwise the command has
  succeeded. The function is given by its path, as it was written and as it is read. -/
  | finish (target : String) (path : Path) (arguments : List ι) (error : Option ι)

/-- A statement of `start`. -/
inductive Statement (ι : Type) where
  /-- Binds the first of the arguments, or returns an error if there is none. -/
  | takeFirst (name input : ι)
  /-- Binds the text of a name to the name. -/
  | readText (name : ι)
  /-- Prints the usage text and returns if the text asks for help. -/
  | answerHelp (name : ι)
  /-- Binds the command with this name, or returns an error if there is none. -/
  | findTarget (target name : ι)
  /-- Binds what the arguments after the first are sliced into, or returns the error. -/
  | cut (flags positionals input : ι)
  /-- Goes on with the statements of a command. -/
  | choose (target : ι) (arms : List (ι × List (ArmStatement ι)))

variable {ι : Type}

/-- The statements of an arm. A check is left out where nothing is required. -/
def Arm.statements (s : StartNames ι) (a : Arm ι) : List (ArmStatement ι) :=
  (if a.required = 0 then [] else [.require s.positionals a.required]) ++
    a.bindings.map (.bind s.flags s.positionals) ++
      [.finish a.target a.path (a.bindings.map (·.name)) a.error]

/-- The statements of `start` for some arms. -/
def StartNames.statements (s : StartNames ι) (arms : List (Arm ι)) : List (Statement ι) :=
  [ .takeFirst s.first s.input,
    .readText s.first,
    .answerHelp s.first,
    .findTarget s.target s.first,
    .cut s.flags s.positionals s.input,
    .choose s.target (arms.map fun a => (a.variant, a.statements s)) ]

end CommandDispatch.Dispatcher
