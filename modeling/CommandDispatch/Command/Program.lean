import Std.Data.ExtTreeMap
import CommandDispatch.Text.Case
import CommandDispatch.Command.Basic

/-!
# Programs

A program is the set of commands of one dispatcher. They are kept by name, in the order of the code
points of their names.
-/

namespace CommandDispatch.Command

open Text

abbrev CommandMap := Std.ExtTreeMap String Command

/-- The commands of one dispatcher, and the name of the module that will hold it. -/
structure Program where
  moduleName : String
  commands : CommandMap := ∅

namespace Program

/-- Registers a command under a name, in the place of what was there. -/
def insertAs (p : Program) (key : String) (c : Command) : Program :=
  { p with commands := p.commands.insert key c }

def insert (p : Program) (c : Command) : Program :=
  p.insertAs c.exposed c

def toList (p : Program) : List (String × Command) :=
  p.commands.toList

def size (p : Program) : Nat :=
  p.commands.size

/-- The first command whose exposed name has the same lower-case form. -/
def find (p : Program) (name : String) : Option Command :=
  (p.toList.map (·.2)).find? fun c => lower c.exposed == lower name

end Program

end CommandDispatch.Command
