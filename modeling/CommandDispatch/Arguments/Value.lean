import CommandDispatch.Number.Integer
import CommandDispatch.Number.Binary32Decimal
import CommandDispatch.Arguments.Error

/-!
# Values of arguments

An argument arrives as text and is converted for the type of its parameter.
-/

namespace CommandDispatch.Arguments

open Number

/-- The types whose values are written as text. -/
inductive TextKind where
  | int
  | uint
  | float32
  | bool
  | string
deriving Repr, DecidableEq

def TextKind.typeName : TextKind → String
  | int => "isize"
  | uint => "usize"
  | float32 => "f32"
  | bool => "bool"
  | string => "String"

/-- A value of one of these types. -/
inductive Value where
  | int (v : Int)
  | uint (v : Nat)
  | float32 (v : Binary32)
  | bool (v : Bool)
  | string (v : String)
deriving Repr, DecidableEq

def TextKind.read (kind : TextKind) (raw : String) : Option Value :=
  match kind with
  | int => (readSigned raw.toList).map .int
  | uint => (readUnsigned raw.toList).map .uint
  | float32 => (Binary32.read raw.toList).map .float32
  | bool =>
    if raw = "true" then some (.bool true)
    else if raw = "false" then some (.bool false)
    else none
  | string => some (.string raw)

/-- Converts a text for a parameter. -/
def TextKind.convert (kind : TextKind) (raw parameter : String) : Except ConversionError Value :=
  match kind.read raw with
  | some v => .ok v
  | none => .error ⟨parameter, raw, kind.typeName⟩

end CommandDispatch.Arguments
