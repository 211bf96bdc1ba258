/-!
# Decimal integers

An integer is written as one or more ASCII digits after an optional sign. Leading zeros are allowed
and nothing else is. The two readers accept exactly the values of a signed and of an unsigned
64-bit word.
-/

namespace CommandDispatch.Number

def digitValue (c : Char) : Nat :=
  c.toNat - '0'.toNat

def valueOfDigits (ds : List Char) : Nat :=
  ds.foldl (fun n c => 10 * n + digitValue c) 0

def readDigits (s : List Char) : Option Nat :=
  if !s.isEmpty && s.all Char.isDigit then some (valueOfDigits s) else none

def readInteger : List Char → Option Int
  | '-' :: ds => (readDigits ds).map fun n => -(n : Int)
  | '+' :: ds => (readDigits ds).map fun n => (n : Int)
  | ds => (readDigits ds).map fun n => (n : Int)

/-- Reads an unsigned integer of any size; a plus sign may stand before it. -/
def readNatural : List Char → Option Nat
  | '+' :: ds => readDigits ds
  | ds => readDigits ds

def readSigned (s : List Char) : Option Int :=
  (readInteger s).filter fun v => Int64.minValue.toInt ≤ v && v ≤ Int64.maxValue.toInt

def readUnsigned (s : List Char) : Option Nat :=
  (readNatural s).filter fun v => v < UInt64.size

end CommandDispatch.Number
