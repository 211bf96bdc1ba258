/-!
# Binary floating-point numbers of 32 bits

A number is a sign and 31 bits that hold the exponent and the fraction. Read as an integer, these
bits grow with the absolute value: the zeros come first, then the subnormal and the normal numbers,
then infinity, and everything above it is not a number. Rounding a positive ratio to the nearest
number is done in exact arithmetic, ties going to the even neighbour.
-/

namespace CommandDispatch.Number

/-- A number of the format: its sign and the 31 bits below it. -/
structure Binary32 where
  negative : Bool
  magnitude : Nat
deriving Repr, DecidableEq

namespace Binary32

def infinityBits : Nat := 0x7f800000

/-- The bits below the exponent count up to this number, `2 ^ 23`. -/
def fractionSize : Nat := 0x800000

def notANumber : Binary32 := ⟨false, 0x7fc00000⟩

def isNaN (x : Binary32) : Bool :=
  infinityBits < x.magnitude

def isInfinite (x : Binary32) : Bool :=
  x.magnitude == infinityBits

def isZero (x : Binary32) : Bool :=
  x.magnitude == 0

def bits (x : Binary32) : Nat :=
  (if x.negative then 0x80000000 else 0) + x.magnitude

/-- The integer factor of a finite value: its absolute value is `significand * 2 ^ scale`. -/
def significand (x : Binary32) : Nat :=
  let fraction := x.magnitude % fractionSize
  if x.magnitude / fractionSize = 0 then fraction else fractionSize + fraction

/-- The power of two of a finite value. -/
def scale (x : Binary32) : Int :=
  max 1 (x.magnitude / fractionSize : Nat) - 150

/-- The quotient rounded to the nearest integer, a half going to the even one. -/
def roundHalfEven (num den : Nat) : Nat :=
  let q := num / den
  let twice := 2 * (num % den)
  if twice < den then q
  else if twice = den then q + q % 2
  else q + 1

/-- The quotient of two positive numbers lies between the powers of two with this exponent and the
next. -/
def binaryExponent (num den : Nat) : Int :=
  let guess : Int := (Nat.log2 num : Int) - Nat.log2 den
  if (if 0 ≤ guess then den <<< guess.toNat ≤ num else den ≤ num <<< (-guess).toNat) then guess
  else guess - 1

/-- The 31 bits of the number nearest to a positive ratio. The significand has 24 bits, or fewer
when its unit would be less than `2 ^ (-149)`; what exceeds the largest number is infinity. -/
def nearestMagnitude (num den : Nat) : Nat :=
  if num = 0 then 0
  else
    let unit : Int := max (binaryExponent num den) (-126) - 23
    let rounded :=
      if 0 ≤ unit then roundHalfEven num (den <<< unit.toNat)
      else roundHalfEven (num <<< (-unit).toNat) den
    min infinityBits ((unit + 149).toNat * fractionSize + rounded)

def div (x y : Binary32) : Binary32 :=
  let negative := x.negative != y.negative
  if x.isNaN || y.isNaN || (x.isInfinite && y.isInfinite) || (x.isZero && y.isZero) then notANumber
  else if x.isInfinite || y.isZero then ⟨negative, infinityBits⟩
  else if x.isZero || y.isInfinite then ⟨negative, 0⟩
  else
    let shift := x.scale - y.scale
    ⟨negative,
      if 0 ≤ shift then nearestMagnitude (x.significand <<< shift.toNat) y.significand
      else nearestMagnitude x.significand (y.significand <<< (-shift).toNat)⟩

end Binary32

end CommandDispatch.Number
