import CommandDispatch.Number.Integer
import CommandDispatch.Number.Binary32

/-!
# Decimal text of floating-point numbers

Reading accepts digits with at most one point, at least one digit, an optional sign and an optional
exponent, and the words for infinity and for no number in any case of letters; the value is the
nearest number. Writing uses the fewest digits that read back, always positionally.
-/

namespace CommandDispatch.Number.Binary32

/-- A decimal numeral: `digits * 10 ^ exponent`, where `count` digits were written. -/
structure Numeral where
  digits : Nat
  count : Nat
  exponent : Int

/-- Reads the exponent of a numeral: nothing, or a mark, an optional sign and digits. -/
def readExponent : List Char → Option Int
  | [] => some 0
  | mark :: rest => if mark = 'e' || mark = 'E' then readInteger rest else none

/-- Reads digits with an optional point among them, and an optional exponent. -/
def readNumeral (s : List Char) : Option Numeral := do
  let whole := s.takeWhile Char.isDigit
  let afterWhole := s.dropWhile Char.isDigit
  let (fraction, rest) :=
    match afterWhole with
    | '.' :: r => (r.takeWhile Char.isDigit, r.dropWhile Char.isDigit)
    | r => ([], r)
  let written := whole ++ fraction
  guard (!written.isEmpty)
  let exponent ← readExponent rest
  pure ⟨valueOfDigits written, written.length, exponent - fraction.length⟩

/-- The 31 bits of the number nearest to a numeral. A numeral of at least `10 ^ 39` exceeds every
number and one below `10 ^ (-46)` is nearer to zero than to the least positive number, so powers
outside that range are never computed. -/
def Numeral.magnitude (n : Numeral) : Nat :=
  if n.digits = 0 then 0
  else
    let places : Int := (Nat.toDigits 10 n.digits).length + n.exponent
    if 40 < places then infinityBits
    else if places < -45 then 0
    else if 0 ≤ n.exponent then nearestMagnitude (n.digits * Nat.pow 10 n.exponent.toNat) 1
    else nearestMagnitude n.digits (Nat.pow 10 (-n.exponent).toNat)

def readMagnitude (s : List Char) : Option Nat :=
  let word := String.ofList (s.map Char.toLower)
  if word = "inf" || word = "infinity" then some infinityBits
  else if word = "nan" then some notANumber.magnitude
  else (readNumeral s).map Numeral.magnitude

def read : List Char → Option Binary32
  | '-' :: s => (readMagnitude s).map (⟨true, ·⟩)
  | '+' :: s => (readMagnitude s).map (⟨false, ·⟩)
  | s => (readMagnitude s).map (⟨false, ·⟩)

/-! ## Shortest digits -/

/-- A positive number and the numbers that round to it, all over one denominator: those strictly
between `low` and `high`, and the two ends as well when `ends` holds. -/
structure Neighbourhood where
  value : Nat
  low : Nat
  high : Nat
  den : Nat
  ends : Bool

/-- What rounds to a positive finite number: half a unit on either side, or a quarter below a power
of two, where the unit is finer. -/
def neighbourhood (x : Binary32) : Neighbourhood :=
  let m := x.significand
  let unit := 1 <<< x.scale.toNat
  let below := if m = fractionSize && 2 * fractionSize ≤ x.magnitude then 1 else 2
  { value := 4 * m * unit
    low := (4 * m - below) * unit
    high := (4 * m + 2) * unit
    den := 4 <<< (-x.scale).toNat
    ends := m % 2 == 0 }

/-- The multiple `n * 10 ^ g` as a numerator and a denominator. -/
def onGrid (n : Nat) (g : Int) : Nat × Nat :=
  if 0 ≤ g then (n * Nat.pow 10 g.toNat, 1) else (n, Nat.pow 10 (-g).toNat)

/-- The multiple of a power of ten rounds to the number. -/
def Neighbourhood.holds (r : Neighbourhood) (n : Nat) (g : Int) : Bool :=
  let (num, den) := onGrid n g
  let scaled := num * r.den
  if r.ends then r.low * den ≤ scaled && scaled ≤ r.high * den
  else r.low * den < scaled && scaled < r.high * den

/-- The multiple of `10 ^ g` that rounds to the number and is nearest to it, if there is one. Only
the two multiples around the number can be; the larger one wins a tie. -/
def Neighbourhood.onPower (r : Neighbourhood) (g : Int) : Option Nat :=
  let (num, den) := onGrid 1 g
  let n := r.value * den / (r.den * num)
  let twiceRest := 2 * (r.value * den - n * (r.den * num))
  match r.holds n g, r.holds (n + 1) g with
  | true, true => if r.den * num ≤ twiceRest then some (n + 1) else some n
  | true, false => some n
  | false, true => some (n + 1)
  | false, false => none

/-- The first power of ten, from `10 ^ g` downwards, that has such a multiple, and the multiple. -/
def Neighbourhood.shortestFrom (r : Neighbourhood) : Nat → Int → Nat × Int
  | 0, g => (r.value / r.den, g)
  | tries + 1, g =>
    match r.onPower g with
    | some n => (n, g)
    | none => r.shortestFrom tries (g - 1)

/-- Writes `n * 10 ^ g` positionally. -/
def positional (n : Nat) (g : Int) : List Char :=
  let ds := Nat.toDigits 10 n
  if 0 ≤ g then ds ++ List.replicate g.toNat '0'
  else
    let places := (-g).toNat
    let padded := List.replicate (places + 1 - ds.length) '0' ++ ds
    padded.take (padded.length - places) ++ ['.'] ++ padded.drop (padded.length - places)

/-- The text of a number: the fewest digits that read back, without an exponent. -/
def text (x : Binary32) : String :=
  if x.isNaN then "NaN"
  else
    (if x.negative then "-" else "") ++
      (if x.isInfinite then "inf"
      else if x.isZero then "0"
      else
        let (n, g) := x.neighbourhood.shortestFrom 90 39
        String.ofList (positional n g))

end CommandDispatch.Number.Binary32
