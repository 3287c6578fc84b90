import QuerySynth.Decimal.Number

/-!
# Double-precision numbers as fractions

A finite double is an integer times a power of two.  Rounding a fraction to a
double goes to the nearest, with ties to the even integer; shortest digits are
the fewest that round back to the double they came from, and of those the
nearest to it.
-/

namespace QuerySynth.Decimal

/-- The magnitude `integer * 2 ^ power` of a finite double.  `atStep` tells that
the next smaller double is only half as far away as the next larger one. -/
structure Magnitude where
  integer : Nat
  power : Int
  atStep : Bool
  deriving DecidableEq, Repr

/-- The magnitude in a bit pattern. -/
def Magnitude.ofBits (bits : UInt64) : Magnitude :=
  let biased := ((bits >>> 52) &&& 0x7ff).toNat
  let fraction := (bits &&& 0xfffffffffffff).toNat
  if biased = 0 then ⟨fraction, -1074, false⟩
  else ⟨fraction + Nat.pow 2 52, (biased : Int) - 1075, fraction == 0 && biased != 1⟩

/-- The sign bit of a bit pattern. -/
def isNegative (bits : UInt64) : Bool := bits >>> 63 == 1

/-- The bit pattern of positive infinity. -/
def infinityBits : UInt64 := 0x7ff0000000000000

/-- The quotient rounded to the nearest integer, ties to even. -/
def roundDiv (num den : Nat) : Nat :=
  let quotient := num / den
  let twice := 2 * (num % den)
  if twice < den ∨ twice = den ∧ quotient % 2 = 0 then quotient else quotient + 1

/-- The numerator and denominator of `num / (den * 2 ^ power)`. -/
def unscale (num den : Nat) (power : Int) : Nat × Nat :=
  if power < 0 then (num * Nat.pow 2 power.natAbs, den)
  else (num, den * Nat.pow 2 power.natAbs)

/-- The bit pattern of the double nearest to a positive fraction. -/
def nearestBits (num den : Nat) : UInt64 :=
  let guess : Int := (num.log2 : Int) - den.log2 - 52
  let (n, d) := unscale num den guess
  let power := max (-1074) (if n < Nat.pow 2 52 * d then guess - 1 else guess)
  let (n, d) := unscale num den power
  let bits := (power + 1074).toNat * Nat.pow 2 52 + roundDiv n d
  if bits < infinityBits.toNat then bits.toUInt64 else infinityBits

/-- The double nearest to a decimal number. -/
def Scaled.toFloat (number : Scaled) : Float :=
  let size : Int := (Nat.toDigits 10 number.mantissa).length + number.exponent
  let bits : UInt64 :=
    if number.mantissa = 0 ∨ size < -330 then 0
    else if 310 < size then infinityBits
    else if number.exponent < 0 then
      nearestBits number.mantissa (Nat.pow 10 number.exponent.natAbs)
    else nearestBits (number.mantissa * Nat.pow 10 number.exponent.natAbs) 1
  Float.ofBits (if number.negative then bits ||| 0x8000000000000000 else bits)

/-- A number `mantissa * 10 ^ exponent` above zero. -/
structure Digits where
  mantissa : Nat
  exponent : Int
  deriving DecidableEq, Repr

/-- Four times a magnitude as a fraction, with the distances to the ends of the
reals that round to it: below, then above. -/
structure Rounding where
  value : Nat
  below : Nat
  above : Nat
  den : Nat
  closed : Bool

/-- The reals around a magnitude that round to it. -/
def Rounding.ofMagnitude (m : Magnitude) : Rounding :=
  let unit := Nat.pow 2 (m.power - 2).toNat
  { value := 4 * m.integer * unit
    below := (if m.atStep then 1 else 2) * unit
    above := 2 * unit
    den := Nat.pow 2 (2 - m.power).toNat
    closed := m.integer % 2 == 0 }

/-- Whether the grid point `n * 10 ^ exponent` rounds to the value, and how far
it is from it in units of the grid's fraction. -/
def Rounding.distance? (r : Rounding) (n : Nat) (exponent : Int) : Option Nat :=
  let shrink := Nat.pow 10 (-exponent).toNat
  let point := n * Nat.pow 10 exponent.toNat * r.den
  let value := r.value * shrink
  let gap := if point ≤ value then value - point else point - value
  let limit := (if point ≤ value then r.below else r.above) * shrink
  if gap < limit ∨ r.closed ∧ gap = limit then some gap else none

/-- Which of two equally near points is taken. -/
inductive Tie where
  /-- The one with the even mantissa. -/
  | even
  /-- The one of greater magnitude. -/
  | up
  deriving DecidableEq, Repr

/-- Whether the lower of two neighbours wins a tie. -/
def Tie.takesLower (tie : Tie) (lower : Nat) : Bool :=
  match tie with
  | .even => lower % 2 == 0
  | .up => false

/-- The neighbour of the value on a grid that rounds to it; the nearer of two. -/
def Rounding.onGrid? (tie : Tie) (r : Rounding) (exponent : Int) : Option Digits :=
  let floor := r.value * Nat.pow 10 (-exponent).toNat / (Nat.pow 10 exponent.toNat * r.den)
  match r.distance? floor exponent, r.distance? (floor + 1) exponent with
  | some low, some high =>
      let lower := low < high || (low == high && tie.takesLower floor)
      some ⟨if lower then floor else floor + 1, exponent⟩
  | some _, none => some ⟨floor, exponent⟩
  | none, some _ => some ⟨floor + 1, exponent⟩
  | none, none => none

/-- The first of `n` grids, each ten times finer than the one before, with a
point that rounds to the value. -/
def Rounding.onFirstGrid? (tie : Tie) (r : Rounding) (exponent : Int) : Nat → Option Digits
  | 0 => none
  | n + 1 =>
      match r.onGrid? tie exponent with
      | some digits => some digits
      | none => r.onFirstGrid? tie (exponent - 1) n

/-- Drops up to `n` zeros from the end of the mantissa. -/
def Digits.dropZeros (digits : Digits) : Nat → Digits
  | 0 => digits
  | n + 1 =>
      if digits.mantissa % 10 = 0 then
        Digits.dropZeros ⟨digits.mantissa / 10, digits.exponent + 1⟩ n
      else digits

/-- The decimal exponent of the leading digit of a positive fraction. -/
def leadingExponent (num den : Nat) : Int :=
  if den ≤ num then (Nat.toDigits 10 (num / den)).length - 1
  else -((Nat.toDigits 10 ((den + num - 1) / num - 1)).length : Int)

/-- The shortest digits of a positive magnitude.  Seventeen digits always
suffice. -/
def shortest (tie : Tie) (m : Magnitude) : Digits :=
  let r := Rounding.ofMagnitude m
  match r.onFirstGrid? tie (leadingExponent r.value r.den) 18 with
  | some digits => digits.dropZeros 20
  | none => ⟨r.value / r.den, 0⟩

end QuerySynth.Decimal
