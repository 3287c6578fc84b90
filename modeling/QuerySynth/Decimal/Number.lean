/-!
# Decimal numerals

Reading whole numbers, and the split of a numeral with sign, fraction and
exponent into an integer and a power of ten.
-/

namespace QuerySynth.Decimal

/-- The value of a decimal digit. -/
def digit? (c : Char) : Option Nat :=
  if '0' ≤ c ∧ c ≤ '9' then some (c.toNat - 48) else none

/-- Whether a character is a decimal digit. -/
def isDigit (c : Char) : Bool := (digit? c).isSome

/-- The value of digits read in front of which `value` was read already. -/
def valueFrom (value : Nat) (digits : List Char) : Nat :=
  digits.foldl (fun value c => value * 10 + (digit? c).getD 0) value

/-- A whole number: digits only, at least one. -/
def nat? (text : List Char) : Option Nat :=
  if text.isEmpty || !text.all isDigit then none else some (valueFrom 0 text)

/-- A whole number behind an optional plus sign. -/
def unsigned? : List Char → Option Nat
  | '+' :: rest => nat? rest
  | text => nat? text

/-- A whole number behind an optional sign. -/
def signed? : List Char → Option Int
  | '-' :: rest => (nat? rest).map fun n => -(n : Int)
  | text => (unsigned? text).map Int.ofNat

/-- An unsigned 64-bit number; a minus sign is refused even before zero. -/
def word64? (text : String) : Option UInt64 := do
  let n ← unsigned? text.toList
  if n < UInt64.size then some n.toUInt64 else none

/-- A signed 64-bit number. -/
def integer64? (text : String) : Option Int64 := do
  let i ← signed? text.toList
  let word := Int64.ofInt i
  if word.toInt = i then some word else none

/-- An unsigned 32-bit number, read as a signed numeral. -/
def word32? (text : String) : Option UInt32 := do
  let i ← signed? text.toList
  if 0 ≤ i ∧ i < UInt32.size then some i.toNat.toUInt32 else none

/-- An unsigned 8-bit number, read as a signed numeral. -/
def byte? (text : String) : Option UInt8 := do
  let i ← signed? text.toList
  if 0 ≤ i ∧ i < UInt8.size then some i.toNat.toUInt8 else none

/-- A number `mantissa * 10 ^ exponent` with a sign of its own, so that zero
has two forms. -/
structure Scaled where
  negative : Bool
  mantissa : Nat
  exponent : Int
  deriving DecidableEq, Repr

/-- Digits with at most one point among them, and the number of digits behind
the point; at least one digit. -/
def pointed? (text : List Char) : Option (Nat × Nat) :=
  let whole := text.takeWhile isDigit
  match text.dropWhile isDigit with
  | [] => (nat? whole).map (·, 0)
  | '.' :: fraction =>
      if fraction.all isDigit && !(whole.isEmpty && fraction.isEmpty) then
        some (valueFrom 0 (whole ++ fraction), fraction.length)
      else none
  | _ => none

/-- A numeral without its sign: digits with an optional point, and an optional
exponent. -/
def unsignedScaled? (negative : Bool) (text : List Char) : Option Scaled := do
  let isMark := fun c : Char => c == 'e' || c == 'E'
  let (mantissa, places) ← pointed? (text.takeWhile (!isMark ·))
  match text.dropWhile (!isMark ·) with
  | [] => some ⟨negative, mantissa, -(places : Int)⟩
  | _ :: exponent =>
      let power ← signed? exponent
      some ⟨negative, mantissa, power - places⟩

/-- A numeral behind an optional sign. -/
def scaled? : List Char → Option Scaled
  | '-' :: rest => unsignedScaled? true rest
  | '+' :: rest => unsignedScaled? false rest
  | text => unsignedScaled? false text

end QuerySynth.Decimal
