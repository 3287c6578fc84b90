import QuerySynth.Decimal.Binary64

/-!
# Written forms of a double

A layout says when the shortest digits are written positionally and what marks
a whole number.  Messages use the plain layout; reports in JSON use one that
falls back to an exponent for small and large numbers.
-/

namespace QuerySynth.Decimal

/-- The decisions of a written form. -/
structure Layout where
  /-- The least decimal exponent of the leading digit written positionally. -/
  lowest : Option Int
  /-- The greatest decimal exponent of the leading digit written positionally. -/
  highest : Option Int
  /-- What follows a whole number written positionally. -/
  wholeEnd : String
  /-- Which of two equally near shortest forms is written. -/
  tie : Tie

/-- Positional throughout, and bare whole numbers. -/
def Layout.plain : Layout := ⟨none, none, "", .up⟩

/-- Positional from `0.00001` up to sixteen digits before the point; whole
numbers keep a zero behind it. -/
def Layout.report : Layout := ⟨some (-5), some 15, ".0", .even⟩

/-- So many zeros. -/
def zeros (n : Nat) : String := String.ofList (List.replicate n '0')

/-- The digits with the point at its place. -/
def positional (wholeEnd : String) (digits : Digits) : String :=
  let text := Nat.toDigits 10 digits.mantissa
  if 0 ≤ digits.exponent then
    String.ofList text ++ zeros digits.exponent.toNat ++ wholeEnd
  else
    let places := digits.exponent.natAbs
    if places < text.length then
      String.ofList (text.take (text.length - places)) ++ "." ++
        String.ofList (text.drop (text.length - places))
    else "0." ++ zeros (places - text.length) ++ String.ofList text

/-- The text of a whole number with its sign. -/
def intText (i : Int) : String :=
  if i < 0 then "-" ++ Nat.repr i.natAbs else Nat.repr i.natAbs

/-- The digits with the point behind the first, and the exponent of that one. -/
def scientific (leading : Int) (digits : Digits) : String :=
  match Nat.toDigits 10 digits.mantissa with
  | [] => ""
  | [only] => String.ofList [only] ++ "e" ++ intText leading
  | first :: rest => String.ofList (first :: '.' :: rest) ++ "e" ++ intText leading

/-- The text of a magnitude. -/
def Layout.magnitude (layout : Layout) (m : Magnitude) : String :=
  if m.integer = 0 then "0" ++ layout.wholeEnd
  else
    let digits := shortest layout.tie m
    let leading := (Nat.toDigits 10 digits.mantissa).length - 1 + digits.exponent
    if layout.lowest.all (· ≤ leading) && layout.highest.all (leading ≤ ·) then
      positional layout.wholeEnd digits
    else scientific leading digits

/-- The text of a double. -/
def Layout.render (layout : Layout) (x : Float) : String :=
  if x.isNaN then "NaN"
  else
    let bits := x.toBits
    let sign := if isNegative bits then "-" else ""
    if x.isInf then sign ++ "inf" else sign ++ layout.magnitude (Magnitude.ofBits bits)

/-- The double with the given text: a numeral, or a name of infinity or of the
undefined value in letters of either case, behind an optional sign. -/
def float? (text : String) : Option Float :=
  let (negative, bare) := match text.toList with
    | '-' :: rest => (true, rest)
    | '+' :: rest => (false, rest)
    | chars => (false, chars)
  let signed (x : Float) : Float := if negative then -x else x
  let word := String.ofList (bare.map Char.toLower)
  if word = "inf" ∨ word = "infinity" then some (signed (Float.ofBits infinityBits))
  else if word = "nan" then some (signed (Float.ofBits 0x7ff8000000000000))
  else (scaled? text.toList).map Scaled.toFloat

end QuerySynth.Decimal
