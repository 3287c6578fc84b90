import QuerySynth.Decimal.Layout
import QuerySynth.Toml.Node

/-!
# Words, strings and numbers of a document

Every reader takes the front of a text and leaves the rest, or refuses.
-/

namespace QuerySynth.Toml

/-- A reader of the front of a text. -/
abbrev Reads (α : Type) := List Char → Option (α × List Char)

/-- A space or a tab. -/
def isSpace (c : Char) : Bool := c == ' ' || c == '\t'

/-- Passes over spaces and tabs. -/
def skipSpaces (text : List Char) : List Char := text.dropWhile isSpace

/-- A character that may stand in a comment or a string: a tab, or no control
character. -/
def isPlain (c : Char) : Bool := c == '\t' || (0x20 ≤ c.toNat && c.toNat != 0x7F)

/-- The rest behind the end of a line: spaces, a comment, and a line break or
the end of the text. -/
def lineEnd? (text : List Char) : Option (List Char) :=
  let text := skipSpaces text
  let text := match text with
    | '#' :: comment => comment.dropWhile isPlain
    | _ => text
  match text with
  | [] => some []
  | '\n' :: rest => some rest
  | '\r' :: '\n' :: rest => some rest
  | _ => none

/-- Passes over spaces, line breaks and comments. -/
def skipFiller (inComment : Bool) : List Char → List Char
  | [] => []
  | '\n' :: rest => skipFiller false rest
  | '\r' :: '\n' :: rest => skipFiller false rest
  | c :: rest =>
      if inComment then if isPlain c then skipFiller true rest else c :: rest
      else if isSpace c then skipFiller false rest
      else if c = '#' then skipFiller true rest
      else c :: rest

/-- Puts a character in front of what a reader found. -/
def prepend (c : Char) (found : Option (List Char × List Char)) :
    Option (List Char × List Char) :=
  found.map fun (chars, rest) => (c :: chars, rest)

/-- The value of a hexadecimal digit. -/
def hexDigit? (c : Char) : Option Nat :=
  if c.isDigit then some (c.toNat - 48)
  else if 'a' ≤ c ∧ c ≤ 'f' then some (c.toNat - 87)
  else if 'A' ≤ c ∧ c ≤ 'F' then some (c.toNat - 55)
  else none

/-- The character with a hexadecimal number, which has to be a scalar value. -/
def scalar? (digits : List Char) : Option Char := do
  let n ← digits.foldlM (fun n c => do return n * 16 + (← hexDigit? c)) 0
  if n.isValidChar then some (Char.ofNat n) else none

/-- The character that an escape of one letter stands for. -/
def escape? : Char → Option Char
  | 'b' => some '\x08'
  | 't' => some '\t'
  | 'n' => some '\n'
  | 'f' => some '\x0c'
  | 'r' => some '\r'
  | '"' => some '"'
  | '\\' => some '\\'
  | _ => none

/-- The rest of a string in double quotes on one line. -/
def quoted : Reads (List Char)
  | [] => none
  | '"' :: rest => some ([], rest)
  | '\\' :: 'u' :: a :: b :: c :: d :: rest => do
      prepend (← scalar? [a, b, c, d]) (quoted rest)
  | '\\' :: 'U' :: a :: b :: c :: d :: e :: f :: g :: h :: rest => do
      prepend (← scalar? [a, b, c, d, e, f, g, h]) (quoted rest)
  | '\\' :: letter :: rest => do prepend (← escape? letter) (quoted rest)
  | c :: rest => if isPlain c then prepend c (quoted rest) else none

/-- The rest of a string in three double quotes.  Up to two quotes may stand in
front of the closing ones.  A backslash at the end of a line takes away the
break and all blank space behind it, as `joining` tells. -/
def quotedLines (joining : Bool) : Reads (List Char)
  | [] => none
  | '"' :: '"' :: '"' :: '"' :: '"' :: rest => some (['"', '"'], rest)
  | '"' :: '"' :: '"' :: '"' :: rest => some (['"'], rest)
  | '"' :: '"' :: '"' :: rest => some ([], rest)
  | '\\' :: 'u' :: a :: b :: c :: d :: rest => do
      prepend (← scalar? [a, b, c, d]) (quotedLines false rest)
  | '\\' :: 'U' :: a :: b :: c :: d :: e :: f :: g :: h :: rest => do
      prepend (← scalar? [a, b, c, d, e, f, g, h]) (quotedLines false rest)
  | '\\' :: letter :: rest =>
      match escape? letter, skipSpaces (letter :: rest) with
      | some c, _ => prepend c (quotedLines false rest)
      | none, '\n' :: _ => quotedLines true rest
      | none, '\r' :: '\n' :: _ => quotedLines true rest
      | none, _ => none
  | '\r' :: '\n' :: rest =>
      if joining then quotedLines true rest else prepend '\n' (quotedLines false rest)
  | c :: rest =>
      if joining && (isSpace c || c == '\n') then quotedLines true rest
      else if isPlain c || c == '\n' then prepend c (quotedLines false rest)
      else none

/-- The rest of a string in single quotes on one line. -/
def literal : Reads (List Char)
  | [] => none
  | '\'' :: rest => some ([], rest)
  | c :: rest => if isPlain c then prepend c (literal rest) else none

/-- The rest of a string in three single quotes.  Up to two quotes may stand in
front of the closing ones. -/
def literalLines : Reads (List Char)
  | [] => none
  | '\'' :: '\'' :: '\'' :: '\'' :: '\'' :: rest => some (['\'', '\''], rest)
  | '\'' :: '\'' :: '\'' :: '\'' :: rest => some (['\''], rest)
  | '\'' :: '\'' :: '\'' :: rest => some ([], rest)
  | '\r' :: '\n' :: rest => prepend '\n' (literalLines rest)
  | c :: rest => if isPlain c || c == '\n' then prepend c (literalLines rest) else none

/-- Passes over a line break right behind three opening quotes. -/
def skipBreak : List Char → List Char
  | '\n' :: rest => rest
  | '\r' :: '\n' :: rest => rest
  | text => text

/-- A string of any of the four forms. -/
def stringBody : Reads (List Char)
  | '"' :: '"' :: '"' :: rest => quotedLines false (skipBreak rest)
  | '"' :: rest => quoted rest
  | '\'' :: '\'' :: '\'' :: rest => literalLines (skipBreak rest)
  | '\'' :: rest => literal rest
  | _ => none

/-- A run of digits, in which single underscores may stand between digits. -/
def digitRun (isDigit : Char → Bool) : List Char → List Char × List Char
  | [] => ([], [])
  | [c] => if isDigit c then ([c], []) else ([], [c])
  | c :: d :: rest =>
      if isDigit c then
        if d = '_' ∧ (rest.head?.any isDigit) then
          let (digits, rest) := digitRun isDigit rest
          (c :: digits, rest)
        else
          let (digits, rest) := digitRun isDigit (d :: rest)
          (c :: digits, rest)
      else ([], c :: d :: rest)

/-- An optional sign; true for minus. -/
def sign : List Char → Bool × List Char
  | '-' :: rest => (true, rest)
  | '+' :: rest => (false, rest)
  | text => (false, text)

/-- The digits of a decimal integer: a zero alone, or no zero in front. -/
def wholeDigits? : Reads (List Char)
  | '0' :: rest => some (['0'], rest)
  | text =>
      match digitRun Char.isDigit text with
      | ([], _) => none
      | run => some run

/-- The value of digits in a base. -/
def inBase (base : Nat) (digits : List Char) : Nat :=
  digits.foldl (fun n c => n * base + (hexDigit? c).getD 0) 0

/-- An integer that fits a signed 64-bit word. -/
def integerNode? (negative : Bool) (value : Nat) : Option Node :=
  let i : Int := if negative then -value else value
  if (Int64.ofInt i).toInt = i then some (.integer i) else none

/-- A floating-point number; positive infinity has no numeral. -/
def floatNode? (number : Decimal.Scaled) : Option Node :=
  let value := number.toFloat
  if value.isInf && !number.negative then none else some (.float value)

/-- An exponent: its mark, an optional sign, and digits. -/
def exponent? : Reads Int
  | c :: rest =>
      if c = 'e' ∨ c = 'E' then
        let (negative, rest) := sign rest
        match digitRun Char.isDigit rest with
        | ([], _) => none
        | (digits, rest) =>
            let power : Int := inBase 10 digits
            some (if negative then -power else power, rest)
      else none
  | [] => none

/-- A decimal number: an integer, or a float with a fraction, an exponent or
both. -/
def decimal? : Reads Node := fun text => do
  let (negative, text) := sign text
  let (whole, rest) ← wholeDigits? text
  let (fraction, rest) ←
    match rest with
    | '.' :: rest =>
        match digitRun Char.isDigit rest with
        | ([], _) => none
        | run => some run
    | _ => some ([], rest)
  let float (power : Int) : Option Node :=
    floatNode? ⟨negative, inBase 10 (whole ++ fraction), power - fraction.length⟩
  match exponent? rest with
  | some (power, rest) => return (← float power, rest)
  | none =>
      if fraction.isEmpty then return (← integerNode? negative (inBase 10 whole), rest)
      else return (← float 0, rest)

/-- An integer in another base, behind its mark. -/
def based? (base : Nat) (isDigit : Char → Bool) : Reads Node := fun text =>
  match digitRun isDigit text with
  | ([], _) => none
  | (digits, rest) => do return (← integerNode? false (inBase base digits), rest)

/-- The names of infinity and of the undefined value, behind an optional sign. -/
def special? : Reads Node := fun text =>
  let (negative, text) := sign text
  let node (bits : UInt64) : Node :=
    .float (Float.ofBits (if negative then bits ||| 0x8000000000000000 else bits))
  match text with
  | 'i' :: 'n' :: 'f' :: rest => some (node 0x7ff0000000000000, rest)
  | 'n' :: 'a' :: 'n' :: rest => some (node 0x7ff8000000000000, rest)
  | _ => none

/-- A number of so many digits within bounds. -/
def field? (digits low high : Nat) : Reads Nat := fun text =>
  let front := text.take digits
  if front.length = digits ∧ front.all Char.isDigit then
    let n := inBase 10 front
    if low ≤ n ∧ n ≤ high then some (n, text.drop digits) else none
  else none

/-- The rest behind an expected character. -/
def expect? (c : Char) : List Char → Option (List Char)
  | [] => none
  | d :: rest => if d = c then some rest else none

/-- The last day of a month. -/
def daysIn (year month : Nat) : Nat :=
  if month = 2 then
    if year % 4 = 0 ∧ (year % 100 ≠ 0 ∨ year % 400 = 0) then 29 else 28
  else if month = 4 ∨ month = 6 ∨ month = 9 ∨ month = 11 then 30 else 31

/-- The rest behind a calendar date. -/
def calendar? (text : List Char) : Option (List Char) := do
  let (year, text) ← field? 4 0 9999 text
  let (month, text) ← field? 2 1 12 (← expect? '-' text)
  let (_, text) ← field? 2 1 (daysIn year month) (← expect? '-' text)
  return text

/-- The rest behind a time of day, with a fraction of a second if there is one. -/
def clock? (text : List Char) : Option (List Char) := do
  let (_, text) ← field? 2 0 23 text
  let (_, text) ← field? 2 0 59 (← expect? ':' text)
  let (_, text) ← field? 2 0 60 (← expect? ':' text)
  match text with
  | '.' :: fraction =>
      let rest := fraction.dropWhile Char.isDigit
      return if rest.length < fraction.length then rest else text
  | _ => return text

/-- The rest behind an offset from universal time, or the text itself. -/
def skipOffset (text : List Char) : List Char :=
  match text with
  | 'Z' :: rest | 'z' :: rest => rest
  | c :: rest =>
      if c = '+' ∨ c = '-' then
        (do
          let (_, rest) ← field? 2 0 23 rest
          let (_, rest) ← field? 2 0 59 (← expect? ':' rest)
          return rest).getD text
      else text
  | [] => []

/-- The rest behind a time of day that follows a date, or the text itself. -/
def skipClock (text : List Char) : List Char :=
  match text with
  | [] => []
  | c :: rest =>
      if c = 'T' ∨ c = 't' ∨ c = ' ' then ((clock? rest).map skipOffset).getD text else text

/-- A date, a time of day, or both. -/
def date? : Reads Node := fun text =>
  match calendar? text with
  | some rest => some (.date, skipClock rest)
  | none => (clock? text).map fun rest => (.date, rest)

/-- A date or a number. -/
def numeric? : Reads Node := fun text =>
  match date? text with
  | some found => some found
  | none =>
      match text with
      | '0' :: 'x' :: rest => based? 16 (fun c => (hexDigit? c).isSome) rest
      | '0' :: 'o' :: rest => based? 8 (fun c => '0' ≤ c && c ≤ '7') rest
      | '0' :: 'b' :: rest => based? 2 (fun c => c == '0' || c == '1') rest
      | _ =>
          match special? text with
          | some found => some found
          | none => decimal? text

/-- A value that is no array and no table. -/
def scalarNode? : Reads Node := fun text =>
  match text with
  | 't' :: 'r' :: 'u' :: 'e' :: rest => some (.boolean true, rest)
  | 'f' :: 'a' :: 'l' :: 's' :: 'e' :: rest => some (.boolean false, rest)
  | '"' :: _ | '\'' :: _ =>
      (stringBody text).map fun (chars, rest) => (.string (String.ofList chars), rest)
  | _ => numeric? text

end QuerySynth.Toml
