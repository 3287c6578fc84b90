import QuerySynth.Text.Blank

/-!
# Pieces of a text

A text is cut at every separator, so that there is one piece more than there
are separators.  Lines are the pieces between line feeds; a carriage return
before a line feed belongs to the line end, and a text that ends in a line feed
has no empty line after it.
-/

namespace QuerySynth.Text

/-- Puts a character in front of the first piece. -/
def consPiece (c : Char) : List (List Char) → List (List Char)
  | [] => [[c]]
  | piece :: rest => (c :: piece) :: rest

/-- The pieces between the occurrences of one character. -/
def piecesAt (separator : Char) : List Char → List (List Char)
  | [] => [[]]
  | c :: rest =>
      if c = separator then [] :: piecesAt separator rest
      else consPiece c (piecesAt separator rest)

/-- The pieces between the occurrences of a delimiter, from left to right and
without overlap; `skip` counts the rest of an occurrence already met. -/
def piecesBetween (delimiter : List Char) : Nat → List Char → List (List Char)
  | _, [] => [[]]
  | skip + 1, _ :: rest => piecesBetween delimiter skip rest
  | 0, c :: rest =>
      if delimiter.isPrefixOf (c :: rest) then
        [] :: piecesBetween delimiter (delimiter.length - 1) rest
      else consPiece c (piecesBetween delimiter 0 rest)

/-- Cuts at a delimiter; the empty delimiter leaves the text whole. -/
def cut (delimiter text : List Char) : List (List Char) :=
  if delimiter.isEmpty then [text] else piecesBetween delimiter 0 text

/-- Drops one carriage return from the end. -/
def dropReturn (line : List Char) : List Char :=
  if line.getLast? = some '\r' then line.dropLast else line

/-- The lines behind a list of pieces cut at line feeds. -/
def linesOfPieces : List (List Char) → List (List Char)
  | [] => []
  | [last] => if last.isEmpty then [] else [last]
  | line :: rest => dropReturn line :: linesOfPieces rest

/-- The lines of a text. -/
def lines (text : List Char) : List (List Char) := linesOfPieces (piecesAt '\n' text)

/-- The entries of a list of texts: trimmed, and without the empty ones. -/
def trimmed (pieces : List (List Char)) : List (List Char) :=
  (pieces.map trim).filter (!·.isEmpty)

/-- The entries of a text that holds several to a line. -/
def entriesOf (text delimiter : List Char) : List (List Char) :=
  trimmed ((lines text).flatMap (cut delimiter))

/-- The entries of a text that holds several to a line. -/
def entries (text delimiter : String) : List String :=
  (entriesOf text.toList delimiter.toList).map String.ofList

end QuerySynth.Text
