/-!
# JSON values

The values of a report and their written form: two spaces for each level, one
item or member on a line, and escapes only where a string could not be read
without them.
-/

namespace QuerySynth.Json

/-- A JSON value; numbers are given by their text. -/
inductive Value where
  | null
  | boolean (value : Bool)
  | number (text : String)
  | string (text : String)
  | array (items : List Value)
  | object (members : List (String × Value))

/-- The hexadecimal digit of a number below sixteen. -/
def hexDigit (n : Nat) : Char := Nat.digitChar n

/-- The written form of a character of a string: quotes, backslashes and control
characters are escaped. -/
def escapeChar (c : Char) : List Char :=
  if c = '"' then ['\\', '"']
  else if c = '\\' then ['\\', '\\']
  else if c = '\x08' then ['\\', 'b']
  else if c = '\t' then ['\\', 't']
  else if c = '\n' then ['\\', 'n']
  else if c = '\x0c' then ['\\', 'f']
  else if c = '\r' then ['\\', 'r']
  else if c.toNat < 0x20 then
    ['\\', 'u', '0', '0', hexDigit (c.toNat / 16), hexDigit (c.toNat % 16)]
  else [c]

/-- A string in quotes. -/
def quote (text : String) : String :=
  "\"" ++ String.ofList (text.toList.flatMap escapeChar) ++ "\""

/-- A new line at a level. -/
def newLine (level : Nat) : String := "\n" ++ String.ofList (List.replicate (2 * level) ' ')

mutual

/-- The text of a value that starts on a line of the given level. -/
def Value.render (level : Nat) : Value → String
  | .null => "null"
  | .boolean true => "true"
  | .boolean false => "false"
  | .number text => text
  | .string text => quote text
  | .array [] => "[]"
  | .array items => "[" ++ renderItems (level + 1) items ++ newLine level ++ "]"
  | .object [] => "\x7b\x7d"
  | .object members =>
      "\x7b" ++ renderMembers (level + 1) members ++ newLine level ++ "\x7d"

/-- Items on lines of their own, with commas between them. -/
def renderItems (level : Nat) : List Value → String
  | [] => ""
  | [item] => newLine level ++ item.render level
  | item :: rest => newLine level ++ item.render level ++ "," ++ renderItems level rest

/-- Members on lines of their own, with commas between them. -/
def renderMembers (level : Nat) : List (String × Value) → String
  | [] => ""
  | [(name, value)] => newLine level ++ quote name ++ ": " ++ value.render level
  | (name, value) :: rest =>
      newLine level ++ quote name ++ ": " ++ value.render level ++ "," ++
        renderMembers level rest

end

/-- A natural number. -/
def Value.nat (n : Nat) : Value := .number n.repr

end QuerySynth.Json
