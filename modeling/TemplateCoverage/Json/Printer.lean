import TemplateCoverage.Json.Basic

/-!
# Writing JSON

`compact` writes a value without white space, `pretty` with one item a line and an indentation of
two spaces. Strings are escaped alike: quotes, backslashes and control characters only.
-/

namespace TemplateCoverage.Json

/-- A hexadecimal digit in lower case. -/
def hexDigit (n : Nat) : Char :=
  if n < 10 then Char.ofNat ('0'.toNat + n) else Char.ofNat ('a'.toNat + (n - 10))

/-- A character as it is written inside a string. -/
def escapeChar (c : Char) : List Char :=
  if c = '"' then ['\\', '"']
  else if c = '\\' then ['\\', '\\']
  else if c = '\n' then ['\\', 'n']
  else if c = '\r' then ['\\', 'r']
  else if c = '\t' then ['\\', 't']
  else if c.toNat = 0x08 then ['\\', 'b']
  else if c.toNat = 0x0C then ['\\', 'f']
  else if c.toNat < 0x20 then
    ['\\', 'u', '0', '0', hexDigit (c.toNat / 16), hexDigit (c.toNat % 16)]
  else [c]

/-- A string between quotes. -/
def quoted (s : String) : List Char :=
  '"' :: s.toList.flatMap escapeChar ++ ['"']

mutual

/-- The value without white space. -/
def compactChars : Json → List Char
  | .null => "null".toList
  | .bool true => "true".toList
  | .bool false => "false".toList
  | .number literal => literal.toList
  | .string s => quoted s
  | .array items => '[' :: compactItems items ++ [']']
  | .object fields => '{' :: compactFields fields ++ ['}']

/-- Items with commas between them. -/
def compactItems : List Json → List Char
  | [] => []
  | [j] => compactChars j
  | j :: rest => compactChars j ++ ',' :: compactItems rest

/-- Fields with commas between them. -/
def compactFields : List (String × Json) → List Char
  | [] => []
  | [(name, j)] => quoted name ++ ':' :: compactChars j
  | (name, j) :: rest => quoted name ++ ':' :: compactChars j ++ ',' :: compactFields rest

end

/-- The value as text without white space. -/
def compact (j : Json) : String :=
  String.ofList (compactChars j)

/-- A line break and the indentation of the given depth. -/
def breakLine (depth : Nat) : List Char :=
  '\n' :: List.replicate (2 * depth) ' '

mutual

/-- The value with its parts on lines of their own, at the given depth. -/
def prettyChars (depth : Nat) : Json → List Char
  | .array (j :: rest) =>
    '[' :: breakLine (depth + 1) ++ prettyChars (depth + 1) j ++ prettyItems (depth + 1) rest
      ++ breakLine depth ++ [']']
  | .object ((name, j) :: rest) =>
    '{' :: breakLine (depth + 1) ++ quoted name ++ ':' :: ' ' :: prettyChars (depth + 1) j
      ++ prettyFields (depth + 1) rest ++ breakLine depth ++ ['}']
  | .array [] => ['[', ']']
  | .object [] => ['{', '}']
  | .null => "null".toList
  | .bool true => "true".toList
  | .bool false => "false".toList
  | .number literal => literal.toList
  | .string s => quoted s

/-- The items after the first, each after a comma and on its own line. -/
def prettyItems (depth : Nat) : List Json → List Char
  | [] => []
  | j :: rest => ',' :: breakLine depth ++ prettyChars depth j ++ prettyItems depth rest

/-- The fields after the first, each after a comma and on its own line. -/
def prettyFields (depth : Nat) : List (String × Json) → List Char
  | [] => []
  | (name, j) :: rest =>
    ',' :: breakLine depth ++ quoted name ++ ':' :: ' ' :: prettyChars depth j
      ++ prettyFields depth rest

end

/-- The value as text with one item a line. -/
def pretty (j : Json) : String :=
  String.ofList (prettyChars 0 j)

end TemplateCoverage.Json
