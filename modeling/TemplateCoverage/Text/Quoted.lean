import TemplateCoverage.Text.Visible

/-!
# Texts between quotes

A text is shown between quotes so that it can be told what it is made of: characters that mean
something between quotes get a backslash, and those that do not show get their code instead. There
are two forms, which differ in the seven-bit range.
-/

namespace TemplateCoverage.Text

/-- The digits of a number in base sixteen, at least as many as given. -/
def hexText (width n : Nat) : List Char :=
  let digits := Nat.toDigits 16 n
  List.replicate (width - digits.length) '0' ++ digits

/-- The escape of a character that has a letter of its own. -/
def letterEscape? (c : Char) : Option (List Char) :=
  match c with
  | '\x00' => some ['\\', '0']
  | '\t' => some ['\\', 't']
  | '\n' => some ['\\', 'n']
  | '\r' => some ['\\', 'r']
  | '"' => some ['\\', '"']
  | '\\' => some ['\\', '\\']
  | _ => none

/-- The code of a character between braces. -/
def codeEscape (c : Char) : List Char :=
  ['\\', 'u', '{'] ++ hexText 1 c.toNat ++ ['}']

/-- A character of a quoted text. -/
def quotedChar (c : Char) : List Char :=
  (letterEscape? c).getD (if isVisible c then [c] else codeEscape c)

/-- A text between quotes. -/
def quoted (text : String) : String :=
  "\"" ++ String.ofList (text.toList.flatMap quotedChar) ++ "\""

/-- A character of a text that is quoted byte by byte as far as its characters are bytes. -/
def byteQuotedChar (c : Char) : List Char :=
  if c = '\'' then ['\\', '\'']
  else if c.toNat < 0x80 then
    (letterEscape? c).getD (if isVisible c then [c] else ['\\', 'x'] ++ hexText 2 c.toNat)
  else quotedChar c

/-- A text between quotes, with apostrophes escaped and two digits for a byte that does not show. -/
def byteQuoted (text : String) : String :=
  "\"" ++ String.ofList (text.toList.flatMap byteQuotedChar) ++ "\""

end TemplateCoverage.Text
