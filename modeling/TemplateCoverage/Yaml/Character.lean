/-!
# Characters with their places

A YAML text is read as a list of characters that know their places. The list ends with an end mark,
so that there is always a next character. Line breaks of all kinds are alike, save for the two
separators of Unicode, which stay what they are inside of scalars.
-/

namespace TemplateCoverage.Yaml

/-- A character with its line, its column and its number, all counted from zero. -/
structure Placed where
  char : Char
  line : Nat
  column : Nat
  index : Nat

/-- What is left to read. -/
abbrev Input := List Placed

/-- The character that marks the end. No text may hold it. -/
def endMark : Char := '\x00'

/-- The mark that tells the encoding of a text. -/
def encodingMark : Char := '\ufeff'

/-- The characters that a text may hold. -/
def isAllowed (c : Char) : Bool :=
  let n := c.toNat
  c == '\t' || c == '\n' || c == '\r' || (0x20 ≤ n && n ≤ 0x7E) || n == 0x85
    || (0xA0 ≤ n && n ≤ 0xD7FF) || (0xE000 ≤ n && n ≤ 0xFFFD) || 0x10000 ≤ n

/-- Whether a character ends a line. -/
def isBreak (c : Char) : Bool :=
  c == '\n' || c == '\u2028' || c == '\u2029'

/-- Whether a character is a space or a tab. -/
def isSpace (c : Char) : Bool :=
  c == ' ' || c == '\t'

/-- Whether nothing more follows on the line. -/
def endsLine (c : Char) : Bool :=
  isBreak c || c == endMark

/-- Whether a word ends before the character. -/
def endsWord (c : Char) : Bool :=
  isSpace c || endsLine c

/-- The characters of names of anchors and tags. -/
def isNameChar (c : Char) : Bool :=
  c.isAlphanum || c == '_' || c == '-'

/-- The characters with their places, and the end mark. -/
def place (line column index : Nat) : List Char → Input
  | [] => [⟨endMark, line, column, index⟩]
  | '\r' :: '\n' :: rest => ⟨'\n', line, column, index⟩ :: place (line + 1) 0 (index + 2) rest
  | c :: rest =>
    let c := if c = '\r' ∨ c = '\u0085' then '\n' else c
    if isBreak c then ⟨c, line, column, index⟩ :: place (line + 1) 0 (index + 1) rest
    else ⟨c, line, column, index⟩ :: place line (column + 1) (index + 1) rest

/-- The input of a text that holds allowed characters only. -/
def inputOf? (text : List Char) : Option Input :=
  if text.all isAllowed then some (place 0 0 0 text) else none

/-- The character at a distance from the front. -/
def peek (input : Input) (distance : Nat) : Char :=
  match input[distance]? with
  | some a => a.char
  | none => endMark

/-- The column of the next character. -/
def columnOf (input : Input) : Nat :=
  match input with
  | a :: _ => a.column
  | [] => 0

/-- Whether a line begins with three times the given character, as a word of its own. -/
def isMarker (c : Char) (input : Input) : Bool :=
  columnOf input == 0 && peek input 0 == c && peek input 1 == c && peek input 2 == c
    && endsWord (peek input 3)

/-- Whether a line begins or ends a document. -/
def isDocumentMarker (input : Input) : Bool :=
  isMarker '-' input || isMarker '.' input

/-- The characters up to the first one that `stop` picks. -/
def textUntil (stop : Char → Bool) (input : Input) : List Char :=
  (input.takeWhile fun a => !stop a.char).map (·.char)

/-- What follows the characters up to the first one that `stop` picks. -/
def afterUntil (stop : Char → Bool) (input : Input) : Input :=
  input.dropWhile fun a => !stop a.char

/-- What follows the spaces and tabs in front. -/
def afterSpaces (input : Input) : Input :=
  afterUntil (!isSpace ·) input

/-- What follows the rest of a line that may hold spaces and a comment only. -/
def afterLine? (input : Input) : Option Input :=
  let rest := afterSpaces input
  let rest := if peek rest 0 = '#' then afterUntil endsLine rest else rest
  if isBreak (peek rest 0) then some (rest.drop 1)
  else if peek rest 0 = endMark then some rest
  else none

end TemplateCoverage.Yaml
