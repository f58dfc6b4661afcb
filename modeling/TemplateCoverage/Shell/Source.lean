import TemplateCoverage.Shell.Syntax

/-!
# The text of a script while it is read

Reading takes characters from the front and counts lines. A line that ends in a backslash goes on in
the next one. Documents that have been announced in a line stand in the lines that follow it.
-/

namespace TemplateCoverage.Shell

/-- The words that have a meaning in the grammar. -/
inductive Keyword where
  | negate
  | choose
  | begin
  | done
  | elseIf
  | otherwise
  | endChoose
  | endIf
  | each
  | branch
  | among
  | yes
  | untilGood
  | whileGood
  | opening
  | closing
  deriving DecidableEq, Repr

/-- The keywords with their texts. -/
def Keyword.all : List (String × Keyword) :=
  [("!", .negate), ("case", .choose), ("do", .begin), ("done", .done), ("elif", .elseIf),
    ("else", .otherwise), ("esac", .endChoose), ("fi", .endIf), ("for", .each), ("if", .branch),
    ("in", .among), ("then", .yes), ("until", .untilGood), ("while", .whileGood),
    ("\x7b", .opening), ("\x7d", .closing)]

/-- The text of a keyword. -/
def Keyword.text (k : Keyword) : String :=
  ((Keyword.all.find? fun p => p.2 = k).map (·.1)).getD ""

/-- The operators. -/
inductive Operator where
  | semicolon
  | ampersand
  | and
  | or
  | pipe
  | opening
  | closing
  | endCase
  deriving DecidableEq, Repr

/-- The text of an operator. -/
def Operator.text : Operator → String
  | .semicolon => ";"
  | .ampersand => "&"
  | .and => "&&"
  | .or => "||"
  | .pipe => "|"
  | .opening => "("
  | .closing => ")"
  | .endCase => ";;"

/-- How a redirection begins. -/
inductive RedirectSign where
  | file (mode : OpenMode)
  | copy
  | document (stripsTabs : Bool)
  deriving DecidableEq, Repr

/-- A token of a script. -/
inductive Token where
  | ending
  | newline
  | operator (o : Operator)
  | keyword (k : Keyword)
  /-- A word, and whether any of it is quoted. -/
  | word (w : Word) (quoted : Bool)
  | redirect (descriptor : Nat) (sign : RedirectSign)

/-- What a token is called. -/
def Token.name : Token → String
  | .ending => "end of file"
  | .newline => "newline"
  | .operator o => "\"" ++ o.text ++ "\""
  | .keyword k => "\"" ++ k.text ++ "\""
  | .word _ _ => "word"
  | .redirect _ _ => "redirection"

/-- Whether a token ends a list of commands. -/
def Token.endsList : Token → Bool
  | .ending => true
  | .operator o => o = .closing || o = .endCase
  | .keyword k =>
    [Keyword.begin, .done, .elseIf, .otherwise, .endChoose, .endIf, .yes, .closing].contains k
  | _ => false

/-- A document that has been announced. -/
structure PendingDocument where
  number : Nat
  mark : Bytes
  quoted : Bool
  stripsTabs : Bool

/-- A script that is being read. -/
structure Source where
  rest : Bytes
  line : Nat := 1
  /-- The token that was read last. -/
  last : Token := .ending
  /-- Whether the last token is to be read again. -/
  pushed : Bool := false
  pending : List PendingDocument := []
  /-- The documents that have been read, by their numbers. -/
  documents : List (Nat × Word) := []
  nextNumber : Nat := 0

/-- Why a script cannot be read. -/
structure SyntaxFault where
  message : String
  line : Nat
  deriving DecidableEq, Repr

/-- A step of reading. -/
abbrev Reading := StateT Source (Except SyntaxFault)

namespace Reading

/-- Fail in the current line. -/
def fail {α : Type} (message : String) : Reading α := do
  throw { message := "Syntax error: " ++ message, line := (← get).line }

/-- Fail because of the last token, where another one may have been expected. -/
def unexpected {α : Type} (expected? : Option Token) : Reading α := do
  let found := (← get).last.name ++ " unexpected"
  match expected? with
  | some t => fail (found ++ " (expecting " ++ t.name ++ ")")
  | none => fail found

/-- Drop line ends behind backslashes from the front, and count them. -/
def joined : Bytes → Nat → Bytes × Nat
  | '\\' :: '\n' :: rest, line => joined rest (line + 1)
  | rest, line => (rest, line)

/-- Join the line with the next one if it goes on there. -/
def joinLines : Reading Unit :=
  modify fun s =>
    let (rest, line) := joined s.rest s.line
    { s with rest, line }

/-- The next character. -/
def peek? : Reading (Option Char) := do
  pure (← get).rest.head?

/-- The next character, with lines joined. -/
def peekJoined? : Reading (Option Char) := do
  joinLines
  peek?

/-- Leave out a number of characters. -/
def skip (n : Nat) : Reading Unit :=
  modify fun s =>
    let taken := s.rest.take n
    { s with rest := s.rest.drop n, line := s.line + (taken.filter (· == '\n')).length }

/-- Take the characters in front that pass a test. -/
def takeWhile (test : Char → Bool) : Reading Bytes := do
  let taken := (← get).rest.takeWhile test
  skip taken.length
  pure taken

/-- Take a character if it comes next. -/
def accept (c : Char) : Reading Bool := do
  if (← peekJoined?) = some c then
    skip 1
    pure true
  else pure false

/-- Read the last token again. -/
def pushBack : Reading Unit :=
  modify fun s => { s with pushed := true }

end Reading

end TemplateCoverage.Shell
