import TemplateCoverage.Text.Bytes

/-!
# The syntax of scripts

A script is a list of commands. A command is simple, which means that it consists of words,
assignments and redirections, or is made of other commands. A word is made of pieces, which are
texts and what is put in the place of parameters, commands and sums.
-/

namespace TemplateCoverage.Shell

/-- What is done with the value of a parameter. In most cases a word stands behind it. -/
inductive ParameterUse where
  | value
  | length
  /-- The word stands for a value that is missing or, on request, empty. -/
  | orWord (ifEmpty : Bool)
  /-- The same, and the parameter gets the value of the word. -/
  | orAssign (ifEmpty : Bool)
  | orFail (ifEmpty : Bool)
  /-- The word stands for a value that is there. -/
  | ifSet (ifEmpty : Bool)
  | withoutBeginning (longest : Bool)
  | withoutEnding (longest : Bool)
  /-- Something that cannot be read. -/
  | malformed
  deriving DecidableEq, Repr

/-- Which file a redirection opens, and how. -/
inductive OpenMode where
  | read
  | write
  | append
  | force
  | readWrite
  deriving DecidableEq, Repr

mutual

/-- A piece of a word. -/
inductive Piece where
  | text (t : Bytes) (quoted : Bool)
  | parameter (name : Bytes) (use : ParameterUse) (word : List Piece) (quoted : Bool)
  | output (body : Command) (quoted : Bool)
  | sum (word : List Piece) (quoted : Bool)

/-- A redirection of a descriptor. -/
inductive Redirection where
  | toFile (descriptor : Nat) (mode : OpenMode) (path : List Piece)
  /-- The descriptor becomes a copy of another one, or is closed by a dash. -/
  | copy (descriptor : Nat) (source : List Piece)
  /-- The descriptor reads a document that stands in the script. -/
  | document (descriptor number : Nat)

/-- A command. -/
inductive Command where
  | skip
  | simple (line : Nat) (assignments words : List (List Piece)) (redirections : List Redirection)
  | pipeline (parts : List Command)
  | negation (c : Command)
  | both (first second : Command)
  | either (first second : Command)
  | sequence (first second : Command)
  | background (c : Command)
  | subshell (line : Nat) (body : Command) (redirections : List Redirection)
  | redirected (line : Nat) (body : Command) (redirections : List Redirection)
  | branch (condition yes no : Command)
  /-- The body runs as long as the condition ends well, or as long as it does not. -/
  | loop (whileFails : Bool) (condition body : Command)
  | each (line : Nat) (name : Bytes) (words : List (List Piece)) (body : Command)
  | choose (line : Nat) (subject : List Piece) (cases : List (List (List Piece) × Command))
  | define (line : Nat) (name : Bytes) (body : Command)

end

/-- A word. -/
abbrev Word := List Piece

instance : Inhabited Piece := ⟨.text [] false⟩

instance : Inhabited Command := ⟨.skip⟩

/-- The text of a word without quotes and without anything to be replaced. -/
def Word.literal? : Word → Option Bytes
  | [] => some []
  | [.text t false] => some t
  | _ => none

/-- Whether a character can stand in a name. -/
def isNameChar (c : Char) : Bool :=
  c.isAlphanum || c == '_'

/-- Whether a text is a name of a parameter or a function. -/
def isName (text : Bytes) : Bool :=
  match text with
  | [] => false
  | c :: _ => !c.isDigit && text.all isNameChar

/-- The name in front of an equals sign, and what follows the sign. -/
def nameBefore? (text : Bytes) : Option (Bytes × Bytes) :=
  let name := text.takeWhile isNameChar
  match text.drop name.length with
  | '=' :: rest => if isName name then some (name, rest) else none
  | _ => none

/-- Whether a word is an assignment. -/
def Word.isAssignment : Word → Bool
  | .text t false :: _ => (nameBefore? t).isSome
  | _ => false

end TemplateCoverage.Shell
