import TemplateCoverage.Text.Blank
import TemplateCoverage.Text.Line
import TemplateCoverage.Text.Search
import TemplateCoverage.Text.WordChar
import TemplateCoverage.Token.Basic
import TemplateCoverage.Token.Evaluation
import TemplateCoverage.Token.Quote

/-!
# The control tokens of a line

A token is recognised from its shape alone: opening braces, an optional trim marker, a keyword that
ends at a word boundary, and an argument, which is the text up to the closing braces or to the end
of the line. `tokensOfLine` tries every position of the line. No grammar of pipelines is involved.
-/

namespace TemplateCoverage

open Text

/-- The control keywords. A `block` opens a named body just as `define` does, and `else with` goes
on like `else if`. -/
inductive Keyword where
  | opener (word : Opener)
  | elseIf
  | elseAlone
  | named
  | finish
  deriving DecidableEq, Repr

namespace Keyword

/-- What follows the word `w`, if the text starts with it and it is a whole word there. -/
def word? (w : String) (cs : List Char) : Option (List Char) :=
  (after? w.toList cs).filter atWordEnd

/-- What follows the words `v` and `w` with white space between them. -/
def twoWords? (v w : String) (cs : List Char) : Option (List Char) :=
  match after? v.toList cs with
  | none => none
  | some gap => if gap.head?.any isBlank then word? w (trimStart gap) else none

/-- The keywords with a reader for each, in the order in which they are tried: `else if` and
`else with` come before `else`. -/
def readers : List (Keyword × (List Char → Option (List Char))) :=
  [(.elseIf, twoWords? "else" "if"),
   (.elseIf, twoWords? "else" "with"),
   (.elseAlone, word? "else"),
   (.opener .ifBlock, word? "if"),
   (.opener .withBlock, word? "with"),
   (.opener .rangeBlock, word? "range"),
   (.finish, word? "end"),
   (.named, word? "define"),
   (.named, word? "block")]

/-- The keyword that a text starts with, and the text after it. -/
def read? (cs : List Char) : Option (Keyword × List Char) :=
  readers.findSome? fun (keyword, reader) => (reader cs).map fun rest => (keyword, rest)

end Keyword

/-- The beginning of a control action: up to and including its keyword. -/
structure ActionHead where
  trimLeft : Bool
  keyword : Keyword
  /-- The text after the keyword. -/
  rest : List Char

/-- The head of the control action at the start of a text. -/
def ActionHead.read? (cs : List Char) : Option ActionHead :=
  match cs with
  | '{' :: '{' :: '-' :: inner =>
    (Keyword.read? (trimStart inner)).map fun (keyword, rest) => ⟨true, keyword, rest⟩
  | '{' :: '{' :: inner =>
    (Keyword.read? (trimStart inner)).map fun (keyword, rest) => ⟨false, keyword, rest⟩
  | _ => none

/-- The argument of an action: its text without white space around it and without the marker that
trims white space after the action. -/
def cleanArgument (cs : List Char) : List Char :=
  trim (dropEndWhile (· == '-') (trim cs))

/-- The argument that follows a keyword, and the text after the closing braces if they stand on the
same line. -/
def readArgument (cs : List Char) : List Char × Option (List Char) :=
  match cutAt? ['}', '}'] cs with
  | some (argument, after) => (cleanArgument argument, some after)
  | none => (cleanArgument cs, none)

/-- The character that quotes a name literally. -/
def rawQuote : Char := '\x60'

/-- The name that an argument begins with, between double quotes or raw quotes. -/
def definedName? (argument : List Char) : Option String :=
  match argument with
  | [] => none
  | quote :: body =>
    if quote = '"' ∨ quote = rawQuote then
      (cutAt? [quote] body).map fun (name, _) => String.ofList name
    else none

/-- The kind of token that a keyword makes with its argument. -/
def TokenKind.ofKeyword? (keyword : Keyword) (argument : List Char) : Option TokenKind :=
  match keyword with
  | .opener word => some (.opener word)
  | .elseIf => some .elseIfArm
  | .elseAlone => some .elseArm
  | .finish => some .endBlock
  | .named => (definedName? argument).map .define

/-- Whether the argument suits the kind: `else` and `end` take none, the other kinds need one unless
the action goes on beyond the line. -/
def TokenKind.accepts (kind : TokenKind) (argument : List Char) (closed : Bool) : Bool :=
  if kind.needsArgument then !(argument.isEmpty && closed) else argument.isEmpty

/-- The token whose opening braces stand between `before`, given in reverse, and `rest`. -/
def tokenAt? (line : List Char) (number : Nat) (dynamic : Bool) (before rest : List Char) :
    Option Token :=
  match ActionHead.read? rest with
  | none => none
  | some head =>
    let (argument, after) := readArgument head.rest
    match TokenKind.ofKeyword? head.keyword argument with
    | none => none
    | some kind =>
      if kind.accepts argument after.isSome then
        let column := byteLength before
        some {
          kind, column
          line := number
          trimLeft := head.trimLeft
          placement := if allBlank before && after.any allBlank then .standalone else .inLine
          inString := dynamic && unescapedQuotesBefore line column % 2 == 1 }
      else none

/-- The tokens that begin at or after the point between `before`, given in reverse, and the rest of
the line. -/
def tokensFrom (line : List Char) (number : Nat) (dynamic : Bool) (before : List Char) :
    List Char → List Token
  | [] => []
  | c :: cs =>
    (tokenAt? line number dynamic before (c :: cs)).toList
      ++ tokensFrom line number dynamic (c :: before) cs

/-- A line without the line feeds and carriage returns at its end. -/
def withoutLineEnd (line : List Char) : List Char :=
  dropEndWhile (fun c => c == '\n' || c == '\r') line

/-- The control tokens of a line, from left to right, where the functions named `evaluators`
evaluate their string arguments. -/
def tokensOfLine (evaluators : List String) (line : List Char) (number : Nat) : List Token :=
  let text := withoutLineEnd line
  tokensFrom text number (invokesAny evaluators text) [] text

/-- The control tokens of a whole text, line after line. -/
def tokensOf (evaluators : List String) (source : List Char) : List Token :=
  (numberedLines source).flatMap fun (line, number) => tokensOfLine evaluators line number

end TemplateCoverage
