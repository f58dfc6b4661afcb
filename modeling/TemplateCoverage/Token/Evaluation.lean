import TemplateCoverage.Text.Blank
import TemplateCoverage.Text.Search
import TemplateCoverage.Text.WordChar

/-!
# Calls that evaluate strings

Some functions evaluate their string arguments as template source. A line calls such a function when
one of the names stands, as a whole word, at the head of an action, of a parenthesised call or of a
pipeline stage.
-/

namespace TemplateCoverage

open Text (isBlank atWordBoundary)

/-- The functions that evaluate their arguments, where none are configured. -/
def defaultEvaluators : List String :=
  ["tpl", "printf", "print", "println"]

/-- The places reached by skipping some of the white space at the start of a text, each with the
character before it. -/
def skipsOfBlanks (last : Char) : List Char → List (Char × List Char)
  | [] => [(last, [])]
  | c :: cs => (last, c :: cs) :: if isBlank c then skipsOfBlanks c cs else []

/-- The places where the name of a called function may begin, if the text opens an action, a
parenthesis or a pipeline stage. -/
def callSites : List Char → List (Char × List Char)
  | '{' :: '{' :: '-' :: cs => skipsOfBlanks '-' cs ++ [('{', '-' :: cs)]
  | '{' :: '{' :: cs => skipsOfBlanks '{' cs
  | '(' :: cs => skipsOfBlanks '(' cs
  | '|' :: cs => skipsOfBlanks '|' cs
  | _ => []

/-- Whether the function called at a site is the named one. -/
def callsAt (site : Char × List Char) (name : List Char) : Bool :=
  match Text.after? name site.2 with
  | none => false
  | some rest => atWordBoundary (name.getLastD site.1) rest

/-- Whether the line calls one of the named functions. -/
def invokesAny (names : List String) : List Char → Bool
  | [] => false
  | c :: cs =>
    ((callSites (c :: cs)).any fun site => names.any fun name => callsAt site name.toList)
      || invokesAny names cs

end TemplateCoverage
