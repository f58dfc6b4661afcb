import TemplateCoverage.Template.Literal

/-!
# Tracking code

The code that a render runs before a branch is closed. It is a small tree of tests, whose leaves
record an ID in a trace state, and its text is written in the language of the templates.

A trace state is a map of lists. It hangs on the root context of a render under `stateKey`; a body
that is called with another context may find it there under one more key.
-/

namespace TemplateCoverage.Template

/-- The key under which a context holds the trace state. -/
def stateKey : String := "chartcovTrace"

/-- The contexts in which the trace state is looked for. -/
inductive Place where
  /-- The context of the body itself. -/
  | root
  /-- What the context holds under a key. -/
  | under (key : String)
  deriving DecidableEq, Repr

/-- What a test asks of a context. -/
inductive Test where
  /-- Whether there is a map at the place. -/
  | isMap (place : Place)
  /-- Whether the map at the place has a key. -/
  | hasKey (place : Place) (key : String)
  deriving DecidableEq, Repr

/-- Tracking code. -/
inductive Code where
  | skip
  /-- Add an ID to a list of the state that the map at a place holds. -/
  | record (place : Place) (collection id : String)
  | branch (test : Test) (yes no : Code)
  deriving DecidableEq, Repr

/-- An action: opening braces, its text, and closing braces. -/
def action (opening text : String) : String :=
  opening ++ " " ++ text ++ " \x7d\x7d"

/-- The braces that open an action. -/
def openBraces : String := "\x7b\x7b"

/-- The braces that open an action and trim white space before it. -/
def trimBraces : String := "\x7b\x7b-"

/-- The expression for a place. -/
def Place.text : Place → String
  | .root => "$"
  | .under key => "(index $ " ++ literal key ++ ")"

/-- The expression for a test. -/
def Test.text : Test → String
  | .isMap place => "kindIs \"map\" " ++ place.text
  | .hasKey place key => "hasKey " ++ place.text ++ " " ++ literal key

/-- The statement that adds an ID to a list of the state. -/
def recordText (place : Place) (collection id : String) : String :=
  "$_ := set (index " ++ place.text ++ " " ++ literal stateKey ++ ") " ++ literal collection
    ++ " (append (index " ++ place.text ++ " " ++ literal stateKey ++ " " ++ literal collection
    ++ ") " ++ literal id ++ ")"

mutual

/-- The text of code whose first action opens with the given braces. -/
def Code.text (opening : String) : Code → String
  | .skip => ""
  | .record place collection id => action opening (recordText place collection id)
  | .branch test yes no =>
    action opening ("if " ++ test.text) ++ yes.text openBraces ++ no.elseText
      ++ action openBraces "end"

/-- The text of code as what happens otherwise. Further tests go on with `else if`. -/
def Code.elseText : Code → String
  | .skip => ""
  | .record place collection id =>
    action openBraces "else" ++ action openBraces (recordText place collection id)
  | .branch test yes no =>
    action openBraces ("else if " ++ test.text) ++ yes.text openBraces ++ no.elseText

end

/-- Record an ID in the state of the root context, which is known to be there. -/
def strictTracking (collection id : String) : Code :=
  .record .root collection id

/-- Look for the state under the given keys, one after the other. The first key that the context has
decides. -/
def wrapperTracking (collection id : String) : List String → Code
  | [] => .skip
  | key :: rest =>
    .branch (.hasKey .root key)
      (.branch (.isMap (.under key))
        (.branch (.hasKey (.under key) stateKey) (.record (.under key) collection id) .skip)
        .skip)
      (wrapperTracking collection id rest)

/-- Record an ID wherever the context exposes the state: on the context itself, or under one of the
given keys. Without a state nothing happens. -/
def tolerantTracking (keys : List String) (collection id : String) : Code :=
  .branch (.isMap .root)
    (.branch (.hasKey .root stateKey) (.record .root collection id)
      (wrapperTracking collection id keys))
    .skip

end TemplateCoverage.Template
