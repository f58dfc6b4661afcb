/-!
# Kinds of template files

A file whose name begins with an underscore is a library of named bodies. It prints nothing of its
own, and its bodies run with whatever context their callers pass.
-/

namespace TemplateCoverage

/-- How a template file takes part in a render. -/
inductive FileKind where
  /-- Rendered once per render. -/
  | template
  /-- Reached only through the bodies that it names. -/
  | helper
  deriving DecidableEq, Repr

namespace FileKind

/-- The kind of the file with the given name. -/
def ofFileName (name : String) : FileKind :=
  if name.toList.head? = some '_' then .helper else .template

/-- The part of a path after its last slash. -/
def lastSegment (path : String) : String :=
  String.ofList (path.toList.reverse.takeWhile (· ≠ '/')).reverse

/-- The kind of the file at the given path. -/
def ofPath (path : String) : FileKind :=
  ofFileName (lastSegment path)

/-- The list in which a trace collects the branches of such files. -/
def collection : FileKind → String
  | .template => "files"
  | .helper => "helpers"

/-- The word for the kind. -/
def word : FileKind → String
  | .template => "template"
  | .helper => "helper"

end FileKind

end TemplateCoverage
