/-!
# Paths as text

A path is a text with segments between slashes. This module reads and joins such texts without
looking at any file: empty segments mean nothing, and neither does `.` except in front.
-/

namespace TemplateCoverage.Path

/-- A step of a path. -/
inductive Component where
  /-- The slash in front of an absolute path. -/
  | root
  /-- A `.` in front of a relative path. -/
  | here
  /-- The segment `..`. -/
  | up
  | name (segment : String)
  deriving DecidableEq, Repr

/-- The texts between the slashes of a text. -/
def split : List Char → List (List Char)
  | [] => [[]]
  | c :: cs =>
    if c = '/' then [] :: split cs
    else
      match split cs with
      | [] => [[c]]
      | first :: rest => (c :: first) :: rest

/-- The segments of a path that are not empty. -/
def segments (path : String) : List String :=
  ((split path.toList).filter (!·.isEmpty)).map String.ofList

/-- Whether a path begins at the root. -/
def isAbsolute (path : String) : Bool :=
  path.toList.head? == some '/'

/-- Whether a path ends with a slash. -/
def endsWithSlash (path : String) : Bool :=
  path.toList.getLast? == some '/'

/-- The step of a segment after the first one. -/
def Component.ofSegment? (segment : String) : Option Component :=
  if segment = "." then none else if segment = ".." then some .up else some (.name segment)

/-- The steps of a path. -/
def components (path : String) : List Component :=
  let steps := segments path
  let later (l : List String) := l.filterMap Component.ofSegment?
  if isAbsolute path then .root :: later steps
  else
    match steps with
    | "." :: rest => .here :: later rest
    | l => later l

/-- The text of a step other than the root. -/
def Component.text : Component → String
  | .root => "/"
  | .here => "."
  | .up => ".."
  | .name segment => segment

/-- A path with the given steps. -/
def ofComponents : List Component → String
  | .root :: rest => "/" ++ String.intercalate "/" (rest.map Component.text)
  | steps => String.intercalate "/" (steps.map Component.text)

/-- The path `next` as seen from the path `base`. -/
def join (base next : String) : String :=
  if isAbsolute next || base.isEmpty then next
  else if endsWithSlash base then base ++ next
  else base ++ "/" ++ next

/-- The name that a path ends with. -/
def fileName? (path : String) : Option String :=
  match (components path).getLast? with
  | some (.name segment) => some segment
  | _ => none

/-- The path without its last step. The root and the empty path have none. -/
def parent? (path : String) : Option String :=
  match (components path).getLast? with
  | none | some .root => none
  | some _ => some (ofComponents (components path).dropLast)

/-- The paths above a path, the nearest first. -/
def parents (path : String) : List String :=
  match components path with
  | [] | [.root] => []
  | steps => ((List.range steps.length).map fun n => ofComponents (steps.take n)).reverse

/-- Whether the steps of a path begin with those of another one. -/
def startsWith (path base : String) : Bool :=
  (components base).isPrefixOf (components path)

/-- The steps of a path below another one, with slashes between them. A path that is not below it
keeps all of its steps. -/
def relativeTo (base path : String) : String :=
  let steps := components path
  let start := components base
  let rest := if start.isPrefixOf steps then steps.drop start.length else steps
  String.intercalate "/" (rest.map Component.text)

/-- A path with the segments of another text added one by one. -/
def joinSegments (base relative : String) : String :=
  ((split relative.toList).map String.ofList).foldl join base

end TemplateCoverage.Path
