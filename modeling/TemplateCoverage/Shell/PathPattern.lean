import TemplateCoverage.FileSystem.Resolve
import TemplateCoverage.Wildcard

/-!
# Patterns of paths

A word with a wildcard stands for the paths that fit it, in order, and for itself if no path does. A
wildcard stands for characters of one segment, and not for a point in front.
-/

namespace TemplateCoverage.Shell

/-- The parts of a word between its slashes. -/
def segmentsOf : MarkedText → List MarkedText
  | [] => [[]]
  | c :: rest =>
    if c.1 = '/' then [] :: segmentsOf rest
    else
      match segmentsOf rest with
      | [] => [[c]]
      | first :: more => (c :: first) :: more

/-- Whether a text of a word has a wildcard. -/
def hasWildcard (m : MarkedText) : Bool :=
  Wildcard.isIn (m.length + 1) m

/-- A text of a word without the backslashes that quote other characters in a pattern. -/
def unquoted : MarkedText → Bytes
  | ('\\', false) :: (c, _) :: rest => c :: unquoted rest
  | (c, _) :: rest => c :: unquoted rest
  | [] => []

/-- The names in a directory that fit a segment. A name with a point in front has to be asked for by
that point. -/
def namesFitting (files : FileSystem) (directory : Bytes) (segment : MarkedText) : List Bytes :=
  match files.find .follow (Bytes.text directory) with
  | .ok (location, .directory) =>
    let wildcard := Wildcard.read segment
    let asksPoint := segment.head?.map (·.1) == some '.'
    let hidden : List Bytes := if asksPoint then [".", ".."] else []
    (hidden ++ (files.names location).map Bytes.ofText).filter fun name =>
      (name.head? ≠ some '.' || asksPoint) && wildcard.fits false name
  | _ => []

/-- The paths behind `base` that fit segments. A text ends with a slash if a segment is to follow.
-/
def pathsFitting (files : FileSystem) (base : Bytes) : List MarkedText → List Bytes
  | [] => [base]
  | segment :: rest =>
    let slash : Bytes := if rest.isEmpty then [] else ['/']
    if hasWildcard segment then
      let names := namesFitting files (if base.isEmpty then ['.'] else base) segment
      names.flatMap fun name => pathsFitting files (base ++ name ++ slash) rest
    else
      let path := base ++ unquoted segment
      if rest.isEmpty && !path.isEmpty && !(files.find .keep (Bytes.text path)).isOk then []
      else pathsFitting files (path ++ slash) rest

/-- The texts that a word stands for. -/
def pathsFor (files : FileSystem) (m : MarkedText) : List Bytes :=
  if hasWildcard m then
    match pathsFitting files [] (segmentsOf m) with
    | [] => [m.bytes]
    | paths => paths.mergeSort fun a b => !decide (b < a)
  else [m.bytes]

end TemplateCoverage.Shell
