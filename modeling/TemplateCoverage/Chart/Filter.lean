import TemplateCoverage.Text.Blank
import TemplateCoverage.Text.Search

/-!
# Selecting template files

A filter names a file or a directory of the chart. It selects the paths that it begins, and those
that end with it as whole segments. An empty list of filters selects everything.
-/

namespace TemplateCoverage

/-- The text without any `./` in front. -/
def dropHere : List Char → List Char
  | '.' :: '/' :: rest => dropHere rest
  | cs => cs

/-- What a filter names: without `./` in front and slashes behind. -/
def filterName (filter : String) : List Char :=
  Text.dropEndWhile (· == '/') (dropHere filter.toList)

/-- Whether a filter selects a path. A filter that names nothing selects nothing. -/
def pathMatches (path filter : String) : Bool :=
  let name := filterName filter
  !name.isEmpty
    && (path.toList == name || name.isPrefixOf path.toList || ('/' :: name).isSuffixOf path.toList)

/-- Whether a list of filters selects a path. -/
def filtersMatch (path : String) (filters : List String) : Bool :=
  filters.isEmpty || filters.any (pathMatches path)

end TemplateCoverage
