import TemplateCoverage.Activity
import TemplateCoverage.CommandLine.Error
import TemplateCoverage.CoverageRun

/-!
# Values inputs

Every path that is given becomes one run or several: a file is one run, and a directory is one run
for each YAML document in it, in the order of their names. No path at all is one run without values.
-/

namespace TemplateCoverage.CommandLine

/-- The endings of the names of values documents. -/
def valuesEndings : List String :=
  [".yaml", ".yml"]

/-- Whether a name is that of a values document. -/
def isValuesName (name : String) : Bool :=
  valuesEndings.any fun ending => ending.toList.isSuffixOf name.toList

/-- The path after one more segment. The path `.` is left out of what follows it. What the segment
names has to exist; after `.` and `..`, the path itself has to be a directory. -/
def descend? (fs : FileSystem) (path segment : String) : Option String :=
  let next := if path = "." then segment else Path.join path segment
  let found :=
    if segment = "." ∨ segment = ".." then fs.isDirectory path else (fs.find .keep next).isOk
  if found then some next else none

/-- Where the search for a directory begins, and the segments that it follows. -/
def searchPath (directory : String) : String × List String :=
  let segments (cs : List Char) : List String := (Path.split cs).map String.ofList
  match directory.toList with
  | [] => ("/", [])
  | '/' :: rest => ("/", segments rest)
  | cs => (".", segments cs)

/-- The values documents in a directory, in the order of their names. -/
def valuesIn (fs : FileSystem) (directory : String) : List String :=
  let (first, segments) := searchPath directory
  match segments.foldlM (descend? fs) first with
  | none => []
  | some path =>
    match fs.find .follow path with
    | .ok (location, .directory) =>
      let paths := ((fs.names location).filter isValuesName).map fun name =>
        if path = "." then name else Path.join path name
      paths.filter fs.isFile
    | _ => []

/-- The runs that a path stands for. -/
def inputsOfPath (fs : FileSystem) (path : String) : Except InvalidArgument (List String) :=
  if fs.isDirectory path then
    match valuesIn fs path with
    | [] => .error (.noValuesFiles path)
    | documents => .ok documents
  else if fs.isFile path then .ok [path]
  else .error (.valuesNotFound path)

/-- The runs that paths stand for, of which there is at least one. -/
def inputsOfPaths : List String → Activity CommandError (List ValuesInput)
  | [] => pure []
  | path :: rest => do
    let fs ← Activity.files
    let documents ← Activity.ofExcept ((inputsOfPath fs path).mapError .argument)
    if fs.isDirectory path then
      Activity.log
        { level := .debug, source := .values, message := "values directory"
          fields := [("dir", path), ("documents", toString documents.length)] }
    let others ← inputsOfPaths rest
    pure (documents.map (fun p => ⟨some p⟩) ++ others)

/-- The runs that the paths given to a command stand for. -/
def expandValues (paths : List String) : Activity CommandError (List ValuesInput) := do
  if paths.isEmpty then pure [⟨none⟩]
  else
    let inputs ← inputsOfPaths paths
    Activity.log
      { level := .debug, source := .values, message := "expanded values inputs"
        fields := [("args", toString paths.length), ("runs", toString inputs.length)] }
    pure inputs

end TemplateCoverage.CommandLine
