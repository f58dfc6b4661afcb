import TemplateCoverage.Chart.Filter
import TemplateCoverage.Error
import TemplateCoverage.Yaml.Reader

/-!
# Charts

A chart is a directory with a manifest and a tree of templates. Loading it checks that both are
there before anything is read, and lists the template files without reading them.
-/

namespace TemplateCoverage

/-- The name of the manifest. -/
def manifestName : String := "Chart.yaml"

/-- The name of the directory of the templates. -/
def templatesName : String := "templates"

/-- The name of the file that is shown after an installation and is never part of a render. -/
def notesName : String := "NOTES.txt"

/-- What reports need to know of a chart. -/
structure Manifest where
  name : String
  version : Option String
  description : Option String
  deriving DecidableEq, Repr

/-- The manifest in a YAML value. The field of the name is empty if the value names none. -/
def Manifest.ofYaml? (v : Yaml.Value) : Option Manifest :=
  let text? (field : String) : Option String := (v.field? field).bind Yaml.Value.scalarText?
  let manifest : Manifest :=
    { name := (text? "name").getD "", version := text? "version"
      description := text? "description" }
  match v.untagged with
  | .mapping _ | .null => some manifest
  | _ => none

/-- The manifest in a text. A chart without a name is called like its directory. -/
def Manifest.read (path text : String) : Except ManifestError Manifest :=
  match Yaml.read? text with
  | none => .error .malformed
  | some v =>
    match Manifest.ofYaml? v with
    | none => .error .notAMapping
    | some m =>
      if m.name.isEmpty then
        .ok { m with name := ((Path.parent? path).bind Path.fileName?).getD "" }
      else .ok m

/-- A file beneath the templates of a chart. -/
structure TemplateFile where
  /-- The path from the root of the chart. -/
  relative : String
  /-- The path at which the file was found. -/
  path : String
  kind : FileKind
  deriving DecidableEq, Repr

/-- A loaded chart. -/
structure Chart where
  root : String
  manifest : Manifest
  /-- The template files in the order of their paths. -/
  files : List TemplateFile
  deriving DecidableEq, Repr

namespace Chart

/-- The name of a chart. -/
def name (c : Chart) : String :=
  c.manifest.name

/-- The template file that a walk has met, if it is one. -/
def fileOfVisit? (v : Visit) : Option TemplateFile :=
  match v.entry, v.names.getLast? with
  | .file _ _, some name =>
    if name = notesName then none
    else
      some { relative := String.intercalate "/" (templatesName :: v.names), path := v.path
             kind := .ofFileName name }
  | _, _ => none

/-- The template files of the chart at a root. Links are not followed. -/
def listFiles (fs : FileSystem) (root : String) : Except CoverageError (List TemplateFile) :=
  let found := fs.walkTree false (Path.join root templatesName)
  match found.error with
  | some e => .error (.walk e)
  | none =>
    let files := found.visits.filterMap fileOfVisit?
    .ok (files.mergeSort fun f g => decide (f.relative ≤ g.relative))

/-- Load the chart at a root. -/
def load (fs : FileSystem) (root : String) : Except CoverageError Chart :=
  let manifestPath := Path.join root manifestName
  let templatesPath := Path.join root templatesName
  if !fs.isFile manifestPath then .error (.manifestMissing manifestPath)
  else if !fs.isDirectory templatesPath then .error (.templatesMissing templatesPath)
  else
    match fs.readText manifestPath with
    | .error e => .error (.file e)
    | .ok text =>
      match Manifest.read manifestPath text with
      | .error e => .error (.invalidManifest manifestPath e)
      | .ok manifest => (listFiles fs root).map fun files => { root, manifest, files }

/-- The files that are instrumented: all helpers, and the templates that the filters select. -/
def selectedFiles (c : Chart) (filters : List String) : List TemplateFile :=
  c.files.filter fun f => f.kind = .helper || filtersMatch f.relative filters

end Chart

end TemplateCoverage
