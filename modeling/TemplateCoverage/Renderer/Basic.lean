import TemplateCoverage.Error
import TemplateCoverage.Log
import TemplateCoverage.Text.Blank

/-!
# Renderers

A renderer expands an instrumented chart for one values input. How it failed is left to be judged by
the caller; an error only means that it could not be run at all.
-/

namespace TemplateCoverage

/-- What is rendered. -/
structure RenderRequest where
  /-- The root of the instrumented chart. -/
  chart : String
  /-- The values document, if there is one. -/
  values : Option String
  /-- Further arguments. -/
  extraArgs : List String
  deriving DecidableEq, Repr

/-- What a renderer answered. -/
structure RenderOutput where
  stdout : String := ""
  stderr : String := ""
  /-- The exit code. A renderer that was killed has none. -/
  code : Option Int := some 0
  deriving DecidableEq, Repr

namespace RenderOutput

/-- Whether the renderer ended well. -/
def succeeded (o : RenderOutput) : Bool :=
  o.code = some 0

/-- The exit code for messages. -/
def status (o : RenderOutput) : String :=
  match o.code with
  | none => "signal"
  | some code => toString code

/-- How the renderer explains a failure: on its error stream, or else on its output. -/
def diagnostic (o : RenderOutput) : String :=
  if (Text.trim o.stderr.toList).isEmpty then o.stdout else o.stderr

end RenderOutput

/-- A renderer. It sees the files, which it may change, and the number of its calls before this one,
so it may answer differently each time. -/
structure Renderer where
  /-- What is noted before a call. -/
  announce : RenderRequest → List LogRecord := fun _ => []
  render : FileSystem → Nat → RenderRequest → Except CoverageError RenderOutput × FileSystem

end TemplateCoverage
