import TemplateCoverage.Process
import TemplateCoverage.Renderer.Basic
import TemplateCoverage.Text.Quoted
import TemplateCoverage.Text.Utf8

/-!
# Programs as renderers

The renderer is a program that is called with the word `template`, the root of the chart, the values
document behind `-f`, and the further arguments. A program is a script among the files or one of the
programs that are always there.
-/

namespace TemplateCoverage

/-- A program, named by its path or by a name that is looked up. -/
structure Program where
  path : String := "helm"
  deriving DecidableEq, Repr

namespace Program

/-- The variables that the program gets to see. -/
def environment : List (Bytes × Bytes) :=
  [("PATH", Launch.standardSearchPath), ("HOME", "/root")]

/-- What is told of a program that cannot be called. -/
def launchFailure (cause : FileError) : String :=
  match cause with
  | .unexpectedNul => "nul byte found in provided data"
  | e => e.message

/-- What is wrong with a name that is looked up and not found. The names of directories are found,
but cannot be called. -/
def notFoundCause (path : String) : FileError :=
  if path = "." ∨ path = ".." then .permissionDenied
  else if FileSystem.nameLimit < path.utf8ByteSize then .nameTooLong
  else .notFound

/-- Call the program. The result has the files as it has left them. -/
def call (p : Program) (fs : FileSystem) (args : List String) :
    Except FileError (RenderOutput × FileSystem) :=
  if (p.path :: args).any fun a => a.toList.contains '\x00' then .error .unexpectedNul
  else
    match Process.call fs environment p.path (args.map Bytes.ofText) with
    | .error .notFound =>
      .error (if p.path.toList.contains '/' then .notFound else notFoundCause p.path)
    | .error e => .error e
    | .ok o =>
      let code := match o.ending with
        | .exited n => some (Int.ofNat n)
        | .killed _ => none
      .ok ({ stdout := Bytes.text o.output, stderr := Bytes.text o.error, code }, o.files)

/-- Whether the program can be called and answers a question for its version, and the files as it
has left them. -/
def isAvailable (p : Program) (fs : FileSystem) : Bool × FileSystem :=
  match p.call fs ["version"] with
  | .ok (o, after) => (o.succeeded, after)
  | .error _ => (false, fs)

/-- The arguments for a render. -/
def arguments (r : RenderRequest) : List String :=
  ["template", r.chart] ++ (r.values.toList.flatMap fun path => ["-f", path]) ++ r.extraArgs

/-- A word of a call as it is shown. A word that no program can be given is replaced. -/
def shownWord (word : String) : String :=
  if word.toList.contains '\x00' then "<string-with-nul>" else word

/-- What the log says of a call. -/
def callRecord (p : Program) (r : RenderRequest) : LogRecord :=
  let words := Text.byteQuoted (shownWord p.path) ::
    (arguments r).map fun a => Text.quoted (shownWord a)
  { level := .debug, source := .renderer, message := "spawning renderer"
    fields := [("command", String.intercalate " " words)] }

/-- Render by calling the program. -/
def render (p : Program) (fs : FileSystem) (r : RenderRequest) :
    Except CoverageError RenderOutput × FileSystem :=
  match p.call fs (arguments r) with
  | .ok (o, after) => (.ok o, after)
  | .error e => (.error (.rendererUnavailable p.path (launchFailure e)), fs)

/-- The renderer that calls the program. -/
def renderer (p : Program) : Renderer where
  announce r := [p.callRecord r]
  render fs _ r := p.render fs r

end Program

end TemplateCoverage
