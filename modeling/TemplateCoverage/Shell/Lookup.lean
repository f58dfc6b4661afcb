import TemplateCoverage.Shell.State
import TemplateCoverage.Utility.Table

/-!
# Finding programs

A name with a slash is a path. Any other name is looked up in the directories of a search path, one
after another. Utilities and shells are always in their directories.
-/

namespace TemplateCoverage

/-- What is run for a program. -/
inductive Executable where
  | utility (name : String)
  | shell
  deriving DecidableEq, Repr

/-- A program that can be called: what is run, the name it gets to see, and the arguments that come
before those of the call. -/
structure Launch where
  executable : Executable
  name : Bytes
  args : List Bytes := []
  deriving DecidableEq, Repr

namespace Launch

/-- The directories of the utilities. -/
def utilityRoots : List String :=
  ["/usr/bin/", "/bin/"]

/-- The names of the shells. -/
def shells : List String :=
  ["sh", "dash", "bash"]

/-- What a name stands for in the directories of the utilities. -/
def executableOf? (name : String) : Option Executable :=
  if shells.contains name then some .shell
  else if (Utility.ofName? (fun _ => pure none) name).isSome then some (.utility name)
  else none

/-- What stands at a path in the directories of the utilities. -/
def standard? (path : Bytes) : Option Executable :=
  utilityRoots.findSome? fun root =>
    if root.toList.isPrefixOf path then executableOf? (String.ofList (path.drop root.length))
    else none

/-- The first line of a file behind the mark for an interpreter: the interpreter and at most one
argument. -/
def interpreter? (contents : Bytes) : Option (Bytes × List Bytes) :=
  match contents with
  | '#' :: '!' :: rest =>
    let isGap (c : Char) : Bool := c = ' ' || c = '\t'
    let line := (rest.takeWhile (· ≠ '\n')).dropWhile isGap
    let line := (line.reverse.dropWhile isGap).reverse
    let name := line.takeWhile fun c => !isGap c
    let arg := (line.drop name.length).dropWhile isGap
    if name.isEmpty then none else some (name, if arg.isEmpty then [] else [arg])
  | _ => none

/-- The program at a path. A script leads to its interpreter, which may be a script itself, for a
number of steps at most. -/
def atPath (files : FileSystem) : Nat → Bytes → Except FileError Launch
  | 0, _ => .error .tooManyLinks
  | n + 1, path =>
    match standard? path with
    | some executable => .ok { executable, name := path }
    | none =>
      match files.status (Bytes.text path) with
      | .error e => .error e
      | .ok (.file contents true) =>
        match interpreter? (Bytes.ofArray contents) with
        | none => .error .notExecutable
        | some (name, args) =>
          (atPath files n name).map fun l => { l with args := l.args ++ args ++ [path] }
      | .ok _ => .error .permissionDenied

/-- The number of interpreters on the way to the last one. -/
def interpreterLimit : Nat := 6

/-- The program at a path. -/
def ofPath (files : FileSystem) (path : Bytes) : Except FileError Launch :=
  atPath files interpreterLimit path

/-- The search path that is used if none is set. -/
def standardSearchPath : Bytes :=
  "/usr/local/sbin:/usr/local/bin:/usr/sbin:/usr/bin:/sbin:/bin"

/-- The path that a name leads to by a search path. -/
def search? (files : FileSystem) (searchPath name : Bytes) : Option Bytes :=
  if name.isEmpty then none
  else
    (Bytes.split ':' searchPath).findSome? fun directory =>
      let path := Utility.pathBelow directory name
      if (standard? path).isSome then some path
      else
        match files.status (Bytes.text path) with
        | .ok (.file _ true) => some path
        | _ => none

end Launch

end TemplateCoverage
