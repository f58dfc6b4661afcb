import TemplateCoverage.Shell.Interpreter

/-!
# Running programs

A program is a utility or a shell that runs a script, and may call other programs itself. The number
of programs that call each other is limited, so that no chain of calls goes on for ever.
-/

namespace TemplateCoverage.Process

open Shell (ProgramRunner)

/-- The search path of an environment. -/
def searchPath (environment : List (Bytes × Bytes)) : Bytes :=
  (environment.lookup "PATH".toList).getD Launch.standardSearchPath

/-- The program that a call names, by its path or by the search path of its environment. -/
def launch (files : FileSystem) (u : UtilityCall) : Except FileError Launch :=
  let path? :=
    if u.name.contains '/' then some u.name
    else Launch.search? files (searchPath u.environment) u.name
  match path? with
  | none => .error .notFound
  | some path =>
    (Launch.ofPath files path).map fun l => if l.args.isEmpty then { l with name := u.name } else l

/-- Run a program, which may call others up to a number of them inside of each other. -/
def run : Nat → ProgramRunner
  | 0, _, u => do
    u.complain "Resource temporarily unavailable"
    pure (.exited 126)
  | n + 1, l, u =>
    let call : Utility.ProgramCaller := fun inner => do
      match launch (← get).files inner with
      | .error .notExecutable =>
        let l : Launch := { executable := .shell, name := inner.name, args := [inner.name] }
        let ending ← run n l { inner with args := l.args ++ inner.args }
        pure (some ending.code)
      | .error e => pure (if e = .notFound ∨ e = .notADirectory then none else some 126)
      | .ok l =>
        let ending ← run n l { inner with name := l.name, args := l.args ++ inner.args }
        pure (some ending.code)
    match l.executable with
    | .shell => Shell.shell (run n) u
    | .utility name =>
      match Utility.run? call name with
      | some work => do pure (.exited (← work u))
      | none => pure (.exited 127)

/-- The number of programs that call each other. -/
def callLimit : Nat := 64

/-- What came of a program. -/
structure Outcome where
  output : Bytes
  error : Bytes
  ending : Shell.Ending
  files : FileSystem

/-- Call a program by its path or name, with nothing to read. -/
def call (files : FileSystem) (environment : List (Bytes × Bytes)) (name : Bytes)
    (args : List Bytes) : Except FileError Outcome :=
  let u : UtilityCall := { name, args, environment }
  match launch files u with
  | .error e => .error e
  | .ok l =>
    let (ending, w) := (run callLimit l { u with name := l.name, args := l.args ++ args }).run
      { files }
    let texts (pick : Written → Bytes) : Bytes := w.written.reverse.flatMap pick
    .ok
      { output := texts fun t => match t with
          | .output text => text
          | .error _ => []
        error := texts fun t => match t with
          | .error text => text
          | .output _ => []
        ending
        files := { w.files with workingDirectory := files.workingDirectory } }

end TemplateCoverage.Process
