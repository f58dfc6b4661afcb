import TemplateCoverage.Utility.Line

/-!
# Utilities for names of files

Parts of paths, and where paths lead.
-/

namespace TemplateCoverage.Utility

/-- A path without the slashes at its end. -/
def withoutSlashes (path : Bytes) : Bytes :=
  (path.reverse.dropWhile (· = '/')).reverse

/-- The last name of a path. Only slashes stand for the root. -/
def lastName (path : Bytes) : Bytes :=
  let kept := withoutSlashes path
  if kept.isEmpty then if path.isEmpty then [] else ['/']
  else (kept.reverse.takeWhile (· ≠ '/')).reverse

/-- The path of the directory that holds what a path names. -/
def parentPath (path : Bytes) : Bytes :=
  let kept := withoutSlashes path
  if kept.isEmpty then if path.isEmpty then ['.'] else ['/']
  else
    let front := (kept.reverse.dropWhile (· ≠ '/')).reverse
    if front.isEmpty then ['.']
    else
      let parent := withoutSlashes front
      if parent.isEmpty then ['/'] else parent

/-- A path with a name behind it. -/
def pathBelow (path name : Bytes) : Bytes :=
  if path.isEmpty then name
  else if path.getLast? = some '/' then path ++ name
  else path ++ "/" ++ name

/-- A name without an ending that is not all of it. -/
def withoutEnding (ending name : Bytes) : Bytes :=
  if ending.isSuffixOf name && ending.length < name.length then
    name.take (name.length - ending.length)
  else name

/-- Write the last names of paths. -/
def basename (u : UtilityCall) : Work Nat := do
  match Options.read
    [{ letter := 'a', names := ["multiple"] },
     { letter := 's', names := ["suffix"], value := .required },
     { letter := 'z', names := ["zero"] }] u.args false with
  | .error e => u.misused e.message 1
  | .ok o =>
    let ending : Bytes := if o.has 'z' then ['\x00'] else "\n"
    let many := o.has 'a' || o.has 's'
    match o.operands with
    | [] => u.misused "missing operand" 1
    | path :: rest =>
      if many then
        for path in path :: rest do
          Work.say (withoutEnding ((o.value? 's').getD []) (lastName path) ++ ending)
        pure 0
      else
        match rest with
        | [] =>
          Work.say (lastName path ++ ending)
          pure 0
        | [suffix] =>
          Work.say (withoutEnding suffix (lastName path) ++ ending)
          pure 0
        | _ :: extra :: _ => u.misused ("extra operand " ++ Bytes.cited extra) 1

/-- Write the paths of the directories that hold what paths name. -/
def dirname (u : UtilityCall) : Work Nat :=
  u.withOptions [{ letter := 'z', names := ["zero"] }] 1 fun o => do
  let ending : Bytes := if o.has 'z' then ['\x00'] else "\n"
  if o.operands.isEmpty then u.misused "missing operand" 1
  else
    for path in o.operands do
      Work.say (parentPath path ++ ending)
    pure 0

/-- The path without links that leads to the same place. The last name need not exist. -/
def resolved (files : FileSystem) (path : Bytes) (strict : Bool) : Except FileError Bytes :=
  let name := Bytes.text path
  if strict then (files.canonical name).map fun l => Bytes.ofText (FileSystem.pathOf l)
  else (files.locate .follow name).map fun l => Bytes.ofText (FileSystem.pathOf l)

/-- Write the targets of links. -/
def readlink (u : UtilityCall) : Work Nat :=
  u.withOptions
    [{ letter := 'f', names := ["canonicalize"] },
     { letter := 'e', names := ["canonicalize-existing"] },
     { letter := 'm', names := ["canonicalize-missing"] },
     { letter := 'n', names := ["no-newline"] }, { letter := 'q', names := ["quiet"] },
     { letter := 's', names := ["silent"] }, { letter := 'v', names := ["verbose"] },
     { letter := 'z', names := ["zero"] }] 1 fun o => do
  let isSingle := o.operands.length ≤ 1
  let ending : Bytes := if o.has 'n' && isSingle then [] else "\n"
  if o.operands.isEmpty then u.misused "missing operand" 1
  else
    if o.has 'n' && !isSingle then u.complain "ignoring --no-newline with multiple arguments"
    o.operands.foldlM (fun code (path : Bytes) => do
      let files := (← get).files
      let found : Except FileError Bytes :=
        if o.has 'f' || o.has 'e' || o.has 'm' then resolved files path (o.has 'e')
        else
          match files.find .keep (Bytes.text path) with
          | .ok (_, .link target) => .ok (Bytes.ofText target)
          | .ok _ => .error .notExecutable
          | .error e => .error e
      match found with
      | .ok target =>
        Work.say (target ++ ending)
        pure code
      | .error e =>
        if o.has 'v' then u.complainOf (Bytes.shown path) e
        pure 1) 0

/-- Write where paths lead. -/
def realpath (u : UtilityCall) : Work Nat :=
  u.withOptions
    [{ letter := 'e', names := ["canonicalize-existing"] },
     { letter := 'm', names := ["canonicalize-missing"] },
     { letter := 's', names := ["strip", "no-symlinks"] }, { letter := 'q', names := ["quiet"] },
     { letter := 'z', names := ["zero"] }] 1 fun o => do
  if o.operands.isEmpty then u.misused "missing operand" 1
  else
    o.operands.foldlM (fun code (path : Bytes) => do
      match resolved (← get).files path (o.has 'e') with
      | .ok target =>
        Work.say (target ++ "\n")
        pure code
      | .error e =>
        if !o.has 'q' then u.complainOf (Bytes.shown path) e
        pure 1) 0

/-- Write the path of the working directory. -/
def pwd (u : UtilityCall) : Work Nat :=
  u.withOptions
    [{ letter := 'L', names := ["logical"] }, { letter := 'P', names := ["physical"] }] 1 fun o => do
  if !o.operands.isEmpty then u.complain "ignoring non-option arguments"
  Work.say (Bytes.ofText (FileSystem.pathOf (← get).files.workingDirectory) ++ "\n")
  pure 0

end TemplateCoverage.Utility
