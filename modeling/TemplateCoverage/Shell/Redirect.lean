import TemplateCoverage.Shell.Expansion

/-!
# Redirections

A redirection gives a descriptor another stream. Those of a command are carried out from left to
right, so that a copy of a descriptor has the stream that it has at this point.
-/

namespace TemplateCoverage.Shell

namespace Running

/-- Open a stream. -/
def openStream (s : Stream) : Running Nat := do
  let m ← get
  let (stream, world) := m.world.openStream s
  set { m with world }
  pure stream

/-- Complain about a file that cannot be opened. -/
def failToOpen {α : Type} (creates : Bool) (path : Bytes) (e : FileError) : Running α := do
  let isMissing := e = .notFound || e = .notADirectory
  if creates then
    fail ("cannot create " ++ path ++ ": " ++
      (if isMissing then "Directory nonexistent" else e.cause))
  else
    fail ("cannot open " ++ path ++ ": " ++ (if isMissing then "No such file" else e.cause))

/-- The stream of a descriptor that a path stands for. -/
def descriptorAt? (path : Bytes) : Option Nat :=
  match String.ofList path with
  | "/dev/stdin" => some 0
  | "/dev/stdout" => some 1
  | "/dev/stderr" => some 2
  | text =>
    if text.startsWith "/dev/fd/" then Bytes.nat? (path.drop 8) else none

/-- Open a file. -/
def openFile (descriptors : List (Nat × Nat)) (mode : OpenMode) (path : Bytes) : Running Nat := do
  let m ← get
  let files := m.world.files
  let name := Bytes.text path
  if path = "/dev/null" then openStream .null
  else
    match descriptorAt? path with
    | some d =>
      match descriptors.lookup d with
      | some stream => pure stream
      | none => failToOpen (mode ≠ .read) path .notFound
    | none =>
      let there := files.find .fill name
      match mode, there with
      | .read, _ =>
        match files.find .follow name with
        | .ok (location, _) => openStream (.file location 0 false)
        | .error e => failToOpen false path e
      | _, .ok (_, .directory) => failToOpen true path .isADirectory
      | .write, .ok (_, .file _ _) =>
        if m.here.options.protectsFiles then failToOpen true path .alreadyExists
        else truncate files name
      | .append, .ok (location, _) => openStream (.file location 0 true)
      | .readWrite, .ok (location, _) => openStream (.file location 0 false)
      | _, _ => truncate files name
where
  /-- Open a file that is empty then. -/
  truncate (files : FileSystem) (name : String) : Running Nat := do
    match files.write name ByteArray.empty none with
    | .error e => failToOpen true path e
    | .ok files =>
      changeWorld fun w => { w with files }
      match files.canonical name with
      | .ok location => openStream (.file location 0 (mode = .append))
      | .error e => failToOpen true path e

/-- Carry out a redirection. The result has the streams of all descriptors. -/
def redirect (output : OutputOf) (descriptors : List (Nat × Nat)) :
    Redirection → Running (List (Nat × Nat))
  | .toFile d mode w => do
    let stream ← openFile descriptors mode (← oneText output w)
    pure ((d, stream) :: descriptors.filter fun old => old.1 ≠ d)
  | .document d number => do
    let w := ((← get).world.documents.lookup number).getD []
    let stream ← openStream (.source (← documentText output w))
    pure ((d, stream) :: descriptors.filter fun old => old.1 ≠ d)
  | .copy d w => do
    let others := descriptors.filter fun old => old.1 ≠ d
    match ← oneText output w with
    | ['-'] => pure others
    | [c] =>
      if !c.isDigit then badDescriptor
      else
        match descriptors.lookup (c.toNat - '0'.toNat) with
        | some stream => pure ((d, stream) :: others)
        | none => fail ([c] ++ ": Bad file descriptor")
    | _ => badDescriptor
where
  /-- Complain about something that is no descriptor. -/
  badDescriptor : Running (List (Nat × Nat)) := do
    change fun h => { h with line := h.line + 1 }
    complain "Syntax error: Bad fd number"
    throw (.exit 2)

/-- Carry out redirections. -/
def redirectAll (output : OutputOf) (rs : List Redirection) : Running (List (Nat × Nat)) := do
  rs.foldlM (redirect output) (← here).descriptors

/-- Carry out redirections. There is no result if one fails. -/
def redirectSafely? (output : OutputOf) (rs : List Redirection) :
    Running (Option (List (Nat × Nat))) :=
  tryCatch (do
      let descriptors ← redirectAll output rs
      pure (some descriptors))
    fun stop => match stop with
      | .fault _ => pure none
      | stop => throw stop

end Running

end TemplateCoverage.Shell
