import TemplateCoverage.FileSystem.Resolve

/-!
# Changing files

Making directories and writing files. A directory is made at the end of an existing path; missing
directories on the way are made from left to right by `createDirectories`.
-/

namespace TemplateCoverage.FileSystem

/-- Make a directory. Its parent has to exist, and nothing may stand in its place. -/
def makeDirectory (fs : FileSystem) (path : String) : Except FileError FileSystem :=
  match checkPath path with
  | .error e => .error e
  | .ok () =>
    let segments := Path.segments path
    match segments.getLast? with
    | none => .error .alreadyExists
    | some last =>
      if last = "." ∨ last = ".." then
        match fs.walk .follow linkLimit (fs.start path) (segments.dropLast ++ ["."]) with
        | .error e => .error e
        | .ok _ => .error .alreadyExists
      else
        match fs.walk .keep linkLimit (fs.start path) segments with
        | .error e => .error e
        | .ok location =>
          if (fs.entry? location).isSome then .error .alreadyExists
          else .ok (fs.put location .directory)

/-- Make a directory and, where one is missing on the way, the ones above it, which are given with
the nearest first. A directory that is there already is fine. -/
def createUnder (fs : FileSystem) (path : String) (above : List String) :
    Except FileError Unit × FileSystem :=
  if path.isEmpty then (.ok (), fs)
  else
    match fs.makeDirectory path, above with
    | .ok made, _ => (.ok (), made)
    | .error .notFound, parent :: further =>
      match fs.createUnder parent further with
      | (.error e, after) => (.error e, after)
      | (.ok (), after) =>
        match after.makeDirectory path with
        | .ok made => (.ok (), made)
        | .error e => (if after.isDirectory path then .ok () else .error e, after)
    | .error e, _ => (if fs.isDirectory path then .ok () else .error e, fs)
termination_by above.length

/-- Make a directory with all that is missing on the way to it. -/
def createDirectories (fs : FileSystem) (path : String) : Except FileError Unit × FileSystem :=
  fs.createUnder path (Path.parents path)

/-- Write a file, in place of one that is there. A file keeps being executable or not, unless the
new state is given. -/
def write (fs : FileSystem) (path : String) (contents : ByteArray) (executable? : Option Bool) :
    Except FileError FileSystem :=
  match fs.locate .fill path with
  | .error e => .error e
  | .ok location =>
    match fs.entry? location with
    | some .directory => .error .isADirectory
    | some (.file _ executable) =>
      .ok (fs.put location (.file contents (executable?.getD executable)))
    | _ => .ok (fs.put location (.file contents (executable?.getD false)))

/-- Write a text to a file. -/
def writeText (fs : FileSystem) (path contents : String) : Except FileError FileSystem :=
  fs.write path contents.toUTF8 none

/-- Copy a file with its permission to run. The target is emptied before the source is read, so a
file that is copied onto itself is lost. -/
def copyFile (fs : FileSystem) (source target : String) :
    Except FileError Unit × FileSystem :=
  match fs.status source with
  | .error e => (.error e, fs)
  | .ok (.file _ executable) =>
    match fs.write target ByteArray.empty (some executable) with
    | .error e => (.error e, fs)
    | .ok emptied =>
      match emptied.readBytes source with
      | .error e => (.error e, emptied)
      | .ok contents =>
        match emptied.write target contents none with
        | .error e => (.error e, emptied)
        | .ok after => (.ok (), after)
  | .ok _ => (.error .isADirectory, fs)

end TemplateCoverage.FileSystem
