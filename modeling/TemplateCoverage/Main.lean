import Std.Time.DateTime
import TemplateCoverage.CommandLine.Outcome

/-!
# The executable

The files below the working directory, and below absolute paths among the words, are read before the
program is carried out on them, and what it has changed is written back. Files that begin like a
script count as executable.
-/

namespace TemplateCoverage.CommandLine

/-- A number with zeros in front of it up to the given width. -/
def padded (width n : Nat) : String :=
  let digits := toString n
  String.ofList (List.replicate (width - digits.length) '0') ++ digits

/-- A date and time in universal time. -/
def dateText (t : Std.Time.PlainDateTime) : String :=
  let day := String.intercalate "-"
    [padded 4 t.date.year.toInt.toNat, padded 2 t.date.month.toNat, padded 2 t.date.day.toNat]
  let time := String.intercalate ":"
    [padded 2 t.time.hour.toNat, padded 2 t.time.minute.toNat, padded 2 t.time.second.toNat]
  day ++ "T" ++ time ++ "." ++ padded 9 t.time.nanosecond.toNat ++ "+00:00"

/-- The time now. -/
def readClock : IO Clock := do
  let now ← Std.Time.Timestamp.now
  pure
    { date := dateText (.ofWallTime (now.toWallTime .zero))
      millis := toString now.toMillisecondsSinceUnixEpoch.val }

/-- Add what stands in a directory. What cannot be read is left out. -/
partial def readEntries (base : Location) (fs : FileSystem) (entries : Array IO.FS.DirEntry) :
    IO FileSystem :=
  entries.foldlM (fun fs e => do
    let here := base ++ [e.fileName]
    try
      match (← e.path.symlinkMetadata).type with
      | .dir => readEntries here (fs.put here .directory) (← e.path.readDir)
      | .symlink => pure (fs.put here (.link (toString (← IO.FS.realPath e.path))))
      | _ =>
        let contents ← IO.FS.readBinFile e.path
        pure (fs.put here (.file contents (contents.toList.take 2 = "#!".toUTF8.toList)))
    catch _ => pure fs) fs

/-- Add a directory with those above it and all that it holds. -/
def readDirectory (fs : FileSystem) (path : String) : IO FileSystem := do
  try
    let directory ← IO.FS.realPath path
    let location := Path.segments (toString directory)
    let above := (List.range (location.length + 1)).map location.take
    let fs := above.foldl (fun fs l => fs.put l .directory) fs
    readEntries location fs (← directory.readDir)
  catch _ => pure fs

/-- Write an entry to the machine. -/
def writeEntry (location : Location) : Entry → IO Unit
  | .directory => IO.FS.createDirAll (FileSystem.pathOf location)
  | .file contents _ => IO.FS.writeBinFile (FileSystem.pathOf location) contents
  | .link _ => pure ()

/-- Write what differs between two states of the files. -/
def writeChanges (before after : FileSystem) : IO Unit :=
  after.entries.toList.forM fun (location, entry) => do
    if !(before.entry? location).any (·.isSame entry) then writeEntry location entry

/-- Carry out the command that the words of the command line ask for. -/
def call (words : List String) : IO UInt32 := do
  let here := toString (← IO.currentDir)
  let empty : FileSystem := { workingDirectory := Path.segments here }
  let roots := here :: words.filter Path.isAbsolute
  let before ← roots.foldlM readDirectory (empty.put ["tmp"] .directory)
  let bindings ← ["CHARTCOV_HELM", "RUST_LOG", "CLICOLOR_FORCE"].mapM fun name => do
    pure (name, ← IO.getEnv name)
  let surroundings : Surroundings :=
    { environment := fun name => (bindings.lookup name).join, clock := ← readClock }
  let (o, after) := outcome surroundings before words
  writeChanges before after
  IO.print o.stdout
  IO.eprint o.stderr
  pure o.code.toUInt32

end TemplateCoverage.CommandLine

/-- Carry out the command that the words of the command line ask for. -/
def main (words : List String) : IO UInt32 :=
  TemplateCoverage.CommandLine.call words
