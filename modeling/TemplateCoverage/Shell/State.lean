import TemplateCoverage.Shell.Syntax
import TemplateCoverage.Utility.Find

/-!
# The state of a running script

What a script changes is of two kinds: the files and streams, which all parts of a script share, and
what a part in its own surroundings has for itself, such as parameters and the streams that its
descriptors stand for.
-/

namespace TemplateCoverage.Shell

/-- A stream that a descriptor can stand for. -/
inductive Stream where
  /-- Nothing is read, and what is written is dropped. -/
  | null
  /-- What has been written, the latest first. -/
  | sink (written : List Bytes)
  /-- What is left to be read. -/
  | source (rest : Bytes)
  /-- A file with the place in it. What is written comes at the end on request. -/
  | file (location : Location) (offset : Nat) (appends : Bool)
  /-- What is written goes out of the script as output or as an error. -/
  | outward (isError : Bool)

/-- The files and streams. -/
structure World where
  files : FileSystem
  streams : Array Stream := #[]
  /-- What has gone out of the script, the latest first. -/
  outward : List Written := []
  /-- The documents in the script, by their numbers. -/
  documents : List (Nat × Word) := []
  /-- The exit codes of the commands that have run in the background, by their numbers. -/
  background : List (Nat × Nat) := []

namespace World

/-- The bytes of a file at a location. -/
def contents (w : World) (location : Location) : Bytes :=
  match w.files.entry? location with
  | some (.file bytes _) => Bytes.ofArray bytes
  | _ => []

/-- Write to a stream. -/
def write (w : World) (stream : Nat) (text : Bytes) : World :=
  match w.streams[stream]? with
  | some (.outward isError) =>
    { w with outward := (if isError then .error text else .output text) :: w.outward }
  | some (.sink written) =>
    { w with streams := w.streams.setIfInBounds stream (.sink (text :: written)) }
  | some (.file location offset appends) =>
    match w.files.entry? location with
    | some (.file _ executable) =>
      let before := w.contents location
      let place := if appends then before.length else offset
      let front := before.take place ++ List.replicate (place - before.length) '\x00'
      let after := front ++ text ++ before.drop (place + text.length)
      { w with
        files := w.files.put location (.file (Bytes.toArray after) executable)
        streams := w.streams.setIfInBounds stream
          (.file location (place + text.length) appends) }
    | _ => w
  | _ => w

/-- What can be read from a stream. -/
def available (w : World) (stream : Nat) : Bytes :=
  match w.streams[stream]? with
  | some (.source rest) => rest
  | some (.file location offset _) => (w.contents location).drop offset
  | _ => []

/-- Leave out bytes that have been read from a stream. -/
def consume (w : World) (stream count : Nat) : World :=
  match w.streams[stream]? with
  | some (.source rest) =>
    { w with streams := w.streams.setIfInBounds stream (.source (rest.drop count)) }
  | some (.file location offset appends) =>
    { w with streams := w.streams.setIfInBounds stream (.file location (offset + count) appends) }
  | _ => w

/-- Open a stream. The result has its number. -/
def openStream (w : World) (s : Stream) : Nat × World :=
  (w.streams.size, { w with streams := w.streams.push s })

/-- What has been written to a sink. -/
def written (w : World) (stream : Nat) : Bytes :=
  match w.streams[stream]? with
  | some (.sink written) => written.reverse.flatten
  | _ => []

end World

/-- A variable of a script. -/
structure Binding where
  value? : Option Bytes := none
  exported : Bool := false
  readOnly : Bool := false
  deriving DecidableEq, Repr

/-- The options that change how a script runs. -/
structure ShellOptions where
  /-- A command that fails ends the script. -/
  stopsOnFailure : Bool := false
  /-- A parameter has to have a value. -/
  needsValues : Bool := false
  /-- Commands are shown before they run. -/
  traces : Bool := false
  /-- Wildcards stand for themselves. -/
  keepsWildcards : Bool := false
  exportsAll : Bool := false
  /-- Files are not overwritten. -/
  protectsFiles : Bool := false
  /-- Commands are read and not run. -/
  onlyReads : Bool := false
  showsInput : Bool := false
  deriving DecidableEq, Repr

/-- A function of a script. -/
structure ShellFunction where
  line : Nat
  body : Command

/-- The surroundings of a part of a script. -/
structure Surroundings where
  /-- The name by which the script was called. -/
  name : Bytes
  args : List Bytes := []
  bindings : List (Bytes × Binding) := []
  functions : List (Bytes × ShellFunction) := []
  options : ShellOptions := {}
  /-- The exit code of the last command. -/
  code : Nat := 0
  /-- The exit code of the last command in the place of a word. -/
  outputCode : Nat := 0
  /-- The streams of the open descriptors. -/
  descriptors : List (Nat × Nat) := []
  /-- The commands for signals and for the end. -/
  traps : List (Bytes × Bytes) := []
  /-- The command in whose name messages are written. -/
  commandName : Bytes := []
  line : Nat := 0
  loops : Nat := 0
  calls : Nat := 0
  /-- The variables as they were outside of functions, for each that is running. -/
  saved : List (List (Bytes × Option Binding)) := []
  /-- Whether this part runs on its own. -/
  isSeparate : Bool := false
  lastProcess : Option Nat := none
  /-- The place among the letters of an argument that are being read as options. -/
  letterIndex : Nat := 0
  /-- The permissions that new files do not get. -/
  mask : Bytes := "0022"

/-- A running script. -/
structure Machine where
  here : Surroundings
  world : World

/-- Why a command does not end in the usual way. -/
inductive Stop where
  /-- Loops are left. -/
  | leave (loops : Nat)
  /-- A loop goes on with its next turn. -/
  | next (loops : Nat)
  /-- A function ends. -/
  | answer (code : Nat)
  /-- The script ends. -/
  | exit (code : Nat)
  /-- Something is wrong, which ends the script unless a command without special standing is to
  blame. -/
  | fault (code : Nat)
  | killed (signal : Nat)
  deriving DecidableEq, Repr

/-- A step of a running script. -/
abbrev Running := ExceptT Stop (StateM Machine)

namespace Running

/-- The surroundings. -/
def here : Running Surroundings := do
  pure (← get).here

/-- Change the surroundings. -/
def change (f : Surroundings → Surroundings) : Running Unit :=
  modify fun m => { m with here := f m.here }

/-- Change the files and streams. -/
def changeWorld (f : World → World) : Running Unit :=
  modify fun m => { m with world := f m.world }

/-- Write to a descriptor. -/
def emit (descriptor : Nat) (text : Bytes) : Running Unit := do
  match (← here).descriptors.lookup descriptor with
  | some stream => if text.isEmpty then pure () else changeWorld fun w => w.write stream text
  | none => pure ()

/-- Write to the output. -/
def say (text : Bytes) : Running Unit :=
  emit 1 text

/-- Complain on the error stream. -/
def complain (message : Bytes) : Running Unit := do
  let h ← here
  let command : Bytes := if h.commandName.isEmpty then [] else h.commandName ++ ": "
  emit 2 (h.name ++ ": " ++ Bytes.ofNat h.line ++ ": " ++ command ++ message ++ "\n")

/-- Complain and stop. -/
def fail {α : Type} (message : Bytes) (code : Nat := 2) : Running α := do
  complain message
  throw (.fault code)

/-! ### Variables -/

/-- A variable. -/
def binding? (name : Bytes) : Running (Option Binding) := do
  pure ((← here).bindings.lookup name)

/-- The value of a variable. -/
def value? (name : Bytes) : Running (Option Bytes) := do
  pure ((← binding? name).bind (·.value?))

/-- Put a variable in its place. -/
def bind (name : Bytes) (b : Binding) : Running Unit :=
  change fun h => { h with bindings := (name, b) :: h.bindings.filter fun old => old.1 != name }

/-- Give a variable a value. -/
def assign (name value : Bytes) (exported : Bool := false) : Running Unit := do
  let old := (← binding? name).getD {}
  if old.readOnly then fail (name ++ ": is read only")
  let exports := exported || (← here).options.exportsAll
  bind name { old with value? := some value, exported := old.exported || exports }
  if name = "OPTIND" then change fun h => { h with letterIndex := 0 }

/-- Take a variable away. -/
def unbind (name : Bytes) : Running Unit := do
  if ((← binding? name).getD {}).readOnly then fail (name ++ ": is read only")
  change fun h => { h with bindings := h.bindings.filter fun old => old.1 != name }

/-- Keep a variable as it is, to be put back when the running function ends. -/
def keep (name : Bytes) : Running Unit := do
  let h ← here
  match h.saved with
  | [] => pure ()
  | top :: rest =>
    if top.any fun s => s.1 == name then pure ()
    else
      let top := (name, h.bindings.lookup name) :: top
      change fun h => { h with saved := top :: rest }

/-- Begin a part in which variables are kept. -/
def pushKept : Running Unit :=
  change fun h => { h with saved := [] :: h.saved }

/-- End such a part. -/
def popKept : Running Unit :=
  change fun h =>
    match h.saved with
    | [] => h
    | top :: rest =>
      let bindings := top.foldl (fun all s =>
        let others := all.filter fun old => old.1 != s.1
        match s.2 with
        | some b => (s.1, b) :: others
        | none => others) h.bindings
      { h with saved := rest, bindings }

/-- The variables that programs get to see. -/
def environment : Running (List (Bytes × Bytes)) := do
  pure ((← here).bindings.filterMap fun b =>
    if b.2.exported then b.2.value?.map fun v => (b.1, v) else none)

/-! ### Parts -/

/-- Run a part in surroundings of its own. Only the files and streams are shared. The result has the
exit code. -/
def separately (work : Running Unit) : Running Nat := do
  let before ← here
  let directory := (← get).world.files.workingDirectory
  change fun h =>
    { h with isSeparate := true, loops := 0, traps := h.traps.filter fun t => t.2.isEmpty }
  let code ← tryCatch (do
      work
      pure (← here).code)
    fun stop => match stop with
      | .exit code | .answer code | .fault code => pure code
      | .leave _ | .next _ => do pure (← here).code
      | .killed signal => throw (.killed signal)
  change fun _ => before
  changeWorld fun w => { w with files := { w.files with workingDirectory := directory } }
  pure code

/-- Do something with other descriptors. They are put back in any case. -/
def withDescriptors {α : Type} (descriptors : List (Nat × Nat)) (work : Running α) :
    Running α := do
  let before := (← here).descriptors
  change fun h => { h with descriptors }
  let result ← tryCatch (do
      let a ← work
      pure (Except.ok a))
    fun stop => pure (Except.error stop)
  change fun h => { h with descriptors := before }
  match result with
  | .ok a => pure a
  | .error stop => throw stop

end Running

end TemplateCoverage.Shell
