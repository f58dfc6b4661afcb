import TemplateCoverage.Shell.Builtin
import TemplateCoverage.Shell.Parser
import TemplateCoverage.Shell.Redirect

/-!
# Running scripts

Commands are run one after another. A simple command is a function of the script, a command that
scripts bring along, or a program. Programs are run by a runner that is given. The readers of the
commands inside of others are given, too, so that only `run` is recursive, by the number of commands
that may be inside of each other.
-/

namespace TemplateCoverage.Shell

/-- How a program ended. -/
inductive Ending where
  | exited (code : Nat)
  | killed (signal : Nat)
  deriving DecidableEq, Repr

/-- The exit code that stands for an ending. -/
def Ending.code : Ending → Nat
  | .exited code => code
  | .killed signal => 128 + signal

/-- How programs are run. -/
abbrev ProgramRunner := Launch → UtilityCall → Work Ending

/-- How a command is run, and whether its exit code is tested by what is around it. The result is
its exit code. -/
abbrev CommandRunner := Bool → Command → Running Nat

namespace Running

/-! ### Texts of scripts -/

/-- Run the commands of a text one after another, for a number of lines at most. The result is the
last exit code. -/
def runSource (run : CommandRunner) (tested : Bool) : Nat → Source → Nat → Running Nat
  | 0, _, code => pure code
  | n + 1, source, code => do
    match Reading.scriptLine?.run source with
    | .error fault =>
      change fun h => { h with line := fault.line }
      fail (Bytes.ofText fault.message)
    | .ok (none, _) => pure code
    | .ok (some c, rest) =>
      changeWorld fun w => { w with documents := w.documents ++ rest.documents }
      let isSkip := match c with
        | .skip => true
        | _ => false
      let code ←
        if isSkip || (← here).options.onlyReads then pure code
        else run tested c
      runSource run tested n { rest with documents := [] } code

/-- Run the commands of a text. -/
def runText (run : CommandRunner) (tested : Bool) (text : Bytes) : Running Nat := do
  let known := (← get).world.documents.length
  runSource run tested (text.length + 2) { rest := text, nextNumber := known } 0

/-! ### Parts of scripts -/

/-- Do something to the end of a part. The command that is to be run at the end comes last. The
result is the exit code. -/
def finishing (run : CommandRunner) (work : Running Nat) : Running Nat := do
  let caught (work : Running Nat) : Running Nat :=
    tryCatch work fun stop => match stop with
      | .exit code | .answer code | .fault code => pure code
      | .leave _ | .next _ => do pure (← here).code
      | .killed signal => throw (.killed signal)
  let code ← caught work
  let key : Bytes := "EXIT"
  match (← here).traps.lookup key with
  | none => pure code
  | some action =>
    change fun h =>
      { h with code, traps := h.traps.filter fun t => t.1 != key, commandName := [] }
    let stops ← tryCatch (do
        discard (runText run false action)
        pure none)
      fun stop => match stop with
        | .killed signal => throw (.killed signal)
        | .exit code => pure (some code)
        | _ => pure none
    pure (stops.getD code)

/-- Run a command in surroundings of its own. -/
def runSeparately (run : CommandRunner) (tested : Bool) (c : Command) : Running Nat :=
  separately do
    let code ← finishing run (run tested c)
    change fun h => { h with code }

/-- Run a command in the place of a word. The result is what it has written, without the line ends
at its end. -/
def outputOf (run : CommandRunner) : OutputOf := fun c => do
  let sink ← openStream (.sink [])
  let others := (← here).descriptors.filter fun d => d.1 ≠ 1
  let code ← withDescriptors ((1, sink) :: others) (runSeparately run false c)
  change fun h => { h with outputCode := code, code }
  let text := ((← get).world.written sink).filter (· ≠ '\x00')
  pure (text.reverse.dropWhile (· = '\n')).reverse

/-- Run the parts of a pipeline. Each reads what the one before it has written. -/
def runPipeline (run : CommandRunner) (tested : Bool) :
    List Command → List (Nat × Nat) → Running Nat
  | [], _ => pure 0
  | [c], descriptors => withDescriptors descriptors (runSeparately run tested c)
  | c :: rest, descriptors => do
    let sink ← openStream (.sink [])
    let outer := descriptors.filter fun d => d.1 ≠ 1
    discard (withDescriptors ((1, sink) :: outer) (runSeparately run tested c))
    let source ← openStream (.source ((← get).world.written sink))
    let after := (← here).descriptors.filter fun d => d.1 ≠ 0
    runPipeline run tested rest ((0, source) :: after)

/-! ### Programs -/

/-- Run a program that has been found. -/
def runProgram (runner : ProgramRunner) (l : Launch) (name : Bytes) (args : List Bytes) :
    Running Nat := do
  let m ← get
  let descriptors := m.here.descriptors
  let stream? := descriptors.lookup 0
  let input := (stream?.map m.world.available).getD []
  let inputIsFile := match stream?.bind fun s => m.world.streams[s]? with
    | some (.source _) => false
    | _ => true
  let call : UtilityCall :=
    { name := if l.args.isEmpty then name else l.name, args := l.args ++ args
      environment := ← environment, inputIsFile }
  let (ending, w) := (runner l call).run { input, files := m.world.files }
  let directory := m.world.files.workingDirectory
  changeWorld fun world => { world with files := { w.files with workingDirectory := directory } }
  match stream? with
  | some stream => changeWorld fun world => world.consume stream (input.length - w.input.length)
  | none => pure ()
  for text in w.written.reverse do
    match text with
    | .output t => emit 1 t
    | .error t => emit 2 t
  pure ending.code

/-- Find a program and run it. -/
def callProgram (runner : ProgramRunner) (name : Bytes) (args : List Bytes) : Running Nat := do
  let files := (← get).world.files
  let found? ←
    if name.contains '/' then pure (some name)
    else pure (Launch.search? files ((← value? "PATH").getD []) name)
  match found? with
  | none =>
    if name.isEmpty then
      complain ": Permission denied"
      pure 127
    else
      complain (name ++ ": not found")
      pure 127
  | some path =>
    match Launch.ofPath files path with
    | .ok l => runProgram runner l name args
    | .error .notExecutable =>
      runProgram runner { executable := .shell, name, args := [path] } name args
    | .error e =>
      if e = .notFound ∨ e = .notADirectory then
        complain (name ++ ": not found")
        pure 127
      else
        complain (name ++ ": " ++ e.cause)
        pure (if e = .nameTooLong ∨ e = .tooManyLinks then 127 else 126)

/-! ### Commands of scripts that run others -/

/-- Do something in the name of a command. -/
def inNameOf {α : Type} (name : Bytes) (work : Running α) : Running α := do
  let before := (← here).commandName
  change fun h => { h with commandName := name }
  let a ← work
  change fun h => { h with commandName := before }
  pure a

/-- Run a function. -/
def callFunction (run : CommandRunner) (tested : Bool) (f : ShellFunction) (args : List Bytes) :
    Running Nat := do
  let before ← here
  change fun h => { h with args, calls := h.calls + 1, loops := 0, letterIndex := 0 }
  pushKept
  let code ← tryCatch (run tested f.body) fun stop => match stop with
    | .answer code => pure code
    | .leave _ | .next _ => do pure (← here).code
    | stop => throw stop
  popKept
  change fun h => { h with args := before.args, calls := before.calls, loops := before.loops
                           letterIndex := before.letterIndex }
  pure code

/-- The path of a script that is to be read in. -/
def scriptPath (name : Bytes) : Running Bytes := do
  if name.contains '/' then pure name
  else
    let files := (← get).world.files
    let directories := Bytes.split ':' ((← value? "PATH").getD [])
    match directories.find? fun d => files.isFile (Bytes.text (Utility.pathBelow d name)) with
    | some d => pure (Utility.pathBelow d name)
    | none => fail (name ++ ": not found")

/-- Run the commands of a file. -/
def dot (run : CommandRunner) (args : List Bytes) : Running Nat := do
  match (← optionsOf [] args).2 with
  | [] => pure 0
  | name :: _ =>
    let path ← scriptPath name
    match (← get).world.files.readBytes (Bytes.text path) with
    | .error e => failToOpen false path e
    | .ok bytes =>
      change fun h => { h with commandName := path }
      tryCatch (runText run false (Bytes.ofArray bytes)) fun stop => match stop with
        | .answer code => pure code
        | stop => throw stop

/-- Send a signal. Only one to the script itself has an effect. -/
def kill (run : CommandRunner) (args : List Bytes) : Running Nat := do
  let usage : Bytes := "Usage: kill [-s sigspec | -signum | -sigspec] [pid | job]... or\n" ++
    "kill -l [exitstatus]"
  let (given?, targets) : Option Bytes × List Bytes :=
    match args with
    | ['-', 's'] :: name :: rest => (some name, rest)
    | ['-', '-'] :: rest => (none, rest)
    | ('-' :: name) :: ['-', '-'] :: rest => (some name, rest)
    | ('-' :: name) :: rest => (some name, rest)
    | rest => (none, rest)
  let (name, n) ← match given? with
    | none => pure ("TERM", 15)
    | some text =>
      match signal? text with
      | some s => pure s
      | none => fail ("invalid signal number or name: " ++ text)
  if targets.isEmpty then fail usage
  targets.foldlM (fun code target => do
    match Bytes.nat? target with
    | none => fail ("Illegal number: " ++ target)
    | some pid =>
      if pid ≠ ownNumber ∧ pid ≠ 0 then
        complain "No such process\n"
        pure 1
      else if n = 0 || ["CHLD", "CONT", "URG", "WINCH"].contains name then pure code
      else
        match (← here).traps.lookup (Bytes.ofText name) with
        | some action =>
          if name = "KILL" then throw (.killed n)
          let before := (← here).code
          discard (inNameOf [] (runText run false action))
          change fun h => { h with code := before }
          pure code
        | none => throw (.killed n)) 0

/-- Leave loops, or go on with the next turn of one. -/
def leaveLoops (args : List Bytes) (stop : Nat → Stop) : Running Nat := do
  let n ← match args with
    | [] => pure 1
    | a :: _ => number a
  if n = 0 then fail ("Illegal number: " ++ args.headD [])
  let loops := min n (← here).loops
  if loops = 0 then pure 0 else throw (stop loops)

/-- End the script or a function. -/
def finishWith (args : List Bytes) (stop : Nat → Stop) : Running Nat := do
  match args with
  | [] => throw (stop (← here).code)
  | a :: _ => throw (stop ((← number a) % 256))

/-! ### Simple commands -/

/-- What the first word of a command is called. -/
inductive Callee where
  | special (name : String)
  | function (f : ShellFunction)
  | regular (name : String)
  | program
  | nothing

/-- What a command is. -/
def calleeOf (h : Surroundings) (name? : Option Bytes) (skipsFunctions : Bool) : Callee :=
  match name? with
  | none => .nothing
  | some name =>
    let text := String.ofList name
    if specialBuiltins.contains text then
      if skipsFunctions then .regular text else .special text
    else
      match if skipsFunctions then none else h.functions.lookup name with
      | some f => .function f
      | none => if regularBuiltins.contains text then .regular text else .program

/-- The texts of the words of a command. Arguments can be assignments for some commands. -/
def commandTexts (output : OutputOf) : List Word → List Bytes → Running (List Bytes)
  | [], found => pure found
  | w :: rest, found => do
    let assigns := w.isAssignment &&
      found.head?.any fun name => takesAssignments (String.ofList name)
    if assigns then
      let (name, value) ← assignmentOf output w
      commandTexts output rest (found ++ [name ++ "=" ++ value])
    else commandTexts output rest (found ++ (← texts output w))

/-- The words behind the word `command` and its options, and whether it only asks what a name stands
for. -/
def behindCommand : List Bytes → Option (Bool × List Bytes) × List Bytes
  | ['-', 'v'] :: rest => (some (true, rest), [])
  | ['-', 'V'] :: rest => (some (false, rest), [])
  | ['-', 'p'] :: rest => (none, rest)
  | ['-', '-'] :: rest => (none, rest)
  | rest => (none, rest)

/-- Run a command that scripts bring along. -/
def callBuiltin (runner : ProgramRunner) (run : CommandRunner) (tested : Bool) (name : String)
    (args : List Bytes) : Running Nat := do
  match simpleBuiltin? name args with
  | some work => work
  | none =>
    match name with
    | "." => dot run args
    | "break" => leaveLoops args .leave
    | "continue" => leaveLoops args .next
    | "eval" =>
      if args.isEmpty then pure 0 else runText run tested (Bytes.join " " args)
    | "exec" =>
      match args with
      | [] => pure 0
      | name :: rest => do
        let code ← callProgram runner name rest
        change fun h => { h with traps := [] }
        throw (.exit code)
    | "exit" => finishWith args .exit
    | "return" => finishWith args .answer
    | "kill" => kill run args
    | _ => pure 0

/-- Run a simple command that is found, in the streams that it has. -/
def callFound (runner : ProgramRunner) (run : CommandRunner) (tested : Bool) (callee : Callee)
    (name : Bytes) (args : List Bytes) : Running Nat := do
  match callee with
  | .nothing => do pure (← here).outputCode
  | .function f => callFunction run tested f args
  | .program => callProgram runner name args
  | .special text => inNameOf name (callBuiltin runner run tested text args)
  | .regular text =>
    let before := (← here).commandName
    tryCatch (inNameOf name (callBuiltin runner run tested text args)) fun stop => match stop with
      | .fault code => do
        change fun h => { h with commandName := before }
        pure code
      | stop => throw stop

/-- Run a simple command. -/
def runSimple (runner : ProgramRunner) (run : CommandRunner) (tested : Bool) (line : Nat)
    (assignments words : List Word) (redirections : List Redirection) : Running Nat := do
  let output := outputOf run
  change fun h => { h with line, outputCode := 0 }
  let all ← commandTexts output words []
  let callsPlainly := all.head? = some "command" && 1 < all.length
  let (question?, called) := if callsPlainly then behindCommand (all.drop 1) else (none, all)
  let callee := calleeOf (← here) called.head? callsPlainly
  match ← redirectSafely? output redirections with
  | none =>
    match callee with
    | .special _ => throw (.fault 2)
    | _ => pure 2
  | some descriptors =>
    let isTemporary := match callee with
      | .special _ | .nothing => false
      | _ => true
    let exports := isTemporary || called.head? = some "exec"
    if isTemporary then pushKept
    let pairs ← assignments.mapM fun w => do
      let (name, value) ← withDescriptors descriptors (assignmentOf output w)
      if isTemporary then keep name
      assign name value exports
      pure (name ++ "=" ++ value)
    if (← here).options.traces then
      emit 2 (((← value? "PS4").getD []) ++ Bytes.join " " (pairs ++ all) ++ "\n")
    let work : Running Nat :=
      match question? with
      | some (short, names) => do
        match names with
        | [] => pure 0
        | name :: _ => describe short name
      | none => callFound runner run tested callee (called.headD []) (called.drop 1)
    let isExec := called.head? = some "exec"
    let code ←
      if isExec then do
        change fun h => { h with descriptors }
        work
      else withDescriptors descriptors work
    if isTemporary then popKept
    pure code

/-! ### Compound commands -/

/-- Run the body of a loop. The result is its exit code, and whether the loop goes on. -/
def runTurn (work : Running Nat) : Running (Nat × Bool) :=
  tryCatch (do
      let code ← work
      pure (code, true))
    fun stop => match stop with
      | .leave 1 => pure (0, false)
      | .leave (n + 1) => throw (.leave n)
      | .next 1 => pure (0, true)
      | .next (n + 1) => throw (.next n)
      | stop => throw stop

/-- Run a loop for a number of turns at most. -/
def runLoop (condition body : Running Nat) (whileFails : Bool) : Nat → Nat → Running Nat
  | 0, code => pure code
  | n + 1, code => do
    let (tested, goesOn) ← runTurn condition
    if !goesOn then pure code
    else if (tested ≠ 0) != whileFails then pure code
    else
      let (code, goesOn) ← runTurn body
      if goesOn then runLoop condition body whileFails n code else pure code

/-- Run a loop over values. -/
def runEach (name : Bytes) (body : Running Nat) : List Bytes → Nat → Running Nat
  | [], code => pure code
  | v :: rest, _ => do
    assign name v
    let (code, goesOn) ← runTurn body
    if goesOn then runEach name body rest code else pure code

/-- Do something inside of a loop. -/
def inLoop (work : Running Nat) : Running Nat := do
  change fun h => { h with loops := h.loops + 1 }
  let code ← tryCatch work fun stop => do
    change fun h => { h with loops := h.loops - 1 }
    throw stop
  change fun h => { h with loops := h.loops - 1 }
  pure code

/-- The body of the first case with a pattern that fits. -/
def chosen? (output : OutputOf) (text : Bytes) :
    List (List Word × Command) → Running (Option Command)
  | [] => pure none
  | (patterns, body) :: rest => do
    let fits ← patterns.anyM fun w => do
      pure ((Wildcard.read (← pattern output w)).fits false text)
    if fits then pure (some body) else chosen? output text rest

/-- The number of turns of a loop. -/
def turnLimit : Nat := 1000000

/-- Whether a failure of a command ends a script that stops on failures. -/
def countsAsFailure : Command → Bool
  | .simple .. | .pipeline _ | .subshell .. | .background _ => true
  | _ => false

/-- Whether a command is nothing at all. -/
def isSkip : Command → Bool
  | .skip => true
  | _ => false

/-- Run a command, for a number of commands inside of each other at most. -/
def run (runner : ProgramRunner) : Nat → CommandRunner
  | 0, _, _ => do
    complain "Maximum function recursion depth reached"
    throw (.fault 2)
  | n + 1, tested, c => do
    let inner := run runner n
    let output := outputOf inner
    let code ←
      match c with
      | .skip => pure 0
      | .simple line assignments words redirections =>
        runSimple runner inner tested line assignments words redirections
      | .pipeline parts => runPipeline inner tested parts (← here).descriptors
      | .negation c => do
        let code ← inner true c
        pure (if code = 0 then 1 else 0)
      | .both first second => do
        let code ← inner true first
        if code = 0 then inner tested second else pure code
      | .either first second => do
        let code ← inner true first
        if code = 0 then pure code else inner tested second
      | .sequence first second => do
        discard (inner tested first)
        inner tested second
      | .background c => do
        let source ← openStream .null
        let others := (← here).descriptors.filter fun d => d.1 ≠ 0
        let code ← withDescriptors ((0, source) :: others) (runSeparately inner false c)
        let number := ownNumber + 1 + (← get).world.background.length
        changeWorld fun w => { w with background := (number, code) :: w.background }
        change fun h => { h with lastProcess := some number }
        pure 0
      | .subshell line body redirections => do
        change fun h => { h with line }
        separately do
          let code ← finishing inner do
            let descriptors ← redirectAll output redirections
            change fun h => { h with descriptors }
            inner tested body
          change fun h => { h with code }
      | .redirected line body redirections => do
        change fun h => { h with line }
        match ← redirectSafely? output redirections with
        | none => pure 2
        | some descriptors => withDescriptors descriptors (inner tested body)
      | .branch condition yes no => do
        let code ← inner true condition
        if code = 0 then inner tested yes
        else if isSkip no then pure 0
        else inner tested no
      | .loop whileFails condition body =>
        inLoop (runLoop (inner true condition) (inner tested body) whileFails turnLimit 0)
      | .each line name words body => do
        change fun h => { h with line }
        let values ← words.flatMapM (texts output)
        inLoop (runEach name (inner tested body) values 0)
      | .choose line subject cases => do
        change fun h => { h with line }
        let text ← oneText output subject
        match ← chosen? output text cases with
        | some body => inner tested body
        | none => pure 0
      | .define line name body => do
        change fun h =>
          { h with functions := (name, { line, body }) ::
                     h.functions.filter fun f => f.1 != name }
        pure 0
    change fun h => { h with code }
    if code ≠ 0 && !tested && countsAsFailure c && (← here).options.stopsOnFailure then
      throw (.exit code)
    pure code

/-- The number of commands inside of each other. -/
def nestingLimit : Nat := 4000

end Running

/-! ### Shells -/

/-- What a shell is to run. -/
structure ShellTask where
  name : Bytes
  args : List Bytes
  text : Bytes
  options : ShellOptions := {}

/-- The variables of a script at its start. -/
def startBindings (files : FileSystem) (environment : List (Bytes × Bytes)) :
    List (Bytes × Binding) :=
  let directory := Bytes.ofText (FileSystem.pathOf files.workingDirectory)
  let given : List (Bytes × Binding) := (environment.filter fun b => isName b.1).map fun b =>
    (b.1, { value? := some b.2, exported := true })
  let own : List (Bytes × Bytes) :=
    [("IFS", " \t\n"), ("OPTIND", "1"), ("PS1", "# "), ("PS2", "> "), ("PS4", "+ "),
      ("PPID", "999")]
  let fresh (name value : Bytes) : List (Bytes × Binding) :=
    if given.any fun g => g.1 == name then [] else [(name, { value? := some value })]
  let others := given.filter fun g => !(own.any fun b => b.1 == g.1)
  others ++ (own.map fun b => (b.1, { value? := some b.2 })) ++
    fresh "PATH" Launch.standardSearchPath ++ fresh "PWD" directory

/-- Run a task. -/
def runTask (runner : ProgramRunner) (environment : List (Bytes × Bytes)) (inputIsFile : Bool)
    (task : ShellTask) : Work Ending := do
  let w ← get
  let input : Stream := if inputIsFile && w.input.isEmpty then .null else .source w.input
  let world : World :=
    { files := w.files, streams := #[input, .outward false, .outward true] }
  let here : Surroundings :=
    { name := task.name, args := task.args, bindings := startBindings w.files environment
      options := task.options, descriptors := [(0, 0), (1, 1), (2, 2)] }
  let run := Running.run runner Running.nestingLimit
  let work := Running.finishing run (Running.runText run false task.text)
  let (result, m) := (ExceptT.run work).run { here, world }
  let directory := w.files.workingDirectory
  set { input := m.world.available 0
        files := { m.world.files with workingDirectory := directory }
        written := m.world.outward ++ w.written : Workplace }
  match result with
  | .ok code => pure (.exited code)
  | .error (.killed signal) => pure (.killed signal)
  | .error _ => pure (.exited 2)

/-- The options of a shell, the text behind the option for one, and the other arguments. -/
structure ShellArguments where
  options : ShellOptions := {}
  takesText : Bool := false
  takesInput : Bool := false
  args : List Bytes := []

/-- Read the arguments of a shell, for a number of them at most. -/
def shellArguments : Nat → ShellArguments → List Bytes → Except Bytes ShellArguments
  | 0, a, args => .ok { a with args }
  | n + 1, a, args =>
    match args with
    | ['-', '-'] :: rest | ['-'] :: rest => .ok { a with args := rest }
    | (sign :: c :: letters) :: rest =>
      if sign = '-' ∨ sign = '+' then
        let step (state : Except Bytes (ShellArguments × List Bytes)) (c : Char) :
            Except Bytes (ShellArguments × List Bytes) :=
          match state with
          | .error e => .error e
          | .ok (a, rest) =>
            if c = 'c' then .ok ({ a with takesText := true }, rest)
            else if c = 's' then .ok ({ a with takesInput := true }, rest)
            else if c = 'o' then
              match rest with
              | [] => .ok (a, [])
              | name :: rest =>
                match Running.optionNames.lookup (String.ofList name) with
                | some letter =>
                  .ok ({ a with options :=
                    (Running.withOption? a.options letter (sign = '-')).getD a.options }, rest)
                | none =>
                  if Running.idleOptions.any fun i => i.2.toList == name then .ok (a, rest)
                  else .error ("Illegal option -o " ++ name)
            else
              match Running.withOption? a.options c (sign = '-') with
              | some options => .ok ({ a with options }, rest)
              | none => .error ("Illegal option -" ++ [c])
        match (c :: letters).foldl step (.ok (a, rest)) with
        | .error e => .error e
        | .ok (a, rest) => shellArguments n a rest
      else .ok { a with args }
    | args => .ok { a with args }

/-- Run a shell with arguments: the text of a script, a script in a file, or the input. -/
def shell (runner : ProgramRunner) (u : UtilityCall) : Work Ending := do
  let fail (message : Bytes) : Work Ending := do
    Work.warn (u.name ++ ": 0: " ++ message ++ "\n")
    pure (.exited 2)
  match shellArguments (u.args.length + 1) {} u.args with
  | .error message => fail message
  | .ok a =>
    let start := runTask runner u.environment
    if a.takesText then
      match a.args with
      | [] => fail "-c requires an argument"
      | text :: rest =>
        start u.inputIsFile
          { name := rest.headD u.name, args := rest.drop 1, text, options := a.options }
    else
      match a.args, a.takesInput with
      | path :: rest, false =>
        match (← get).files.readBytes (Bytes.text path) with
        | .error e =>
          let isMissing := e = .notFound || e = .notADirectory
          fail ("cannot open " ++ path ++ ": " ++ (if isMissing then "No such file" else e.cause))
        | .ok bytes =>
          start u.inputIsFile
            { name := path, args := rest, text := Bytes.ofArray bytes, options := a.options }
      | args, _ =>
        let text ← Work.takeInput
        start u.inputIsFile { name := u.name, args, text, options := a.options }

end TemplateCoverage.Shell
