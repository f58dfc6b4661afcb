import TemplateCoverage.Shell.Expansion
import TemplateCoverage.Shell.Lookup
import TemplateCoverage.Shell.Source
import TemplateCoverage.Utility.Condition

/-!
# Commands that scripts bring along

These commands work on the state of the script itself. The ones with special standing end the script
if something is wrong with them.
-/

namespace TemplateCoverage.Shell

/-- The commands with special standing. -/
def specialBuiltins : List String :=
  [".", ":", "break", "continue", "eval", "exec", "exit", "export", "local", "readonly", "return",
    "set", "shift", "times", "trap", "unset"]

/-- The other commands. -/
def regularBuiltins : List String :=
  ["alias", "bg", "cd", "chdir", "command", "echo", "false", "fg", "getopts", "hash", "jobs",
    "kill", "printf", "pwd", "read", "test", "true", "type", "ulimit", "umask", "unalias", "wait",
    "["]

/-- Whether arguments of a command can be assignments. -/
def takesAssignments (name : String) : Bool :=
  ["alias", "export", "local", "readonly"].contains name

namespace Running

/-! ### Arguments -/

/-- A number that is not negative. -/
def number (text : Bytes) : Running Nat := do
  match Bytes.nat? text with
  | some n => if n < Nat.pow 2 31 then pure n else fail ("Illegal number: " ++ text)
  | none => fail ("Illegal number: " ++ text)

/-- The options in front of arguments, given the letters of those that there are. A colon follows
the letter of an option with a value. -/
def options (letters : Bytes) : Nat → List Bytes → Running (List (Char × Bytes) × List Bytes)
  | 0, args => pure ([], args)
  | n + 1, args =>
    match args with
    | ['-', '-'] :: rest => pure ([], rest)
    | ('-' :: c :: more) :: rest => do
      match letters.dropWhile (· ≠ c) with
      | [] => fail ("Illegal option -" ++ [c])
      | _ :: ':' :: _ =>
        match more, rest with
        | [], [] => fail ("No arg for -" ++ [c] ++ " option")
        | [], value :: rest => do
          let (given, others) ← options letters n rest
          pure ((c, value) :: given, others)
        | value, rest => do
          let (given, others) ← options letters n rest
          pure ((c, value) :: given, others)
      | _ => do
        let next := if more.isEmpty then rest else ('-' :: more) :: rest
        let (given, others) ← options letters n next
        pure ((c, []) :: given, others)
    | args => pure ([], args)

/-- The options in front of arguments. -/
def optionsOf (letters : Bytes) (args : List Bytes) :
    Running (List (Char × Bytes) × List Bytes) :=
  options letters ((args.map List.length).foldl (· + ·) args.length + 1) args

/-! ### Output -/

/-- Write arguments with blanks between them. Escapes stand for bytes. -/
def echo (args : List Bytes) : Running Nat := do
  let (quiet, words) : Bool × List Bytes :=
    match args with
    | ['-', 'n'] :: rest => (true, rest)
    | args => (false, args)
  let (text, ended) := Utility.unescaped (Bytes.join " " words)
  say (if quiet || ended then text else text ++ "\n")
  pure 0

/-- Write a format with arguments. -/
def printf (args : List Bytes) : Running Nat := do
  match (← optionsOf [] args).2 with
  | [] => fail "usage: printf format [arg ...]"
  | format :: rest =>
    let p := Utility.Printing.print format rest
    for n in p.notes do
      complain (match n with
        | .notNumeric arg => arg ++ ": expected numeric value"
        | .notConverted arg => arg ++ ": not completely converted"
        | .outOfRange arg => arg ++ ": Numerical result out of range")
    say p.output
    match p.stopped? with
    | some (.conversionMissing _) => fail "missing format character"
    | some (.unknownConversion field) => fail (field ++ ": invalid directive")
    | _ => pure (if p.notes.isEmpty then 0 else 1)

/-- Judge a condition. -/
def test (name : Bytes) (args : List Bytes) : Running Nat := do
  match Utility.Condition.ofCommand (← get).world.files name args with
  | .ok holds => pure (if holds then 0 else 1)
  | .error message => fail message

/-! ### The working directory -/

/-- The path of the working directory. -/
def directory : Running Bytes := do
  pure (Bytes.ofText (FileSystem.pathOf (← get).world.files.workingDirectory))

/-- Change the working directory. -/
def cd (args : List Bytes) : Running Nat := do
  let (_, operands) ← optionsOf "LP" args
  let goesBack := operands.head? = some ['-']
  let target ← match operands with
    | [] => pure ((← value? "HOME").getD [])
    | ['-'] :: _ => pure ((← value? "OLDPWD").getD [])
    | path :: _ => pure path
  let target : Bytes := if target.isEmpty then ['.'] else target
  let before ← directory
  match (← get).world.files.find .follow (Bytes.text target) with
  | .ok (location, .directory) =>
    changeWorld fun w => { w with files := { w.files with workingDirectory := location } }
    assign "OLDPWD" before
    assign "PWD" (← directory)
    if goesBack then say ((← directory) ++ "\n")
    pure 0
  | _ => fail ("can't cd to " ++ target)

/-! ### Input -/

/-- A line that is taken from an input. -/
structure InputLine where
  marks : List Mark := []
  /-- The number of bytes that were read. -/
  size : Nat := 0
  ended : Bool := false

/-- The first line of a text. Backslashes quote other characters, and line ends, on request. -/
def inputLine (quotes : Bool) : Bytes → InputLine
  | [] => {}
  | '\n' :: _ => { size := 1, ended := true }
  | '\\' :: c :: rest =>
    if quotes then
      let l := inputLine quotes rest
      let front : List Mark := if c = '\n' then [] else [.char c true true]
      { l with marks := front ++ l.marks, size := l.size + 2 }
    else
      let l := inputLine quotes (c :: rest)
      { l with marks := .char '\\' false true :: l.marks, size := l.size + 1 }
  | ['\\'] => { marks := if quotes then [] else [.char '\\' false true], size := 1 }
  | c :: rest =>
    let l := inputLine quotes rest
    { l with marks := .char c false true :: l.marks, size := l.size + 1 }

/-- Whether a mark is a blank that separates fields. -/
def isBlankMark (separators : Bytes) : Mark → Bool
  | .char c false _ => separators.contains c && (c = ' ' || c = '\t' || c = '\n')
  | _ => false

/-- Whether a mark separates fields. -/
def separates (separators : Bytes) : Mark → Bool
  | .char c false _ => separators.contains c
  | _ => false

/-- The values for a number of variables. The last one gets all that is left. -/
def inputFields (separators : Bytes) : Nat → List Mark → List Bytes
  | 0, _ => []
  | n + 1, marks =>
    let marks := marks.dropWhile (isBlankMark separators)
    if n = 0 then
      let kept := (marks.reverse.dropWhile (isBlankMark separators)).reverse
      let single := fieldsOf separators kept
      if single.length = 1 && !kept.any (isBlankMark separators) then single.map MarkedText.bytes
      else [Mark.bytes kept]
    else
      let field := marks.takeWhile fun m => !separates separators m
      let rest := (marks.drop field.length).dropWhile (isBlankMark separators)
      let rest :=
        match rest with
        | m :: more =>
          if separates separators m && !isBlankMark separators m then more else rest
        | [] => []
      Mark.bytes field :: inputFields separators n rest

/-- Read a line into variables. -/
def read (args : List Bytes) : Running Nat := do
  let (given, names) ← optionsOf "p:r" args
  if names.isEmpty then fail "arg count"
  match (← here).descriptors.lookup 0 with
  | none => pure 1
  | some stream =>
    let text := (← get).world.available stream
    let l := inputLine (given.all fun g => g.1 ≠ 'r') text
    changeWorld fun w => w.consume stream l.size
    let fields := inputFields (← separators) names.length l.marks
    for (name, i) in names.zipIdx do
      if !isName name then fail (name ++ ": bad variable name")
      assign name (fields.getD i [])
    pure (if l.ended then 0 else 1)

/-! ### Variables -/

/-- A value between apostrophes, as it could stand in a script. -/
def inQuotes (value : Bytes) : Bytes :=
  "'" ++ value.flatMap (fun c => if c = '\'' then "'\"'\"'".toList else [c]) ++ "'"

/-- Show the variables that pass a test as commands that would make them. -/
def showBindings (word : Bytes) (test : Binding → Bool) : Running Nat := do
  let found := (← here).bindings.filter fun b => test b.2
  for (name, b) in found.mergeSort fun a b => !decide (b.1 < a.1) do
    let value : Bytes := match b.value? with
      | some v => "=" ++ inQuotes v
      | none => []
    say (word ++ name ++ value ++ "\n")
  pure 0

/-- The name and the value in an argument. -/
def nameAndValue (arg : Bytes) : Running (Bytes × Option Bytes) := do
  let name := arg.takeWhile (· ≠ '=')
  if !isName name then fail (name ++ ": bad variable name")
  pure (name, if name.length < arg.length then some (arg.drop (name.length + 1)) else none)

/-- Let programs see variables, or protect them. -/
def declare (word : Bytes) (exports : Bool) (args : List Bytes) : Running Nat := do
  let (given, operands) ← optionsOf "p" args
  if operands.isEmpty || !given.isEmpty then
    showBindings (word ++ " ") fun b => if exports then b.exported else b.readOnly
  else
    for arg in operands do
      let (name, value?) ← nameAndValue arg
      match value? with
      | some v => assign name v
      | none => pure ()
      let b := (← binding? name).getD {}
      bind name { b with exported := b.exported || exports, readOnly := b.readOnly || !exports }
    pure 0

/-- Make variables that are gone when the running function ends. -/
def makeLocal (args : List Bytes) : Running Nat := do
  if (← here).calls = 0 then fail "not in a function"
  for arg in args do
    let (name, value?) ← nameAndValue arg
    keep name
    match value? with
    | some v => assign name v
    | none => pure ()
  pure 0

/-- Take variables or functions away. -/
def unset (args : List Bytes) : Running Nat := do
  let (given, names) ← optionsOf "fv" args
  for name in names do
    if given.any fun g => g.1 = 'f' then
      change fun h => { h with functions := h.functions.filter fun f => f.1 != name }
    else unbind name
  pure 0

/-- Drop arguments of the script. -/
def shift (args : List Bytes) : Running Nat := do
  let n ← match args with
    | [] => pure 1
    | a :: _ => number a
  let h ← here
  if h.args.length < n then fail "can't shift that many"
  change fun h => { h with args := h.args.drop n }
  pure 0

/-! ### Options of the script -/

/-- The names of the options that change nothing here. -/
def idleOptions : List (Char × String) :=
  [('I', "ignoreeof"), ('i', "interactive"), ('m', "monitor"), ('s', "stdin"), ('V', "vi"),
    ('E', "emacs"), ('b', "notify"), (' ', "nolog"), (' ', "debug")]

/-- The options with an option set or not. There are none if it is not known. -/
def withOption? (o : ShellOptions) (letter : Char) (isSet : Bool) : Option ShellOptions :=
  match letter with
  | 'e' => some { o with stopsOnFailure := isSet }
  | 'u' => some { o with needsValues := isSet }
  | 'x' => some { o with traces := isSet }
  | 'f' => some { o with keepsWildcards := isSet }
  | 'a' => some { o with exportsAll := isSet }
  | 'C' => some { o with protectsFiles := isSet }
  | 'n' => some { o with onlyReads := isSet }
  | 'v' => some { o with showsInput := isSet }
  | c => if idleOptions.any fun i => i.1 == c && c ≠ ' ' then some o else none

/-- The names of the options. -/
def optionNames : List (String × Char) :=
  [("errexit", 'e'), ("nounset", 'u'), ("xtrace", 'x'), ("noglob", 'f'), ("allexport", 'a'),
    ("noclobber", 'C'), ("noexec", 'n'), ("verbose", 'v')]

/-- Set an option by its letter. -/
def setLetter (letter : Char) (isSet : Bool) : Running Unit := do
  match withOption? (← here).options letter isSet with
  | some options => change fun h => { h with options }
  | none => fail ("Illegal option -" ++ [letter])

/-- Set an option by its name. -/
def setNamed (name : Bytes) (isSet : Bool) : Running Unit := do
  match optionNames.lookup (String.ofList name) with
  | some letter => setLetter letter isSet
  | none =>
    if idleOptions.any fun i => i.2.toList == name then pure ()
    else fail ("Illegal option -o " ++ name)

/-- Set options by the letters of an argument. The result has the arguments that are left. -/
def setLetters (isSet : Bool) : Bytes → List Bytes → Running (List Bytes)
  | [], rest => pure rest
  | 'o' :: more, name :: rest => do
    setNamed name isSet
    setLetters isSet more rest
  | 'o' :: more, [] => setLetters isSet more []
  | c :: more, rest => do
    setLetter c isSet
    setLetters isSet more rest

/-- Set options in front of arguments. The result has the arguments that are left, and whether they
are given even if there are none. -/
def setOptions : Nat → List Bytes → Running (List Bytes × Bool)
  | 0, args => pure (args, false)
  | n + 1, args =>
    match args with
    | ['-'] :: rest => do
      setLetter 'x' false
      setLetter 'v' false
      pure (rest, false)
    | ['-', '-'] :: rest => pure (rest, true)
    | ('-' :: letters) :: rest => do
      setOptions n (← setLetters true letters rest)
    | ('+' :: letters) :: rest => do
      setOptions n (← setLetters false letters rest)
    | args => pure (args, false)

/-- Set options and the arguments of the script. -/
def set (args : List Bytes) : Running Nat := do
  if args.isEmpty then showBindings [] fun b => b.value?.isSome
  else
    let (rest, given) ← setOptions args.length args
    if given || !rest.isEmpty then change fun h => { h with args := rest }
    pure 0

/-! ### Options of the arguments -/

/-- Read the next option of arguments. -/
def getopts (args : List Bytes) : Running Nat := do
  match args with
  | letters :: name :: words =>
    let h ← here
    let words := if words.isEmpty then h.args else words
    let index := (((← value? "OPTIND").bind Bytes.nat?).getD 1) - 1
    let place := h.letterIndex
    let finish (option : Bytes) (index place code : Nat) : Running Nat := do
      assign "OPTIND" (Bytes.ofNat (index + 1))
      change fun h => { h with letterIndex := place }
      assign name option
      pure code
    let silent := letters.head? = some ':'
    match words[index]? with
    | none => finish ['?'] index 0 1
    | some word =>
      let isOption := match word with
        | '-' :: _ :: _ => true
        | _ => false
      if place = 0 && (!isOption || word = "--") then
        finish ['?'] (if word = "--" then index + 1 else index) 0 1
      else
        let offset := max place 1
        match word[offset]? with
        | none => finish ['?'] (index + 1) 0 1
        | some c =>
          let isLast := offset + 1 = word.length
          let (nextIndex, nextPlace) := if isLast then (index + 1, 0) else (index, offset + 1)
          match (letters.dropWhile (· ≠ c)) with
          | _ :: ':' :: _ =>
            if c = ':' then finish ['?'] nextIndex nextPlace 0
            else if !isLast then
              assign "OPTARG" (word.drop (offset + 1))
              finish [c] (index + 1) 0 0
            else
              match words[index + 1]? with
              | some value =>
                assign "OPTARG" value
                finish [c] (index + 2) 0 0
              | none =>
                if silent then
                  assign "OPTARG" [c]
                  finish [':'] (index + 1) 0 0
                else
                  emit 2 ("No arg for -" ++ [c] ++ " option\n")
                  unbind "OPTARG"
                  finish ['?'] (index + 1) 0 0
          | [] =>
            if silent then assign "OPTARG" [c]
            else
              emit 2 ("Illegal option -" ++ [c] ++ "\n")
              unbind "OPTARG"
            finish ['?'] nextIndex nextPlace 0
          | _ =>
            assign "OPTARG" []
            finish [c] nextIndex nextPlace 0
  | _ => fail "Usage: getopts optstring var [arg]"

/-! ### What a name stands for -/

/-- The path of the program of a name. -/
def programPath? (name : Bytes) : Running (Option Bytes) := do
  let m ← get
  if name.contains '/' then
    pure (if (m.world.files.status (Bytes.text name)).isOk || (Launch.standard? name).isSome then
      some name else none)
  else pure (Launch.search? m.world.files ((← value? "PATH").getD []) name)

/-- Tell what a name stands for, in short or in words. -/
def describe (short : Bool) (name : Bytes) : Running Nat := do
  let text := String.ofList name
  let tell (brief long : Bytes) : Running Nat := do
    say ((if short then brief else name ++ " is " ++ long) ++ "\n")
    pure 0
  if Keyword.all.any fun k => k.1 == text then tell name "a shell keyword"
  else if specialBuiltins.contains text then tell name "a special shell builtin"
  else if ((← here).functions.lookup name).isSome then tell name "a shell function"
  else if regularBuiltins.contains text then tell name "a shell builtin"
  else
    match ← programPath? name with
    | some path => tell path path
    | none =>
      if !short then say (name ++ ": not found\n")
      pure 127

/-- Tell what names stand for. -/
def type (args : List Bytes) : Running Nat :=
  args.foldlM (fun code name => do
    let c ← describe false name
    pure (max code c)) 0

/-! ### Signals -/

/-- The signals with their numbers. -/
def signals : List (String × Nat) :=
  [("EXIT", 0), ("HUP", 1), ("INT", 2), ("QUIT", 3), ("ILL", 4), ("TRAP", 5), ("ABRT", 6),
    ("BUS", 7), ("FPE", 8), ("KILL", 9), ("USR1", 10), ("SEGV", 11), ("USR2", 12), ("PIPE", 13),
    ("ALRM", 14), ("TERM", 15), ("STKFLT", 16), ("CHLD", 17), ("CONT", 18), ("STOP", 19),
    ("TSTP", 20), ("TTIN", 21), ("TTOU", 22), ("URG", 23), ("XCPU", 24), ("XFSZ", 25),
    ("VTALRM", 26), ("PROF", 27), ("WINCH", 28), ("IO", 29), ("PWR", 30), ("SYS", 31)]

/-- The name of a signal that is given by its name or number. -/
def signal? (text : Bytes) : Option (String × Nat) :=
  match Bytes.nat? text with
  | some n => signals.find? fun s => s.2 = n
  | none => signals.find? fun s => s.1.toList == text.map Char.toUpper

/-- Set the commands for signals. -/
def trap (args : List Bytes) : Running Nat := do
  let (_, operands) ← optionsOf [] args
  match operands with
  | [] =>
    for (name, _) in signals do
      match (← here).traps.lookup (Bytes.ofText name) with
      | some action => say ("trap -- " ++ inQuotes action ++ " " ++ name ++ "\n")
      | none => pure ()
    pure 0
  | first :: rest =>
    let resets := rest.isEmpty || (Bytes.nat? first).isSome || first = ['-']
    let names := if rest.isEmpty || (Bytes.nat? first).isSome then operands else rest
    names.foldlM (fun (code : Nat) name => do
      match signal? name with
      | none =>
        if code = 0 then emit 2 ("trap: " ++ name ++ ": bad trap\n")
        pure 1
      | some (signal, _) =>
        let key := Bytes.ofText signal
        change fun h =>
          let others := h.traps.filter fun t => t.1 != key
          { h with traps := if resets then others else (key, first) :: others }
        pure code) 0

/-- Wait for commands in the background. -/
def wait (args : List Bytes) : Running Nat := do
  match args with
  | [] => pure 0
  | _ =>
    args.foldlM (fun _ a => do
      let n ← number a
      pure (((← get).world.background.lookup n).getD 127)) 0

/-- Show or change the permissions that new files do not get. -/
def umask (args : List Bytes) : Running Nat := do
  match (← optionsOf "S" args).2 with
  | [] =>
    say ((← here).mask ++ "\n")
    pure 0
  | digits :: _ =>
    if digits.all fun c => '0' ≤ c && c ≤ '7' then
      let filled := List.replicate (4 - digits.length) '0' ++ digits
      change fun h => { h with mask := filled.drop (filled.length - 4) }
      pure 0
    else fail ("Illegal mode: " ++ digits)

/-- The commands that need nothing but the state of the script. -/
def simpleBuiltin? (name : String) (args : List Bytes) : Option (Running Nat) :=
  match name with
  | "alias" | "bg" | "fg" | "hash" | "jobs" | "times" | "unalias" => some (pure 0)
  | ":" | "true" => some (pure 0)
  | "[" | "test" => some (test (Bytes.ofText name) args)
  | "cd" | "chdir" => some (cd args)
  | "echo" => some (echo args)
  | "export" => some (declare "export" true args)
  | "false" => some (pure 1)
  | "getopts" => some (getopts args)
  | "local" => some (makeLocal args)
  | "printf" => some (printf args)
  | "pwd" => some (do
      say ((← directory) ++ "\n")
      pure 0)
  | "read" => some (read args)
  | "readonly" => some (declare "readonly" false args)
  | "set" => some (set args)
  | "shift" => some (shift args)
  | "trap" => some (trap args)
  | "type" => some (type args)
  | "ulimit" => some (do
      say "unlimited\n"
      pure 0)
  | "umask" => some (umask args)
  | "unset" => some (unset args)
  | "wait" => some (wait args)
  | _ => none

end Running

end TemplateCoverage.Shell
