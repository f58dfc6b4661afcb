import TemplateCoverage.FileSystem.Write
import TemplateCoverage.Text.Bytes

/-!
# Utilities

The small programs that scripts call. A utility gets its arguments, an input and the files; it writes
to its output and its error stream, may change files, and ends with an exit code.
-/

namespace TemplateCoverage

/-- What a utility is called with. -/
structure UtilityCall where
  /-- The name by which it is called. -/
  name : Bytes
  args : List Bytes
  environment : List (Bytes × Bytes) := []
  /-- Whether the input is a file, and not what another program has written. -/
  inputIsFile : Bool := false

/-- Something that is written. -/
inductive Written where
  | output (text : Bytes)
  | error (text : Bytes)
  deriving DecidableEq, Repr

/-- What a utility works on. -/
structure Workplace where
  input : Bytes := []
  files : FileSystem
  /-- What has been written, the latest first. -/
  written : List Written := []

/-- The work of a utility. -/
abbrev Work := StateM Workplace

namespace Work

/-- Write to the output. -/
def say (text : Bytes) : Work Unit :=
  modify fun w => { w with written := .output text :: w.written }

/-- Write to the error stream. -/
def warn (text : Bytes) : Work Unit :=
  modify fun w => { w with written := .error text :: w.written }

/-- Take all of the input. -/
def takeInput : Work Bytes := do
  let w ← get
  set { w with input := [] }
  pure w.input

/-- The bytes of a file. -/
def contents (path : Bytes) : Work (Except FileError Bytes) := do
  if path = "/dev/null" then pure (.ok [])
  else if path = "/dev/stdin" then pure (.ok (← takeInput))
  else pure ((((← get).files).readBytes (Bytes.text path)).map Bytes.ofArray)

/-- The bytes of an operand. A dash stands for the input. -/
def operand (path : Bytes) : Work (Except FileError Bytes) := do
  if path = ['-'] then pure (.ok (← takeInput)) else contents path

/-- The bytes that go into a file, and whether they are added to what it holds. -/
def putFile (path text : Bytes) (adding : Bool) : Work (Except FileError Unit) := do
  if path = "/dev/null" then pure (.ok ())
  else if path = "/dev/stdout" then
    say text
    pure (.ok ())
  else if path = "/dev/stderr" then
    warn text
    pure (.ok ())
  else
    let w ← get
    let name := Bytes.text path
    let before :=
      if adding then
        match w.files.readBytes name with
        | .ok bytes => Bytes.ofArray bytes
        | .error _ => []
      else []
    match w.files.write name (Bytes.toArray (before ++ text)) none with
    | .ok files =>
      set { w with files }
      pure (.ok ())
    | .error e => pure (.error e)

end Work

namespace UtilityCall

/-- Complain, with the name of the utility in front. -/
def complain (u : UtilityCall) (message : Bytes) : Work Unit :=
  Work.warn (u.name ++ ": " ++ message ++ "\n")

/-- Complain about a file. -/
def complainOf (u : UtilityCall) (subject : Bytes) (e : FileError) : Work Unit :=
  u.complain (subject ++ ": " ++ e.cause)

/-- The advice for those who have called the utility in a wrong way. -/
def advise (u : UtilityCall) : Work Unit :=
  Work.warn ("Try '" ++ u.name ++ " --help' for more information.\n")

/-- Complain about the arguments, and end. -/
def misused (u : UtilityCall) (message : Bytes) (code : Nat) : Work Nat := do
  u.complain message
  u.advise
  pure code

end UtilityCall

/-! ### Names in messages -/

namespace Bytes

/-- A name between apostrophes. An apostrophe inside of it gets quotes around the name, or if those
would not do, leaves the apostrophes for a moment. -/
def inApostrophes (name : Bytes) : Bytes :=
  let special (c : Char) : Bool := c == '"' || c == '$' || c == '\x60' || c == '\\' || c == '!'
  if !name.contains '\'' then '\'' :: name ++ ['\'']
  else if !name.any special then '"' :: name ++ ['"']
  else '\'' :: name.flatMap (fun c => if c = '\'' then ['\'', '\\', '\'', '\''] else [c]) ++ ['\'']

/-- Whether a name can stand in a message as it is. -/
def isPlainName (name : Bytes) : Bool :=
  let plain (c : Char) : Bool :=
    c.isAlphanum || "%+,-./@_]\x7b\x7d".toList.contains c || 0x80 ≤ c.toNat
  !name.isEmpty && name.all fun c => plain c || c == '#' || c == '~' || c == '='

/-- A name in a message, between apostrophes if it needs them. -/
def shown (name : Bytes) : Bytes :=
  let leads := name.head?.any fun c => c == '#' || c == '~'
  if isPlainName name && !leads then name else inApostrophes name

/-- A word in a message, between apostrophes. -/
def cited (word : Bytes) : Bytes :=
  '\'' :: word.flatMap (fun c => if c = '\'' ∨ c = '\\' then ['\\', c] else [c]) ++ ['\'']

end Bytes

/-! ### Options -/

/-- Whether an option has a value. -/
inductive OptionValue where
  | none
  | required
  | optional
  deriving DecidableEq, Repr

/-- An option that a utility knows: the letter for it, and its names. -/
structure OptionRule where
  letter : Char
  names : List String := []
  value : OptionValue := .none
  /-- Whether the letter can be given, and not only a name. -/
  isShort : Bool := true
  deriving DecidableEq, Repr

/-- Why arguments cannot be read. -/
inductive OptionError where
  | unknownLetter (c : Char)
  | valueMissing (c : Char)
  | unknownName (word : Bytes)
  | ambiguousName (word : Bytes) (names : List String)
  | nameNeedsValue (name : String)
  | nameTakesNoValue (name : String)
  deriving DecidableEq, Repr

/-- The wording of an error. -/
def OptionError.message : OptionError → Bytes
  | .unknownLetter c => "invalid option -- '" ++ [c] ++ "'"
  | .valueMissing c => "option requires an argument -- '" ++ [c] ++ "'"
  | .unknownName word => "unrecognized option '--" ++ word ++ "'"
  | .ambiguousName word names =>
    let shown : List Bytes := names.map fun (n : String) => " '--" ++ (n : Bytes) ++ "'"
    "option '--" ++ word ++ "' is ambiguous; possibilities:" ++ shown.flatten
  | .nameNeedsValue name => "option '--" ++ (name : Bytes) ++ "' requires an argument"
  | .nameTakesNoValue name => "option '--" ++ (name : Bytes) ++ "' doesn't allow an argument"

/-- The options that are given, in order, and the other arguments. -/
structure Options where
  given : List (Char × Bytes) := []
  operands : List Bytes := []
  deriving DecidableEq, Repr

namespace Options

/-- Whether an option is given. -/
def has (o : Options) (letter : Char) : Bool :=
  o.given.any fun g => g.1 == letter

/-- The last value of an option. -/
def value? (o : Options) (letter : Char) : Option Bytes :=
  (o.given.reverse.find? fun g => g.1 == letter).map (·.2)

/-- All values of an option. -/
def values (o : Options) (letter : Char) : List Bytes :=
  (o.given.filter fun g => g.1 == letter).map (·.2)

/-- The last one given of some options. -/
def last? (o : Options) (letters : List Char) : Option Char :=
  (o.given.reverse.find? fun g => letters.contains g.1).map (·.1)

/-- The options with one more. -/
def add (o : Options) (letter : Char) (value : Bytes) : Options :=
  { o with given := (letter, value) :: o.given }

/-- The letters behind a dash, of which the last one may have the next argument as its value. -/
def letters (rules : List OptionRule) :
    Bytes → List Bytes → Except OptionError (List (Char × Bytes) × List Bytes)
  | [], args => .ok ([], args)
  | c :: more, args =>
    match rules.find? fun r => r.isShort && r.letter == c with
    | none => .error (.unknownLetter c)
    | some r =>
      match r.value, more, args with
      | .none, _, _ => (letters rules more args).map fun (given, rest) => ((c, []) :: given, rest)
      | .optional, _, _ => .ok ([(c, more)], args)
      | .required, [], [] => .error (.valueMissing c)
      | .required, [], value :: rest => .ok ([(c, value)], rest)
      | .required, _, _ => .ok ([(c, more)], args)

/-- The rule of a name, which may be cut short, with its full name. -/
def named (rules : List OptionRule) (word : Bytes) : Except OptionError (OptionRule × String) :=
  let all := rules.flatMap fun r => r.names.map fun n => (r, n)
  match all.find? fun p => p.2.toList == word with
  | some p => .ok p
  | none =>
    match all.filter fun p => word.isPrefixOf p.2.toList with
    | [] => .error (.unknownName word)
    | [p] => .ok p
    | p :: more =>
      if more.all fun q => q.1.letter == p.1.letter then .ok p
      else .error (.ambiguousName word ((p :: more).map (·.2)))

/-- An argument with two dashes. -/
def long (rules : List OptionRule) (word : Bytes) (args : List Bytes) :
    Except OptionError ((Char × Bytes) × List Bytes) :=
  let key := word.takeWhile (· ≠ '=')
  let value? := if key.length < word.length then some (word.drop (key.length + 1)) else none
  match named rules key with
  | .error (.unknownName _) => .error (.unknownName word)
  | .error e => .error e
  | .ok (r, name) =>
    match r.value, value?, args with
    | .none, some _, _ => .error (.nameTakesNoValue name)
    | .required, none, [] => .error (.nameNeedsValue name)
    | .required, none, value :: rest => .ok ((r.letter, value), rest)
    | _, value?, _ => .ok ((r.letter, value?.getD []), args)

/-- Read arguments. Options may stand behind other arguments if `mixed`, up to two dashes alone. -/
def readFrom (rules : List OptionRule) (mixed : Bool) :
    Nat → List Bytes → Except OptionError Options
  | 0, args => .ok { operands := args }
  | _ + 1, [] => .ok {}
  | n + 1, arg :: rest =>
    match arg with
    | ['-', '-'] => .ok { operands := rest }
    | '-' :: '-' :: word =>
      match long rules word rest with
      | .error e => .error e
      | .ok (given, after) =>
        (readFrom rules mixed n after).map fun o => { o with given := given :: o.given }
    | '-' :: c :: more =>
      match letters rules (c :: more) rest with
      | .error e => .error e
      | .ok (given, after) =>
        (readFrom rules mixed n after).map fun o => { o with given := given ++ o.given }
    | _ =>
      if mixed then
        (readFrom rules mixed n rest).map fun o => { o with operands := arg :: o.operands }
      else .ok { operands := arg :: rest }

/-- Read arguments. -/
def read (rules : List OptionRule) (args : List Bytes) (mixed : Bool := true) :
    Except OptionError Options :=
  readFrom rules mixed (args.length + 1) args

end Options

namespace UtilityCall

/-- Read the arguments and go on, or complain and end. -/
def withOptions (u : UtilityCall) (rules : List OptionRule) (code : Nat)
    (work : Options → Work Nat) : Work Nat :=
  match Options.read rules u.args with
  | .ok o => work o
  | .error e => u.misused e.message code

/-- Do something with the bytes of each operand, or of the input if there are none. A file that
cannot be read is complained about. The result is whether all were read. -/
def eachOperand (u : UtilityCall) (operands : List Bytes) (work : Bytes → Bytes → Work Unit) :
    Work Bool :=
  (if operands.isEmpty then [['-']] else operands).foldlM (fun fine path => do
    match ← Work.operand path with
    | .ok text =>
      work path text
      pure fine
    | .error e =>
      u.complainOf (Bytes.shown path) e
      pure false) true

end UtilityCall

end TemplateCoverage
