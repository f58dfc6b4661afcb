/-!
# Parameters of commands

A command reads its words from left to right. A word names options, gives the value of the option
before it, or is an operand. A value is checked when the next parameter turns up, so a word that
means nothing is reported before a wrong value in front of it.
-/

namespace TemplateCoverage.CommandLine

/-- Why words are not carried out as a command. -/
inductive UsageError where
  | helpAsked
  /-- The version of the program or command with this title is asked for. -/
  | versionAsked (title : String)
  | nothingGiven
  | commandMissing
  | unknownCommand
  | unknownArgument
  | argumentMissing
  | invalidValue
  | malformedNumber
  | repeatedArgument
  | superfluousValue
  deriving DecidableEq, Repr

/-- What a parameter takes and how often it is given. -/
inductive Arity where
  /-- No value, at most once. -/
  | flag
  /-- No value, any number of times. -/
  | counted
  /-- One value, at most once. -/
  | single
  /-- One value each time. -/
  | repeated
  deriving DecidableEq, Repr

/-- Whether a value is taken. -/
def Arity.takesValue : Arity → Bool
  | .flag | .counted => false
  | .single | .repeated => true

/-- Whether a parameter is given at most once. -/
def Arity.isUnique : Arity → Bool
  | .flag | .single => true
  | .counted | .repeated => false

/-- A parameter for settings of type `σ`. -/
structure Parameter (σ : Type) where
  /-- The name, which stands behind two dashes. -/
  name : String
  /-- The letter that may stand for the name behind one dash. -/
  letter : Option Char := none
  arity : Arity
  /-- The variable of the environment that gives the value if the words do not. -/
  environmentName : Option String := none
  /-- Put a value into the settings. Without a value, the text is empty. -/
  store : String → σ → Except UsageError σ

namespace Parameter

/-- A parameter for the first of two settings. -/
def first {σ : Type} (τ : Type) (p : Parameter σ) : Parameter (σ × τ) :=
  { name := p.name, letter := p.letter, arity := p.arity, environmentName := p.environmentName
    store := fun text (a, b) => (p.store text a).map fun a => (a, b) }

/-- A parameter for the second of two settings. -/
def second {σ : Type} (τ : Type) (p : Parameter σ) : Parameter (τ × σ) :=
  { name := p.name, letter := p.letter, arity := p.arity, environmentName := p.environmentName
    store := fun text (a, b) => (p.store text b).map fun b => (a, b) }

end Parameter

/-- What a word looks like. -/
inductive Word where
  /-- Two dashes, behind which all words are operands. -/
  | separator
  | long (name : String) (value : Option String)
  | letters (cs : List Char)
  | plain (text : String)
  deriving DecidableEq, Repr

/-- A word by its look. A single dash is as good as a text. -/
def Word.ofString (s : String) : Word :=
  match s.toList with
  | ['-', '-'] => .separator
  | '-' :: '-' :: cs =>
    .long (String.ofList (cs.takeWhile (· ≠ '=')))
      (match cs.dropWhile (· ≠ '=') with
       | [] => none
       | _ :: value => some (String.ofList value))
  | '-' :: c :: cs => .letters (c :: cs)
  | _ => .plain s

/-- What a command understands. -/
structure Shape (σ : Type) where
  /-- The name that goes with the version. -/
  title : String
  options : List (Parameter σ)
  operands : List (Parameter σ) := []
  /-- The parameter that takes all operands behind two dashes. -/
  trailing : Option (Parameter σ) := none
  /-- The words that name a command and end the reading. -/
  commands : List String := []
  /-- The names of the parameters that have to be given. -/
  required : List String := []

/-- What has been read. -/
structure Reading (σ : Type) where
  settings : σ
  /-- The names of the parameters in the settings. -/
  given : List String := []
  /-- The parameter whose value is unchecked or yet to come. -/
  pending : Option (Parameter σ × Option String) := none
  /-- The operands yet to come. -/
  operands : List (Parameter σ) := []
  /-- Whether two dashes have been read. -/
  separated : Bool := false

namespace Reading

variable {σ : Type}

/-- Check the value of a parameter and put it into the settings. -/
def store (r : Reading σ) (p : Parameter σ) (value : Option String) :
    Except UsageError (Reading σ) :=
  if p.arity.takesValue && value.isNone then .error .invalidValue
  else if p.arity.isUnique && r.given.contains p.name then .error .repeatedArgument
  else (p.store (value.getD "") r.settings).map fun settings =>
    { r with settings, given := p.name :: r.given }

/-- Store the pending parameter. -/
def settle (r : Reading σ) : Except UsageError (Reading σ) :=
  match r.pending with
  | none => .ok r
  | some (p, value) => { r with pending := none }.store p value

/-- Store a parameter after the pending one. -/
def accept (r : Reading σ) (p : Parameter σ) (value : Option String) :
    Except UsageError (Reading σ) := do
  (← r.settle).store p value

/-- Let a parameter be pending. -/
def await (r : Reading σ) (p : Parameter σ) (value : Option String) :
    Except UsageError (Reading σ) := do
  pure { (← r.settle) with pending := some (p, value) }

end Reading

namespace Shape

variable {σ : Type}

/-- Read an option by its name. -/
def readLong (shape : Shape σ) (r : Reading σ) (name : String) (value : Option String) :
    Except UsageError (Reading σ) :=
  match shape.options.find? fun p => p.name = name with
  | none => .error .unknownArgument
  | some p =>
    if p.arity.takesValue && value.isNone then r.await p none
    else if !p.arity.takesValue && value.isSome then .error .superfluousValue
    else r.accept p value

/-- Read letters that stand for options. What is behind the letter of an option that takes a value
is its value, with or without an equals sign between them. -/
def readLetters (shape : Shape σ) (r : Reading σ) : List Char → Except UsageError (Reading σ)
  | [] => .ok r
  | c :: cs =>
    match shape.options.find? fun p => p.letter = some c with
    | none => .error .unknownArgument
    | some p =>
      if p.arity.takesValue then
        match cs with
        | [] => r.await p none
        | '=' :: value => r.accept p (some (String.ofList value))
        | value => r.accept p (some (String.ofList value))
      else do
        shape.readLetters (← r.accept p none) cs

/-- Read an operand. -/
def readOperand (shape : Shape σ) (r : Reading σ) (text : String) :
    Except UsageError (Reading σ) :=
  match (if r.separated then shape.trailing else none), r.operands with
  | some p, _ => r.await p (some text)
  | none, p :: rest => (r.await p (some text)).map fun r => { r with operands := rest }
  | none, [] =>
    if shape.commands.isEmpty || (r.separated && shape.commands.contains text) then
      .error .unknownArgument
    else .error .unknownCommand

/-- Read words up to the name of a command. The result has that name and the words behind it. -/
def read (shape : Shape σ) (r : Reading σ) :
    List String → Except UsageError (Reading σ × Option (String × List String))
  | [] => .ok (r, none)
  | word :: rest =>
    if r.separated then do
      shape.read (← shape.readOperand r word) rest
    else
      match Word.ofString word with
      | .separator => shape.read { r with separated := true } rest
      | .long name value => do
        shape.read (← shape.readLong r name value) rest
      | .letters cs => do
        shape.read (← shape.readLetters r cs) rest
      | .plain text =>
        match r.pending with
        | some (p, none) => shape.read { r with pending := some (p, some text) } rest
        | _ =>
          if shape.commands.contains text then .ok (r, some (text, rest))
          else do
            shape.read (← shape.readOperand r text) rest

/-- A reading before the first word. -/
def start (shape : Shape σ) (settings : σ) : Reading σ :=
  { settings, operands := shape.operands }

/-- Store what the environment gives for an option that was not read. -/
def readVariable (environment : String → Option String) (r : Reading σ) (p : Parameter σ) :
    Except UsageError (Reading σ) :=
  if r.given.contains p.name then .ok r
  else
    match p.environmentName.bind environment with
    | none => .ok r
    | some value => r.store p (some value)

/-- The settings at the end of the words. -/
def finish (shape : Shape σ) (environment : String → Option String) (r : Reading σ) :
    Except UsageError σ := do
  let r ← r.settle
  let r ← shape.options.foldlM (readVariable environment) r
  if shape.required.all r.given.contains then pure r.settings else .error .argumentMissing

/-- Read all words. -/
def readAll (shape : Shape σ) (environment : String → Option String) (settings : σ)
    (words : List String) : Except UsageError σ := do
  let (r, _) ← shape.read (shape.start settings) words
  shape.finish environment r

end Shape

end TemplateCoverage.CommandLine
