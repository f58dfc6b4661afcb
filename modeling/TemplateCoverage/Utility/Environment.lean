import TemplateCoverage.Utility.Find

/-!
# Utilities that call programs

Calling a program with the words of the input as arguments or in another environment, and finding
the programs that there are.
-/

namespace TemplateCoverage.Utility

/-! ### Arguments from the input -/

/-- A word of the input that is being read. -/
structure WordState where
  done : List Bytes := []
  word? : Option Bytes := none
  quote? : Option Char := none
  escaped : Bool := false

/-- Go on with a byte of the input. Quotes and backslashes keep blanks in a word. -/
def WordState.step (s : WordState) (c : Char) : WordState :=
  let add : WordState := { s with word? := some (s.word?.getD [] ++ [c]), escaped := false }
  if s.escaped then add
  else
    match s.quote? with
    | some q => if c = q then { s with quote? := none } else add
    | none =>
      if c = '\\' then { s with escaped := true, word? := some (s.word?.getD []) }
      else if c = '\'' ∨ c = '"' then { s with quote? := some c, word? := some (s.word?.getD []) }
      else if Bytes.isBlank c then { s with done := s.done ++ s.word?.toList, word? := none }
      else add

/-- The words of a text, or the quote that is left open. -/
def quotedWords (text : Bytes) : Except Char (List Bytes) :=
  let s := text.foldl WordState.step {}
  match s.quote? with
  | some q => .error q
  | none => .ok (s.done ++ s.word?.toList)

/-- The items of a text with a mark behind each. -/
def markedItems (mark : Char) (text : Bytes) : List Bytes :=
  let parts := Bytes.split mark text
  if parts.getLast? = some [] then parts.dropLast else parts

/-- Lists of a number of items at most. -/
def chunks {α : Type} (size : Nat) : Nat → List α → List (List α)
  | 0, _ | _, [] => []
  | n + 1, items => items.take size :: chunks size n (items.drop size)

/-- A word with a text in the place of each mark. -/
def replacedMark (mark text : Bytes) : Nat → Bytes → Bytes
  | 0, word => word
  | _, [] => []
  | n + 1, c :: rest =>
    if !mark.isEmpty && mark.isPrefixOf (c :: rest) then
      text ++ replacedMark mark text n ((c :: rest).drop mark.length)
    else c :: replacedMark mark text n rest

/-- Call a program once for each list of words. -/
def callEach (u : UtilityCall) (call : ProgramCaller) (shows : Bool) (calls : List (List Bytes)) :
    Work Nat := do
  let (code, _) ← calls.foldlM (fun ((code, going) : Nat × Bool) words => do
    match words with
    | [] => pure (code, going)
    | name :: args =>
      if !going then pure (code, going)
      else
        if shows then Work.warn (Bytes.join " " words ++ "\n")
        let input ← Work.takeInput
        let found ← call { u with name, args, inputIsFile := true }
        modify fun w => { w with input }
        match found with
        | none =>
          u.complain (name ++ ": No such file or directory")
          pure (127, false)
        | some 0 => pure (code, true)
        | some 255 =>
          u.complain (name ++ ": exited with status 255; aborting")
          pure (124, false)
        | some n => if n = 126 ∨ n = 127 then pure (n, false) else pure (123, true)) (0, true)
  pure code

/-- The text that words are taken from: that of a file, if there is to be one, or the input. -/
def itemText (file? : Option Bytes) (input : Bytes) : Work Bytes :=
  match file? with
  | none => pure input
  | some path => do
    match ← Work.contents path with
    | .ok text => pure text
    | .error _ => pure []

/-- Call a program with the words of the input behind the other arguments. -/
def xargs (call : ProgramCaller) (u : UtilityCall) : Work Nat := do
  match Options.read
    [{ letter := 'n', names := ["max-args"], value := .required },
     { letter := 'I', value := .required }, { letter := 'i', value := .optional },
     { letter := 'L', names := ["max-lines"], value := .required },
     { letter := '0', names := ["null"] },
     { letter := 'd', names := ["delimiter"], value := .required },
     { letter := 'r', names := ["no-run-if-empty"] }, { letter := 't', names := ["verbose"] },
     { letter := 'P', names := ["max-procs"], value := .required },
     { letter := 's', names := ["max-chars"], value := .required },
     { letter := 'a', names := ["arg-file"], value := .required },
     { letter := 'x', names := ["exit"] }] u.args false with
  | .error e => u.misused e.message 1
  | .ok o =>
    let text ← itemText (o.value? 'a') (← Work.takeInput)
    let command : List Bytes := if o.operands.isEmpty then ["echo"] else o.operands
    let mark? := (o.value? 'I').orElse fun _ =>
      if o.has 'i' then some (if o.value? 'i' = some [] then "\x7b\x7d" else (o.value? 'i').getD [])
      else none
    let words : Except Char (List Bytes) :=
      if o.has '0' then .ok (markedItems '\x00' text)
      else
        match o.value? 'd' with
        | some delimiter => .ok (markedItems ((unescaped delimiter).1.head?.getD '\n') text)
        | none =>
          if mark?.isSome then
            let lines := (Bytes.lines text).map fun l => l.1.dropWhile Bytes.isBlank
            (lines.filter (!·.isEmpty)).mapM fun l =>
              let s := l.foldl (fun s c =>
                if c = ' ' ∨ c = '\t' then { s with word? := some (s.word?.getD [] ++ [c]) }
                else s.step c) ({} : WordState)
              match s.quote? with
              | some q => .error q
              | none => .ok (s.word?.getD [])
          else quotedWords text
    match words with
    | .error q =>
      let kind : Bytes := if q = '"' then "double" else "single"
      u.complain ("unmatched " ++ kind ++ " quote; by default quotes are special to xargs unless " ++
        "you use the -0 option")
      pure 1
    | .ok words =>
      let limit := o.value? 'n'
      match limit.map Bytes.nat? with
      | some (some 0) | some none =>
        u.misused ("value " ++ limit.getD [] ++ " for -n option should be >= 1") 1
      | size? =>
        match mark?, size?.join, o.value? 'L' with
        | some mark, _, _ =>
          callEach u call (o.has 't') (words.map fun w =>
            command.map fun c => replacedMark mark w (c.length + 1) c)
        | none, some size, _ =>
          let groups := chunks size (words.length + 1) words
          let groups := if groups.isEmpty && !o.has 'r' then [[]] else groups
          callEach u call (o.has 't') (groups.map (command ++ ·))
        | none, none, some lines =>
          let size := (Bytes.nat? lines).getD 1
          let rows := ((Bytes.lines text).map (·.1)).filter (!·.isEmpty)
          let groups := (chunks size (rows.length + 1) rows).map fun rows =>
            ((quotedWords (Bytes.join "\n" rows)).toOption).getD []
          callEach u call (o.has 't') (groups.map (command ++ ·))
        | none, none, none =>
          if words.isEmpty && o.has 'r' then pure 0
          else callEach u call (o.has 't') [command ++ words]

/-! ### Environments -/

/-- The part before the first equals sign, and the part behind it. -/
def binding? (word : Bytes) : Option (Bytes × Bytes) :=
  let name := word.takeWhile (· ≠ '=')
  if name.length < word.length then some (name, word.drop (name.length + 1)) else none

/-- Call a program in a changed environment, or write the environment. -/
def env (call : ProgramCaller) (u : UtilityCall) : Work Nat := do
  match Options.read
    [{ letter := 'i', names := ["ignore-environment"] }, { letter := '0', names := ["null"] },
     { letter := 'u', names := ["unset"], value := .required },
     { letter := 'S', names := ["split-string"], value := .required },
     { letter := 'v', names := ["debug"] }] u.args false with
  | .error e => u.misused e.message 125
  | .ok o =>
    let start := if o.has 'i' || o.operands.head? = some ['-'] then [] else u.environment
    let start := start.filter fun b => !(o.values 'u').contains b.1
    let operands := if o.operands.head? = some ['-'] then o.operands.drop 1 else o.operands
    let split := ((o.value? 'S').map fun text => (quotedWords text).toOption.getD []).getD []
    let words := split ++ operands
    let changes := (words.takeWhile fun w => (binding? w).isSome).filterMap binding?
    let environment := changes.foldl (fun all b =>
      all.filter (fun old => old.1 != b.1) ++ [b]) start
    match words.drop changes.length with
    | [] =>
      for (name, value) in environment do
        Work.say (name ++ "=" ++ value ++ "\n")
      pure 0
    | name :: args =>
      match ← call { u with name, args, environment } with
      | some code => pure code
      | none =>
        u.complain (Bytes.inApostrophes name ++ ": No such file or directory")
        pure 127

/-- Write the values of variables. -/
def printenv (u : UtilityCall) : Work Nat := do
  if u.args.isEmpty then
    for (name, value) in u.environment do
      Work.say (name ++ "=" ++ value ++ "\n")
    pure 0
  else
    u.args.foldlM (fun code name => do
      match u.environment.lookup name with
      | some value =>
        Work.say (value ++ "\n")
        pure code
      | none => pure 1) 0

/-- Call the program that an operand names with the operands behind it. -/
def callRest (call : ProgramCaller) (u : UtilityCall) (words : List Bytes) : Work Nat := do
  match words with
  | [] => u.misused "missing operand" 125
  | name :: args =>
    match ← call { u with name, args } with
    | some code => pure code
    | none =>
      let subject : Bytes := "failed to run command " ++ Bytes.inApostrophes name
      u.complain (subject ++ ": No such file or directory")
      pure 127

/-- The arguments behind the options. -/
def operandsOf (u : UtilityCall) : List Bytes :=
  u.args.dropWhile fun a => a.head? = some '-'

/-- Call a program that goes on when its user leaves, which makes no difference here. -/
def nohup (call : ProgramCaller) (u : UtilityCall) : Work Nat :=
  callRest call u (operandsOf u)

/-- Call a program with less weight, which makes no difference here. -/
def nice (call : ProgramCaller) (u : UtilityCall) : Work Nat :=
  match u.args with
  | ['-', 'n'] :: _ :: words => callRest call u words
  | _ => callRest call u (operandsOf u)

/-- Whether a text is a length of time: a number, and maybe a unit. -/
def isInterval (text : Bytes) : Bool :=
  let body := if text.getLast?.any "smhd".toList.contains then text.dropLast else text
  !body.isEmpty && body.all (fun c => c.isDigit || c = '.') && body.any Char.isDigit

/-- Call a program for a limited time, which is always long enough. -/
def timeout (call : ProgramCaller) (u : UtilityCall) : Work Nat :=
  match operandsOf u with
  | limit :: words =>
    if words.isEmpty || isInterval limit then callRest call u words
    else u.misused ("invalid time interval " ++ Bytes.cited limit) 125
  | [] => callRest call u []

/-! ### Small ones -/

/-- Wait, which takes no time here. -/
def sleep (u : UtilityCall) : Work Nat :=
  u.withOptions [] 1 fun o => do
  if o.operands.isEmpty then u.misused "missing operand" 1
  else
    let wrong := o.operands.filter fun a => !isInterval a
    for a in wrong do u.complain ("invalid time interval " ++ Bytes.cited a)
    if wrong.isEmpty then pure 0
    else
      u.advise
      pure 1

/-- Write a line again and again. No reader takes more than some thousands. -/
def yes (u : UtilityCall) : Work Nat := do
  let line : Bytes := if u.args.isEmpty then "y" else Bytes.join " " u.args
  Work.say ((List.replicate 4096 (line ++ "\n")).flatten)
  pure 0

/-- End with an exit code. -/
def ending (code : Nat) (_ : UtilityCall) : Work Nat :=
  pure code

/-- Write a text, if there are no operands. -/
def constant (rules : List OptionRule) (text : Bytes) (u : UtilityCall) : Work Nat :=
  u.withOptions rules 1 fun o => do
  match o.operands with
  | extra :: _ => u.misused ("extra operand " ++ Bytes.cited extra) 1
  | [] =>
    Work.say (text ++ "\n")
    pure 0

/-- Write the name of the user. -/
def whoami (u : UtilityCall) : Work Nat :=
  constant [] "root" u

/-- Write the name of the system. -/
def uname (u : UtilityCall) : Work Nat :=
  constant [{ letter := 's', names := ["kernel-name", "sysname"] }] "Linux" u

/-- Make sure that files are stored, which they are. -/
def sync (u : UtilityCall) : Work Nat :=
  u.withOptions
    [{ letter := 'd', names := ["data"] }, { letter := 'f', names := ["file-system"] }] 1 fun o => do
  o.operands.foldlM (fun code (path : Bytes) => do
    match (← get).files.status (Bytes.text path) with
    | .ok _ => pure code
    | .error e =>
      u.complainOf ("error opening " ++ Bytes.inApostrophes path) e
      pure 1) 0

end TemplateCoverage.Utility
