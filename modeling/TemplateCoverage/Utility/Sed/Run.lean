import TemplateCoverage.Utility.Line
import TemplateCoverage.Utility.Sed.Reader

/-!
# Editing a stream of lines

The lines go through the script one after another. At the end of a cycle the pattern space is
written, unless this is turned off, and then the texts that were to be appended.
-/

namespace TemplateCoverage.Utility.Sed

/-- An editor at work. -/
structure Editor where
  /-- The lines that are not read yet, each with whether it has an end. -/
  rest : List (Bytes × Bool)
  pattern : Bytes := []
  /-- Whether the current line has an end. -/
  ended : Bool := true
  hold : Bytes := []
  number : Nat := 0
  output : Bytes := []
  /-- Whether the last line that was written lacks its end. -/
  lacksEnd : Bool := false
  /-- The texts to be appended. -/
  queue : Bytes := []
  /-- Whether a substitution was made in this cycle. -/
  changed : Bool := false
  /-- The ranges that the editor is in, by the numbers of their commands, with their last lines. -/
  ranges : List (Nat × Option Nat) := []
  /-- The expression that was used last. -/
  latest : Option Regex := none
  /-- What goes into other files. -/
  written : List (Bytes × Bytes) := []

namespace Editor

/-- The output with an end for a line that lacks it. -/
def endedOutput (e : Editor) : Bytes :=
  if e.lacksEnd then e.output ++ "\n" else e.output

/-- Write a text. A line that lacks its end gets it first. -/
def write (e : Editor) (text : Bytes) : Editor :=
  if text.isEmpty then e
  else { e with output := e.endedOutput ++ text, lacksEnd := false }

/-- Write a line, with an end unless the current line has none. -/
def writeLine (e : Editor) (line : Bytes) : Editor :=
  { e with output := e.endedOutput ++ lineText (line, e.ended), lacksEnd := !e.ended }

/-- Write the texts that were to be appended. -/
def flush (e : Editor) : Editor :=
  { e.write e.queue with queue := [] }

/-- Read the next line into the pattern space. -/
def read? (e : Editor) : Option Editor :=
  match e.rest with
  | [] => none
  | (line, ended) :: rest => some { e with rest, pattern := line, ended, number := e.number + 1 }

/-- Add a line to a file. -/
def writeTo (e : Editor) (path text : Bytes) : Editor :=
  if path = "/dev/stdout" then e.write text
  else { e with written := e.written ++ [(path, text)] }

/-- The expression of a test. -/
def expression (e : Editor) (t : LineTest) : Regex :=
  t.expression?.getD (e.latest.getD .empty)

/-- Whether the pattern space passes a test. -/
def passes (e : Editor) (t : LineTest) : Bool × Editor :=
  let r := e.expression t
  (r.occursIn t.mode e.pattern, { e with latest := some r })

/-- Whether the current line is one that an address is about. -/
def isAt (e : Editor) : Address → Bool × Editor
  | .line n => (e.number == n, e)
  | .last => (e.rest.isEmpty, e)
  | .matching t => e.passes t
  | .every first step =>
    (if step = 0 then e.number == first
      else first ≤ e.number && (e.number - first) % step == 0, e)

/-- The editor in a range, or outside of it. -/
def inRange (e : Editor) (place : Nat) (last? : Option (Option Nat)) : Editor :=
  let others := e.ranges.filter fun r => r.1 ≠ place
  { e with ranges := (last?.map fun last => (place, last)).toList ++ others }

/-- Whether the range of a command goes on behind the current line, which begins it. -/
def beginRange (e : Editor) (place : Nat) (ending : RangeEnd) : Editor :=
  let until? (n : Nat) : Editor := if e.number < n then e.inRange place (some (some n)) else e
  match ending with
  | .line n => until? n
  | .after lines => until? (e.number + lines)
  | .multipleOf n => if n = 0 then e else until? ((e.number + n - 1) / n * n)
  | .last => if e.rest.isEmpty then e else e.inRange place (some none)
  | .matching _ => e.inRange place (some none)

/-- Whether the current line is in the range of a command, in which the editor is. -/
def stayInRange (e : Editor) (place : Nat) (ending : RangeEnd) (last? : Option Nat) :
    Bool × Editor :=
  match last?, ending with
  | some last, _ =>
    if e.number < last then (true, e) else (e.number == last, e.inRange place none)
  | none, .matching t =>
    let (found, e) := e.passes t
    (true, if found then e.inRange place none else e)
  | none, _ => (true, if e.rest.isEmpty then e.inRange place none else e)

/-- Whether a command, which has the given place in the script, applies to the current line. -/
def selects (e : Editor) (place : Nat) (c : Command) : Bool × Editor :=
  let (found, e) : Bool × Editor :=
    match c.first?, c.last? with
    | none, _ => (true, e)
    | some a, none => e.isAt a
    | some a, some ending =>
      match e.ranges.lookup place with
      | some last? =>
        match last?, ending with
        | some last, _ =>
          if last < e.number then
            let e := e.inRange place none
            let (begins, e) := e.isAt a
            (begins, if begins then e.beginRange place ending else e)
          else e.stayInRange place ending last?
        | none, _ => e.stayInRange place ending none
      | none =>
        let (begins, e) := e.isAt a
        (begins, if begins then e.beginRange place ending else e)
  (found != c.negated, e)

/-! ### Substitution -/

/-- A text with a change of case. -/
def changeCase (lasting once : Option CaseChange) (text : Bytes) : Bytes :=
  let body := match lasting with
    | some .upper => text.map Char.toUpper
    | some .lower => text.map Char.toLower
    | _ => text
  match once, body with
  | some .upperNext, c :: rest => c.toUpper :: rest
  | some .lowerNext, c :: rest => c.toLower :: rest
  | _, body => body

/-- The text that comes in the place of a match. -/
def replacementText (parts : List Replacement) (text : Bytes) (groups : List (Nat × Bytes)) :
    Bytes :=
  (parts.foldl (fun ((done, lasting, once) : Bytes × Option CaseChange × Option CaseChange) p =>
    let put (t : Bytes) : Bytes × Option CaseChange × Option CaseChange :=
      (done ++ changeCase lasting once t, lasting, if t.isEmpty then once else none)
    match p with
    | .text t => put t
    | .group 0 => put text
    | .group n => put ((groups.lookup n).getD [])
    | .change .stop => (done, none, none)
    | .change c =>
      if c = .upperNext ∨ c = .lowerNext then (done, lasting, some c) else (done, some c, none))
    ([], none, none)).1

/-- Replace matches from a place on. Given are the number of the next match and whether a match has
ended at this place. The result has the number of replacements. -/
def replaceFrom (r : Regex) (s : Substitution) :
    Nat → Nat → Bool → Option Char → Bytes → Bytes × Nat
  | 0, _, _, _, text => (text, 0)
  | n + 1, count, adjacent, before, text =>
    match r.find? s.test.mode before text with
    | none => (text, 0)
    | some found =>
      if found.text.isEmpty && found.front.isEmpty && adjacent then
        match text with
        | [] => ([], 0)
        | c :: rest =>
          let (after, made) := replaceFrom r s n count false (some c) rest
          (c :: after, made)
      else
        let replaces := count == s.first || (s.all && s.first < count)
        let here := if replaces then replacementText s.replacement found.text found.groups
          else found.text
        let made := if replaces then 1 else 0
        if replaces && !s.all then (found.front ++ here ++ found.rest, made)
        else if found.text.isEmpty then
          match found.rest with
          | [] => (found.front ++ here, made)
          | c :: rest =>
            let (after, more) := replaceFrom r s n (count + 1) false (some c) rest
            (found.front ++ here ++ c :: after, made + more)
        else
          let last := found.text.getLast?
          let (after, more) := replaceFrom r s n (count + 1) true last found.rest
          (found.front ++ here ++ after, made + more)

/-- Carry out a substitution. -/
def substitute (e : Editor) (s : Substitution) : Editor :=
  let r := e.expression s.test
  let (text, made) := replaceFrom r s (e.pattern.length + 2) 1 false none e.pattern
  let e := { e with latest := some r }
  if made = 0 then e
  else
    let e := { e with pattern := text, changed := true }
    let e := if s.prints then e.writeLine e.pattern else e
    match s.file? with
    | some path => e.writeTo path (text ++ "\n")
    | none => e

/-- A line as it is shown with all its characters. -/
def listed (text : Bytes) : Bytes :=
  let shownChar (c : Char) : Bytes :=
    match c with
    | '\\' => "\\\\"
    | '\x07' => "\\a"
    | '\x08' => "\\b"
    | '\x0c' => "\\f"
    | '\n' => "\\n"
    | '\r' => "\\r"
    | '\t' => "\\t"
    | '\x0b' => "\\v"
    | c =>
      let n := c.toNat
      if 0x20 ≤ n ∧ n < 0x7F then [c]
      else '\\' :: [n / 64 % 8, n / 8 % 8, n % 8].map fun d => Char.ofNat ('0'.toNat + d)
  text.flatMap shownChar ++ "$\n"

/-! ### Cycles -/

/-- What happens after a command. -/
inductive Turn where
  /-- The command at a place comes next. -/
  | goOn (place : Nat)
  /-- The cycle ends. -/
  | endCycle
  /-- The cycle ends without the pattern space being written. -/
  | drop
  /-- A new cycle begins without a line being read. -/
  | restart
  | quit (prints : Bool) (code : Nat)

/-- The place behind the end of a block, from behind its beginning on. -/
def blockEnd (script : Script) : Nat → Nat → Nat → Nat
  | 0, place, _ => place
  | n + 1, place, depth =>
    match script[place]? with
    | none => place
    | some c =>
      match c.action, depth with
      | .opening, _ => blockEnd script n (place + 1) (depth + 1)
      | .closing, 0 => place + 1
      | .closing, d + 1 => blockEnd script n (place + 1) d
      | _, _ => blockEnd script n (place + 1) depth

/-- The place of a label. No label stands for the end. -/
def placeOf (script : Script) (name : Bytes) : Nat :=
  if name.isEmpty then script.size
  else (script.findIdx? fun c => c.action = .label name).getD script.size

/-- Carry out what a command does. -/
def perform (e : Editor) (script : Script) (files : FileSystem) (quiet : Bool) (place : Nat)
    (c : Command) : Editor × Turn :=
  let go (e : Editor) : Editor × Turn := (e, .goOn (place + 1))
  match c.action with
  | .opening | .closing | .label _ => go e
  | .substitute s => go (e.substitute s)
  | .translate pairs =>
    go { e with pattern := e.pattern.map fun c => (pairs.lookup c).getD c }
  | .delete => (e, .drop)
  | .deleteFirst =>
    if e.pattern.contains '\n' then
      ({ e with pattern := (e.pattern.dropWhile (· ≠ '\n')).drop 1 }, .restart)
    else (e, .drop)
  | .print => go (e.writeLine e.pattern)
  | .printFirst => go (e.write (e.pattern.takeWhile (· ≠ '\n') ++ "\n"))
  | .next =>
    if e.rest.isEmpty then (e, .quit true 0)
    else
      let e := if quiet then e else e.writeLine e.pattern
      go (e.flush.read?.getD e)
  | .appendNext =>
    let front := e.pattern
    match e.flush.read? with
    | none => (e, .quit true 0)
    | some e => go { e with pattern := front ++ "\n" ++ e.pattern }
  | .hold => go { e with hold := e.pattern }
  | .holdAppend => go { e with hold := e.hold ++ "\n" ++ e.pattern }
  | .get => go { e with pattern := e.hold }
  | .getAppend => go { e with pattern := e.pattern ++ "\n" ++ e.hold }
  | .exchange => go { e with pattern := e.hold, hold := e.pattern }
  | .clear => go { e with pattern := [] }
  | .quit prints code => (e, .quit prints code)
  | .lineNumber => go (e.write (Bytes.ofNat e.number ++ "\n"))
  | .list => go (e.write (listed e.pattern))
  | .append text => go { e with queue := e.queue ++ text }
  | .insert text => go (e.write text)
  | .change text =>
    let inside := (e.ranges.lookup place).isSome
    let e := if c.last?.isSome && inside && !c.negated then e else e.write text
    (e, .drop)
  | .jump name => (e, .goOn (placeOf script name))
  | .jumpIf name =>
    if e.changed then ({ e with changed := false }, .goOn (placeOf script name)) else go e
  | .jumpUnless name =>
    if e.changed then go { e with changed := false } else (e, .goOn (placeOf script name))
  | .readFile path =>
    match files.readBytes (Bytes.text path) with
    | .ok bytes => go { e with queue := e.queue ++ Bytes.ofArray bytes }
    | .error _ => go e
  | .writeFile path => go (e.writeTo path (e.pattern ++ "\n"))

/-- Run the script from a place on, for a number of commands at most. The result has the exit code.
-/
def runFrom (script : Script) (files : FileSystem) (quiet : Bool) :
    Nat → Nat → Editor → Editor × Nat
  | 0, _, e => (e, 0)
  | n + 1, place, e =>
    let finish (e : Editor) (prints : Bool) : Editor :=
      (if prints && !quiet then e.writeLine e.pattern else e).flush
    let nextCycle (e : Editor) : Editor × Nat :=
      match e.read? with
      | none => (e, 0)
      | some e => runFrom script files quiet n 0 { e with changed := false }
    match script[place]? with
    | none => nextCycle (finish e true)
    | some c =>
      match e.selects place c with
      | (false, e) =>
        let after := if c.action = .opening then blockEnd script (script.size + 1) (place + 1) 0
          else place + 1
        runFrom script files quiet n after e
      | (true, e) =>
        match e.perform script files quiet place c with
        | (e, .goOn place) => runFrom script files quiet n place e
        | (e, .endCycle) => nextCycle (finish e true)
        | (e, .drop) => nextCycle (finish e false)
        | (e, .restart) => runFrom script files quiet n 0 (finish e false)
        | (e, .quit prints code) => (finish e prints, code)

/-- The number of commands that are carried out for a line at most, so that no jump goes on for
ever. -/
def commandLimit : Nat := 10000

/-- Edit lines. -/
def edit (script : Script) (files : FileSystem) (quiet : Bool) (lines : List (Bytes × Bool)) :
    Editor × Nat :=
  let start : Editor :=
    { rest := lines
      ranges := (script.toList.zipIdx.filter fun c => c.1.fromZero).map fun c => (c.2, none) }
  match start.read? with
  | none => (start, 0)
  | some e => runFrom script files quiet (commandLimit + lines.length * (script.size + 1)) 0 e

end Editor

/-! ### The utility -/

/-- The texts of the scripts that the options give, with line ends between them. -/
def scriptText (u : UtilityCall) (o : Options) : Work (Option Bytes) := do
  let parts ← (o.given.filter fun g => g.1 = 'e' || g.1 = 'f').mapM fun (letter, value) => do
    if letter = 'e' then pure (some value)
    else
      match ← Work.operand value with
      | .ok text => pure (some (if text.getLast? = some '\n' then text.dropLast else text))
      | .error e =>
        u.complainOf ("couldn't open file " ++ value) e
        pure none
  pure ((parts.mapM id).map (Bytes.join "\n"))

/-- Complain about a script. -/
def complainOfScript (u : UtilityCall) (fault : Fault) : Work Nat := do
  u.complain ("-e expression #1, char " ++ Bytes.ofNat fault.index ++ ": " ++ fault.message)
  pure 1

/-- The texts of files, and whether all could be read. -/
def readAll (u : UtilityCall) (paths : List Bytes) : Work (List (Bytes × Bytes) × Bool) := do
  (if paths.isEmpty then [['-']] else paths).foldlM (fun (found, fine) path => do
    match ← Work.operand path with
    | .ok text => pure (found ++ [(path, text)], fine)
    | .error .isADirectory =>
      u.complain ("read error on " ++ path ++ ": Is a directory")
      pure (found, false)
    | .error e =>
      u.complainOf ("can't read " ++ path) e
      pure (found, false)) ([], true)

/-- Put what was written to other files into them. -/
def putWritten (script : Script) (written : List (Bytes × Bytes)) : Work Unit := do
  let paths : List Bytes := script.toList.filterMap fun c => match c.action with
    | .writeFile path => some path
    | .substitute s => s.file?
    | _ => none
  let others := paths.filter fun (path : Bytes) => path ≠ "/dev/stdout"
  others.eraseDups.forM fun (path : Bytes) => do
    discard (Work.putFile path ((written.filter fun w => w.1 == path).flatMap (·.2)) false)

/-- Edit the lines of files. -/
def sed (u : UtilityCall) : Work Nat := do
  match Options.read
    [{ letter := 'n', names := ["quiet", "silent"] },
     { letter := 'e', names := ["expression"], value := .required },
     { letter := 'f', names := ["file"], value := .required },
     { letter := 'E', names := ["regexp-extended"] }, { letter := 'r' },
     { letter := 'i', names := ["in-place"], value := .optional },
     { letter := 's', names := ["separate"] }, { letter := 'u', names := ["unbuffered"] },
     { letter := 'p', names := ["posix"], isShort := false },
     { letter := 'l', names := ["line-length"], value := .required }] u.args with
  | .error e =>
    u.complain e.message
    Work.warn "Usage: sed [OPTION]... \x7bscript-only-if-no-other-script\x7d [input-file]...\n"
    pure 1
  | .ok o =>
    let given := o.has 'e' || o.has 'f'
    if !given && o.operands.isEmpty then
      Work.warn "Usage: sed [OPTION]... \x7bscript-only-if-no-other-script\x7d [input-file]...\n"
      pure 1
    else
      match ← if given then scriptText u o else pure o.operands.head? with
      | none => pure 1
      | some text =>
        match Script.read (o.has 'E' || o.has 'r') text with
        | .error fault => complainOfScript u fault
        | .ok script =>
          match script.missingLabel? with
          | some name =>
            u.complain ("can't find label for jump to \x60" ++ name ++ "'")
            pure 1
          | none =>
            let quiet := o.has 'n' || "#n\n".toList.isPrefixOf (text ++ "\n")
            let files := (← get).files
            let (texts, fine) ← readAll u (if given then o.operands else o.operands.drop 1)
            if o.has 'i' || o.has 's' then
              let code ← texts.foldlM (fun (_ : Nat) (path, text) => do
                let (e, code) := Editor.edit script files quiet (Bytes.lines text)
                putWritten script e.written
                if o.has 'i' && path ≠ "-" then
                  let suffix := (o.value? 'i').getD []
                  if !suffix.isEmpty then discard (Work.putFile (path ++ suffix) text false)
                  discard (Work.putFile path e.output false)
                else Work.say e.output
                pure code) 0
              pure (if fine then code else 2)
            else
              let lines := texts.flatMap fun t => Bytes.lines t.2
              let (e, code) := Editor.edit script files quiet lines
              putWritten script e.written
              Work.say e.output
              pure (if code ≠ 0 then code else if fine then 0 else 2)

end TemplateCoverage.Utility.Sed
