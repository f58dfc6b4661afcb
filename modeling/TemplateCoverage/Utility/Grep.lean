import TemplateCoverage.FileSystem.Walk
import TemplateCoverage.Regex.Reader
import TemplateCoverage.Utility.Line

/-!
# Selecting lines

Lines that match one of some expressions are written, or counted, or only what matches in them.
-/

namespace TemplateCoverage.Utility

/-- How lines are selected and what is written of them. -/
structure LineSearch where
  expression : Regex
  mode : Regex.Mode
  options : Options
  /-- Whether the names of files are written. -/
  named : Bool := false

namespace LineSearch

/-- Whether an option is given. -/
def has (s : LineSearch) (letter : Char) : Bool :=
  s.options.has letter

/-- The number that an option gives. -/
def number? (s : LineSearch) (letter : Char) : Option Nat :=
  (s.options.value? letter).bind Bytes.nat?

/-- Whether a line is selected. -/
def selects (s : LineSearch) (line : Bytes) : Bool :=
  s.has 'v' != s.expression.occursIn s.mode line

/-- The parts of a line that match and are not empty. -/
def matchesFrom (s : LineSearch) : Nat → Option Char → Bytes → List Bytes
  | 0, _, _ => []
  | n + 1, before, text =>
    match s.expression.find? s.mode before text with
    | none => []
    | some found =>
      if found.text.isEmpty then
        match found.rest with
        | [] => []
        | c :: rest => matchesFrom s n (some c) rest
      else found.text :: matchesFrom s n found.text.getLast? found.rest

/-- What is written in front of a part of a file. A colon marks selected lines, and a dash those
around them. -/
def label (s : LineSearch) (name : Bytes) (number : Nat) (mark : Char) : Bytes :=
  (if s.named then name ++ [mark] else [])
    ++ (if s.has 'n' then Bytes.ofNat number ++ [mark] else [])

/-- The number of lines that are shown before and after each selected one. -/
def surroundings (s : LineSearch) : Nat × Nat :=
  let both := (s.number? 'C').getD 0
  ((s.number? 'B').getD both, (s.number? 'A').getD both)

/-- What is written of the numbered lines of a file, some of which are selected. -/
def shown (s : LineSearch) (name : Bytes) (lines : List (Bytes × Nat × Bool)) : Bytes :=
  let (before, after) := s.surroundings
  let selected := (lines.filter fun l => l.2.2).map fun l => l.2.1
  let isNear (n : Nat) : Bool := selected.any fun m => n ≤ m + after && m ≤ n + before
  let pieces := lines.filter fun l => isNear l.2.1
  let separated := decide (0 < before + after)
  (pieces.foldl (fun ((text, last) : Bytes × Option Nat) (line, number, chosen) =>
    let gap : Bytes :=
      match last with
      | some m => if separated && m + 1 < number then "--\n" else []
      | none => []
    let mark := if chosen then ':' else '-'
    (text ++ gap ++ s.label name number mark ++ line ++ "\n", some number)) ([], none)).1

/-- Search the text of a file. The result is whether a line was selected. -/
def searchText (s : LineSearch) (name text : Bytes) : Work Bool := do
  let marked := ((Bytes.lines text).zipIdx 1).map fun (line, n) => (line.1, n, s.selects line.1)
  let limit := s.number? 'm'
  let chosen := (marked.filter fun l => l.2.2).map fun l => l.2.1
  let chosen := limit.elim chosen chosen.take
  let kept := marked.map fun (line, n, _) => (line, n, chosen.contains n)
  let found := !chosen.isEmpty
  if s.has 'q' then pure ()
  else if s.has 'l' then
    if found then Work.say (name ++ "\n")
  else if s.has 'L' then
    if !found then Work.say (name ++ "\n")
  else if s.has 'c' then
    let front : Bytes := if s.named then name ++ ":" else []
    Work.say (front ++ Bytes.ofNat chosen.length ++ "\n")
  else if s.has 'o' then
    if !s.has 'v' then
      Work.say <| (kept.filter fun l => l.2.2).flatMap fun (line, n, _) =>
        unlines ((s.matchesFrom (line.length + 1) none line).map (s.label name n ':' ++ ·))
  else Work.say (s.shown name kept)
  pure found

end LineSearch

/-- The expression of some patterns, of which one has to match. -/
def patternsExpression (o : Options) (patterns : List Bytes) : Except Regex.ReadError Regex := do
  let perl (pattern : Bytes) : Bytes :=
    ((Bytes.text pattern).replace "\\d" "[0-9]" |>.replace "\\t" "\t" : String)
  let read (pattern : Bytes) : Except Regex.ReadError Regex :=
    match o.last? ['E', 'F', 'G', 'P'] with
    | some 'F' => .ok (Regex.literal pattern)
    | some 'E' => Regex.read true pattern
    | some 'P' => Regex.read true (perl pattern)
    | _ => Regex.read false pattern
  let each ← patterns.mapM read
  let any := (each.drop 1).foldl Regex.either (each.headD .empty)
  if o.has 'x' then
    pure (.append (.append (.boundary .textStart) any) (.boundary .textEnd))
  else if o.has 'w' then
    pure (.append (.append (.boundary .noWordBefore) any) (.boundary .noWordAfter))
  else pure any

/-- The paths of the files that an operand stands for, if directories are searched. -/
def filesBelow (fs : FileSystem) (path : Bytes) : List Bytes :=
  if path ≠ "-" && fs.isDirectory (Bytes.text path) then
    (fs.walkTree false (Bytes.text path)).visits.filterMap fun v =>
      match v.entry with
      | .file _ _ => some v.path
      | _ => none
  else [path]

/-- The options for selecting lines. -/
def searchRules : List OptionRule :=
  [{ letter := 'E', names := ["extended-regexp"] }, { letter := 'F', names := ["fixed-strings"] },
   { letter := 'G', names := ["basic-regexp"] }, { letter := 'P', names := ["perl-regexp"] },
   { letter := 'e', names := ["regexp"], value := .required },
   { letter := 'f', names := ["file"], value := .required },
   { letter := 'i', names := ["ignore-case"] }, { letter := 'y' },
   { letter := 'v', names := ["invert-match"] }, { letter := 'w', names := ["word-regexp"] },
   { letter := 'x', names := ["line-regexp"] }, { letter := 'c', names := ["count"] },
   { letter := 'L', names := ["files-without-match"] },
   { letter := 'l', names := ["files-with-matches"] },
   { letter := 'm', names := ["max-count"], value := .required },
   { letter := 'o', names := ["only-matching"] }, { letter := 'q', names := ["quiet", "silent"] },
   { letter := 's', names := ["no-messages"] }, { letter := 'n', names := ["line-number"] },
   { letter := 'H', names := ["with-filename"] }, { letter := 'h', names := ["no-filename"] },
   { letter := 'r', names := ["recursive"] }, { letter := 'R', names := ["dereference-recursive"] },
   { letter := 'A', names := ["after-context"], value := .required },
   { letter := 'B', names := ["before-context"], value := .required },
   { letter := 'C', names := ["context"], value := .required },
   { letter := 'a', names := ["text"] }, { letter := 'b', names := ["byte-offset"] },
   { letter := 'z', names := ["null-data"] },
   { letter := '1', names := ["color", "colour"], value := .optional, isShort := false },
   { letter := '2', names := ["include"], value := .required, isShort := false },
   { letter := '3', names := ["exclude"], value := .required, isShort := false }]

/-- How the utility is to be called. -/
def searchUsage (u : UtilityCall) : Work Nat := do
  Work.warn ("Usage: " ++ u.name ++ " [OPTION]... PATTERNS [FILE]...\n")
  u.advise
  pure 2

/-- The patterns in a file, if there is to be one, or the file that cannot be read. -/
def listedPatterns (file? : Option Bytes) : Work (Except (Bytes × FileError) (List Bytes)) :=
  match file? with
  | none => pure (.ok [])
  | some path => do
    match ← Work.operand path with
    | .ok text => pure (.ok ((Bytes.lines text).map (·.1)))
    | .error e => pure (.error (path, e))

/-- Select lines. -/
def grep (u : UtilityCall) : Work Nat := do
  match Options.read searchRules u.args with
  | .error e =>
    u.complain e.message
    searchUsage u
  | .ok o =>
    match ← listedPatterns (o.value? 'f') with
    | .error (path, e) =>
      u.complainOf path e
      pure 2
    | .ok listed =>
      let given := (o.values 'e').flatMap (Bytes.split '\n')
      let explicit := o.has 'e' || o.has 'f'
      if !explicit && o.operands.isEmpty then searchUsage u
      else
        let patterns :=
          if explicit then given ++ listed else Bytes.split '\n' (o.operands.headD [])
        let paths := if explicit then o.operands else o.operands.drop 1
        match patternsExpression o patterns with
        | .error e =>
          u.complain e.message
          pure 2
        | .ok expression =>
          let deep := o.has 'r' || o.has 'R'
          let fs := (← get).files
          let here := deep && paths.isEmpty
          let roots : List Bytes :=
            if paths.isEmpty then [if deep then "." else "-"] else paths
          let isMany := decide (1 < roots.length)
            || (deep && roots.any fun p => fs.isDirectory (Bytes.text p))
          let named := match o.last? ['H', 'h'] with
            | some c => c == 'H'
            | none => isMany
          let search : LineSearch :=
            { expression, options := o, named
              mode := { ignoreCase := o.has 'i' || o.has 'y' } }
          let targets := if deep then roots.flatMap (filesBelow fs) else roots
          let (found, failed) ← targets.foldlM (fun (found, failed) path => do
            match ← Work.operand path with
            | .ok text =>
              let name : Bytes :=
                if path = "-" then "(standard input)"
                else if here then path.drop 2 else path
              let this ← search.searchText name text
              pure (found || this, failed)
            | .error e =>
              if !o.has 's' then u.complainOf path e
              pure (found, true)) (false, false)
          pure (if failed && !(o.has 'q' && found) then 2 else if found then 0 else 1)

end TemplateCoverage.Utility
