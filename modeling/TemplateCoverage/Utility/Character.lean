import TemplateCoverage.Regex.Basic
import TemplateCoverage.Utility.Line

/-!
# Utilities that look into lines

Counting lines, words and bytes, cutting lines up and putting them together, and replacing single
characters.
-/

namespace TemplateCoverage.Utility

/-! ### Counting -/

/-- The numbers of a text. -/
structure TextCount where
  lines : Nat := 0
  words : Nat := 0
  bytes : Nat := 0
  longest : Nat := 0

/-- The number of words of a text. -/
def wordCount (text : Bytes) : Nat :=
  (text.foldl (fun ((n, inside) : Nat × Bool) c =>
    if Bytes.isBlank c then (n, false) else if inside then (n, true) else (n + 1, true))
    (0, false)).1

/-- Count what is in a text. -/
def TextCount.of (text : Bytes) : TextCount :=
  { lines := (text.filter (· == '\n')).length, words := wordCount text, bytes := text.length
    longest := ((Bytes.lines text).map fun l => l.1.length).foldl max 0 }

/-- The counts of two texts together. -/
def TextCount.add (a b : TextCount) : TextCount :=
  { lines := a.lines + b.lines, words := a.words + b.words, bytes := a.bytes + b.bytes
    longest := max a.longest b.longest }

/-- Count lines, words and bytes. -/
def wc (u : UtilityCall) : Work Nat :=
  u.withOptions
    [{ letter := 'l', names := ["lines"] }, { letter := 'w', names := ["words"] },
     { letter := 'c', names := ["bytes"] }, { letter := 'm', names := ["chars"] },
     { letter := 'L', names := ["max-line-length"] }] 1 fun o => do
  let asked := ['l', 'w', 'm', 'c', 'L'].filter o.has
  let asked := if asked.isEmpty then ['l', 'w', 'c'] else asked
  let operands := if o.operands.isEmpty then [['-']] else o.operands
  let found ← operands.mapM fun (path : Bytes) => do
    let isFile := path ≠ "-" || u.inputIsFile
    pure (path, isFile, ← Work.operand path)
  let isRegular (f : Bytes × Bool × Except FileError Bytes) : Bool :=
    match f.2.2 with
    | .ok _ => f.2.1
    | .error e => e != .isADirectory
  let total := found.foldl (fun t f =>
    match f.2.2 with
    | .ok text => t.add (TextCount.of text)
    | .error _ => t) {}
  let fits := (Bytes.ofNat total.bytes).length
  let width :=
    if operands.length = 1 && asked.length = 1 then 1
    else if found.all isRegular then fits else max 7 fits
  let line (t : TextCount) (name : Bytes) : Bytes :=
    let numbers := asked.map fun c =>
      padLeft width (Bytes.ofNat (match c with
        | 'l' => t.lines
        | 'w' => t.words
        | 'L' => t.longest
        | _ => t.bytes))
    let ending : Bytes := if name.isEmpty then "\n" else " " ++ name ++ "\n"
    Bytes.join " " numbers ++ ending
  let code ← found.foldlM (fun code (path, _, result) => do
    match result with
    | .ok text =>
      Work.say (line (TextCount.of text) (if o.operands.isEmpty then [] else path))
      pure code
    | .error e =>
      u.complainOf (Bytes.shown path) e
      if e = .isADirectory then Work.say (line {} path)
      pure 1) 0
  if 1 < operands.length then Work.say (line total "total")
  pure code

/-! ### Cutting and joining -/

/-- Ranges of positions, counted from one. A range without an end goes on. -/
abbrev Positions := List (Nat × Option Nat)

/-- Read a list of positions. -/
def positions? (text : Bytes) : Option Positions :=
  (Bytes.split ',' text).mapM fun part =>
    match Bytes.split '-' part with
    | [single] => (Bytes.nat? single).bind fun n => if n = 0 then none else some (n, some n)
    | [first, last] =>
      match Bytes.nat? first, Bytes.nat? last with
      | some m, some n => if m = 0 ∨ n < m then none else some (m, some n)
      | some m, none => if last.isEmpty && m ≠ 0 then some (m, none) else none
      | none, some n => if first.isEmpty && n ≠ 0 then some (1, some n) else none
      | none, none => none
    | _ => none

/-- Whether a position is in a list. -/
def Positions.contains (p : Positions) (n : Nat) : Bool :=
  p.any fun r => r.1 ≤ n && (r.2.map (decide <| n ≤ ·)).getD true

/-- The members of a list at the positions. -/
def Positions.select {α : Type} (p : Positions) (others : Bool) (all : List α) : List α :=
  ((all.zipIdx 1).filter fun m => others != p.contains m.2).map (·.1)

/-- Write parts of each line. -/
def cut (u : UtilityCall) : Work Nat :=
  u.withOptions
    [{ letter := 'b', names := ["bytes"], value := .required },
     { letter := 'c', names := ["characters"], value := .required },
     { letter := 'f', names := ["fields"], value := .required },
     { letter := 'd', names := ["delimiter"], value := .required },
     { letter := 'n' }, { letter := 's', names := ["only-delimited"] },
     { letter := 'o', names := ["output-delimiter"], value := .required, isShort := false },
     { letter := 'C', names := ["complement"], isShort := false }] 1 fun o => do
  let units := ['b', 'c', 'f'].filter o.has
  let unit? := units.head?
  let list := (unit?.bind o.value?).getD []
  let delimiter := (o.value? 'd').getD "\t"
  if unit?.isNone then
    u.misused "you must specify a list of bytes, characters, or fields" 1
  else if 1 < units.length then u.misused "only one list may be specified" 1
  else if o.has 'd' && unit? ≠ some 'f' then
    u.misused "an input delimiter may be specified only when operating on fields" 1
  else if 1 < delimiter.length then
    u.misused "the delimiter must be a single character" 1
  else
    match positions? list with
    | none =>
      if (Bytes.split ',' list).any fun p => p = "0" || "0-".toList.isPrefixOf p then
        u.misused (if unit? = some 'f' then "fields are numbered from 1"
          else "byte/character positions are numbered from 1") 1
      else if list.all fun c => c.isDigit || c == '-' || c == ',' then
        u.misused (if list = "-" then "invalid range with no endpoint: -"
          else if unit? = some 'f' then "invalid decreasing range" else "invalid decreasing range") 1
      else
        let what : Bytes := if unit? = some 'f' then "field value" else "byte/character position"
        u.misused ("invalid " ++ what ++ " " ++ Bytes.cited list) 1
    | some positions =>
      let mark := delimiter.headD '\x00'
      let part (line : Bytes) : Option Bytes :=
        if unit? = some 'f' then
          let fields := Bytes.split mark line
          if fields.length ≤ 1 then if o.has 's' then none else some line
          else some (Bytes.join ((o.value? 'o').getD [mark])
            (positions.select (o.has 'C') fields))
        else some (positions.select (o.has 'C') line)
      let fine ← u.eachOperand o.operands fun _ text =>
        Work.say (unlines ((Bytes.lines text).filterMap fun l => part l.1))
      pure (if fine then 0 else 1)

/-- Texts next to each other, with the delimiters between them in turn. -/
def joinInTurn (delimiters : Bytes) : Nat → List Bytes → Bytes
  | _, [] => []
  | _, [text] => text
  | n, text :: rest =>
    let mark := if delimiters.isEmpty then [] else (delimiters[n % delimiters.length]?).toList
    text ++ mark ++ joinInTurn delimiters (n + 1) rest

/-- The rows of columns, the shorter ones filled up. -/
def rows (columns : List (List Bytes)) : List (List Bytes) :=
  let height := (columns.map List.length).foldl max 0
  (List.range height).map fun n => columns.map fun column => (column[n]?).getD []

/-- Put the lines of files next to each other. -/
def paste (u : UtilityCall) : Work Nat :=
  u.withOptions
    [{ letter := 'd', names := ["delimiters"], value := .required },
     { letter := 's', names := ["serial"] }] 1 fun o => do
  let delimiters : Bytes :=
    match o.value? 'd' with
    | some ['\\', 'n'] => "\n"
    | some ['\\', '0'] => []
    | none | some ['\\', 't'] => "\t"
    | some d => d
  let operands := if o.operands.isEmpty then [['-']] else o.operands
  match ← operands.foldlM (fun (columns? : Option (List (List Bytes))) path => do
    match columns?, ← Work.operand path with
    | none, _ => pure none
    | some columns, .ok text => pure (some (columns ++ [(Bytes.lines text).map (·.1)]))
    | some _, .error e =>
      u.complainOf (Bytes.shown path) e
      pure none) (some []) with
  | none => pure 1
  | some columns =>
    let lines := if o.has 's' then columns else rows columns
    Work.say (unlines (lines.map (joinInTurn delimiters 0)))
    pure 0

/-! ### Single characters -/

/-- A member of a set of characters as it is written. -/
inductive SetMember where
  | one (c : Char)
  | class (name : Bytes)
  | range (low high : Char)
  /-- A character a number of times, or as often as needed. -/
  | times (c : Char) (n : Option Nat)
  deriving DecidableEq, Repr

/-- The character that an escape stands for, from behind the backslash on. -/
def escapedByte (cs : Bytes) : Char × Bytes :=
  match cs with
  | [] => ('\\', [])
  | c :: rest =>
    match c with
    | 'a' => ('\x07', rest)
    | 'b' => ('\x08', rest)
    | 'f' => ('\x0c', rest)
    | 'n' => ('\n', rest)
    | 'r' => ('\r', rest)
    | 't' => ('\t', rest)
    | 'v' => ('\x0b', rest)
    | c => if '0' ≤ c ∧ c ≤ '7' then Bytes.octal (c :: rest) else (c, rest)

/-- The members of a set. -/
def setMembers : Nat → Bytes → List SetMember
  | 0, _ => []
  | _ + 1, [] => []
  | n + 1, cs =>
    let simple (cs : Bytes) : Char × Bytes :=
      match cs with
      | '\\' :: rest => escapedByte rest
      | c :: rest => (c, rest)
      | [] => ('\x00', [])
    let plain : List SetMember :=
      let (c, rest) := simple cs
      match rest with
      | '-' :: more@(_ :: _) =>
        let (d, after) := simple more
        .range c d :: setMembers n after
      | _ => .one c :: setMembers n rest
    match cs with
    | '[' :: ':' :: rest =>
      let name := rest.takeWhile Char.isAlpha
      match rest.drop name.length with
      | ':' :: ']' :: after => .class name :: setMembers n after
      | _ => plain
    | '[' :: '=' :: c :: '=' :: ']' :: rest => .one c :: setMembers n rest
    | '[' :: rest =>
      let (c, after) := simple rest
      match after with
      | '*' :: more =>
        let digits := more.takeWhile Char.isDigit
        match more.drop digits.length with
        | ']' :: after =>
          let count := (Bytes.nat? digits).bind fun n => if n = 0 then none else some n
          .times c count :: setMembers n after
        | _ => plain
      | _ => plain
    | _ => plain

/-- The characters of a range. -/
def charsBetween (low high : Char) : Bytes :=
  (List.range (high.toNat + 1 - low.toNat)).map fun n => Char.ofNat (low.toNat + n)

/-- All bytes. -/
def allBytes : Bytes :=
  (List.range 256).map Char.ofNat

/-- The characters of a set, with one that is needed as often as possible given that many times. -/
def setChars (filling : Nat) (members : List SetMember) : Bytes :=
  members.flatMap fun m =>
    match m with
    | .one c => [c]
    | .range low high => charsBetween low high
    | .times c n => List.replicate (n.getD filling) c
    | .class name =>
      match CharSet.class? (Bytes.text name) with
      | some ranges => allBytes.filter fun c => ({ ranges } : CharSet).contains c
      | none => []

/-- A text with each run of a character of the set made one character. -/
def squeezed (set : Bytes) : Bytes → Bytes
  | a :: b :: rest =>
    if a = b ∧ set.contains a then squeezed set (b :: rest) else a :: squeezed set (b :: rest)
  | short => short

/-- What is wrong with the members of a set. -/
def setFault? (members : List SetMember) : Option Bytes :=
  members.findSome? fun m =>
    match m with
    | .range low high =>
      if high < low then
        some ("range-endpoints of '" ++ [low, '-', high]
          ++ "' are in reverse collating sequence order")
      else none
    | .class name =>
      if (CharSet.class? (Bytes.text name)).isNone then
        some ("invalid character class " ++ Bytes.cited name)
      else none
    | _ => none

/-- Replace, delete or squeeze characters. -/
def tr (u : UtilityCall) : Work Nat :=
  match Options.read
    [{ letter := 'c', names := ["complement"] }, { letter := 'C' },
     { letter := 'd', names := ["delete"] }, { letter := 's', names := ["squeeze-repeats"] },
     { letter := 't', names := ["truncate-set1"] }] u.args false with
  | .error e => u.misused e.message 1
  | .ok o => do
    let deletes := o.has 'd'
    let squeezes := o.has 's'
    let wanted := if deletes && !squeezes then 1 else 2
    match o.operands with
    | [] => u.misused "missing operand" 1
    | first :: others =>
      if others.isEmpty && (deletes == squeezes) then do
        u.complain ("missing operand after " ++ Bytes.cited first)
        Work.warn (if deletes then
            "Two strings must be given when both deleting and squeezing repeats.\n"
          else "Two strings must be given when translating.\n")
        u.advise
        pure 1
      else if wanted ≤ others.length then do
        u.complain ("extra operand " ++ Bytes.cited ((others[wanted - 1]?).getD []))
        if wanted = 1 && others.length = 1 then
          Work.warn "Only one string may be given when deleting without squeezing repeats.\n"
        u.advise
        pure 1
      else
        let second := others.headD []
        let members1 := setMembers (first.length + 1) first
        let members2 := setMembers (second.length + 1) second
        match setFault? members1, setFault? members2 with
        | some fault, _ | none, some fault => do
          u.complain fault
          pure 1
        | none, none => do
          let chars1 := setChars 0 members1
          let set1 :=
            if o.has 'c' || o.has 'C' then allBytes.filter fun c => !chars1.contains c else chars1
          let short := setChars 0 members2
          let set2 := setChars (set1.length - short.length) members2
          let translates := !deletes && !others.isEmpty
          if translates && set2.isEmpty && !o.has 't' then
            u.complain "when not truncating set1, string2 must be non-empty"
            pure 1
          else
            let last := set2.getLast?.getD '\x00'
            let target (c : Char) : Char :=
              match (set1.reverse.idxOf? c).map fun n => set1.length - 1 - n with
              | none => c
              | some n =>
                match set2[n]? with
                | some d => d
                | none => if o.has 't' then c else last
            let text ← Work.takeInput
            let text := if deletes then text.filter fun c => !set1.contains c
              else if translates then text.map target else text
            let text := if !squeezes then text
              else squeezed (if others.isEmpty then set1 else set2) text
            Work.say text
            pure 0

end TemplateCoverage.Utility
