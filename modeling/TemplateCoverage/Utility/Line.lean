import TemplateCoverage.Utility.Basic

/-!
# Utilities that pass lines on

Writing files one after another, their first and last lines, and lines in another order or with
numbers. A last line without an end stays without it.
-/

namespace TemplateCoverage.Utility

/-- A line with its end, if it has one. -/
def lineText (line : Bytes × Bool) : Bytes :=
  if line.2 then line.1 ++ "\n" else line.1

/-- Lines with their ends. -/
def linesText (lines : List (Bytes × Bool)) : Bytes :=
  lines.flatMap lineText

/-- Lines that all have ends. -/
def unlines (lines : List Bytes) : Bytes :=
  lines.flatMap (· ++ "\n")

/-- A text with spaces in front that make it at least as wide as given. -/
def padLeft (width : Nat) (text : Bytes) : Bytes :=
  List.replicate (width - text.length) ' ' ++ text

/-! ### Whole files -/

/-- How files are shown. -/
structure ShowStyle where
  numbered : Bool := false
  numberedFilled : Bool := false
  squeezed : Bool := false
  ends : Bool := false
  tabs : Bool := false
  controls : Bool := false

/-- Where the showing of files stands. -/
structure ShowState where
  number : Nat := 1
  atStart : Bool := true
  blankBefore : Bool := false

/-- A byte with what does not show made visible. -/
def visibleByte (style : ShowStyle) (c : Char) : Bytes :=
  let n := c.toNat
  if c = '\t' then if style.tabs then "^I" else [c]
  else if !style.controls then [c]
  else
    let (front, m) : Bytes × Nat := if 0x80 ≤ n then ("M-", n - 0x80) else ([], n)
    if m < 0x20 then front ++ ['^', Char.ofNat (m + 0x40)]
    else if m = 0x7F then front ++ "^?"
    else front ++ [Char.ofNat m]

/-- Show a line. -/
def showLine (style : ShowStyle) (state : ShowState) (line : Bytes × Bool) : ShowState × Bytes :=
  let isBlank := state.atStart && line.1.isEmpty
  if isBlank && style.squeezed && state.blankBefore then (state, [])
  else
    let counts := state.atStart && (if style.numberedFilled then !isBlank else style.numbered)
    let front : Bytes := if counts then padLeft 6 (Bytes.ofNat state.number) ++ "\t" else []
    let ending : Bytes := if !line.2 then [] else if style.ends then "$\n" else "\n"
    ({ number := if counts then state.number + 1 else state.number
       atStart := line.2, blankBefore := isBlank },
     front ++ line.1.flatMap (visibleByte style) ++ ending)

/-- Show the lines of a text. -/
def showText (style : ShowStyle) (state : ShowState) (text : Bytes) : ShowState × Bytes :=
  (Bytes.lines text).foldl (fun (state, shown) line =>
    let (next, more) := showLine style state line
    (next, shown ++ more)) (state, [])

/-- Write files one after another. -/
def cat (u : UtilityCall) : Work Nat :=
  u.withOptions
    [{ letter := 'A', names := ["show-all"] }, { letter := 'b', names := ["number-nonblank"] },
     { letter := 'e' }, { letter := 'E', names := ["show-ends"] },
     { letter := 'n', names := ["number"] }, { letter := 's', names := ["squeeze-blank"] },
     { letter := 't' }, { letter := 'T', names := ["show-tabs"] }, { letter := 'u' },
     { letter := 'v', names := ["show-nonprinting"] }] 1 fun o => do
  let style : ShowStyle :=
    { numbered := o.has 'n', numberedFilled := o.has 'b', squeezed := o.has 's'
      ends := o.has 'A' || o.has 'e' || o.has 'E', tabs := o.has 'A' || o.has 't' || o.has 'T'
      controls := o.has 'A' || o.has 'e' || o.has 't' || o.has 'v' }
  let operands := if o.operands.isEmpty then [['-']] else o.operands
  let (_, code) ← operands.foldlM (fun (state, code) path => do
    match ← Work.operand path with
    | .ok text =>
      let (next, shown) := showText style state text
      Work.say shown
      pure (next, code)
    | .error e =>
      u.complainOf (Bytes.shown path) e
      pure (state, 1)) (({} : ShowState), 0)
  pure code

/-- Write the input to files and to the output. -/
def tee (u : UtilityCall) : Work Nat :=
  u.withOptions
    [{ letter := 'a', names := ["append"] }, { letter := 'i', names := ["ignore-interrupts"] },
     { letter := 'p' }] 1 fun o => do
  let text ← Work.takeInput
  Work.say text
  o.operands.foldlM (fun code path => do
    match ← Work.putFile path text (o.has 'a') with
    | .ok () => pure code
    | .error e =>
      u.complainOf (Bytes.shown path) e
      pure 1) 0

/-! ### The beginning and the end -/

/-- Which part of a text is taken. -/
inductive Portion where
  | first (n : Nat)
  | allButLast (n : Nat)
  | last (n : Nat)
  | allFrom (n : Nat)

/-- The part of a list that is taken. -/
def Portion.of {α : Type} (p : Portion) (all : List α) : List α :=
  match p with
  | .first n => all.take n
  | .allButLast n => all.take (all.length - n)
  | .last n => all.drop (all.length - n)
  | .allFrom n => all.drop (n - 1)

/-- A number with a letter that multiplies it. -/
def count? (text : Bytes) : Option Nat :=
  let digits := text.takeWhile Char.isDigit
  match Bytes.nat? digits, String.ofList (text.drop digits.length) with
  | some n, "" => some n
  | some n, "b" => some (512 * n)
  | some n, "K" | some n, "k" | some n, "KiB" => some (1024 * n)
  | some n, "kB" | some n, "KB" => some (1000 * n)
  | some n, "M" | some n, "MiB" => some (1024 * 1024 * n)
  | some n, "MB" => some (1000 * 1000 * n)
  | _, _ => none

/-- The title of a file among others. -/
def title (isFirst : Bool) (path : Bytes) : Bytes :=
  let name : Bytes := if path = "-" then "standard input" else path
  let gap : Bytes := if isFirst then [] else "\n"
  gap ++ "==> " ++ name ++ " <==\n"

/-- The options of the utilities that take a part of each file. -/
def portionRules : List OptionRule :=
  [{ letter := 'n', names := ["lines"], value := .required },
   { letter := 'c', names := ["bytes"], value := .required },
   { letter := 'q', names := ["quiet", "silent"] }, { letter := 'v', names := ["verbose"] },
   { letter := 'z', names := ["zero-terminated"] }]

/-- Arguments with a number behind a dash made an option of it. -/
def countOption (args : List Bytes) : List Bytes :=
  match args with
  | ('-' :: digits) :: rest =>
    if (Bytes.nat? digits).isSome then "-n" :: digits :: rest else args
  | _ => args

/-- Write a part of each file. Some options are known to one utility only. -/
def portions (u : UtilityCall) (ownRules : List OptionRule) (standard : Portion)
    (portion? : Bytes → Option Portion) : Work Nat :=
  { u with args := countOption u.args }.withOptions (portionRules ++ ownRules) 1 fun o => do
  let unit := (o.last? ['n', 'c']).getD 'n'
  let text? := o.value? unit
  match text?.elim (some standard) portion?, text? with
  | none, some text =>
    let what : Bytes := if unit = 'n' then "lines" else "bytes"
    u.complain ("invalid number of " ++ what ++ ": " ++ Bytes.cited text)
    pure 1
  | none, none => pure 1
  | some portion, _ =>
    let operands := if o.operands.isEmpty then [['-']] else o.operands
    let titled := match o.last? ['q', 'v'] with
      | some 'q' => false
      | some _ => true
      | none => decide (1 < operands.length)
    let (_, code) ← operands.foldlM (fun (isFirst, code) path => do
      match ← Work.operand path with
      | .ok text =>
        if titled then Work.say (title isFirst path)
        if unit = 'n' then Work.say (linesText (portion.of (Bytes.lines text)))
        else Work.say (portion.of text)
        pure (false, code)
      | .error .isADirectory =>
        if titled then Work.say (title isFirst path)
        u.complain ("error reading " ++ Bytes.inApostrophes path ++ ": Is a directory")
        pure (false, 1)
      | .error e =>
        u.complainOf ("cannot open " ++ Bytes.inApostrophes path ++ " for reading") e
        pure (isFirst, 1)) (true, 0)
    pure code

/-- Write the first part of each file. Of an input that is a file, the rest stays to be read. -/
def head (u : UtilityCall) : Work Nat := do
  let before := (← get).input
  let code ← portions u [] (.first 10) fun text =>
    match text with
    | '-' :: digits => (count? digits).map .allButLast
    | '+' :: digits => (count? digits).map .first
    | digits => (count? digits).map .first
  let w ← get
  if u.inputIsFile && w.input.isEmpty && !before.isEmpty then
    let written := w.written.flatMap fun t => match t with
      | .output text => text
      | .error _ => []
    if written.isPrefixOf before then set { w with input := before.drop written.length }
  pure code

/-- Write the last part of each file. -/
def tail (u : UtilityCall) : Work Nat :=
  portions u [{ letter := 'f', names := ["follow"] }, { letter := 'F' }] (.last 10) fun text =>
    match text with
    | '+' :: digits => (count? digits).map .allFrom
    | '-' :: digits => (count? digits).map .last
    | digits => (count? digits).map .last

/-! ### Other orders and numbers -/

/-- Write the lines of files from the last one to the first one. -/
def tac (u : UtilityCall) : Work Nat :=
  u.withOptions
    [{ letter := 'b', names := ["before"] }, { letter := 'r', names := ["regex"] },
     { letter := 's', names := ["separator"], value := .required }] 1 fun o => do
  let fine ← (if o.operands.isEmpty then [['-']] else o.operands).foldlM (fun fine path => do
    match ← Work.operand path with
    | .ok text =>
      Work.say (linesText (Bytes.lines text).reverse)
      pure fine
    | .error .isADirectory =>
      u.complain (Bytes.shown path ++ ": read error: Invalid argument")
      pure false
    | .error e =>
      u.complainOf ("failed to open " ++ Bytes.inApostrophes path ++ " for reading") e
      pure false) true
  pure (if fine then 0 else 1)

/-- Write the lines of files with their characters in reverse. -/
def rev (u : UtilityCall) : Work Nat :=
  u.withOptions [{ letter := '0', names := ["zero"] }] 1 fun o => do
  let fine ← (if o.operands.isEmpty then [['-']] else o.operands).foldlM (fun fine path => do
    match ← Work.operand path with
    | .ok text =>
      Work.say (linesText ((Bytes.lines text).map fun l => (l.1.reverse, l.2)))
      pure fine
    | .error e =>
      u.complainOf ("cannot open " ++ path) e
      pure false) true
  pure (if fine then 0 else 1)

/-- Which lines get a number, by the letter of a style. -/
def numbersLine (style : Bytes) (line : Bytes) : Bool :=
  match style with
  | 'a' :: _ => true
  | 'n' :: _ => false
  | _ => !line.isEmpty

/-- Write lines with numbers. -/
def nl (u : UtilityCall) : Work Nat :=
  u.withOptions
    [{ letter := 'b', names := ["body-numbering"], value := .required },
     { letter := 'w', names := ["number-width"], value := .required },
     { letter := 's', names := ["number-separator"], value := .required },
     { letter := 'v', names := ["starting-line-number"], value := .required },
     { letter := 'i', names := ["line-increment"], value := .required },
     { letter := 'f', names := ["footer-numbering"], value := .required },
     { letter := 'h', names := ["header-numbering"], value := .required },
     { letter := 'n', names := ["number-format"], value := .required }] 1 fun o => do
  let wrong : List Bytes := o.given.filterMap fun (letter, value) =>
    let isStyle := value.head?.any "atnp".toList.contains
    if letter = 'f' && !isStyle then
      some ("invalid footer numbering style: " ++ Bytes.cited value)
    else if letter = 'h' && !isStyle then
      some ("invalid header numbering style: " ++ Bytes.cited value)
    else if letter = 'b' && !isStyle then
      some ("invalid body numbering style: " ++ Bytes.cited value)
    else if letter = 'n' && !(value = "ln" || value = "rn" || value = "rz") then
      some ("invalid line numbering format: " ++ Bytes.cited value)
    else none
  if !wrong.isEmpty then
    for message in wrong do u.complain message
    u.advise
    return 1
  let style := (o.value? 'b').getD "t"
  let width := ((o.value? 'w').bind Bytes.nat?).getD 6
  let separator := (o.value? 's').getD "\t"
  let step := ((o.value? 'i').bind Bytes.nat?).getD 1
  let format := (o.value? 'n').getD "rn"
  let start := ((o.value? 'v').bind Bytes.nat?).getD 1
  let operands := if o.operands.isEmpty then [['-']] else o.operands
  let (_, code) ← operands.foldlM (fun (number, code) path => do
    match ← Work.operand path with
    | .ok text =>
      let (number, shown) := (Bytes.lines text).foldl (fun ((number, shown) : Nat × Bytes) line =>
        if numbersLine style line.1 then
          let digits := Bytes.ofNat number
          let field : Bytes :=
            if format = "ln" then digits ++ List.replicate (width - digits.length) ' '
            else if format = "rz" then List.replicate (width - digits.length) '0' ++ digits
            else padLeft width digits
          (number + step, shown ++ field ++ separator ++ line.1 ++ "\n")
        else
          (number, shown ++ List.replicate (width + separator.length) ' ' ++ line.1 ++ "\n"))
        (number, [])
      Work.say shown
      pure (number, code)
    | .error e =>
      u.complainOf (Bytes.shown path) e
      pure (number, 1)) (start, 0)
  pure code

/-- Numbers from one to another, one on a line. -/
def numbersFrom (step last : Int) : Nat → Int → List Int
  | 0, _ => []
  | n + 1, first =>
    if (0 < step && last < first) || (step < 0 && first < last) then []
    else first :: numbersFrom step last n (first + step)

/-- Whether an argument is a negative number, which is no option. -/
def isNegative : Bytes → Bool
  | '-' :: c :: _ => c.isDigit || c == '.'
  | _ => false

/-- Write a row of numbers. -/
def seq (u : UtilityCall) : Work Nat := do
  let leading := u.args.takeWhile fun a => !isNegative a
  match Options.read
    [{ letter := 's', names := ["separator"], value := .required },
     { letter := 'w', names := ["equal-width"] },
     { letter := 'f', names := ["format"], value := .required }] leading false with
  | .error e => u.misused e.message 1
  | .ok o =>
    let args := o.operands ++ u.args.drop leading.length
    match args, args[3]? with
    | [], _ => u.misused "missing operand" 1
    | _, some extra => u.misused ("extra operand " ++ Bytes.cited extra) 1
    | _, none =>
      match args.find? fun a => (Bytes.int? a).isNone with
      | some a => u.misused ("invalid floating point argument: " ++ Bytes.cited a) 1
      | none =>
        match args.filterMap Bytes.int? with
        | [_, 0, _] =>
          u.misused ("invalid Zero increment value: " ++ Bytes.cited (args[1]?.getD [])) 1
        | numbers =>
          let row : List Int :=
            match numbers with
            | [first, step, last] =>
              numbersFrom step last ((last - first).natAbs / step.natAbs + 1) first
            | [first, last] => numbersFrom 1 last (last - first + 1).toNat first
            | _ => numbersFrom 1 (numbers.headD 0) (numbers.headD 0).toNat 1
          let texts := row.map Bytes.ofInt
          let width := (texts.map List.length).foldl max 0
          let shown := texts.map fun t =>
            if o.has 'w' then List.replicate (width - t.length) '0' ++ t else t
          let separator := (o.value? 's').getD "\n"
          Work.say (if shown.isEmpty then [] else Bytes.join separator shown ++ "\n")
          pure 0

end TemplateCoverage.Utility
