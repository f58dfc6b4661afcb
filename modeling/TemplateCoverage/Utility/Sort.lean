import TemplateCoverage.Utility.Line

/-!
# Sorting lines

Lines are compared by keys, which are parts of them, and as a last resort byte by byte.
-/

namespace TemplateCoverage.Utility

/-- How texts are compared. -/
structure SortRule where
  numeric : Bool := false
  version : Bool := false
  reversed : Bool := false
  folded : Bool := false
  skipsBlanks : Bool := false
  dictionary : Bool := false
  visibleOnly : Bool := false
  deriving DecidableEq, Repr

/-- A part of a line: where it starts and where it ends, as numbers of fields and of characters in
them. -/
structure SortKey where
  startField : Nat := 1
  startChar : Nat := 1
  ending : Option (Nat × Nat) := none
  rule : SortRule := {}
  deriving DecidableEq, Repr

namespace SortRule

/-- The rule with what a letter asks for. -/
def withLetter? (r : SortRule) (c : Char) : Option SortRule :=
  match c with
  | 'n' | 'g' | 'h' => some { r with numeric := true }
  | 'V' => some { r with version := true }
  | 'r' => some { r with reversed := true }
  | 'f' => some { r with folded := true }
  | 'b' => some { r with skipsBlanks := true }
  | 'd' => some { r with dictionary := true }
  | 'i' => some { r with visibleOnly := true }
  | _ => none

/-- The number that a text begins with: its sign, the digits of its whole part and of its fraction.
-/
def number (text : Bytes) : Bool × Bytes × Bytes :=
  let body := text.dropWhile Bytes.isBlank
  let (negative, rest) := match body with
    | '-' :: rest => (true, rest)
    | rest => (false, rest)
  let whole := rest.takeWhile Char.isDigit
  let fraction := match rest.drop whole.length with
    | '.' :: more => more.takeWhile Char.isDigit
    | _ => []
  (negative, whole, fraction)

/-- The numbers that two texts begin with, with as many digits behind the point. -/
def compareNumbers (a b : Bytes) : Ordering :=
  let (aNegative, aWhole, aFraction) := number a
  let (bNegative, bWhole, bFraction) := number b
  let places := max aFraction.length bFraction.length
  let value (negative : Bool) (whole fraction : Bytes) : Int :=
    let digits := whole ++ fraction ++ List.replicate (places - fraction.length) '0'
    let n := (Bytes.nat? digits).getD 0
    if negative then -n else n
  compare (value aNegative aWhole aFraction) (value bNegative bWhole bFraction)

/-- Compare byte by byte. -/
def compareBytes : Bytes → Bytes → Ordering
  | [], [] => .eq
  | [], _ => .lt
  | _, [] => .gt
  | a :: as, b :: bs =>
    match compare a.toNat b.toNat with
    | .eq => compareBytes as bs
    | other => other

/-- Compare with runs of digits as numbers. -/
def compareVersions : Nat → Bytes → Bytes → Ordering
  | 0, _, _ => .eq
  | _ + 1, [], [] => .eq
  | _ + 1, [], _ => .lt
  | _ + 1, _, [] => .gt
  | n + 1, a :: as, b :: bs =>
    if a.isDigit && b.isDigit then
      let first := (a :: as).takeWhile Char.isDigit
      let second := (b :: bs).takeWhile Char.isDigit
      match compare ((Bytes.nat? first).getD 0) ((Bytes.nat? second).getD 0) with
      | .eq =>
        compareVersions n ((a :: as).drop first.length) ((b :: bs).drop second.length)
      | other => other
    else
      match compare a.toNat b.toNat with
      | .eq => compareVersions n as bs
      | other => other

/-- Compare two texts. -/
def order (r : SortRule) (a b : Bytes) : Ordering :=
  let kept (text : Bytes) : Bytes :=
    let text := if r.dictionary then text.filter fun c => c.isAlphanum || Bytes.isBlank c else text
    let text := if r.visibleOnly then text.filter fun c => ' ' ≤ c && c ≤ '~' else text
    if r.folded then text.map Char.toUpper else text
  let found :=
    if r.numeric then compareNumbers a b
    else if r.version then compareVersions (a.length + b.length + 1) a b
    else compareBytes (kept a) (kept b)
  if r.reversed then found.swap else found

end SortRule

namespace SortKey

/-- What follows a number of fields. Without a separator, fields begin with their blanks. -/
def afterFields (separator? : Option Char) : Nat → Bytes → Bytes
  | 0, text => text
  | n + 1, text =>
    match separator? with
    | some c =>
      match text.dropWhile (· ≠ c) with
      | [] => []
      | _ :: rest => afterFields separator? n rest
    | none =>
      afterFields separator? n ((text.dropWhile Bytes.isBlank).dropWhile fun c => !Bytes.isBlank c)

/-- What follows the last of a number of fields, its separator included. -/
def afterWhole (separator? : Option Char) (fields : Nat) (text : Bytes) : Bytes :=
  match separator? with
  | some c => (afterFields separator? (fields - 1) text).dropWhile (· ≠ c)
  | none => afterFields separator? fields text

/-- The part of a line that a key stands for. -/
def of (k : SortKey) (separator? : Option Char) (line : Bytes) : Bytes :=
  let skip (text : Bytes) : Bytes :=
    if k.rule.skipsBlanks then text.dropWhile Bytes.isBlank else text
  let start := (skip (afterFields separator? (k.startField - 1) line)).drop (k.startChar - 1)
  match k.ending with
  | none => start
  | some (field, 0) =>
    start.take (start.length - (afterWhole separator? field line).length)
  | some (field, char) =>
    let rest := (skip (afterFields separator? (field - 1) line)).drop char
    start.take (start.length - rest.length)

/-- Read one end of a key: the numbers of a field and a character, and letters. -/
def end? (text : Bytes) : Option (Nat × Option Nat × Bytes) :=
  let field := text.takeWhile Char.isDigit
  match Bytes.nat? field, text.drop field.length with
  | none, _ => none
  | some f, '.' :: rest =>
    let char := rest.takeWhile Char.isDigit
    (Bytes.nat? char).map fun c => (f, some c, rest.drop char.length)
  | some f, rest => some (f, none, rest)

/-- Read a key. One without letters takes the given rule. -/
def read? (standard : SortRule) (text : Bytes) : Option SortKey :=
  let letters (rule : SortRule) (cs : Bytes) : Option SortRule :=
    cs.foldlM SortRule.withLetter? rule
  match Bytes.split ',' text with
  | [first] => do
    let (startField, char, own) ← end? first
    let rule ← letters {} own
    let key : SortKey :=
      { startField, startChar := char.getD 1, rule := if own.isEmpty then standard else rule }
    if startField = 0 then none else some key
  | [first, second] => do
    let (startField, char, own) ← end? first
    let (endField, endChar, more) ← end? second
    let rule ← letters {} (own ++ more)
    let key : SortKey :=
      { startField, startChar := char.getD 1, ending := some (endField, endChar.getD 0)
        rule := if own.isEmpty && more.isEmpty then standard else rule }
    if startField = 0 || endField = 0 then none else some key
  | _ => none

end SortKey

/-- How lines are sorted. -/
structure SortPlan where
  keys : List SortKey
  separator? : Option Char
  reversed : Bool
  /-- Whether lines with equal keys stay in their order. -/
  stable : Bool
  unique : Bool

namespace SortPlan

/-- Compare two lines by their keys. -/
def orderByKeys (p : SortPlan) (a b : Bytes) : Ordering :=
  p.keys.foldl (fun found k =>
    found.then (k.rule.order (k.of p.separator? a) (k.of p.separator? b))) .eq

/-- Compare two lines. -/
def order (p : SortPlan) (a b : Bytes) : Ordering :=
  match p.orderByKeys a b with
  | .eq =>
    if p.stable || p.unique then .eq
    else if p.reversed then (SortRule.compareBytes a b).swap
    else SortRule.compareBytes a b
  | other => other

/-- Lines without those whose keys are equal to the keys of the line before. -/
def withoutRepeats (p : SortPlan) : List Bytes → List Bytes
  | a :: b :: rest =>
    if p.orderByKeys a b = .eq then withoutRepeats p (a :: rest)
    else a :: withoutRepeats p (b :: rest)
  | short => short
termination_by lines => lines.length

/-- The lines in order. -/
def sort (p : SortPlan) (lines : List Bytes) : List Bytes :=
  let sorted := lines.mergeSort fun a b => p.order a b != .gt
  if p.unique then p.withoutRepeats sorted else sorted

/-- The first line that stands before its place, with its number. -/
def disorder? (p : SortPlan) (number : Nat) : List Bytes → Option (Nat × Bytes)
  | a :: b :: rest =>
    let found := p.order a b
    if found = .gt || (p.unique && found = .eq) then some (number + 1, b)
    else disorder? p (number + 1) (b :: rest)
  | _ => none

end SortPlan

/-- The lines of all operands. The first one that cannot be read is complained about. -/
def sortInput (u : UtilityCall) : List Bytes → Work (Option (List Bytes))
  | [] => pure (some [])
  | path :: rest => do
    match ← Work.operand path with
    | .ok text =>
      match ← sortInput u rest with
      | some more => pure (some ((Bytes.lines text).map (·.1) ++ more))
      | none => pure none
    | .error .isADirectory =>
      u.complain ("read failed: " ++ Bytes.shown path ++ ": Is a directory")
      pure none
    | .error e =>
      u.complainOf ("cannot read: " ++ Bytes.shown path) e
      pure none

/-- Sort the lines of files. -/
def sort (u : UtilityCall) : Work Nat :=
  u.withOptions
    [{ letter := 'b', names := ["ignore-leading-blanks"] },
     { letter := 'd', names := ["dictionary-order"] }, { letter := 'f', names := ["ignore-case"] },
     { letter := 'g', names := ["general-numeric-sort"] },
     { letter := 'i', names := ["ignore-nonprinting"] },
     { letter := 'h', names := ["human-numeric-sort"] }, { letter := 'n', names := ["numeric-sort"] },
     { letter := 'r', names := ["reverse"] }, { letter := 'V', names := ["version-sort"] },
     { letter := 'c', names := ["check"], value := .optional },
     { letter := 'C' }, { letter := 's', names := ["stable"] },
     { letter := 'u', names := ["unique"] }, { letter := 'm', names := ["merge"] },
     { letter := 'k', names := ["key"], value := .required },
     { letter := 't', names := ["field-separator"], value := .required },
     { letter := 'o', names := ["output"], value := .required }] 2 fun o => do
  let standard : SortRule :=
    { numeric := o.has 'n' || o.has 'g' || o.has 'h', version := o.has 'V'
      reversed := o.has 'r', folded := o.has 'f', skipsBlanks := o.has 'b'
      dictionary := o.has 'd', visibleOnly := o.has 'i' }
  match (o.values 'k').find? fun k => (SortKey.read? standard k).isNone with
  | some k =>
    u.complain ("invalid number at field start: invalid count at start of " ++ Bytes.cited k)
    pure 2
  | none =>
    let keys := (o.values 'k').filterMap (SortKey.read? standard)
    let plan : SortPlan :=
      { keys := if keys.isEmpty then [{ rule := standard }] else keys
        separator? := (o.value? 't').bind fun t => if t = "\\0" then some '\x00' else t.head?
        reversed := standard.reversed, stable := o.has 's', unique := o.has 'u' }
    let operands := if o.operands.isEmpty then [['-']] else o.operands
    match ← sortInput u operands with
    | none => pure 2
    | some lines =>
      if o.has 'c' || o.has 'C' then
        match plan.disorder? 1 lines with
        | none => pure 0
        | some (number, line) =>
          if o.has 'c' then
            u.complain (Bytes.shown (operands.headD "-") ++ ":" ++ Bytes.ofNat number
              ++ ": disorder: " ++ line)
          pure 1
      else
        let sorted := unlines (plan.sort lines)
        match o.value? 'o' with
        | none =>
          Work.say sorted
          pure 0
        | some path =>
          match ← Work.putFile path sorted false with
          | .ok () => pure 0
          | .error e =>
            u.complainOf ("open failed: " ++ Bytes.shown path) e
            pure 2

/-- Runs of lines that are alike, each as its first line with the number of lines. -/
def runs (alike : Bytes → Bytes → Bool) : List Bytes → List (Bytes × Nat)
  | [] => []
  | line :: rest =>
    match runs alike rest with
    | (next, n) :: more =>
      if alike line next then (line, n + 1) :: more else (line, 1) :: (next, n) :: more
    | [] => [(line, 1)]

/-- Write one of each run of lines that are alike. -/
def uniq (u : UtilityCall) : Work Nat :=
  u.withOptions
    [{ letter := 'c', names := ["count"] }, { letter := 'd', names := ["repeated"] },
     { letter := 'u', names := ["unique"] }, { letter := 'i', names := ["ignore-case"] },
     { letter := 'f', names := ["skip-fields"], value := .required },
     { letter := 's', names := ["skip-chars"], value := .required },
     { letter := 'w', names := ["check-chars"], value := .required }] 1 fun o => do
  let number (letter : Char) : Option Nat := (o.value? letter).bind Bytes.nat?
  let wrong? := o.given.find? fun (letter, value) =>
    "fsw".toList.contains letter && (Bytes.nat? value).isNone
  match wrong?, o.operands[2]? with
  | some (letter, value), _ =>
    let what : Bytes :=
      if letter = 'f' then "fields to skip" else if letter = 's' then "bytes to skip"
      else "bytes to compare"
    u.complain (value ++ ": invalid number of " ++ what)
    return 1
  | none, some extra => return ← u.misused ("extra operand " ++ Bytes.cited extra) 1
  | none, none => pure ()
  let key (line : Bytes) : Bytes :=
    let rest := (SortKey.afterFields none ((number 'f').getD 0) line).drop ((number 's').getD 0)
    let part := (number 'w').elim rest rest.take
    if o.has 'i' then part.map Char.toLower else part
  match ← Work.operand (o.operands.headD "-") with
  | .error e =>
    u.complainOf (Bytes.shown (o.operands.headD "-")) e
    pure 1
  | .ok text =>
    let found := runs (fun a b => key a == key b) ((Bytes.lines text).map (·.1))
    let chosen := found.filter fun (_, n) =>
      (!o.has 'd' || decide (1 < n)) && (!o.has 'u' || n == 1)
    let shown := unlines (chosen.map fun (line, n) =>
      if o.has 'c' then padLeft 7 (Bytes.ofNat n) ++ " " ++ line else line)
    match o.operands[1]? with
    | none =>
      Work.say shown
      pure 0
    | some path =>
      match ← Work.putFile path shown false with
      | .ok () => pure 0
      | .error e =>
        u.complainOf (Bytes.shown path) e
        pure 1

end TemplateCoverage.Utility
