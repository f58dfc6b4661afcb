import TemplateCoverage.Log
import TemplateCoverage.Text.Blank
import TemplateCoverage.Text.WordChar

/-!
# Log filters

A filter is a list of directives with commas between them. Each sets a level for the records of some
parts of the program; a record is written if the most specific directive that is about it admits its
level.
-/

namespace TemplateCoverage

/-- A directive: a rank, and which records it is about. -/
structure LogDirective where
  /-- What the name of the source begins with. -/
  target : Option String := none
  /-- The name of a span that has to surround the record. No record of this program has one. -/
  span : Option String := none
  /-- Fields that the record has to have, each with the value that a span has to give it. -/
  fields : List (String × Option String) := []
  /-- The highest rank that is written, or zero if nothing is. -/
  rank : Nat
  deriving DecidableEq, Repr

namespace LogDirective

/-- The rank that a word stands for: the name of a level, or a number up to five. -/
def rank? (word : List Char) : Option Nat :=
  let digits := if word.head? = some '+' then word.drop 1 else word
  let name := String.ofList (word.map Char.toLower)
  match LogLevel.all.find? fun l => l.name = name with
  | some level => some level.rank
  | none =>
    if name = "off" then some 0
    else if digits.isEmpty || !digits.all Char.isDigit then none
    else
      let n := digits.foldl (fun n c => 10 * n + (c.toNat - '0'.toNat)) 0
      if n ≤ 5 then some n else none

/-- Whether a target may begin with a character. -/
def beginsTarget (c : Char) : Bool :=
  c == '-' || c == ':' || Text.isWordChar c

/-- The directive with the rank that a word stands for. No word stands for all levels. -/
def withRank? (d : LogDirective) (word : List Char) : Option LogDirective :=
  if word.isEmpty then some { d with rank := LogLevel.trace.rank }
  else (rank? word).map fun rank => { d with rank }

/-- Read what follows the closing bracket of a directive. -/
def ending? (d : LogDirective) (marks text : List Char) : Option LogDirective :=
  match marks with
  | [] => some d
  | '=' :: _ => d.withRank? (text.drop 1)
  | _ => none

/-- A field: a name, or a name and a value. -/
def field? (text : List Char) : Option (String × Option String) :=
  if text.isEmpty then none
  else
    match (String.ofList text).splitOn "=" with
    | name :: value :: _ => some (name, some value)
    | _ => some (String.ofList text, none)

/-- Read the field of a directive from behind its opening brace on. -/
def braces? (d : LogDirective) (marks text : List Char) : Option LogDirective :=
  let n := (marks.takeWhile (· ≠ '}')).length
  match field? (text.take n), marks.drop n with
  | some f, '}' :: ']' :: rest => { d with fields := [f] }.ending? rest (text.drop (n + 2))
  | _, _ => none

/-- Read a directive from behind its opening bracket on. -/
def brackets? (d : LogDirective) (marks text : List Char) : Option LogDirective :=
  let n := (marks.takeWhile fun c => c ≠ ']' ∧ c ≠ '{').length
  let name := String.ofList (text.take n)
  match marks.drop n with
  | ']' :: rest => { d with span := some name }.ending? rest (text.drop (n + 1))
  | '{' :: rest =>
    let span := if name.isEmpty then none else some name
    { d with span }.braces? rest (text.drop (n + 1))
  | _ => none

/-- Read a directive. Its parts end at marks, which are looked for in the text without the blanks
around it; the parts are cut at the same places out of the text with them, so that a blank in front
makes other words of them. -/
def parse? (directive : String) : Option LogDirective :=
  let text := directive.toList
  let all : LogDirective := { rank := LogLevel.trace.rank }
  match Text.trim text with
  | [] => none
  | '[' :: marks => all.brackets? marks (text.drop 1)
  | c :: more =>
    if !beginsTarget c then none
    else
      let n := ((c :: more).takeWhile fun c => c ≠ '=' ∧ c ≠ '[').length
      let aimed := { all with target := some (String.ofList (text.take n)) }
      match (c :: more).drop n with
      | '=' :: _ => aimed.withRank? (text.drop (n + 1))
      | '[' :: marks => aimed.brackets? marks (text.drop (n + 1))
      | _ =>
        match rank? text with
        | some rank => some { all with rank }
        | none => some { all with target := some directive }

/-- Whether records without a span can satisfy the directive. -/
def isStatic (d : LogDirective) : Bool :=
  d.span.isNone && d.fields.all (·.2.isNone)

/-- Whether the directive is about a record. -/
def concerns (d : LogDirective) (r : LogRecord) : Bool :=
  d.isStatic && (d.target.getD "").toList.isPrefixOf r.source.name.toList
    && d.fields.all fun f => r.fieldNames.contains f.1

/-- Whether a directive counts less than another one about the same record: the target counts by its
length, then the number of fields, then their names. -/
def isBelow (d e : LogDirective) : Bool :=
  let reach (d : LogDirective) : Nat := (d.target.map (·.length + 1)).getD 0
  let names (d : LogDirective) : List String := d.fields.map (·.1)
  decide (reach d < reach e) || (reach d == reach e
    && (decide (d.fields.length < e.fields.length) || (d.fields.length == e.fields.length
      && decide (names d < names e))))

end LogDirective

/-- Which records are written. -/
structure LogFilter where
  directives : List LogDirective
  deriving DecidableEq, Repr

namespace LogFilter

/-- The filter that writes a level and what is more important. -/
def atMost (level : LogLevel) : LogFilter :=
  ⟨[{ rank := level.rank }]⟩

/-- The directive that decides on a record: the one that counts most, and of equal ones the last. -/
def deciding? (f : LogFilter) (r : LogRecord) : Option LogDirective :=
  (f.directives.filter (·.concerns r)).foldl (fun best? d =>
    match best? with
    | some best => if d.isBelow best then some best else some d
    | none => some d) none

/-- Whether a record is written. -/
def admits (f : LogFilter) (r : LogRecord) : Bool :=
  match f.deciding? r with
  | some d => r.level.rank ≤ d.rank
  | none => false

/-- The filter of a list of directives. Without directives, errors are written. There is no filter
if a directive is malformed. -/
def parse? (text : String) : Option LogFilter :=
  match ((text.splitOn ",").filter (!·.isEmpty)).mapM LogDirective.parse? with
  | none => none
  | some [] => some (atMost .error)
  | some directives => some ⟨directives⟩

end LogFilter

end TemplateCoverage
