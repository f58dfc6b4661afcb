import TemplateCoverage.Shell.Arithmetic
import TemplateCoverage.Shell.PathPattern
import TemplateCoverage.Shell.State

/-!
# What words stand for

A word becomes a row of characters, of which each is quoted or not. The row is split into fields at
blanks that come from parameters and commands and are not quoted, and a field with a wildcard becomes
the paths that fit it.
-/

namespace TemplateCoverage.Shell

/-- A part of what a word stands for. -/
inductive Mark where
  /-- A character, and whether it comes from a parameter or a command. -/
  | char (c : Char) (quoted expanded : Bool)
  /-- There is a field here, even if it is empty. -/
  | kept
  /-- One argument ends here, and the next one begins. -/
  | cut
  deriving DecidableEq, Repr

/-- How a command in the place of a word is run, with what it has written as the result. -/
abbrev OutputOf := Command → Running Bytes

namespace Mark

/-- The characters of a text. A quoted text makes a field. -/
def ofText (t : Bytes) (quoted expanded : Bool) : List Mark :=
  let chars := t.map fun c => Mark.char c quoted expanded
  if quoted then .kept :: chars else chars

/-- Texts with cuts between them. -/
def ofTexts (texts : List Bytes) (quoted : Bool) : List Mark :=
  [Mark.cut].intercalate (texts.map fun t => ofText t quoted true)

/-- The characters with whether they are quoted. A cut becomes a blank. -/
def marked (marks : List Mark) : MarkedText :=
  marks.filterMap fun m => match m with
    | .char c quoted _ => some (c, quoted)
    | .kept => none
    | .cut => some (' ', true)

/-- The characters. -/
def bytes (marks : List Mark) : Bytes :=
  (marked marks).bytes

end Mark

/-! ### Fields -/

/-- Fields that are being put together. -/
structure Fields where
  done : List MarkedText := []
  current? : Option MarkedText := none
  /-- Whether the last field was ended by a blank. -/
  blankBefore : Bool := false

namespace Fields

/-- End the field that is being put together. -/
def close (f : Fields) : Fields :=
  match f.current? with
  | some m => { f with done := f.done ++ [m.reverse], current? := none }
  | none => f

/-- Go on with a mark, given the characters that separate fields. -/
def step (separators : Bytes) (f : Fields) : Mark → Fields
  | .kept => { f with current? := some (f.current?.getD []), blankBefore := false }
  | .cut => { f.close with blankBefore := false }
  | .char c quoted expanded =>
    if !quoted && expanded && separators.contains c then
      if c = ' ' ∨ c = '\t' ∨ c = '\n' then
        if f.current?.isSome then { f.close with blankBefore := true } else f
      else if f.current?.isSome then { f.close with blankBefore := false }
      else if f.blankBefore then { f with blankBefore := false }
      else { f with done := f.done ++ [[]] }
    else
      { f with current? := some ((c, quoted) :: f.current?.getD []), blankBefore := false }

end Fields

/-- The fields of a row of marks. -/
def fieldsOf (separators : Bytes) (marks : List Mark) : List MarkedText :=
  (marks.foldl (Fields.step separators) {}).close.done

namespace Running

/-- The characters that separate fields. -/
def separators : Running Bytes := do
  match ← binding? "IFS" with
  | some b => pure (b.value?.getD " \t\n")
  | none => pure " \t\n"

/-- The letters of the options that are set. -/
def optionLetters (o : ShellOptions) : Bytes :=
  let all : List (Bool × Char) :=
    [(o.needsValues, 'u'), (o.exportsAll, 'a'), (o.protectsFiles, 'C'), (o.showsInput, 'v'),
      (o.traces, 'x'), (o.onlyReads, 'n'), (o.keepsWildcards, 'f'), (o.stopsOnFailure, 'e')]
  all.filterMap fun (isSet, letter) => if isSet then some letter else none

/-- The number by which the script knows itself. -/
def ownNumber : Nat := 1000

/-- The value of a parameter. -/
def parameter? (name : Bytes) : Running (Option Bytes) := do
  let h ← here
  match name with
  | ['#'] => pure (some (Bytes.ofNat h.args.length))
  | ['?'] => pure (some (Bytes.ofNat h.code))
  | ['$'] => pure (some (Bytes.ofNat ownNumber))
  | ['!'] => pure (h.lastProcess.map Bytes.ofNat)
  | ['-'] => pure (some (optionLetters h.options))
  | ['@'] | ['*'] =>
    pure (if h.args.isEmpty then none else some (Bytes.join " " h.args))
  | _ =>
    match Bytes.nat? name with
    | some 0 => pure (some h.name)
    | some n => pure h.args[n - 1]?
    | none => value? name

/-- The marks of a parameter that has a value. -/
def parameterMarks (name : Bytes) (quoted : Bool) : Running (List Mark) := do
  let h ← here
  if name = ['@'] then pure (Mark.ofTexts h.args quoted)
  else if name = ['*'] then
    if quoted then
      let between : Bytes := ((← separators).take 1)
      pure (Mark.ofText (Bytes.join between h.args) true true)
    else pure (Mark.ofTexts h.args false)
  else pure (Mark.ofText ((← parameter? name).getD []) quoted true)

/-- Complain that a parameter has no value. -/
def failUnset {α : Type} (name : Bytes) (message? : Option Bytes) (ifEmpty : Bool) : Running α := do
  let message : Bytes := match message? with
    | some m => if m.isEmpty then
        if ifEmpty then "parameter not set or null" else "parameter not set"
      else m
    | none => "parameter not set"
  fail (name ++ ": " ++ message)

/-- The number that a variable stands for. -/
def numberOf (bindings : List (Bytes × Binding)) (name : Bytes) : Except SumFault Int :=
  match (bindings.lookup name).bind (·.value?) with
  | none => .ok 0
  | some text =>
    let (n, rest) := Utility.leadingInteger text
    if rest.all Bytes.isBlank then .ok (Sum.clamped n) else .error (.notANumber text)

/-- Compute the sum of a text, and give variables their new values. -/
def sum (text : Bytes) : Running Int := do
  match Sum.compute (numberOf (← here).bindings) text with
  | .error fault => fail (fault.message text)
  | .ok (n, assigned) =>
    for (name, v) in assigned do
      assign name (Bytes.ofInt v)
    pure n

/-- The marks of the pieces of a word, for a number of steps at most. Texts of a word that stands in
a parameter count as coming from it. -/
def marks (output : OutputOf) : Nat → Bool → Word → Running (List Mark)
  | 0, _, _ | _, _, [] => pure []
  | n + 1, expanded, p :: rest => do
    let front : List Mark ←
      match p with
      | .text t quoted => pure (Mark.ofText t quoted expanded)
      | .output c quoted => do
        let text ← output c
        pure (Mark.ofText text quoted true)
      | .sum w quoted => do
        let text := Mark.bytes (← marks output n false w)
        pure (Mark.ofText (Bytes.ofInt (← sum text)) quoted true)
      | .parameter name use w quoted => do
        let found? ← parameter? name
        let needs := (← here).options.needsValues && name ≠ ['@'] && name ≠ ['*']
        let isMissing (ifEmpty : Bool) : Bool :=
          found?.isNone || (ifEmpty && found? = some [])
        match use with
        | .malformed => fail "Bad substitution"
        | .value =>
          if found?.isNone && needs then failUnset name none false
          else parameterMarks name quoted
        | .length =>
          if found?.isNone && needs then failUnset name none false
          else
            pure (Mark.ofText (Bytes.ofNat (found?.getD []).length) quoted true)
        | .orWord ifEmpty =>
          if isMissing ifEmpty then marks output n true w else parameterMarks name quoted
        | .orAssign ifEmpty =>
          if isMissing ifEmpty then
            let text := Mark.bytes (← marks output n true w)
            if !isName name then fail (name ++ ": bad variable name")
            assign name text
            pure (Mark.ofText text quoted true)
          else parameterMarks name quoted
        | .orFail ifEmpty =>
          if isMissing ifEmpty then
            failUnset name (some (Mark.bytes (← marks output n true w))) ifEmpty
          else parameterMarks name quoted
        | .ifSet ifEmpty =>
          if isMissing ifEmpty then pure (if quoted then [.kept] else [])
          else marks output n true w
        | .withoutBeginning longest | .withoutEnding longest =>
          if found?.isNone && needs then failUnset name none false
          else
            let pattern := Wildcard.read (Mark.marked (← marks output n false w))
            let text := found?.getD []
            let fromStart := match use with
              | .withoutBeginning _ => true
              | _ => false
            let sizes := if fromStart then pattern.beginnings text else pattern.endings text
            let size := ((if longest then sizes.getLast? else sizes.head?)).getD 0
            let kept := if fromStart then text.drop size else text.take (text.length - size)
            pure (Mark.ofText kept quoted true)
    pure (front ++ (← marks output n expanded rest))

/-- The pieces of a word and of the words in it. -/
def depthLimit : Nat := 100000

/-! ### Tildes -/

/-- The directory that a tilde with a name behind it stands for. -/
def homeOf? (user : Bytes) : Running (Option Bytes) := do
  if user.isEmpty then value? "HOME"
  else pure (if user = "root" then some "/root" else none)

/-- A text with the directory in the place of a tilde in front. More pieces may follow the text. -/
def tildeText (t : Bytes) (isLast : Bool) : Running Word := do
  match t with
  | '~' :: rest =>
    let user := rest.takeWhile (· ≠ '/')
    if user.length = rest.length && !isLast then pure [.text t false]
    else
      match ← homeOf? user with
      | some home => pure [.text home true, .text (rest.drop user.length) false]
      | none => pure [.text t false]
  | t => pure [.text t false]

/-- A word with the directory in the place of a tilde in front. -/
def tildeWord (w : Word) : Running Word := do
  match w with
  | .text t false :: rest => pure ((← tildeText t rest.isEmpty) ++ rest)
  | w => pure w

/-- The value of an assignment with directories in the places of tildes in front and behind colons.
-/
def tildeValue (t : Bytes) (rest : Word) : Running Word := do
  let parts := Bytes.split ':' t
  let words ← (parts.zipIdx).mapM fun (part, i) =>
    tildeText part (i + 1 < parts.length || rest.isEmpty)
  pure ([Piece.text [':'] false].intercalate words ++ rest)

/-! ### Words -/

/-- The text that a word stands for, without splitting. -/
def oneText (output : OutputOf) (w : Word) : Running Bytes := do
  pure (Mark.bytes (← marks output depthLimit false (← tildeWord w)))

/-- The text of a document. -/
def documentText (output : OutputOf) (w : Word) : Running Bytes := do
  pure (Mark.bytes (← marks output depthLimit false w))

/-- The pattern that a word stands for. -/
def pattern (output : OutputOf) (w : Word) : Running MarkedText := do
  pure (Mark.marked (← marks output depthLimit false (← tildeWord w)))

/-- The texts that a word stands for. -/
def texts (output : OutputOf) (w : Word) : Running (List Bytes) := do
  let row ← marks output depthLimit false (← tildeWord w)
  let fields := fieldsOf (← separators) row
  let m ← get
  if m.here.options.keepsWildcards then pure (fields.map MarkedText.bytes)
  else pure (fields.flatMap (pathsFor m.world.files))

/-- The name and the value of an assignment. -/
def assignmentOf (output : OutputOf) (w : Word) : Running (Bytes × Bytes) := do
  match w with
  | .text t false :: rest =>
    match nameBefore? t with
    | some (name, start) =>
      let value ← tildeValue start rest
      pure (name, Mark.bytes (← marks output depthLimit false value))
    | none => pure ([], [])
  | _ => pure ([], [])

end Running

end TemplateCoverage.Shell
