import TemplateCoverage.Utility.Name
import TemplateCoverage.Utility.Print
import TemplateCoverage.FileSystem.Walk
import TemplateCoverage.Wildcard

/-!
# Finding files

A search walks trees and puts an expression to all that it meets. An expression is made of tests and
actions; if it has no action, what passes is written.
-/

namespace TemplateCoverage.Utility

/-- How a utility calls a program. There is no exit code if there is no such program. -/
abbrev ProgramCaller := UtilityCall → Work (Option Nat)

/-- What is asked about a file, or done with it. -/
inductive FindExpression where
  | always
  | never
  | name (w : Wildcard) (ignoreCase : Bool)
  | path (w : Wildcard) (ignoreCase : Bool)
  | kind (letters : Bytes)
  | isEmpty
  | isExecutable
  | print (ending : Char)
  | printFormat (format : Bytes)
  | delete
  | prune
  | quit
  | call (words : List Bytes) (together : Bool)
  | negation (e : FindExpression)
  | both (e f : FindExpression)
  | either (e f : FindExpression)
  deriving DecidableEq, Repr

namespace FindExpression

/-- Whether an expression does something with a file. -/
def acts : FindExpression → Bool
  | .print _ | .printFormat _ | .delete | .quit | .call _ _ => true
  | .negation e => e.acts
  | .both e f | .either e f => e.acts || f.acts
  | _ => false

/-- Whether a directory is met after what it holds. -/
def comesLate : FindExpression → Bool
  | .delete => true
  | .negation e => e.comesLate
  | .both e f | .either e f => e.comesLate || f.comesLate
  | _ => false

/-- The words of a command up to its end, whether it is called once for all files, and what follows.
-/
def command? : List Bytes → Option (List Bytes × Bool × List Bytes)
  | [] => none
  | [';'] :: rest => some ([], false, rest)
  | ['{', '}'] :: ['+'] :: rest => some ([], true, rest)
  | word :: rest =>
    (command? rest).map fun (words, together, after) => (word :: words, together, after)

/-- The level of an expression by how tightly it binds. -/
inductive Level where
  | either
  | both
  | single
  deriving DecidableEq, Repr

/-- Read an expression of a level, for a number of steps at most. The result has the words that
follow it. -/
def read : Nat → Level → List Bytes → Except Bytes (FindExpression × List Bytes)
  | 0, _, words => .ok (.always, words)
  | n + 1, .either, words =>
    match read n .both words with
    | .error e => .error e
    | .ok (left, rest) =>
      match rest with
      | op :: more =>
        if op = "-o" || op = "-or" then
          (read n .either more).map fun (right, after) => (.either left right, after)
        else .ok (left, rest)
      | [] => .ok (left, rest)
  | n + 1, .both, words =>
    match read n .single words with
    | .error e => .error e
    | .ok (left, rest) =>
      match rest with
      | op :: more =>
        if op = "-o" || op = "-or" || op = ")" || op = "," then .ok (left, rest)
        else
          let next := if op = "-a" || op = "-and" then more else rest
          (read n .both next).map fun (right, after) => (.both left right, after)
      | [] => .ok (left, rest)
  | n + 1, .single, words =>
    match words with
    | [] => .ok (.always, [])
    | word :: rest =>
      let wildcard (make : Wildcard → FindExpression) :
          Except Bytes (FindExpression × List Bytes) :=
        match rest with
        | pattern :: after =>
          .ok (make (Wildcard.read (MarkedText.ofBytes false pattern)), after)
        | [] => .error ("missing argument to '" ++ word ++ "'")
      match String.ofList word with
      | "!" | "-not" =>
        (read n .single rest).map fun (e, after) => (.negation e, after)
      | "(" =>
        match read n .either rest with
        | .error e => .error e
        | .ok (e, [')'] :: after) => .ok (e, after)
        | .ok _ =>
          .error ("invalid expression; I was expecting to find a ')' somewhere but did not see " ++
            "one.")
      | "-name" => wildcard fun w => .name w false
      | "-iname" => wildcard fun w => .name w true
      | "-path" | "-wholename" => wildcard fun w => .path w false
      | "-ipath" => wildcard fun w => .path w true
      | "-type" =>
        match rest with
        | letters :: after => .ok (.kind (letters.filter (· ≠ ',')), after)
        | [] => .error ("missing argument to '" ++ word ++ "'")
      | "-maxdepth" | "-mindepth" => .ok (.always, rest.drop 1)
      | "-depth" | "-follow" | "-true" | "-xdev" | "-mount" => .ok (.always, rest)
      | "-false" => .ok (.never, rest)
      | "-empty" => .ok (.isEmpty, rest)
      | "-executable" => .ok (.isExecutable, rest)
      | "-print" => .ok (.print '\n', rest)
      | "-print0" => .ok (.print '\x00', rest)
      | "-printf" =>
        match rest with
        | format :: after => .ok (.printFormat format, after)
        | [] => .error ("missing argument to '" ++ word ++ "'")
      | "-delete" => .ok (.delete, rest)
      | "-prune" => .ok (.prune, rest)
      | "-quit" => .ok (.quit, rest)
      | "-exec" =>
        match command? rest with
        | some (command, together, after) => .ok (.call command together, after)
        | none => .error ("missing argument to '" ++ word ++ "'")
      | _ =>
        if word.head? = some '-' then .error ("unknown predicate \x60" ++ word ++ "'")
        else .error ("paths must precede expression: '" ++ word ++ "'")

end FindExpression

/-- A file that a search meets. -/
structure Found where
  path : Bytes
  /-- The path under which the search began. -/
  root : Bytes
  depth : Nat
  location : Location
  entry : Entry

namespace Found

/-- The letter for what stands at the place. -/
def kind (f : Found) : Char :=
  match f.entry with
  | .file _ _ => 'f'
  | .directory => 'd'
  | .link _ => 'l'

/-- A format with the properties of a file in it, for a number of bytes at most. -/
def formatted (f : Found) : Nat → Bytes → Bytes
  | 0, _ | _, [] => []
  | n + 1, '\\' :: rest =>
    let (b, after) := escape rest
    b :: f.formatted n after
  | n + 1, '%' :: c :: rest =>
    let shown : Bytes :=
      match c with
      | 'p' => f.path
      | 'f' => lastName f.path
      | 'P' => (f.path.drop f.root.length).dropWhile (· = '/')
      | 'h' => parentPath f.path
      | 'y' => [f.kind]
      | 'd' => Bytes.ofNat f.depth
      | 'H' => f.root
      | c => [c]
    shown ++ f.formatted n rest
  | n + 1, c :: rest => c :: f.formatted n rest

end Found

/-- What an answer of an expression is. -/
structure FindAnswer where
  passes : Bool := true
  prunes : Bool := false
  quits : Bool := false
  /-- The files that are kept for a command that is called once. -/
  kept : List Bytes := []
  code : Nat := 0

/-- Call a program for files. -/
def callFor (u : UtilityCall) (call : ProgramCaller) (words : List Bytes) : Work Nat := do
  match words with
  | [] => pure 0
  | name :: args =>
    match ← call { u with name, args } with
    | some code => pure code
    | none =>
      u.complain (Bytes.inApostrophes name ++ ": No such file or directory")
      pure 1

/-- A word with the path in the place of braces, for a number of bytes at most. -/
def withPath (path : Bytes) : Bytes → Bytes
  | '{' :: '}' :: rest => path ++ withPath path rest
  | c :: rest => c :: withPath path rest
  | [] => []

/-- Put an expression to a file. -/
def askAbout (u : UtilityCall) (call : ProgramCaller) (f : Found) :
    FindExpression → Work FindAnswer
  | .always => pure {}
  | .never => pure { passes := false }
  | .name w ignoreCase => pure { passes := w.fits ignoreCase (lastName f.path) }
  | .path w ignoreCase => pure { passes := w.fits ignoreCase f.path }
  | .kind letters => pure { passes := letters.contains f.kind }
  | .isEmpty => do
    match f.entry with
    | .file contents _ => pure { passes := contents.isEmpty }
    | .directory => pure { passes := ((← get).files.names f.location).isEmpty }
    | .link _ => pure { passes := false }
  | .isExecutable =>
    match f.entry with
    | .file _ executable => pure { passes := executable }
    | _ => pure {}
  | .print ending => do
    Work.say (f.path ++ [ending])
    pure {}
  | .printFormat format => do
    Work.say (f.formatted (format.length + 1) format)
    pure {}
  | .delete => do
    let w ← get
    if (w.files.names f.location).isEmpty then
      set { w with files := w.files.remove f.location }
      pure {}
    else
      u.complain ("cannot delete " ++ Bytes.inApostrophes f.path ++ ": Directory not empty")
      pure { passes := false, code := 1 }
  | .prune => pure { prunes := true }
  | .quit => pure { quits := true }
  | .call words false => do
    let code ← callFor u call (words.map (withPath f.path))
    pure { passes := code = 0 }
  | .call _ true => pure { kept := [f.path] }
  | .negation e => do
    let a ← askAbout u call f e
    pure { a with passes := !a.passes }
  | .both e g => do
    let a ← askAbout u call f e
    if a.passes && !a.quits then
      let b ← askAbout u call f g
      pure { b with prunes := a.prunes || b.prunes, kept := a.kept ++ b.kept
                    code := max a.code b.code }
    else pure a
  | .either e g => do
    let a ← askAbout u call f e
    if a.passes || a.quits then pure a
    else
      let b ← askAbout u call f g
      pure { b with prunes := a.prunes || b.prunes, kept := a.kept ++ b.kept
                    code := max a.code b.code }

/-- How a search is done. -/
structure FindPlan where
  expression : FindExpression
  least : Nat := 0
  most : Option Nat := none
  late : Bool := false
  follow : Bool := false

/-- Search a tree. The result has whether the search goes on, the files that were kept, and the exit
code. -/
def searchTree (u : UtilityCall) (call : ProgramCaller) (plan : FindPlan) :
    Nat → Found → Work FindAnswer
  | 0, _ => pure {}
  | n + 1, f => do
    let ask : Work FindAnswer :=
      if f.depth < plan.least then pure {} else askAbout u call f plan.expression
    let here ← if plan.late then pure {} else ask
    let enters := match f.entry with
      | .directory => !here.prunes && !here.quits && plan.most.all (f.depth < ·)
      | _ => false
    let files := (← get).files
    let names := if enters then files.names f.location else []
    let inner ← names.foldlM (fun (a : FindAnswer) name => do
      if a.quits then pure a
      else
        let location := f.location ++ [name]
        let target? : Option (Location × Entry) :=
          match files.entry? location with
          | some (.link target) =>
            if plan.follow then
              ((files.find .follow (FileSystem.pathOf location)).toOption).orElse fun _ =>
                some (location, .link target)
            else some (location, .link target)
          | some e => some (location, e)
          | none => none
        match target? with
        | none => pure a
        | some (location, entry) =>
          let b ← searchTree u call plan n
            { path := pathBelow f.path (Bytes.ofText name), root := f.root, depth := f.depth + 1
              location, entry }
          pure { a with quits := b.quits, kept := a.kept ++ b.kept, code := max a.code b.code })
      { here with passes := true }
    if plan.late && !inner.quits then
      let last ← ask
      pure { last with kept := inner.kept ++ last.kept, code := max inner.code last.code }
    else pure inner

/-- The value of an option among words. -/
def depthOption (name : String) : List Bytes → Option Nat
  | word :: value :: rest =>
    if word = name then Bytes.nat? value else depthOption name (value :: rest)
  | _ => none

/-- The words of commands that are called once for all files. -/
def FindExpression.commands : FindExpression → List (List Bytes)
  | .call words true => [words]
  | .negation e => e.commands
  | .both e f | .either e f => e.commands ++ f.commands
  | _ => []

/-- Search for files. -/
def find (call : ProgramCaller) (u : UtilityCall) : Work Nat := do
  let flags := u.args.takeWhile fun (a : Bytes) => a = "-L" || a = "-H" || a = "-P"
  let args := u.args.drop flags.length
  let begins (a : Bytes) : Bool :=
    (a.head? = some '-' && 1 < a.length) || a = "!" || a = "("
  let paths := args.takeWhile fun a => !begins a
  let words := args.drop paths.length
  match FindExpression.read (4 * words.length + 4) .either words with
  | .error message =>
    u.complain message
    pure 1
  | .ok (_, extra :: _) =>
    u.complain ("paths must precede expression: '" ++ extra ++ "'")
    pure 1
  | .ok (read, []) =>
    let expression := if read.acts then read else .both read (.print '\n')
    let plan : FindPlan :=
      { expression, least := (depthOption "-mindepth" words).getD 0
        most := depthOption "-maxdepth" words
        late := read.comesLate || words.any fun (w : Bytes) => w = "-depth"
        follow := flags.getLast? = some "-L" }
    let answer ← (if paths.isEmpty then [['.']] else paths).foldlM
      (fun (a : FindAnswer) (path : Bytes) => do
        if a.quits then pure a
        else
          let files := (← get).files
          let first : FileSystem.LastStep := if flags.isEmpty then .keep else .follow
          match files.find first (Bytes.text path) with
          | .error e =>
            u.complainOf (Bytes.inApostrophes path) e
            pure { a with code := 1 }
          | .ok (location, entry) =>
            let b ← searchTree u call plan (files.depthLimit + 1)
              { path, root := path, depth := 0, location, entry }
            pure { b with kept := a.kept ++ b.kept, code := max a.code b.code }) {}
    match expression.commands with
    | [] => pure answer.code
    | words :: _ =>
      if answer.kept.isEmpty then pure answer.code
      else
        let code ← callFor u call (words ++ answer.kept)
        pure (if code = 0 then answer.code else 1)

end TemplateCoverage.Utility
