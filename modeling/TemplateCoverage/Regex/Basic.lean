import TemplateCoverage.Text.Bytes

/-!
# Regular expressions

The expressions that select lines and their parts, with groups and references back to them. Of the
places where an expression matches, the leftmost counts, and there the longest match.
-/

namespace TemplateCoverage

/-- A set of characters, as ranges. -/
structure CharSet where
  negated : Bool := false
  ranges : List (Char × Char)
  deriving DecidableEq, Repr

namespace CharSet

/-- The set of one character. -/
def single (c : Char) : CharSet :=
  { ranges := [(c, c)] }

/-- The set of all characters. -/
def all : CharSet :=
  { negated := true, ranges := [] }

/-- The characters of words: letters, digits and the underscore. -/
def word : CharSet :=
  { ranges := [('a', 'z'), ('A', 'Z'), ('0', '9'), ('_', '_')] }

/-- The blanks. -/
def blank : CharSet :=
  { ranges := [(' ', ' '), ('\t', '\r')] }

/-- All characters outside a set. -/
def complement (s : CharSet) : CharSet :=
  { s with negated := !s.negated }

/-- The ranges of a class of characters with a name. -/
def class? (name : String) : Option (List (Char × Char)) :=
  match name with
  | "alpha" => some [('a', 'z'), ('A', 'Z')]
  | "digit" => some [('0', '9')]
  | "alnum" => some [('a', 'z'), ('A', 'Z'), ('0', '9')]
  | "upper" => some [('A', 'Z')]
  | "lower" => some [('a', 'z')]
  | "space" => some [(' ', ' '), ('\t', '\r')]
  | "blank" => some [(' ', ' '), ('\t', '\t')]
  | "punct" => some [('!', '/'), (':', '@'), ('[', '\x60'), ('{', '~')]
  | "print" => some [(' ', '~')]
  | "graph" => some [('!', '~')]
  | "cntrl" => some [('\x00', '\x1f'), ('\x7f', '\x7f')]
  | "xdigit" => some [('0', '9'), ('a', 'f'), ('A', 'F')]
  | _ => none

/-- Whether a character is in a set. -/
def contains (s : CharSet) (c : Char) : Bool :=
  s.negated != s.ranges.any fun r => r.1 ≤ c && c ≤ r.2

/-- Whether a character is in a set, perhaps in the other case. -/
def admits (s : CharSet) (ignoreCase : Bool) (c : Char) : Bool :=
  let inside (c : Char) : Bool := s.ranges.any fun r => r.1 ≤ c && c ≤ r.2
  s.negated != (inside c || (ignoreCase && (inside c.toLower || inside c.toUpper)))

end CharSet

/-- A place between two characters. -/
inductive Boundary where
  | lineStart
  | lineEnd
  | textStart
  | textEnd
  | wordStart
  | wordEnd
  | wordEdge
  | notWordEdge
  | noWordBefore
  | noWordAfter
  deriving DecidableEq, Repr

/-- A regular expression. -/
inductive Regex where
  | empty
  | one (set : CharSet)
  | boundary (b : Boundary)
  | append (first second : Regex)
  | either (first second : Regex)
  | repeated (body : Regex) (least : Nat) (most : Option Nat)
  | group (number : Nat) (body : Regex)
  /-- What the group with the number has matched. -/
  | again (number : Nat)
  deriving DecidableEq, Repr

namespace Regex

/-- How an expression is matched. -/
structure Mode where
  ignoreCase : Bool := false
  /-- Whether lines end inside of the text, too. -/
  multiline : Bool := false
  deriving DecidableEq, Repr

/-- How far a match has got, and what its groups have matched. -/
structure Reach where
  /-- The number of characters before this place. -/
  index : Nat := 0
  before : Option Char := none
  rest : Bytes
  groups : List (Nat × Bytes) := []
  deriving DecidableEq, Repr

namespace Reach

/-- Whether a boundary of the given kind is here. -/
def isAt (r : Reach) (mode : Mode) (b : Boundary) : Bool :=
  let inWord (c? : Option Char) : Bool := (c?.map CharSet.word.contains).getD false
  let left := inWord r.before
  let right := inWord r.rest.head?
  match b with
  | .lineStart => r.before.isNone || (mode.multiline && r.before == some '\n')
  | .lineEnd => r.rest.isEmpty || (mode.multiline && r.rest.head? == some '\n')
  | .textStart => r.before.isNone
  | .textEnd => r.rest.isEmpty
  | .wordStart => !left && right
  | .wordEnd => left && !right
  | .wordEdge => left != right
  | .notWordEdge => left == right
  | .noWordBefore => !left
  | .noWordAfter => !right

/-- The reach behind the next character. -/
def next? (r : Reach) : Option Reach :=
  match r.rest with
  | [] => none
  | c :: rest => some { r with index := r.index + 1, before := some c, rest }

/-- The reach behind a text, if the text comes next. -/
def after? (r : Reach) (ignoreCase : Bool) : Bytes → Option Reach
  | [] => some r
  | c :: text =>
    match r.rest with
    | d :: rest =>
      if (CharSet.single c).admits ignoreCase d then
        Reach.after? { r with index := r.index + 1, before := some d, rest } ignoreCase text
      else none
    | [] => none

/-- Reaches without those that occur before. -/
def distinct (reaches : List Reach) : List Reach :=
  reaches.foldl (fun found r =>
    if found.any fun f => f.index == r.index && f.groups == r.groups then found
    else found ++ [r]) []

end Reach

/-- The reaches after a number of steps between bounds, those with more steps first. A step that is
not asked for has to get on. -/
def steps (step : Reach → List Reach) (least : Nat) (most : Option Nat) :
    Nat → Nat → Reach → List Reach
  | 0, _, r => [r]
  | n + 1, count, r =>
    let further :=
      if (most.map (decide <| count < ·)).getD true then
        ((step r).filter fun s => count < least || r.index < s.index).flatMap
          (steps step least most n (count + 1))
      else []
    if count < least then further else further ++ [r]

/-- The reaches of an expression. Of alternatives, the longer ones come first. -/
def reaches (mode : Mode) : Regex → Reach → List Reach
  | .empty, r => [r]
  | .one set, r =>
    match r.rest with
    | c :: _ => if set.admits mode.ignoreCase c then r.next?.toList else []
    | [] => []
  | .boundary b, r => if r.isAt mode b then [r] else []
  | .append first second, r =>
    Reach.distinct ((Reach.distinct (reaches mode first r)).flatMap (reaches mode second))
  | .either first second, r =>
    (reaches mode first r ++ reaches mode second r).mergeSort fun a b => b.index ≤ a.index
  | .repeated body least most, r =>
    Reach.distinct (steps (reaches mode body) least most (r.rest.length + least + 1) 0 r)
  | .group number body, r =>
    (reaches mode body r).map fun s =>
      let text := r.rest.take (s.index - r.index)
      { s with groups := (number, text) :: s.groups.filter fun g => g.1 ≠ number }
  | .again number, r =>
    match r.groups.lookup number with
    | some text => (r.after? mode.ignoreCase text).toList
    | none => []

/-- A match in a text. -/
structure Occurrence where
  /-- What comes before it. -/
  front : Bytes
  text : Bytes
  /-- What comes after it. -/
  rest : Bytes
  groups : List (Nat × Bytes)
  deriving DecidableEq, Repr

/-- The farthest of some reaches, and of equal ones the first. -/
def farthest? (found : List Reach) : Option Reach :=
  found.foldl (fun best? r =>
    match best? with
    | some best => if best.index < r.index then some r else some best
    | none => some r) none

/-- The first match from a place on, where `skipped` lies between the place and its start, in
reverse. -/
def findFrom? (mode : Mode) (e : Regex) (skipped : Bytes) : Nat → Reach → Option Occurrence
  | 0, _ => none
  | n + 1, r =>
    match farthest? (reaches mode e r) with
    | some s =>
      some
        { front := skipped.reverse, text := r.rest.take (s.index - r.index), rest := s.rest
          groups := s.groups }
    | none =>
      match r.rest.head?, r.next? with
      | some c, some next => findFrom? mode e (c :: skipped) n next
      | _, _ => none

/-- The first match in a text that follows `before`. -/
def find? (e : Regex) (mode : Mode) (before : Option Char) (text : Bytes) : Option Occurrence :=
  findFrom? mode e [] (text.length + 1) { before, rest := text }

/-- Whether an expression matches in a text. -/
def occursIn (e : Regex) (mode : Mode) (text : Bytes) : Bool :=
  (e.find? mode none text).isSome

/-- The length of the longest match at the start of a text. -/
def longestAtStart? (e : Regex) (mode : Mode) (text : Bytes) : Option (Nat × List (Nat × Bytes)) :=
  (farthest? (reaches mode e { rest := text })).map fun r => (r.index, r.groups)

end Regex

end TemplateCoverage
