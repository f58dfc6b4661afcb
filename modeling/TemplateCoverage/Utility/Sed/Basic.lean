import TemplateCoverage.Regex.Basic

/-!
# Edit scripts

The commands by which a stream of lines is edited. Each applies to the lines that its addresses
select, and works on a pattern space, which holds the current line, and a hold space.
-/

namespace TemplateCoverage.Utility.Sed

/-- An expression with the way to match it. The last expression that was used is meant if none is
given. -/
structure LineTest where
  expression? : Option Regex
  mode : Regex.Mode := {}
  deriving DecidableEq, Repr

/-- What selects a line, or the first line of a range. -/
inductive Address where
  | line (n : Nat)
  | last
  | matching (t : LineTest)
  /-- Every line at a distance that is a multiple of `step` from the first one. -/
  | every (first step : Nat)
  deriving DecidableEq, Repr

/-- What ends a range. -/
inductive RangeEnd where
  | line (n : Nat)
  | last
  | matching (t : LineTest)
  | after (lines : Nat)
  | multipleOf (n : Nat)
  deriving DecidableEq, Repr

/-- How the letters of a replacement are changed. -/
inductive CaseChange where
  | upper
  | lower
  | upperNext
  | lowerNext
  | stop
  deriving DecidableEq, Repr

/-- A part of a replacement. -/
inductive Replacement where
  | text (t : Bytes)
  /-- What a group has matched, or all that has matched for the number zero. -/
  | group (n : Nat)
  | change (c : CaseChange)
  deriving DecidableEq, Repr

/-- What a substitution does. -/
structure Substitution where
  test : LineTest
  replacement : List Replacement
  /-- The first match that is replaced. -/
  first : Nat := 1
  /-- Whether those after it are replaced, too. -/
  all : Bool := false
  prints : Bool := false
  file? : Option Bytes := none
  deriving DecidableEq, Repr

/-- What a command does. -/
inductive Action where
  /-- The commands up to the matching end are skipped unless the line is selected. -/
  | opening
  | closing
  | substitute (s : Substitution)
  | translate (pairs : List (Char × Char))
  | delete
  | deleteFirst
  | print
  | printFirst
  | next
  | appendNext
  | hold
  | holdAppend
  | get
  | getAppend
  | exchange
  | clear
  | quit (prints : Bool) (code : Nat)
  | lineNumber
  | list
  | append (text : Bytes)
  | insert (text : Bytes)
  | change (text : Bytes)
  | label (name : Bytes)
  | jump (label : Bytes)
  | jumpIf (label : Bytes)
  | jumpUnless (label : Bytes)
  | readFile (path : Bytes)
  | writeFile (path : Bytes)
  deriving DecidableEq, Repr

/-- A command with the lines to which it applies. -/
structure Command where
  first? : Option Address := none
  /-- Whether the range may end on the first line. -/
  fromZero : Bool := false
  last? : Option RangeEnd := none
  negated : Bool := false
  action : Action
  deriving DecidableEq, Repr

/-- A script. -/
abbrev Script := Array Command

end TemplateCoverage.Utility.Sed
