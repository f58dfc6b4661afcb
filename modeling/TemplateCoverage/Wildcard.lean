import TemplateCoverage.Regex.Basic

/-!
# Wildcards

Patterns of names, in which a star stands for any text, a question mark for any character and
brackets for one of the characters between them. A character that is quoted stands for itself.
-/

namespace TemplateCoverage

/-- The bytes of a word, each with whether it is quoted. -/
abbrev MarkedText := List (Char × Bool)

namespace MarkedText

/-- A text of which all is quoted or nothing is. -/
def ofBytes (quoted : Bool) (text : Bytes) : MarkedText :=
  text.map fun c => (c, quoted)

/-- The text without its marks. -/
def bytes (m : MarkedText) : Bytes :=
  m.map (·.1)

end MarkedText

/-- A part of a wildcard. -/
inductive WildcardPart where
  | one (set : CharSet)
  | anyText
  deriving DecidableEq, Repr

/-- A pattern of names. -/
abbrev Wildcard := List WildcardPart

namespace Wildcard

/-- The class of characters that is named behind an opening bracket, and what follows it. -/
def class? (rest : MarkedText) : Option (List (Char × Char) × MarkedText) :=
  match rest with
  | (':', false) :: body =>
    let name := body.takeWhile fun c => c.1.isAlpha
    match body.drop name.length with
    | (':', _) :: (']', _) :: after =>
      (CharSet.class? (String.ofList (MarkedText.bytes name))).map fun ranges => (ranges, after)
    | _ => none
  | _ => none

/-- A character in brackets, which a backslash may quote, and what follows. -/
def quotedIn : MarkedText → Option (Char × MarkedText)
  | ('\\', false) :: (c, _) :: rest => some (c, rest)
  | (c, _) :: rest => some (c, rest)
  | [] => none

/-- The ranges up to the closing bracket, for a number of characters at most, and what follows it.
The bracket does not close in front. -/
def ranges? : Nat → Bool → MarkedText → Option (List (Char × Char) × MarkedText)
  | 0, _, _ => none
  | _ + 1, false, (']', false) :: rest => some ([], rest)
  | n + 1, _, text =>
    match (if text.head? = some ('[', false) then class? (text.drop 1) else none) with
    | some (ranges, rest) =>
      (ranges? n false rest).map fun (more, after) => (ranges ++ more, after)
    | none =>
      match quotedIn text with
      | none => none
      | some (low, ('-', false) :: rest) =>
        if rest.head? = some (']', false) then
          (ranges? n false (('-', true) :: rest)).map fun (more, after) =>
            ((low, low) :: more, after)
        else
          match quotedIn rest with
          | none => none
          | some (high, after) =>
            (ranges? n false after).map fun (more, after) => ((low, high) :: more, after)
      | some (c, rest) =>
        (ranges? n false rest).map fun (more, after) => ((c, c) :: more, after)

/-- The set behind an opening bracket, and what follows its closing bracket. -/
def set? (text : MarkedText) : Option (CharSet × MarkedText) :=
  let (negated, body) :=
    match text with
    | ('!', false) :: rest | ('^', false) :: rest => (true, rest)
    | rest => (false, rest)
  (ranges? (body.length + 1) true body).map fun (ranges, after) => ({ negated, ranges }, after)

/-- Read a pattern of a number of characters at most. -/
def readFrom : Nat → MarkedText → Wildcard
  | 0, _ | _, [] => []
  | n + 1, (c, true) :: rest => .one (CharSet.single c) :: readFrom n rest
  | n + 1, ('\\', false) :: (c, _) :: rest => .one (CharSet.single c) :: readFrom n rest
  | n + 1, ('*', false) :: rest => .anyText :: readFrom n rest
  | n + 1, ('?', false) :: rest => .one CharSet.all :: readFrom n rest
  | n + 1, ('[', false) :: rest =>
    match set? rest with
    | some (set, after) => .one set :: readFrom n after
    | none => .one (CharSet.single '[') :: readFrom n rest
  | n + 1, (c, false) :: rest => .one (CharSet.single c) :: readFrom n rest

/-- Read a pattern. -/
def read (text : MarkedText) : Wildcard :=
  readFrom (text.length + 1) text

/-- Whether a text of a pattern has a part that stands for more than itself. -/
def isIn : Nat → MarkedText → Bool
  | 0, _ | _, [] => false
  | n + 1, (c, quoted) :: rest =>
    if quoted then isIn n rest
    else
      match c with
      | '*' | '?' => true
      | '\\' => isIn n (rest.drop 1)
      | '[' => (set? rest).isSome || isIn n rest
      | _ => isIn n rest

/-- Whether a text fits a pattern, perhaps with the letters in the other case. -/
def fits (ignoreCase : Bool) : Wildcard → Bytes → Bool
  | [], text => text.isEmpty
  | .one _ :: _, [] => false
  | .one set :: rest, c :: text => set.admits ignoreCase c && fits ignoreCase rest text
  | .anyText :: rest, [] => fits ignoreCase rest []
  | .anyText :: rest, c :: text =>
    fits ignoreCase rest (c :: text) || fits ignoreCase (.anyText :: rest) text
termination_by parts text => parts.length + text.length

/-- The lengths of the beginnings of a text that fit a pattern, the shortest first. -/
def beginnings (w : Wildcard) (text : Bytes) : List Nat :=
  (List.range (text.length + 1)).filter fun n => w.fits false (text.take n)

/-- The lengths of the ends of a text that fit a pattern, the shortest first. -/
def endings (w : Wildcard) (text : Bytes) : List Nat :=
  (List.range (text.length + 1)).filter fun n => w.fits false (text.drop (text.length - n))

end Wildcard

end TemplateCoverage
