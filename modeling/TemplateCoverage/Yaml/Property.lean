import TemplateCoverage.Text.Utf8
import TemplateCoverage.Yaml.Scalar
import TemplateCoverage.Yaml.Token

/-!
# Anchors, tags and directives

Each function reads from behind the indicator of its item on, and gives the item with what follows.
There is no result if the item is malformed.
-/

namespace TemplateCoverage.Yaml

/-- Read the name of an anchor or an alias. -/
def anchorName? (input : Input) : Option (String × Input) :=
  let name := textUntil (!isNameChar ·) input
  let rest := afterUntil (!isNameChar ·) input
  let next := peek rest 0
  if name.isEmpty then none
  else if endsWord next || "?:,]\x7d%@\x60".toList.contains next then
    some (String.ofList name, rest)
  else none

/-- The characters of a tag. One that is written out may hold a comma and brackets too. -/
def isTagChar (verbatim : Bool) (c : Char) : Bool :=
  isNameChar c || ";/?:@&=+$.!~*'()%".toList.contains c
    || (verbatim && ",[]".toList.contains c)

/-- The bytes of a text in which a percent sign stands before the two digits of a byte. -/
def percentBytes? : List Char → Option (List UInt8)
  | [] => some []
  | '%' :: a :: b :: rest =>
    match hexNumber? [a, b] with
    | none => none
    | some n => (percentBytes? rest).map (n.toUInt8 :: ·)
  | c :: rest =>
    if c = '%' then none
    else (percentBytes? rest).map ((String.singleton c).toUTF8.toList ++ ·)

/-- Read the text of a tag that goes on from `front`. It is not empty. -/
def tagText? (verbatim : Bool) (front : List Char) (input : Input) : Option (String × Input) :=
  let body := textUntil (!isTagChar verbatim ·) input
  let rest := afterUntil (!isTagChar verbatim ·) input
  if front.isEmpty && body.isEmpty then none
  else
    match percentBytes? body with
    | none => none
    | some bytes =>
      match Text.Utf8.decode? (ByteArray.mk bytes.toArray) with
      | none => none
      | some text => some (String.ofList (front.drop 1) ++ text, rest)

/-- Read a tag handle: an exclamation mark, a name, and another mark unless the name is that of a
tag without a handle. -/
def tagHandle? (input : Input) : Option (List Char × Input) :=
  if peek input 0 ≠ '!' then none
  else
    let name := textUntil (!isNameChar ·) (input.drop 1)
    let rest := afterUntil (!isNameChar ·) (input.drop 1)
    if peek rest 0 = '!' then some ('!' :: name ++ ['!'], rest.drop 1) else some ('!' :: name, rest)

/-- Whether a text is a handle that a suffix follows. -/
def closesHandle (handle : List Char) : Bool :=
  decide (1 < handle.length) && handle.getLast? == some '!'

/-- Read a tag from its exclamation mark on. -/
def tag? (flow : Bool) (input : Input) : Option (TagText × Input) :=
  let found : Option (TagText × Input) :=
    if peek input 1 = '<' then
      match tagText? true [] (input.drop 2) with
      | none => none
      | some (suffix, rest) => if peek rest 0 = '>' then some (⟨"", suffix⟩, rest.drop 1) else none
    else
      match tagHandle? input with
      | none => none
      | some (handle, rest) =>
        if closesHandle handle then
          (tagText? false [] rest).map fun (suffix, after) =>
            (⟨String.ofList handle, suffix⟩, after)
        else
          (tagText? false handle rest).map fun (suffix, after) =>
            if suffix.isEmpty then (⟨"", "!"⟩, after) else (⟨"!", suffix⟩, after)
  match found with
  | none => none
  | some (tag, rest) =>
    if endsWord (peek rest 0) || (flow && peek rest 0 == ',') then some (tag, rest) else none

/-- Read a number of one to nine digits. -/
def versionNumber? (input : Input) : Option (Nat × Input) :=
  let digits := textUntil (!Char.isDigit ·) input
  if digits.isEmpty || decide (9 < digits.length) then none
  else
    some (digits.foldl (fun n c => 10 * n + (c.toNat - '0'.toNat)) 0,
      afterUntil (!Char.isDigit ·) input)

/-- Read the version that a directive gives. -/
def versionDirective? (input : Input) : Option (Token × Input) :=
  match versionNumber? (afterSpaces input) with
  | none => none
  | some (major, rest) =>
    if peek rest 0 ≠ '.' then none
    else (versionNumber? (rest.drop 1)).map fun (minor, after) => (.version major minor, after)

/-- Read the handle and the text that a directive gives. -/
def tagDirective? (input : Input) : Option (Token × Input) :=
  match tagHandle? (afterSpaces input) with
  | none => none
  | some (handle, rest) =>
    if handle ≠ ['!'] ∧ !closesHandle handle ∨ !isSpace (peek rest 0) then none
    else
      match tagText? true [] (afterSpaces rest) with
      | none => none
      | some (lead, after) =>
        if endsWord (peek after 0) then some (.tagHandle (String.ofList handle) lead, after)
        else none

/-- Read a directive from behind its percent sign on, to the end of its line. -/
def directive? (input : Input) : Option (Token × Input) :=
  let name := String.ofList (textUntil (!isNameChar ·) input)
  let rest := afterUntil (!isNameChar ·) input
  let found :=
    if !endsWord (peek rest 0) then none
    else if name = "YAML" then versionDirective? rest
    else if name = "TAG" then tagDirective? rest
    else none
  match found with
  | none => none
  | some (token, after) => (afterLine? after).map fun next => (token, next)

end TemplateCoverage.Yaml
