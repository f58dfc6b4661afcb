import TemplateCoverage.Json.Basic

/-!
# The tokens of a JSON text

The text is read character by character by a machine whose state says what is being read: nothing, a
word or number, or a string. Strings must not hold raw control characters, and escaped surrogates
must come in pairs.
-/

namespace TemplateCoverage.Json

/-- The punctuation marks and the values that are not containers. -/
inductive Token where
  | openArray
  | closeArray
  | openObject
  | closeObject
  | comma
  | colon
  | scalar (j : Json)

/-- What the machine is reading. What has been read of it is kept in reverse. -/
inductive Reading where
  /-- Nothing: white space or the start of a token comes next. -/
  | between
  /-- A number, or one of the three words. -/
  | word (done : List Char)
  /-- A string. -/
  | text (done : List Char)
  /-- A string after a backslash. -/
  | escape (done : List Char)
  /-- A string within an escaped code unit, of which `digits` digits make up `value`. A high
  surrogate may have come before. -/
  | unit (done : List Char) (high : Option Nat) (digits value : Nat)
  /-- A string after a high surrogate, where a backslash must follow. -/
  | lowEscape (done : List Char) (high : Nat)
  /-- A string after a high surrogate and a backslash, where a `u` must follow. -/
  | lowMark (done : List Char) (high : Nat)

/-- The characters that separate tokens. -/
def isSpace (c : Char) : Bool :=
  c == ' ' || c == '\t' || c == '\n' || c == '\r'

/-- The token of a punctuation mark. -/
def punctuation? (c : Char) : Option Token :=
  if c = '[' then some .openArray
  else if c = ']' then some .closeArray
  else if c = '{' then some .openObject
  else if c = '}' then some .closeObject
  else if c = ',' then some .comma
  else if c = ':' then some .colon
  else none

/-- Whether a character may be part of a word or number. -/
def isWordPart (c : Char) : Bool :=
  c.isAlphanum || c == '-' || c == '+' || c == '.'

/-- Digits with an optional exponent after them. -/
def isExponentTail : List Char → Bool
  | [] => true
  | c :: r =>
    let digits := match r with
      | '+' :: d => d
      | '-' :: d => d
      | d => d
    (c == 'e' || c == 'E') && !digits.isEmpty && digits.all Char.isDigit

/-- What may follow the whole part of a number: a point with digits, and an exponent. -/
def isFractionTail (cs : List Char) : Bool :=
  match cs with
  | '.' :: r => !(r.takeWhile Char.isDigit).isEmpty && isExponentTail (r.dropWhile Char.isDigit)
  | r => isExponentTail r

/-- Whether a word is a number: no plus sign in front, and no zero before other digits. -/
def isNumber (cs : List Char) : Bool :=
  let body := match cs with
    | '-' :: r => r
    | r => r
  match body with
  | '0' :: r => isFractionTail r
  | c :: r => c.isDigit && isFractionTail (r.dropWhile Char.isDigit)
  | [] => false

/-- The value of a word. -/
def wordValue? (word : List Char) : Option Json :=
  if word = "null".toList then some .null
  else if word = "true".toList then some (.bool true)
  else if word = "false".toList then some (.bool false)
  else if isNumber word then some (.number (String.ofList word))
  else none

/-- The value of a hexadecimal digit. -/
def hexValue? (c : Char) : Option Nat :=
  if c.isDigit then some (c.toNat - '0'.toNat)
  else if 'a' ≤ c ∧ c ≤ 'f' then some (c.toNat - 'a'.toNat + 10)
  else if 'A' ≤ c ∧ c ≤ 'F' then some (c.toNat - 'A'.toNat + 10)
  else none

/-- The character of an escape with one letter. -/
def simpleEscape? (c : Char) : Option Char :=
  if c = '"' then some '"'
  else if c = '\\' then some '\\'
  else if c = '/' then some '/'
  else if c = 'b' then some (Char.ofNat 0x08)
  else if c = 'f' then some (Char.ofNat 0x0C)
  else if c = 'n' then some '\n'
  else if c = 'r' then some '\r'
  else if c = 't' then some '\t'
  else none

/-- The state after a complete code unit: a character of its own, or one half of a surrogate pair.
-/
def closeUnit? (done : List Char) (high : Option Nat) (value : Nat) : Option Reading :=
  let isHigh := 0xD800 ≤ value ∧ value < 0xDC00
  let isLow := 0xDC00 ≤ value ∧ value < 0xE000
  match high with
  | some h =>
    if isLow then
      some (.text (Char.ofNat (0x10000 + (h - 0xD800) * 0x400 + (value - 0xDC00)) :: done))
    else none
  | none =>
    if isHigh then some (.lowEscape done value)
    else if isLow then none
    else some (.text (Char.ofNat value :: done))

/-- Read a character between two tokens. -/
def startToken? (c : Char) : Option (Reading × List Token) :=
  if isSpace c then some (.between, [])
  else if c = '"' then some (.text [], [])
  else
    match punctuation? c with
    | some t => some (.between, [t])
    | none => if isWordPart c then some (.word [c], []) else none

/-- Read one character: the state after it and the tokens that it completes. -/
def readChar? (state : Reading) (c : Char) : Option (Reading × List Token) :=
  match state with
  | .between => startToken? c
  | .word done =>
    if isWordPart c then some (.word (c :: done), [])
    else
      match wordValue? done.reverse, startToken? c with
      | some j, some (next, tokens) => some (next, .scalar j :: tokens)
      | _, _ => none
  | .text done =>
    if c = '"' then some (.between, [.scalar (.string (String.ofList done.reverse))])
    else if c = '\\' then some (.escape done, [])
    else if c.toNat < 0x20 then none
    else some (.text (c :: done), [])
  | .escape done =>
    if c = 'u' then some (.unit done none 0 0, [])
    else (simpleEscape? c).map fun e => (.text (e :: done), [])
  | .unit done high digits value =>
    match hexValue? c with
    | none => none
    | some d =>
      let value := 16 * value + d
      if digits < 3 then some (.unit done high (digits + 1) value, [])
      else (closeUnit? done high value).map fun next => (next, [])
  | .lowEscape done high => if c = '\\' then some (.lowMark done high, []) else none
  | .lowMark done high => if c = 'u' then some (.unit done (some high) 0 0, []) else none

/-- The tokens of a text, read from the given state. -/
def tokensFrom? (state : Reading) : List Char → Option (List Token)
  | [] =>
    match state with
    | .between => some []
    | .word done => (wordValue? done.reverse).map fun j => [.scalar j]
    | _ => none
  | c :: cs =>
    match readChar? state c with
    | none => none
    | some (next, tokens) => (tokensFrom? next cs).map (tokens ++ ·)

end TemplateCoverage.Json
