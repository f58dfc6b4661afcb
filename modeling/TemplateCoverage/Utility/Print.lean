import TemplateCoverage.Decimal.Binary
import TemplateCoverage.Decimal.Reader
import TemplateCoverage.Utility.Basic

/-!
# Printing arguments

A format is written as often as there are arguments for its fields. Escapes in formats and arguments
stand for bytes, or for the end of all printing.
-/

namespace TemplateCoverage.Utility

/-! ### Escapes -/

/-- The byte of an escape of one letter. -/
def escapedByte? (c : Char) : Option Char :=
  match c with
  | '\\' => some '\\'
  | 'a' => some '\x07'
  | 'b' => some '\x08'
  | 'e' => some '\x1b'
  | 'f' => some '\x0c'
  | 'n' => some '\n'
  | 'r' => some '\r'
  | 't' => some '\t'
  | 'v' => some '\x0b'
  | _ => none

/-- The byte of an escape behind its backslash, and what follows. A backslash that begins no escape
stands for itself. -/
def escape : Bytes → Char × Bytes
  | [] => ('\\', [])
  | c :: rest =>
    if '0' ≤ c ∧ c ≤ '7' then Bytes.octal (c :: rest)
    else
      match escapedByte? c with
      | some b => (b, rest)
      | none => ('\\', c :: rest)

/-- A text with its escapes replaced, for a number of bytes at most, and whether one of them ended
it. -/
def unescapedFrom : Nat → Bytes → Bytes × Bool
  | 0, _ | _, [] => ([], false)
  | n + 1, c :: rest =>
    if c ≠ '\\' then
      let (text, ended) := unescapedFrom n rest
      (c :: text, ended)
    else
      match rest with
      | 'c' :: _ => ([], true)
      | _ =>
        let (b, after) :=
          match rest with
          | '0' :: digits => Bytes.octal digits
          | _ => escape rest
        let (text, ended) := unescapedFrom n after
        (b :: text, ended)

/-- A text with its escapes replaced, and whether one of them ended it. -/
def unescaped (text : Bytes) : Bytes × Bool :=
  unescapedFrom (text.length + 1) text

/-! ### Numbers in arguments -/

/-- The value of a digit, if it is one in some base. -/
def digitValue? (base : Nat) (c : Char) : Option Nat :=
  let value? :=
    if c.isDigit then some (c.toNat - '0'.toNat)
    else if c.isAlpha then some (c.toLower.toNat - 'a'.toNat + 10)
    else none
  value?.filter (· < base)

/-- The digits in front of a text as a number, and what follows. -/
def leadingDigits (base : Nat) (text : Bytes) : Nat × Bytes :=
  let digits := text.takeWhile fun c => (digitValue? base c).isSome
  (digits.foldl (fun n c => n * base + (digitValue? base c).getD 0) 0, text.drop digits.length)

/-- The number in front of a text, in one of three bases, and what follows. All of the text follows
if there is no number. -/
def leadingInteger (text : Bytes) : Int × Bytes :=
  let body := text.dropWhile Bytes.isBlank
  let (negative, body) :=
    match body with
    | '-' :: rest => (true, rest)
    | '+' :: rest => (false, rest)
    | rest => (false, rest)
  let found : Option (Nat × Bytes) :=
    match body with
    | '0' :: x :: d :: rest =>
      if (x = 'x' ∨ x = 'X') ∧ (digitValue? 16 d).isSome then some (leadingDigits 16 (d :: rest))
      else some (leadingDigits 8 body)
    | '0' :: _ => some (leadingDigits 8 body)
    | c :: _ => if c.isDigit then some (leadingDigits 10 body) else none
    | [] => none
  match found with
  | none => (0, text)
  | some (n, rest) => (if negative then -(n : Int) else n, rest)

/-- The decimal in front of a text, and what follows. -/
def leadingDecimal (text : Bytes) : Float × Bytes :=
  let body := text.dropWhile Bytes.isBlank
  let ends := (List.range (body.length + 1)).reverse
  let found := ends.findSome? fun n =>
    (Decimal.readFloat? (String.ofList (body.take n))).map fun x => (x, body.drop n)
  found.getD (0.0, text)

/-! ### Fields -/

/-- A field of a format. -/
structure PrintField where
  flags : List Char := []
  width : Nat := 0
  precision? : Option Nat := none
  conversion : Char := 's'
  deriving DecidableEq, Repr

namespace PrintField

/-- A text filled up with spaces. -/
def padded (f : PrintField) (text : Bytes) : Bytes :=
  let fill := List.replicate (f.width - text.length) ' '
  if f.flags.contains '-' then text ++ fill else fill ++ text

/-- Digits behind a sign or another mark, filled up with zeros or spaces. -/
def filled (f : PrintField) (front digits : Bytes) (zeros : Bool) : Bytes :=
  if zeros && f.flags.contains '0' && !f.flags.contains '-' then
    front ++ List.replicate (f.width - front.length - digits.length) '0' ++ digits
  else f.padded (front ++ digits)

/-- The sign in front of a number. -/
def sign (f : PrintField) (negative : Bool) : Bytes :=
  if negative then ['-'] else if f.flags.contains '+' then ['+']
  else if f.flags.contains ' ' then [' '] else []

/-- A text as it is printed. -/
def ofText (f : PrintField) (text : Bytes) : Bytes :=
  f.padded (f.precision?.elim text text.take)

/-- A whole number as it is printed. -/
def ofInteger (f : PrintField) (n : Int) : Bytes :=
  let c := f.conversion
  let isSigned := c = 'd' ∨ c = 'i'
  let magnitude := if isSigned then n.natAbs else (n % (Nat.pow 2 64 : Nat)).toNat
  let base := if c = 'o' then 8 else if c = 'x' ∨ c = 'X' then 16 else 10
  let digits := Nat.toDigits base magnitude
  let digits := if c = 'X' then digits.map Char.toUpper else digits
  let digits := if magnitude = 0 ∧ f.precision? = some 0 then [] else digits
  let digits := List.replicate (f.precision?.getD 1 - digits.length) '0' ++ digits
  let marked := f.flags.contains '#'
  let digits := if marked && c = 'o' && digits.head? ≠ some '0' then '0' :: digits else digits
  let front : Bytes :=
    if isSigned then f.sign (n < 0)
    else if marked && base = 16 && magnitude ≠ 0 then ['0', c] else []
  f.filled front digits f.precision?.isNone

/-- Digits with a point before the last ones. -/
def pointed (f : PrintField) (places : Nat) (digits : Bytes) : Bytes :=
  let digits := List.replicate (places + 1 - digits.length) '0' ++ digits
  let whole := digits.take (digits.length - places)
  if places = 0 then if f.flags.contains '#' then whole ++ "." else whole
  else whole ++ ['.'] ++ digits.drop (digits.length - places)

/-- The decimal exponent and the first digits of a fraction that is not zero. -/
def scientificDigits (num den places : Nat) : Int × Bytes :=
  let size (n : Nat) : Int := (Nat.toDigits 10 n).length
  let guess := size num - size den
  let least (e : Int) : Bool :=
    if 0 ≤ e then Nat.pow 10 e.toNat * den ≤ num else den ≤ num * Nat.pow 10 (-e).toNat
  let e := if least guess then guess else guess - 1
  let shift := (places : Int) - e
  let n :=
    if 0 ≤ shift then Decimal.roundedQuotient (num * Nat.pow 10 shift.toNat) den
    else Decimal.roundedQuotient num (den * Nat.pow 10 (-shift).toNat)
  let digits := Nat.toDigits 10 n
  if places + 1 < digits.length then (e + 1, digits.take (places + 1)) else (e, digits)

/-- A text without the zeros at its end behind a point. -/
def shortened (text : Bytes) : Bytes :=
  if text.contains '.' then
    let kept := (text.reverse.dropWhile (· = '0')).reverse
    if kept.getLast? = some '.' then kept.dropLast else kept
  else text

/-- An exponent as it is printed. -/
def exponentText (e : Int) : Bytes :=
  let digits := Nat.toDigits 10 e.natAbs
  ['e', if e < 0 then '-' else '+'] ++ List.replicate (2 - digits.length) '0' ++ digits

/-- A decimal as it is printed. -/
def ofDecimal (f : PrintField) (x : Float) : Bytes :=
  let front := f.sign (Decimal.isNegative x)
  let cased (text : Bytes) : Bytes := if f.conversion.isUpper then text.map Char.toUpper else text
  match Decimal.magnitude x with
  | .notANumber => cased (f.filled front "nan" false)
  | .infinite => cased (f.filled front "inf" false)
  | .finite mantissa exponent =>
    let (num, den) := Decimal.scaledByTwo mantissa exponent
    let places := f.precision?.getD 6
    let fixed (places : Nat) : Bytes :=
      f.pointed places (Nat.toDigits 10 (Decimal.roundedQuotient (num * Nat.pow 10 places) den))
    let scientific (places : Nat) : Int × Bytes :=
      if num = 0 then (0, List.replicate (places + 1) '0') else scientificDigits num den places
    let text :=
      match f.conversion.toLower with
      | 'f' => fixed places
      | 'e' =>
        let (e, digits) := scientific places
        f.pointed places digits ++ exponentText e
      | _ =>
        let figures := max places 1
        let (e, digits) := scientific (figures - 1)
        let kept (text : Bytes) : Bytes := if f.flags.contains '#' then text else shortened text
        if e < -4 ∨ (figures : Int) ≤ e then
          kept (f.pointed (figures - 1) digits) ++ exponentText e
        else kept (fixed ((figures : Int) - 1 - e).toNat)
    f.filled front (cased text) true

end PrintField

/-! ### Formats -/

/-- Something wrong with an argument. -/
inductive PrintNote where
  | notNumeric (arg : Bytes)
  | notConverted (arg : Bytes)
  | outOfRange (arg : Bytes)
  deriving DecidableEq, Repr

/-- Why printing ends early. -/
inductive PrintEnd where
  /-- An escape ended it. -/
  | asked
  | conversionMissing (field : Bytes)
  | unknownConversion (field : Bytes)
  deriving DecidableEq, Repr

/-- What has been printed, and the arguments that are left. -/
structure Printing where
  args : List Bytes
  output : Bytes := []
  notes : List PrintNote := []
  stopped? : Option PrintEnd := none

namespace Printing

/-- Print a text. -/
def put (p : Printing) (text : Bytes) : Printing :=
  { p with output := p.output ++ text }

/-- Take the next argument. -/
def next? (p : Printing) : Option Bytes × Printing :=
  match p.args with
  | [] => (none, p)
  | a :: rest => (some a, { p with args := rest })

/-- Note something. -/
def note (p : Printing) (n : PrintNote) : Printing :=
  { p with notes := p.notes ++ [n] }

/-- Note that an argument is not a number as a whole. -/
def noteRest (p : Printing) (arg rest : Bytes) : Printing :=
  if rest.isEmpty then p else p.note (if rest = arg then .notNumeric arg else .notConverted arg)

/-- Take the next argument as a whole number. A quote stands before a byte whose number is meant. -/
def nextInteger (p : Printing) (signed : Bool) : Int × Printing :=
  match p.next? with
  | (none, p) => (0, p)
  | (some (quote :: rest), p) =>
    let arg := quote :: rest
    if quote = '"' ∨ quote = '\'' then ((rest.head?.map Char.toNat).getD 0, p)
    else
      let (n, after) := leadingInteger arg
      let (low, high) : Int × Int :=
        if signed then (-(Nat.pow 2 63 : Nat), (Nat.pow 2 63 : Nat) - 1)
        else (-((Nat.pow 2 64 : Nat) - 1), (Nat.pow 2 64 : Nat) - 1)
      let p := p.noteRest arg after
      if n < low then (if signed then low else high, p.note (.outOfRange arg))
      else if high < n then (high, p.note (.outOfRange arg))
      else (n, p)
  | (some [], p) => (0, p)

/-- Take the next argument as a decimal. -/
def nextDecimal (p : Printing) : Float × Printing :=
  match p.next? with
  | (none, p) | (some [], p) => (0.0, p)
  | (some (quote :: rest), p) =>
    let arg := quote :: rest
    if quote = '"' ∨ quote = '\'' then (Float.ofNat ((rest.head?.map Char.toNat).getD 0), p)
    else
      let (x, after) := leadingDecimal arg
      (x, p.noteRest arg after)

/-- Print a field. The text is the field as it stands in the format. -/
def field (p : Printing) (f : PrintField) (text : Bytes) : Printing :=
  let c := f.conversion
  if c = 's' then
    let (arg, p) := p.next?
    p.put (f.ofText (arg.getD []))
  else if c = 'b' then
    let (arg, p) := p.next?
    let (shown, ended) := unescaped (arg.getD [])
    let p := p.put (f.ofText shown)
    if ended then { p with stopped? := some .asked } else p
  else if c = 'c' then
    let (arg, p) := p.next?
    p.put (f.padded [(arg.bind List.head?).getD '\x00'])
  else if "diouxX".toList.contains c then
    let (n, p) := p.nextInteger (c = 'd' ∨ c = 'i')
    p.put (f.ofInteger n)
  else if "eEfFgG".toList.contains c then
    let (x, p) := p.nextDecimal
    p.put (f.ofDecimal x)
  else { p with stopped? := some (.unknownConversion text) }

/-- A number in a field, or the next argument in its place, and what follows. -/
def size (p : Printing) (text : Bytes) : Int × Printing × Bytes :=
  match text with
  | '*' :: rest =>
    let (n, p) := p.nextInteger true
    (n, p, rest)
  | _ =>
    let (n, rest) := leadingDigits 10 text
    (n, p, rest)

/-- Print the field behind a percent sign. The result has what follows the field. -/
def readField (p : Printing) (text : Bytes) : Printing × Bytes :=
  let flags := text.takeWhile fun c => "#-+ 0".toList.contains c
  let (width, p, rest) := p.size (text.drop flags.length)
  let flags := if width < 0 then '-' :: flags else flags
  let (precision?, p, rest) : Option Nat × Printing × Bytes :=
    match rest with
    | '.' :: digits =>
      let (n, p, rest) := p.size digits
      (if n < 0 then none else some n.toNat, p, rest)
    | _ => (none, p, rest)
  match rest with
  | [] => ({ p with stopped? := some (.conversionMissing ('%' :: text)) }, [])
  | c :: after =>
    let shown := '%' :: text.take (text.length - after.length)
    (p.field { flags, width := width.natAbs, precision?, conversion := c } shown, after)

/-- Print a format once, for a number of steps at most. -/
def once (p : Printing) : Nat → Bytes → Printing
  | 0, _ | _, [] => p
  | n + 1, c :: rest =>
    if p.stopped?.isSome then p
    else
      match c, rest with
      | '\\', '"' :: after => (p.put ['"']).once n after
      | '\\', _ =>
        let (b, after) := escape rest
        (p.put [b]).once n after
      | '%', '%' :: after => (p.put ['%']).once n after
      | '%', _ =>
        let (p, after) := p.readField rest
        p.once n after
      | c, _ => (p.put [c]).once n rest

/-- Print a format until all arguments are used. A format that uses none is printed once. -/
def again (format : Bytes) : Nat → Printing → Printing
  | 0, p => p
  | n + 1, p =>
    let after := p.once (format.length + 1) format
    if after.stopped?.isSome || after.args.isEmpty || after.args.length = p.args.length then after
    else again format n after

/-- Print a format with arguments. -/
def print (format : Bytes) (args : List Bytes) : Printing :=
  again format (args.length + 1) { args }

end Printing

/-! ### The utilities -/

/-- The letters in front that are options, and the other arguments. -/
def echoOptions : List Bytes → Bytes × List Bytes
  | [] => ([], [])
  | arg :: rest =>
    match arg with
    | '-' :: c :: more =>
      if (c :: more).all fun d => d = 'n' ∨ d = 'e' ∨ d = 'E' then
        let (letters, others) := echoOptions rest
        (c :: more ++ letters, others)
      else ([], arg :: rest)
    | _ => ([], arg :: rest)

/-- Write arguments with spaces between them. -/
def echo (u : UtilityCall) : Work Nat := do
  let (letters, args) := echoOptions u.args
  let text := Bytes.join " " args
  let reads := (letters.filter (· ≠ 'n')).getLast? = some 'e'
  let (text, ended) := if reads then unescaped text else (text, false)
  Work.say (if ended || letters.contains 'n' then text else text ++ "\n")
  pure 0

/-- The wording of a note. -/
def printNote : PrintNote → Bytes
  | .notNumeric arg => Bytes.cited arg ++ ": expected a numeric value"
  | .notConverted arg => Bytes.cited arg ++ ": value not completely converted"
  | .outOfRange arg => Bytes.cited arg ++ ": Numerical result out of range"

/-- Write a format with arguments. -/
def printf (u : UtilityCall) : Work Nat := do
  match if u.args.head? = some "--" then u.args.drop 1 else u.args with
  | [] => u.misused "missing operand" 1
  | format :: args =>
    let p := Printing.print format args
    Work.say p.output
    for n in p.notes do
      u.complain (printNote n)
    match p.stopped?, p.args with
    | some (.conversionMissing field), _ | some (.unknownConversion field), _ =>
      u.complain (field ++ ": invalid conversion specification")
      pure 1
    | some .asked, _ => pure 0
    | none, first :: _ =>
      u.complain ("warning: ignoring excess arguments, starting with " ++ Bytes.cited first)
      pure (if p.notes.isEmpty then 0 else 1)
    | none, [] => pure (if p.notes.isEmpty then 0 else 1)

end TemplateCoverage.Utility
