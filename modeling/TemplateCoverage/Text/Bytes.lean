import TemplateCoverage.Text.Utf8

/-!
# Strings of bytes

Programs that run on files work on bytes. A string of bytes is kept as the list of the characters
that have the numbers of the bytes as their codes, so that seven-bit text reads as itself. A text can stand where
bytes are expected.
-/

namespace TemplateCoverage

/-- A string of bytes, each as the character with its number. -/
abbrev Bytes := List Char

namespace Bytes

/-- The bytes of an array. -/
def ofArray (bytes : ByteArray) : Bytes :=
  bytes.toList.map fun b => Char.ofNat b.toNat

/-- The array of some bytes. -/
def toArray (bytes : Bytes) : ByteArray :=
  ByteArray.mk (bytes.map fun c => c.toNat.toUInt8).toArray

/-- The bytes of a text in UTF-8. -/
def ofText (text : String) : Bytes :=
  ofArray text.toUTF8

instance : Coe String Bytes := ⟨ofText⟩

/-- The text that bytes stand for in UTF-8. -/
def text (bytes : Bytes) : String :=
  Text.Utf8.decode (toArray bytes)

/-- The decimal digits of a number. -/
def ofNat (n : Nat) : Bytes :=
  Nat.toDigits 10 n

/-- The decimal digits of a number, with a minus sign in front of a negative one. -/
def ofInt (n : Int) : Bytes :=
  if n < 0 then '-' :: ofNat n.natAbs else ofNat n.natAbs

/-- The number that decimal digits stand for. -/
def nat? (bytes : Bytes) : Option Nat :=
  if bytes.isEmpty || !bytes.all Char.isDigit then none
  else some (bytes.foldl (fun n c => 10 * n + (c.toNat - '0'.toNat)) 0)

/-- The number of decimal digits behind a sign or without one. -/
def int? (bytes : Bytes) : Option Int :=
  match bytes with
  | '-' :: digits => (nat? digits).map fun n => -(n : Int)
  | '+' :: digits => (nat? digits).map fun n => (n : Int)
  | digits => (nat? digits).map fun n => (n : Int)

/-- The parts of a text between the separators. There is always one. -/
def split (separator : Char) : Bytes → List Bytes
  | [] => [[]]
  | c :: rest =>
    if c = separator then [] :: split separator rest
    else
      match split separator rest with
      | [] => [[c]]
      | first :: more => (c :: first) :: more

/-- Parts with a text between them. -/
def join (between : Bytes) (parts : List Bytes) : Bytes :=
  between.intercalate parts

/-- Lines of a text, each with whether a line end follows it. Only the last line can lack its end.
-/
def lines (text : Bytes) : List (Bytes × Bool) :=
  let parts := split '\n' text
  let ended := parts.dropLast.map fun l => (l, true)
  match parts.getLast? with
  | none | some [] => ended
  | some last => ended ++ [(last, false)]

/-- Whether a byte is a space, a tab or another blank of the seven-bit range. -/
def isBlank (c : Char) : Bool :=
  c == ' ' || ('\t' ≤ c && c ≤ '\r')

/-- The digits of a number in base eight, at most three of them, as a byte, and what follows. -/
def octal (digits : Bytes) : Char × Bytes :=
  let taken := (digits.take 3).takeWhile fun c => '0' ≤ c && c ≤ '7'
  let n := taken.foldl (fun n c => 8 * n + (c.toNat - '0'.toNat)) 0
  (Char.ofNat (n % 256), digits.drop taken.length)

end Bytes

end TemplateCoverage
