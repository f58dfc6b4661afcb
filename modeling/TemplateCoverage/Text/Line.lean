/-!
# Lines and byte offsets

A text is a list of characters. Its lines end with a line feed, the last one perhaps without.
Positions inside a line are offsets into its UTF-8 form.

* `lines` cuts a text into lines with their terminators: `flatten_lines` gives the text back.
* `lineTexts` gives the lines without terminators, where a carriage return before the line feed
  belongs to the terminator.
* `splitAtByte?` cuts a line at a byte offset that is a character boundary.
-/

namespace TemplateCoverage.Text

/-- The lines of a text, each with its line feed. An empty text has no line. -/
def lines : List Char → List (List Char)
  | [] => []
  | c :: cs =>
    if c = '\n' then [c] :: lines cs
    else
      match lines cs with
      | [] => [[c]]
      | line :: rest => (c :: line) :: rest

/-- Cutting into lines loses nothing. -/
theorem flatten_lines (cs : List Char) : (lines cs).flatten = cs := by
  induction cs with
  | nil => rfl
  | cons c cs ih =>
    unfold lines
    split
    · simp [ih]
    · split
      · next h => simpa [h] using ih
      · next line rest h => simpa [h] using ih

/-- The lines of a text, each with its number, counted from one. -/
def numberedLines (cs : List Char) : List (List Char × Nat) :=
  (lines cs).zipIdx 1

/-- A line without its terminator: a line feed, or a carriage return and a line feed. -/
def dropTerminator : List Char → List Char
  | [] => []
  | ['\n'] => []
  | ['\r', '\n'] => []
  | c :: cs => c :: dropTerminator cs

/-- The lines of a text without their terminators. -/
def lineTexts (cs : List Char) : List (List Char) :=
  (lines cs).map dropTerminator

/-- The number of bytes of a text in UTF-8. -/
def byteLength : List Char → Nat
  | [] => 0
  | c :: cs => c.utf8Size + byteLength cs

@[simp] theorem byteLength_append (a b : List Char) :
    byteLength (a ++ b) = byteLength a + byteLength b := by
  induction a with
  | nil => simp [byteLength]
  | cons c a ih => simp [byteLength, ih, Nat.add_assoc]

/-- The characters that lie wholly within the first `n` bytes. -/
def takeBytes : Nat → List Char → List Char
  | _, [] => []
  | n, c :: cs => if c.utf8Size ≤ n then c :: takeBytes (n - c.utf8Size) cs else []

/-- The two parts of a text around the byte offset `n`, if `n` is a character boundary of it. -/
def splitAtByte? : Nat → List Char → Option (List Char × List Char)
  | 0, cs => some ([], cs)
  | _ + 1, [] => none
  | n + 1, c :: cs =>
    if c.utf8Size ≤ n + 1 then
      (splitAtByte? (n + 1 - c.utf8Size) cs).map fun (front, back) => (c :: front, back)
    else none

end TemplateCoverage.Text
