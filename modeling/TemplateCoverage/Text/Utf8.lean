/-!
# Reading bytes as text

`decode` reads bytes as UTF-8 and always gives a text: each longest run of bytes that begins a
character without completing it, and each byte that cannot begin one, is shown as the replacement
character. `decode?` gives a text only for bytes that are well formed.
-/

namespace TemplateCoverage.Text.Utf8

/-- What stands for bytes that are not a character. -/
def replacement : Char := '\ufffd'

/-- A character of which some bytes have been read: the bits so far, how many bytes are missing, and
the range in which the next one must lie. -/
structure Partial where
  bits : Nat
  missing : Nat
  low : Nat := 0x80
  high : Nat := 0xBF

/-- What a byte at the start of a character means. -/
inductive Lead where
  | whole (c : Char)
  | opening (p : Partial)
  | invalid

/-- Classify the first byte of a character. The ranges of the second byte leave out overlong forms,
surrogates and values beyond the last code point. -/
def lead (b : UInt8) : Lead :=
  let n := b.toNat
  if n < 0x80 then .whole (Char.ofNat n)
  else if n < 0xC2 then .invalid
  else if n < 0xE0 then .opening { bits := n - 0xC0, missing := 1 }
  else if n = 0xE0 then .opening { bits := 0, missing := 2, low := 0xA0 }
  else if n = 0xED then .opening { bits := 0xD, missing := 2, high := 0x9F }
  else if n < 0xF0 then .opening { bits := n - 0xE0, missing := 2 }
  else if n = 0xF0 then .opening { bits := 0, missing := 3, low := 0x90 }
  else if n < 0xF4 then .opening { bits := n - 0xF0, missing := 3 }
  else if n = 0xF4 then .opening { bits := 4, missing := 3, high := 0x8F }
  else .invalid

/-- The state after the byte `b` at the start of a character, and the characters it completes. -/
def begin (b : UInt8) : List Char × Option Partial :=
  match lead b with
  | .whole c => ([c], none)
  | .opening p => ([], some p)
  | .invalid => ([replacement], none)

/-- The state after the byte `b`, and the characters that become known by it. -/
def advance (state : Option Partial) (b : UInt8) : List Char × Option Partial :=
  match state with
  | none => begin b
  | some p =>
    if p.low ≤ b.toNat ∧ b.toNat ≤ p.high then
      let bits := p.bits * 64 + (b.toNat - 0x80)
      if p.missing ≤ 1 then ([Char.ofNat bits], none)
      else ([], some { bits, missing := p.missing - 1 })
    else
      let (chars, next) := begin b
      (replacement :: chars, next)

/-- Read the bytes from a state in the middle of a character, or between two. -/
def decodeFrom (state : Option Partial) : List UInt8 → List Char
  | [] => if state.isSome then [replacement] else []
  | b :: bs =>
    let (chars, next) := advance state b
    chars ++ decodeFrom next bs

/-- The text of the bytes, with replacement characters where they are not UTF-8. -/
def decode (bytes : ByteArray) : String :=
  String.ofList (decodeFrom none bytes.toList)

/-- The text of the bytes, if they are UTF-8. -/
def decode? (bytes : ByteArray) : Option String :=
  String.fromUTF8? bytes

end TemplateCoverage.Text.Utf8
