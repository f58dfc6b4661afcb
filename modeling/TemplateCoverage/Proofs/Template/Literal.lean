import TemplateCoverage.Proofs.Template.Control
import TemplateCoverage.Proofs.Token.Evaluation

/-!
# Reading literals

Where a literal ends, told by looking back from each quote, and what is left when its escapes are undone. The
writer knows nothing of this reader, and neither does the lexer of tracking code.

* **`closingQuote?`**: the first quote that no odd run of backslashes precedes.
* **`closingQuote?_literalChars`**: the quotes that are written inside a literal are behind odd runs, and the
  one that ends it is not, whatever the string ends with.
* **`readLiteral?_literal`**: what is read is the string that was written, and what stands behind the literal
  is left.
-/

namespace TemplateCoverage.Template

/-! ## The reader -/

/-- The position of the first quote that no odd run of backslashes precedes. -/
def closingQuote? (cs : List Char) : Option Nat :=
  (List.range cs.length).find? fun i =>
    cs[i]? == some '"' && backslashRun (cs.take i) % 2 == 0

/-- The text without its escapes of quotes, backslashes and line feeds. -/
def undoEscapes : List Char → List Char
  | '\\' :: '"' :: cs => '"' :: undoEscapes cs
  | '\\' :: '\\' :: cs => '\\' :: undoEscapes cs
  | '\\' :: 'n' :: cs => '\n' :: undoEscapes cs
  | c :: cs => c :: undoEscapes cs
  | [] => []

/-- The string of the literal that a text begins with, and what follows the literal. -/
def readLiteral? (text : String) : Option (String × String) :=
  match text.toList with
  | '"' :: cs => (closingQuote? cs).map fun i =>
    (String.ofList (undoEscapes (cs.take i)), String.ofList (cs.drop (i + 1)))
  | _ => none

/-! ## Where a literal ends -/

/-- A text without a quote of its own ends at the quote behind it, if that one is not escaped. -/
theorem closingQuote?_append {inside : List Char} (hquotes : unescapedQuotes inside = 0)
    (heven : backslashRun inside % 2 = 0) (rest : List Char) :
    closingQuote? (inside ++ '"' :: rest) = some inside.length := by
  -- every quote inside is escaped
  have hinside : ∀ i < inside.length,
      (inside[i]? == some '"' && backslashRun (inside.take i) % 2 == 0) = false := by
    intro i hi
    have hcount := List.countP_eq_zero.mp hquotes i (List.mem_range.mpr hi)
    exact Bool.eq_false_iff.mpr hcount
  unfold closingQuote?
  rw [List.find?_range_eq_some]
  refine ⟨?_, ?_, fun i hi => ?_⟩
  · rw [List.getElem?_append_right (le_refl _), Nat.sub_self, List.take_left]
    simp [heven]
  · rw [List.mem_range, List.length_append, List.length_cons]
    omega
  · rw [List.getElem?_append_left hi, List.take_append_of_le_length (by omega), hinside i hi]
    rfl

/-- A literal ends at its own quote. -/
theorem closingQuote?_literalChars (cs rest : List Char) :
    closingQuote? (cs.flatMap literalChar ++ '"' :: rest) = some (cs.flatMap literalChar).length := by
  obtain ⟨hquotes, hescaped⟩ := quotes_literalChars cs
  rw [unescapedQuotesAfter_eq] at hquotes
  have heven : backslashRun (cs.flatMap literalChar) % 2 = 0 := by
    -- nothing is escaped in front of the text, and nothing is behind it
    have hflag : escapedAfter false (cs.flatMap literalChar)
        = (backslashRun (cs.flatMap literalChar) % 2 == 1) := escapedAfter_eq [] _
    have hodd : ¬backslashRun (cs.flatMap literalChar) % 2 = 1 := by
      simpa using hflag.symm.trans hescaped
    omega
  exact closingQuote?_append hquotes heven rest

/-! ## What a literal says -/

theorem undoEscapes_cons {c : Char} (h : c ≠ '\\') (cs : List Char) :
    undoEscapes (c :: cs) = c :: undoEscapes cs := by
  rw [undoEscapes.eq_4]
  all_goals
    intro _ hc
    exact absurd hc h

/-- What is written for a character is undone at once, whatever follows. -/
theorem undoEscapes_literalChar (c : Char) (rest : List Char) :
    undoEscapes (literalChar c ++ rest) = c :: undoEscapes rest := by
  unfold literalChar
  split
  · next hquote => rw [hquote]; rfl
  · split
    · next hbackslash => rw [hbackslash]; rfl
    · next hbackslash =>
      split
      · next hnewline => rw [hnewline]; rfl
      · exact undoEscapes_cons hbackslash rest

/-- **To undo the escapes** of a literal gives its text. -/
theorem undoEscapes_literalChars (cs : List Char) : undoEscapes (cs.flatMap literalChar) = cs := by
  induction cs with
  | nil => rfl
  | cons c cs ih => rw [List.flatMap_cons, undoEscapes_literalChar, ih]

/-- A literal is read as the string that it was written for, and what follows it is left. -/
theorem readLiteral?_literal (s t : String) : readLiteral? (literal s ++ t) = some (s, t) := by
  have htext : (literal s ++ t).toList = '"' :: (s.toList.flatMap literalChar ++ '"' :: t.toList) := by
    rw [String.toList_append, toList_literal]
    simp
  -- what is left is what stands behind the closing quote
  have hrest : (s.toList.flatMap literalChar ++ '"' :: t.toList).drop
      ((s.toList.flatMap literalChar).length + 1) = t.toList := by
    rw [List.drop_length_add_append]
    rfl
  unfold readLiteral?
  rw [htext]
  simp only
  rw [closingQuote?_literalChars, Option.map_some, List.take_left, undoEscapes_literalChars,
    hrest, String.ofList_toList, String.ofList_toList]

example : readLiteral? "\"a\\\\\\\"b\\n\\\\\"\"\\" = some ("a\\\"b\n\\", "\"\\") := by decide

end TemplateCoverage.Template
