import TemplateCoverage.Text.Line

/-!
# Quotes before a position

A double quote opens or closes a string unless a backslash escapes it. Counting the quotes that are
not escaped tells whether a position of the line is inside a string: it is when their number is odd.
-/

namespace TemplateCoverage

/-- The double quotes of a text that are preceded by an even run of backslashes. The flag says
whether the text before has an odd run of backslashes at its end. -/
def unescapedQuotesAfter (escaped : Bool) : List Char → Nat
  | [] => 0
  | '\\' :: cs => unescapedQuotesAfter (!escaped) cs
  | '"' :: cs => (if escaped then 0 else 1) + unescapedQuotesAfter false cs
  | _ :: cs => unescapedQuotesAfter false cs

/-- The double quotes within the first `column` bytes of a line that no backslash escapes. -/
def unescapedQuotesBefore (line : List Char) (column : Nat) : Nat :=
  unescapedQuotesAfter false (Text.takeBytes column line)

end TemplateCoverage
