/-!
# Text inside XML

The five characters with a meaning of their own are written as entities, so that a text can neither
close the attribute or element that holds it nor be mistaken for another text.
-/

namespace TemplateCoverage.Xml

/-- A character as it is written in an attribute or an element. -/
def escapeChar (c : Char) : List Char :=
  if c = '&' then "&amp;".toList
  else if c = '<' then "&lt;".toList
  else if c = '>' then "&gt;".toList
  else if c = '"' then "&quot;".toList
  else if c = '\'' then "&apos;".toList
  else [c]

/-- A text as it is written in an attribute or an element. -/
def escape (s : String) : String :=
  String.ofList (s.toList.flatMap escapeChar)

/-- An attribute with its value. -/
def attr (name value : String) : String :=
  " " ++ name ++ "=\"" ++ escape value ++ "\""

end TemplateCoverage.Xml
