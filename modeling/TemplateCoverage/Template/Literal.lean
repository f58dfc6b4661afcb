/-!
# String literals of templates

A string between double quotes, where backslashes escape quotes, backslashes and line feeds. A
literal stands on one line.
-/

namespace TemplateCoverage.Template

/-- A character as it is written in a literal. -/
def literalChar (c : Char) : List Char :=
  if c = '"' then ['\\', '"']
  else if c = '\\' then ['\\', '\\']
  else if c = '\n' then ['\\', 'n']
  else [c]

/-- A string as a literal. -/
def literal (s : String) : String :=
  "\"" ++ String.ofList (s.toList.flatMap literalChar) ++ "\""

end TemplateCoverage.Template
