import TemplateCoverage.Scan.Nesting
import TemplateCoverage.Token.Line

/-!
# Scanning a file

The findings of a file are those of its tokens and what is left open at its end.
-/

namespace TemplateCoverage

/-- What a stream of tokens shows, from no open block on. -/
def scanTokens (file : String) (tokens : List Token) : List Finding :=
  let (last, found) := Nesting.run file {} tokens
  found ++ last.unclosed file

/-- What the source text of a file shows, where the functions named `evaluators` evaluate their
string arguments. -/
def scan (evaluators : List String) (file source : String) : List Finding :=
  scanTokens file (tokensOf evaluators source.toList)

end TemplateCoverage
