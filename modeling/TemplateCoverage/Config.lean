import TemplateCoverage.Instrument
import TemplateCoverage.Token.Evaluation

/-!
# Configuration of a coverage computation
-/

namespace TemplateCoverage

/-- What can be set for a coverage computation. -/
structure Config where
  /-- The filters that select template files. -/
  filters : List String := []
  /-- Further arguments of the renderer. -/
  extraArgs : List String := []
  /-- The keys under which a context may hold the root context. -/
  wrapperKeys : List String := defaultWrapperKeys
  /-- The functions that evaluate their string arguments. -/
  evaluators : List String := defaultEvaluators
  deriving DecidableEq, Repr

end TemplateCoverage
