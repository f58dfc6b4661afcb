import TemplateCoverage.Yaml.Character

/-!
# YAML tokens
-/

namespace TemplateCoverage.Yaml

/-- How a tag is written: a handle and a suffix. A tag that is written out has an empty handle. -/
structure TagText where
  handle : String
  suffix : String
  deriving DecidableEq, Repr

/-- A token. Blocks that are marked by indentation have tokens for their beginning and end. -/
inductive Token where
  | version (major minor : Nat)
  | tagHandle (handle lead : String)
  | documentStart
  | documentEnd
  | streamEnd
  | blockSequence
  | blockMapping
  | blockEnd
  | flowSequence
  | flowSequenceEnd
  | flowMapping
  | flowMappingEnd
  | blockEntry
  | flowEntry
  | key
  | value
  | alias (name : String)
  | anchor (name : String)
  | tag (t : TagText)
  | scalar (plain : Bool) (text : String)
  deriving DecidableEq, Repr

end TemplateCoverage.Yaml
