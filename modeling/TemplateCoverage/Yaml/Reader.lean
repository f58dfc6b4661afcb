import TemplateCoverage.Text.Search
import TemplateCoverage.Yaml.Node
import TemplateCoverage.Yaml.TokenStream
import TemplateCoverage.Yaml.Value

/-!
# Reading YAML

The value of a text is the value of its only document, with aliases replaced by what they stand for.
A text without a document is null. There is no value if the text is malformed, if a mapping has a
key twice, if collections are nested too deeply, or if there are too many aliases.
-/

namespace TemplateCoverage.Yaml

/-- The greatest number of collections within each other. -/
def depthLimit : Nat := 128

/-- How often aliases may be replaced, for each step of reading the document. -/
def aliasFactor : Nat := 100

/-- What comes before the names of the types of the core schema in their tags. -/
def coreTag : String := "tag:yaml.org,2002:"

/-- The name of a tag that does not belong to the core schema. -/
def localTag? (tag : Option String) : Option String :=
  match tag.map String.toList with
  | some ['!'] => some "!"
  | some ('!' :: name) => some (String.ofList name)
  | _ => none

/-- The value of a scalar. -/
def scalarValue? (tag : Option String) (plain : Bool) (text : String) : Option Value :=
  let byStyle : Option Value := if plain then Value.ofPlain? text else some (.string text)
  match tag, localTag? tag with
  | _, some name => byStyle.map (.tagged name)
  | none, _ => byStyle
  | some t, none =>
    match Text.after? coreTag.toList t.toList with
    | some type => Value.ofCore? (String.ofList type) text
    | none => some (.string text)

/-- A value with its tag, if it has one that matters. -/
def withTag (tag : Option String) (v : Value) : Value :=
  match localTag? tag with
  | some name => .tagged name v
  | none => v

/-- The pairs with one more, whose key must be new. -/
def addPair? (pairs : List (Value × Value)) (pair : Value × Value) :
    Option (List (Value × Value)) :=
  if pairs.any fun p => Value.same p.1 pair.1 then none else some (pairs ++ [pair])

/-- The node that is read in place of a node, which costs a replacement for an alias. The state is
the number of replacements left. -/
def target (anchors : Anchors) (node : Node) : StateT Nat Option Node := do
  match node with
  | .alias number =>
    match ← get with
    | 0 => failure
    | left + 1 =>
      set left
      anchors.node? number
  | other => pure other

/-- The value of a node with collections nested at most to the given depth. -/
def valueOf (anchors : Anchors) : Nat → Node → StateT Nat Option Value
  | depth, node => do
    match ← target anchors node, depth with
    | .scalar tag plain text, _ => scalarValue? tag plain text
    | .sequence tag items, depth + 1 =>
      pure (withTag tag (.sequence (← items.mapM (valueOf anchors depth))))
    | .mapping tag pairs, depth + 1 =>
      let values ← pairs.foldlM (fun found p => do
        let key ← valueOf anchors depth p.1
        let value ← valueOf anchors depth p.2
        addPair? found (key, value)) []
      pure (withTag tag (.mapping values))
    | _, _ => failure
termination_by depth => depth

/-- The value of a text. -/
def read? (text : String) : Option Value :=
  match (tokens? text.toList).bind document? with
  | none => none
  | some (none, _) => some .null
  | some (some node, anchors) =>
    ((valueOf anchors depthLimit node).run (aliasFactor * node.size)).map (·.1)

end TemplateCoverage.Yaml
