import TemplateCoverage.Yaml.Token

/-!
# The nodes of a document

The grammar of the tokens. A text holds one document, which is a tree of scalars, sequences and
mappings; an alias stands for the node that has the number of its anchor.
-/

namespace TemplateCoverage.Yaml

/-- A node. The tag is resolved. -/
inductive Node where
  | scalar (tag : Option String) (plain : Bool) (text : String)
  | sequence (tag : Option String) (items : List Node)
  | mapping (tag : Option String) (pairs : List (Node × Node))
  | alias (anchor : Nat)

instance : Inhabited Node := ⟨.scalar none true ""⟩

/-- A node that is left out. -/
def Node.empty : Node := .scalar none true ""

/-- The number of steps in which a node is read: one for a scalar, and two for the ends of a
collection. -/
def Node.size : Node → Nat
  | .sequence _ items => 2 + (items.map Node.size).foldl (· + ·) 0
  | .mapping _ pairs => 2 + (pairs.attach.map fun ⟨p, _⟩ => p.1.size + p.2.size).foldl (· + ·) 0
  | _ => 1
termination_by n => sizeOf n
decreasing_by
  · have := List.sizeOf_lt_of_mem ‹_›
    simp only [Node.sequence.sizeOf_spec]
    omega
  · have := List.sizeOf_lt_of_mem ‹p ∈ pairs›
    cases p
    simp only [Prod.mk.sizeOf_spec, Node.mapping.sizeOf_spec] at *
    omega
  · have := List.sizeOf_lt_of_mem ‹p ∈ pairs›
    cases p
    simp only [Prod.mk.sizeOf_spec, Node.mapping.sizeOf_spec] at *
    omega

/-- The anchors of a document. An anchor gets the number of names that came before it; the node
that gets a number last is the one that its aliases stand for. -/
structure Anchors where
  /-- The numbers of the names. -/
  numbers : List (String × Nat) := []
  /-- Which anchor got a number, the latest first. -/
  holders : List (Nat × Nat) := []
  /-- The nodes of the anchors, by their order in the text. -/
  nodes : List (Nat × Node) := []

namespace Anchors

/-- Give a number to the next anchor. The result names its place in the text. -/
def declare (a : Anchors) (name : String) : Anchors × Nat :=
  let number := a.numbers.length
  let others := a.numbers.filter fun entry => entry.1 != name
  let place := a.holders.length
  ({ a with numbers := (name, number) :: others, holders := (number, place) :: a.holders }, place)

/-- The node of an anchor is complete. -/
def complete (a : Anchors) (place? : Option Nat) (node : Node) : Anchors :=
  match place? with
  | none => a
  | some place => { a with nodes := (place, node) :: a.nodes }

/-- The node that an alias with a number stands for. -/
def node? (a : Anchors) (number : Nat) : Option Node :=
  (a.holders.lookup number).bind fun place => a.nodes.lookup place

end Anchors

/-- What the grammar works on. -/
structure Reading where
  tokens : List Token
  handles : List (String × String) := []
  anchors : Anchors := {}

/-- A reader of part of the grammar. -/
abbrev Grammar := StateT Reading Option

namespace Grammar

/-- The next token. -/
def next : Grammar Token := do
  match (← get).tokens with
  | t :: _ => pure t
  | [] => failure

/-- Go past a token. -/
def advance : Grammar Unit :=
  modify fun r => { r with tokens := r.tokens.drop 1 }

/-- Whether the next token is the given one, which is then passed. -/
def accept (t : Token) : Grammar Bool := do
  if (← next) = t then
    advance
    pure true
  else pure false

/-- Go past the given token. -/
def expect (t : Token) : Grammar Unit := do
  if !(← accept t) then failure

/-- What a tag stands for. -/
def resolve (t : TagText) : Grammar String := do
  if t.handle.isEmpty then pure t.suffix
  else
    match (← get).handles.lookup t.handle with
    | some lead => pure (lead ++ t.suffix)
    | none => failure

/-- The anchor and the tag in front of a node, in either order. The tag is resolved after both. -/
def properties : Grammar (Option String × Option TagText) := do
  match ← next with
  | .anchor name =>
    advance
    match ← next with
    | .tag t =>
      advance
      pure (some name, some t)
    | _ => pure (some name, none)
  | .tag t =>
    advance
    match ← next with
    | .anchor name =>
      advance
      pure (some name, some t)
    | _ => pure (none, some t)
  | _ => pure (none, none)

/-- Read a value unless one of the given tokens shows that it is left out. -/
def orEmpty (stops : List Token) (value : Grammar Node) : Grammar Node := do
  if (← next) ∈ stops then pure .empty else value

/-- The shapes of the grammar. -/
inductive Shape where
  /-- Any node. Blocks are allowed or not; a sequence may stand at the column of its key or not. -/
  | node (block indentless : Bool)
  | blockEntries
  | indentlessEntries
  | blockPairs
  | flowEntries (first : Bool)
  | flowPairs (first : Bool)

/-- What a shape is read to: a node, items or pairs. -/
inductive Parts where
  | node (n : Node)
  | items (l : List Node)
  | pairs (l : List (Node × Node))

def Parts.toNode : Parts → Node
  | .node n => n
  | .items l => .sequence none l
  | .pairs l => .mapping none l

def Parts.toItems : Parts → List Node
  | .items l => l
  | _ => []

def Parts.toPairs : Parts → List (Node × Node)
  | .pairs l => l
  | _ => []

/-- Read a shape. Each call of a call has passed a token or reads a part of its caller. -/
def read : Nat → Shape → Grammar Parts
  | 0, _ => failure
  | n + 1, shape => do
    let node (block indentless : Bool) : Grammar Node :=
      Parts.toNode <$> read n (.node block indentless)
    match shape with
    | .node block indentless =>
      match ← next with
      | .alias name =>
        advance
        match (← get).anchors.numbers.lookup name with
        | some number => pure (.node (.alias number))
        | none => failure
      | _ =>
        let (anchor?, tagText?) ← properties
        let tag ← tagText?.mapM resolve
        let place? ← anchor?.mapM fun name => do
          let (anchors, place) := (← get).anchors.declare name
          modify fun r => { r with anchors }
          pure place
        let items (shape : Shape) : Grammar Node := do
          pure (.sequence tag (← read n shape).toItems)
        let pairs (shape : Shape) : Grammar Node := do
          pure (.mapping tag (← read n shape).toPairs)
        let found ← match ← next with
          | .scalar plain text =>
            advance
            pure (.scalar tag plain text)
          | .flowSequence =>
            advance
            items (.flowEntries true)
          | .flowMapping =>
            advance
            pairs (.flowPairs true)
          | t =>
            if indentless ∧ t = .blockEntry then items .indentlessEntries
            else if block ∧ t = .blockSequence then
              advance
              items .blockEntries
            else if block ∧ t = .blockMapping then
              advance
              pairs .blockPairs
            else if anchor?.isSome ∨ tag.isSome then pure (.scalar tag true "")
            else failure
        modify fun r => { r with anchors := r.anchors.complete place? found }
        pure (.node found)
    | .blockEntries =>
      if ← accept .blockEntry then
        let item ← orEmpty [.blockEntry, .blockEnd] (node true false)
        pure (.items (item :: (← read n .blockEntries).toItems))
      else
        expect .blockEnd
        pure (.items [])
    | .indentlessEntries =>
      if ← accept .blockEntry then
        let item ← orEmpty [.blockEntry, .key, .value, .blockEnd] (node true false)
        pure (.items (item :: (← read n .indentlessEntries).toItems))
      else pure (.items [])
    | .blockPairs =>
      if ← accept .key then
        let key ← orEmpty [.key, .value, .blockEnd] (node true true)
        let value ←
          if ← accept .value then orEmpty [.key, .value, .blockEnd] (node true true)
          else pure .empty
        pure (.pairs ((key, value) :: (← read n .blockPairs).toPairs))
      else
        expect .blockEnd
        pure (.pairs [])
    | .flowEntries first =>
      if ← accept .flowSequenceEnd then pure (.items [])
      else
        if !first then expect .flowEntry
        if ← accept .flowSequenceEnd then pure (.items [])
        else
          let item ←
            if ← accept .key then
              let key ←
                if (← next) ∈ [.value, .flowEntry, .flowSequenceEnd] then do
                  advance
                  pure .empty
                else node false false
              let value ←
                if ← accept .value then orEmpty [.flowEntry, .flowSequenceEnd] (node false false)
                else pure .empty
              pure (.mapping none [(key, value)])
            else node false false
          pure (.items (item :: (← read n (.flowEntries false)).toItems))
    | .flowPairs first =>
      if ← accept .flowMappingEnd then pure (.pairs [])
      else
        if !first then expect .flowEntry
        if ← accept .flowMappingEnd then pure (.pairs [])
        else
          let pair ←
            if ← accept .key then do
              let key ← orEmpty [.value, .flowEntry, .flowMappingEnd] (node false false)
              let value ←
                if ← accept .value then orEmpty [.flowEntry, .flowMappingEnd] (node false false)
                else pure .empty
              pure (key, value)
            else do
              let key ← node false false
              pure (key, .empty)
          pure (.pairs (pair :: (← read n (.flowPairs false)).toPairs))

/-- The directives before a document. There is at most one version, 1.1 or 1.2, and no handle is
given twice. -/
def directives : Nat → Bool → Grammar Unit
  | 0, _ => failure
  | n + 1, versioned => do
    match ← next with
    | .version major minor =>
      if versioned ∨ major ≠ 1 ∨ (minor ≠ 1 ∧ minor ≠ 2) then failure
      advance
      directives n true
    | .tagHandle handle lead =>
      if ((← get).handles.lookup handle).isSome then failure
      modify fun r => { r with handles := (handle, lead) :: r.handles }
      advance
      directives n versioned
    | _ => pure ()

/-- The handles that need no directive. A directive may give them another meaning. -/
def standardHandles : List (String × String) :=
  [("!", "!"), ("!!", "tag:yaml.org,2002:")]

/-- The only document of a text, if it has one. -/
def document (limit : Nat) : Grammar (Option Node) := do
  if ← accept .streamEnd then pure none
  else
    let begins : Token → Bool
      | .version _ _ | .tagHandle _ _ | .documentStart => true
      | _ => false
    let explicit := begins (← next)
    if explicit then
      directives limit false
      expect .documentStart
    modify fun r => { r with handles := r.handles ++ standardHandles }
    let isEmpty := begins (← next) || (← next) = .documentEnd || (← next) = .streamEnd
    let node ←
      if explicit && isEmpty then pure .empty
      else Parts.toNode <$> read limit (.node true false)
    modify fun r => { r with tokens := r.tokens.dropWhile (· = .documentEnd) }
    expect .streamEnd
    pure (some node)

end Grammar

/-- The document of tokens and its anchors. A text without a document is no error. -/
def document? (tokens : List Token) : Option (Option Node × Anchors) :=
  (Grammar.document (2 * tokens.length + 2) { tokens }).map fun (node, r) => (node, r.anchors)

end TemplateCoverage.Yaml
