import TemplateCoverage.Proofs.Template.Lexer

/-!
# The actions of a template

The lexemes of a text are read as a list of actions. Conditionals stay flat: `if`, `else if`, `else`
and `end` are actions of their own, and `Semantics.lean` says how they are run. Expressions are read
with a stack of open parentheses.

* **`read?_lexemes`**: an expression is read back from its lexemes. The induction is on the expression,
  over every place where it may stand.
* **`actions?_text`**: tracking code is read as the actions that it stands for, whatever the keys and
  the ID in it.
-/

namespace TemplateCoverage.Template

/-! ## Expressions -/

/-- An expression. -/
inductive Expr where
  /-- The context that the code runs with. -/
  | context
  | literal (s : String)
  | call (f : Function) (args : List Expr)

mutual

/-- The lexemes of an expression that is an operand. -/
def Expr.lexemes : Expr → List Lexeme
  | .context => [.context]
  | .literal s => [.text s]
  | .call f args => .leftParen :: .word (.function f) :: (operandLexemes args ++ [.rightParen])

/-- The lexemes of operands. -/
def operandLexemes : List Expr → List Lexeme
  | [] => []
  | e :: es => e.lexemes ++ operandLexemes es

end

/-- The lexemes of an expression that stands alone. A call needs no parentheses there. -/
def Expr.command : Expr → List Lexeme
  | .call f args => .word (.function f) :: operandLexemes args
  | e => e.lexemes

/-- What has been read of a command: its function, if it begins with one, and its operands. -/
structure Frame where
  function? : Option Function := none
  operands : List Expr := []

namespace Frame

/-- A frame with one more operand. -/
def push (frame : Frame) (e : Expr) : Frame :=
  { frame with operands := frame.operands ++ [e] }

/-- The expression of a frame. Only a function takes operands. -/
def close? : Frame → Option Expr
  | ⟨some f, args⟩ => some (.call f args)
  | ⟨none, [e]⟩ => some e
  | ⟨none, _⟩ => none

/-- The frame that begins with a function, if nothing stands before it. -/
def begin? (f : Function) : Frame → Option Frame
  | ⟨none, []⟩ => some ⟨some f, []⟩
  | _ => none

end Frame

/-- Read an expression. The first frame is that of the innermost parenthesis, and the others are those
around it. -/
def Expr.read? (frame : Frame) (around : List Frame) : List Lexeme → Option Expr
  | [] => if around.isEmpty then frame.close? else none
  | l :: rest =>
    match l, around with
    | .context, _ => Expr.read? (frame.push .context) around rest
    | .text s, _ => Expr.read? (frame.push (.literal s)) around rest
    | .word (.function f), _ => (frame.begin? f).bind fun begun => Expr.read? begun around rest
    | .leftParen, _ => Expr.read? {} (frame :: around) rest
    | .rightParen, outer :: more =>
      frame.close?.bind fun e => Expr.read? (outer.push e) more rest
    | _, _ => none

theorem Frame.push_append (f? : Option Function) (xs : List Expr) (e : Expr) (es : List Expr) :
    (⟨f?, (xs ++ [e]) ++ es⟩ : Frame) = ⟨f?, xs ++ e :: es⟩ := by
  rw [List.append_assoc]
  rfl

mutual

/-- The lexemes of an operand are read as the operand, wherever it stands. -/
theorem Expr.read?_lexemes (e : Expr) (frame : Frame) (around : List Frame) (rest : List Lexeme) :
    Expr.read? frame around (e.lexemes ++ rest) = Expr.read? (frame.push e) around rest := by
  match e with
  | .context => rfl
  | .literal s => rfl
  | .call f args =>
    -- the operands are read in a frame of their own, which the parenthesis closes
    have hargs := read?_operandLexemes args ⟨some f, []⟩ (frame :: around) (.rightParen :: rest)
    rw [Expr.lexemes, List.cons_append, List.cons_append, List.append_assoc]
    exact hargs

/-- Operands are read one after the other. -/
theorem read?_operandLexemes (es : List Expr) (frame : Frame) (around : List Frame)
    (rest : List Lexeme) :
    Expr.read? frame around (operandLexemes es ++ rest)
      = Expr.read? ⟨frame.function?, frame.operands ++ es⟩ around rest := by
  match es with
  | [] =>
    rw [List.append_nil]
    rfl
  | e :: es =>
    rw [operandLexemes, List.append_assoc, Expr.read?_lexemes e, read?_operandLexemes es,
      ← Frame.push_append]
    rfl

end

/-- An expression is read back from its lexemes. -/
theorem Expr.read?_command (e : Expr) : Expr.read? {} [] e.command = some e := by
  cases e with
  | context => rfl
  | literal s => rfl
  | call f args =>
    -- standing alone, it is closed by the end of the lexemes
    have hargs := read?_operandLexemes args ⟨some f, []⟩ [] []
    rw [List.append_nil] at hargs
    exact hargs

/-! ## Actions -/

/-- An action. -/
inductive Action where
  | ifThen (test : Expr)
  | elseIf (test : Expr)
  | otherwise
  | finish
  /-- A declaration of the variable that nobody reads. -/
  | evaluate (e : Expr)

/-- The lexemes inside an action. -/
def Action.lexemes : Action → List Lexeme
  | .ifThen e => .word .ifWord :: e.command
  | .elseIf e => .word .elseWord :: .word .ifWord :: e.command
  | .otherwise => [.word .elseWord]
  | .finish => [.word .endWord]
  | .evaluate e => .blank :: .declare :: e.command

/-- The action with the given lexemes inside. -/
def Action.read? : List Lexeme → Option Action
  | .word .ifWord :: e => (Expr.read? {} [] e).map .ifThen
  | .word .elseWord :: .word .ifWord :: e => (Expr.read? {} [] e).map .elseIf
  | [.word .elseWord] => some .otherwise
  | [.word .endWord] => some .finish
  | .blank :: .declare :: e => (Expr.read? {} [] e).map .evaluate
  | _ => none

/-- **An action is read from its lexemes** as it was. -/
theorem Action.read?_lexemes (a : Action) : Action.read? a.lexemes = some a := by
  cases a with
  | ifThen e => exact congrArg (Option.map Action.ifThen) e.read?_command
  | elseIf e => exact congrArg (Option.map Action.elseIf) e.read?_command
  | otherwise => rfl
  | finish => rfl
  | evaluate e => exact congrArg (Option.map Action.evaluate) e.read?_command

/-- Read lexemes as actions. Inside an action, `body` is what has been read of it. -/
def actionsFrom : Option (List Lexeme) → List Lexeme → Option (List Action)
  | none, [] => some []
  | none, .opening :: rest => actionsFrom (some []) rest
  | none, _ :: _ => none
  | some _, [] => none
  | some body, .closing :: rest =>
    (Action.read? body).bind fun a => (actionsFrom none rest).map (a :: ·)
  | some body, l :: rest => actionsFrom (some (body ++ [l])) rest

/-- The actions that a text is made of. -/
def actions? (cs : List Char) : Option (List Action) :=
  (lexemes? cs).bind (actionsFrom none)

mutual

/-- No operand contains the end of an action. -/
theorem Expr.closing_not_mem_lexemes (e : Expr) : Lexeme.closing ∉ e.lexemes := by
  match e with
  | .context => exact List.not_mem_cons_of_ne_of_not_mem Lexeme.noConfusion List.not_mem_nil
  | .literal s => exact List.not_mem_cons_of_ne_of_not_mem Lexeme.noConfusion List.not_mem_nil
  | .call f args =>
    rw [Expr.lexemes]
    have hargs := closing_not_mem_operandLexemes args
    simp [hargs]

/-- No expression ends the action that it stands in. -/
theorem closing_not_mem_operandLexemes (es : List Expr) : Lexeme.closing ∉ operandLexemes es := by
  match es with
  | [] => exact List.not_mem_nil
  | e :: es =>
    rw [operandLexemes, List.mem_append, not_or]
    exact ⟨e.closing_not_mem_lexemes, closing_not_mem_operandLexemes es⟩

end

theorem Expr.closing_not_mem_command (e : Expr) : Lexeme.closing ∉ e.command := by
  cases e with
  | context => exact Expr.closing_not_mem_lexemes .context
  | literal s => exact Expr.closing_not_mem_lexemes (.literal s)
  | call f args =>
    have hargs := closing_not_mem_operandLexemes args
    simp [Expr.command, hargs]

theorem Action.closing_not_mem_lexemes (a : Action) : Lexeme.closing ∉ a.lexemes := by
  cases a with
  | ifThen e => simp [Action.lexemes, e.closing_not_mem_command]
  | elseIf e => simp [Action.lexemes, e.closing_not_mem_command]
  | otherwise => simp [Action.lexemes]
  | finish => simp [Action.lexemes]
  | evaluate e => simp [Action.lexemes, e.closing_not_mem_command]

/-- Up to the closing delimiter, lexemes are added to the body of the action. -/
theorem actionsFrom_append (body ls rest : List Lexeme) (h : Lexeme.closing ∉ ls) :
    actionsFrom (some body) (ls ++ rest) = actionsFrom (some (body ++ ls)) rest := by
  induction ls generalizing body with
  | nil =>
    rw [List.append_nil]
    rfl
  | cons l ls ih =>
    obtain ⟨hl, hls⟩ := List.ne_and_not_mem_of_not_mem_cons h
    -- only the end of the action ends its body
    have hstep : actionsFrom (some body) (l :: (ls ++ rest))
        = actionsFrom (some (body ++ [l])) (ls ++ rest) := by
      cases l with
      | closing => exact absurd rfl hl
      | _ => rfl
    rw [List.cons_append, hstep, ih _ hls, List.append_assoc]
    rfl

/-- The lexemes of an action with its delimiters. -/
def Action.delimited (a : Action) : List Lexeme :=
  .opening :: (a.lexemes ++ [.closing])

/-- Actions are read back from their lexemes. -/
theorem actionsFrom_delimited (actions : List Action) :
    actionsFrom none (actions.flatMap Action.delimited) = some actions := by
  induction actions with
  | nil => rfl
  | cons a actions ih =>
    -- the first closing delimiter is that of the first action
    have hbody := actionsFrom_append [] a.lexemes
      (.closing :: actions.flatMap Action.delimited) a.closing_not_mem_lexemes
    rw [List.nil_append, actionsFrom, a.read?_lexemes, Option.bind_some, ih] at hbody
    rw [List.flatMap_cons, Action.delimited, List.cons_append, List.append_assoc]
    exact hbody

/-! ## Tracking code -/

/-- The expression for a place. -/
def Place.expr : Place → Expr
  | .root => .context
  | .under key => .call .index [.context, .literal key]

/-- The expression for a test. -/
def Test.expr : Test → Expr
  | .isMap place => .call .kindIs [.literal "map", place.expr]
  | .hasKey place key => .call .hasKey [place.expr, .literal key]

/-- The expression that adds an ID to a list of the state. -/
def recordExpr (place : Place) (collection id : String) : Expr :=
  .call .set [.call .index [place.expr, .literal stateKey], .literal collection,
    .call .append [.call .index [place.expr, .literal stateKey, .literal collection], .literal id]]

mutual

/-- The actions of code. -/
def Code.actions : Code → List Action
  | .skip => []
  | .record place collection id => [.evaluate (recordExpr place collection id)]
  | .branch test yes no => .ifThen test.expr :: (yes.actions ++ (no.elseActions ++ [.finish]))

/-- The actions of code as what happens otherwise. -/
def Code.elseActions : Code → List Action
  | .skip => []
  | .record place collection id => [.otherwise, .evaluate (recordExpr place collection id)]
  | .branch test yes no => .elseIf test.expr :: (yes.actions ++ no.elseActions)

end

theorem lexes_literal_blank (s : String) :
    Lexes .inside ((literal s).toList ++ [' ']) .inside [.text s] :=
  (lexes_literal s).append (show Lexes .operandEnd [' '] .inside [] from rfl)

theorem lexes_literal_paren (s : String) :
    Lexes .inside ((literal s).toList ++ [')']) .operandEnd [.text s, .rightParen] :=
  (lexes_literal s).append (show Lexes .operandEnd [')'] .operandEnd [.rightParen] from rfl)

/-- A path is read as the operand that it spells. -/
theorem lexes_place (place : Place) :
    Lexes .inside (place.text.toList ++ [' ']) .inside place.expr.lexemes := by
  cases place with
  | root => rfl
  | under key =>
    have hhead : Lexes .inside "(index $ ".toList .inside
        [.leftParen, .word (.function .index), .context] := rfl
    have hblank : Lexes .operandEnd [' '] .inside [] := rfl
    have h := hhead.append ((lexes_literal_paren key).append hblank)
    -- the key stands in a literal, which is read as a whole
    have htext : (Place.under key).text.toList ++ [' ']
        = "(index $ ".toList ++ (((literal key).toList ++ [')']) ++ [' ']) := by
      unfold Place.text
      simp only [String.toList_append, List.append_assoc]
      rfl
    rw [htext]
    exact h

/-- A test is read as the command that it spells. -/
theorem lexes_test (test : Test) :
    Lexes .inside (test.text.toList ++ [' ']) .inside test.expr.command := by
  cases test with
  | isMap place =>
    have hhead : Lexes .inside "kindIs \"map\" ".toList .inside
        [.word (.function .kindIs), .text "map"] := rfl
    have h := hhead.append (lexes_place place)
    rw [← List.append_assoc, ← String.toList_append] at h
    -- what is tested comes as an operand behind the name of the function
    have hcommand : (Test.isMap place).expr.command
        = [.word (.function .kindIs), .text "map"] ++ place.expr.lexemes := by
      simp [Test.expr, Expr.command, operandLexemes, Expr.lexemes]
    rw [hcommand]
    exact h
  | hasKey place key =>
    have hhead : Lexes .inside "hasKey ".toList .inside [.word (.function .hasKey)] := rfl
    have h := hhead.append ((lexes_place place).append (lexes_literal_blank key))
    have htext : (Test.hasKey place key).text.toList ++ [' ']
        = "hasKey ".toList ++ ((place.text.toList ++ [' ']) ++ ((literal key).toList ++ [' '])) := by
      unfold Test.text
      simp only [String.toList_append, List.append_assoc]
      rfl
    rw [htext]
    exact h

/-- So is what records a branch. -/
theorem lexes_record (place : Place) (collection id : String) :
    Lexes .inside ((recordText place collection id).toList ++ [' ']) .inside
      (Action.evaluate (recordExpr place collection id)).lexemes := by
  have hset : Lexes .inside "$_ := set (index ".toList .inside
      [.blank, .declare, .word (.function .set), .leftParen, .word (.function .index)] := rfl
  have hparen : Lexes .operandEnd [' '] .inside [] := rfl
  have happend : Lexes .inside "(append (index ".toList .inside
      [.leftParen, .word (.function .append), .leftParen, .word (.function .index)] := rfl
  -- the text is read in pieces, each of which ends inside the action or behind an operand
  have h := hset.append ((lexes_place place).append ((lexes_literal_paren stateKey).append
    (hparen.append ((lexes_literal_blank collection).append (happend.append
      ((lexes_place place).append ((lexes_literal_blank stateKey).append
        ((lexes_literal_paren collection).append (hparen.append
          ((lexes_literal_paren id).append hparen))))))))))
  have htext : (recordText place collection id).toList ++ [' ']
      = "$_ := set (index ".toList ++ ((place.text.toList ++ [' '])
        ++ (((literal stateKey).toList ++ [')']) ++ ([' '] ++ (((literal collection).toList ++ [' '])
        ++ ("(append (index ".toList ++ ((place.text.toList ++ [' '])
        ++ (((literal stateKey).toList ++ [' ']) ++ (((literal collection).toList ++ [')'])
        ++ ([' '] ++ (((literal id).toList ++ [')']) ++ [' '])))))))))) := by
    unfold recordText
    simp only [String.toList_append, List.append_assoc]
    rfl
  rw [htext]
  -- and so are its lexemes, where a blank behind an operand gives none
  have hlexemes : (Action.evaluate (recordExpr place collection id)).lexemes
      = [.blank, .declare, .word (.function .set), .leftParen, .word (.function .index)]
        ++ (place.expr.lexemes ++ ([.text stateKey, .rightParen] ++ ([] ++ ([.text collection]
        ++ ([.leftParen, .word (.function .append), .leftParen, .word (.function .index)]
        ++ (place.expr.lexemes ++ ([.text stateKey] ++ ([.text collection, .rightParen]
        ++ ([] ++ ([.text id, .rightParen] ++ [])))))))))) := by
    simp [Action.lexemes, recordExpr, Expr.command, operandLexemes, Expr.lexemes]
  rw [hlexemes]
  exact h

theorem lexes_delimited {opening text : String} {a : Action}
    (hopening : opening = openBraces ∨ opening = trimBraces)
    (h : Lexes .inside (text.toList ++ [' ']) .inside a.lexemes) :
    Lexes .outside (action opening text).toList .outside a.delimited :=
  lexes_action hopening h

mutual

/-- Tracking code is read as its actions. Induction on the code, at the same time for what happens
otherwise. -/
theorem lexes_text (code : Code) (opening : String)
    (hopening : opening = openBraces ∨ opening = trimBraces) :
    Lexes .outside (code.text opening).toList .outside (code.actions.flatMap Action.delimited) := by
  match code with
  | .skip => exact Lexes.nil _
  | .record place collection id =>
    have h := lexes_delimited hopening (lexes_record place collection id)
    rw [Code.text, Code.actions, List.flatMap_cons, List.flatMap_nil, List.append_nil]
    exact h
  | .branch test yes no =>
    -- the pieces of a branch: its test, what is done if it holds, what is done if not, and the end
    have hif : Lexes .inside (("if " ++ test.text).toList ++ [' ']) .inside
        (Action.ifThen test.expr).lexemes := by
      have hword : Lexes .inside "if ".toList .inside [.word .ifWord] := rfl
      rw [String.toList_append, List.append_assoc]
      exact hword.append (lexes_test test)
    have hend : Lexes .outside (action openBraces "end").toList .outside Action.finish.delimited :=
      lexes_delimited (.inl rfl) rfl
    have h := (lexes_delimited hopening hif).append ((lexes_text yes openBraces (.inl rfl)).append
      ((lexes_elseText no).append hend))
    rw [Code.text, Code.actions]
    simp only [String.toList_append, List.append_assoc, List.flatMap_cons, List.flatMap_append,
      List.flatMap_nil, List.append_nil]
    exact h

/-- The same for code that stands behind a test that has failed. -/
theorem lexes_elseText (code : Code) :
    Lexes .outside code.elseText.toList .outside (code.elseActions.flatMap Action.delimited) := by
  match code with
  | .skip => exact Lexes.nil _
  | .record place collection id =>
    have helse : Lexes .outside (action openBraces "else").toList .outside
        Action.otherwise.delimited := lexes_delimited (.inl rfl) rfl
    have h := helse.append (lexes_delimited (.inl rfl) (lexes_record place collection id))
    rw [Code.elseText, Code.elseActions, String.toList_append, List.flatMap_cons, List.flatMap_cons,
      List.flatMap_nil, List.append_nil]
    exact h
  | .branch test yes no =>
    -- a further test goes on with the block, so it needs no end of its own
    have helse : Lexes .inside (("else if " ++ test.text).toList ++ [' ']) .inside
        (Action.elseIf test.expr).lexemes := by
      have hwords : Lexes .inside "else if ".toList .inside [.word .elseWord, .word .ifWord] := rfl
      rw [String.toList_append, List.append_assoc]
      exact hwords.append (lexes_test test)
    have h := (lexes_delimited (.inl rfl) helse).append
      ((lexes_text yes openBraces (.inl rfl)).append (lexes_elseText no))
    rw [Code.elseText, Code.elseActions]
    simp only [String.toList_append, List.append_assoc, List.flatMap_cons, List.flatMap_append]
    exact h

end

/-- Tracking code is read as the actions that it stands for. -/
theorem actions?_text {code : Code} {opening : String}
    (hopening : opening = openBraces ∨ opening = trimBraces) :
    actions? (code.text opening).toList = some code.actions := by
  unfold actions?
  rw [lexemes?_eq_some (lexes_text code opening hopening), Option.bind_some]
  exact actionsFrom_delimited code.actions

end TemplateCoverage.Template
