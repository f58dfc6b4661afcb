import TemplateCoverage.Template.Tracking

/-!
# The lexemes of a template

How a renderer reads the text of actions, as far as tracking code goes: actions in a row, with nothing
between them. The lexer is a machine that reads one character at a time, so that the text can be
followed piece by piece.

* **`LexState.step`**: what one character does. It stops at what tracking code has no use for.
* **`Lexes s cs s' ls`**: reading `cs` leads from one state to another and gives lexemes. Readings in a
  row compose (`Lexes.append`).
* **`lexes_literal`**: a literal is read as the string that it was written for, whatever is in it.
* **`lexes_action`**: an action is read as its inside between two delimiters.
-/

namespace TemplateCoverage.Template

/-! ## The machine -/

/-- The functions that tracking code calls. -/
inductive Function where
  | kindIs
  | hasKey
  | index
  | set
  | append
  deriving DecidableEq, Repr

/-- A word of an action: a keyword or the name of a function. -/
inductive Word where
  | ifWord
  | elseWord
  | endWord
  | function (f : Function)
  deriving DecidableEq, Repr

/-- The word with the given spelling. -/
def Word.read? (spelling : List Char) : Option Word :=
  [("if".toList, .ifWord), ("else".toList, .elseWord), ("end".toList, .endWord),
    ("kindIs".toList, .function .kindIs), ("hasKey".toList, .function .hasKey),
    ("index".toList, .function .index), ("set".toList, .function .set),
    ("append".toList, .function .append)].lookup spelling

/-- A lexeme. -/
inductive Lexeme where
  /-- The opening delimiter of an action, with or without the trim marker. -/
  | opening
  /-- The closing delimiter of an action. -/
  | closing
  | word (w : Word)
  /-- The variable `$`, the context that the code runs with. -/
  | context
  /-- The variable `$_`, whose value nobody reads. -/
  | blank
  /-- The sign that declares a variable. -/
  | declare
  | text (s : String)
  | leftParen
  | rightParen
  deriving DecidableEq, Repr

/-- The variable with the given name, without its dollar sign. -/
def Lexeme.ofName? (name : List Char) : Option Lexeme :=
  [([], .context), (['_'], .blank)].lookup name

/-- Where the lexer stands. -/
inductive LexState where
  /-- Between actions. -/
  | outside
  /-- Behind the first brace of an opening delimiter. -/
  | openBrace
  /-- Behind the braces of an opening delimiter. -/
  | opened
  /-- Behind a trim marker. -/
  | trimmed
  /-- Inside an action, where a lexeme may begin. -/
  | inside
  /-- Inside an action, where an operand has just ended. -/
  | operandEnd
  | word (read : List Char)
  | dollar (read : List Char)
  /-- Behind the colon of a declaration. -/
  | colon
  | quoted (read : List Char)
  /-- Inside a literal, behind a backslash. -/
  | escaped (read : List Char)
  /-- Behind the first brace of a closing delimiter. -/
  | closeBrace
  deriving DecidableEq, Repr

namespace LexState

/-- What a character that ends an operand leads to. Operands are followed by a blank or by a closing
parenthesis. -/
def endOperand (l : Lexeme) (c : Char) : Option (LexState × List Lexeme) :=
  if c = ' ' then some (inside, [l])
  else if c = ')' then some (operandEnd, [l, .rightParen])
  else none

/-- What one character does. -/
def step : LexState → Char → Option (LexState × List Lexeme)
  | outside, c => if c = '{' then some (openBrace, []) else none
  | openBrace, c => if c = '{' then some (opened, [.opening]) else none
  | opened, c =>
    if c = ' ' then some (inside, [])
    else if c = '-' then some (trimmed, [])
    else none
  | trimmed, c => if c = ' ' then some (inside, []) else none
  | inside, c =>
    if c = ' ' then some (inside, [])
    else if c = '"' then some (quoted [], [])
    else if c = '$' then some (dollar [], [])
    else if c = ':' then some (colon, [])
    else if c = '(' then some (inside, [.leftParen])
    else if c = '}' then some (closeBrace, [])
    else if c.isAlpha then some (word [c], [])
    else none
  | operandEnd, c =>
    if c = ' ' then some (inside, [])
    else if c = ')' then some (operandEnd, [.rightParen])
    else none
  | word read, c =>
    if c.isAlphanum then some (word (read ++ [c]), [])
    else (Word.read? read).bind fun w => endOperand (.word w) c
  | dollar read, c =>
    if c.isAlphanum || c == '_' then some (dollar (read ++ [c]), [])
    else (Lexeme.ofName? read).bind fun l => endOperand l c
  | colon, c => if c = '=' then some (inside, [.declare]) else none
  | quoted read, c =>
    if c = '"' then some (operandEnd, [.text (String.ofList read)])
    else if c = '\\' then some (escaped read, [])
    else if c = '\n' then none
    else some (quoted (read ++ [c]), [])
  | escaped read, c =>
    if c = '"' || c = '\\' then some (quoted (read ++ [c]), [])
    else if c = 'n' then some (quoted (read ++ ['\n']), [])
    else none
  | closeBrace, c => if c = '}' then some (outside, [.closing]) else none

/-- Read characters from a state on. -/
def run (s : LexState) : List Char → Option (LexState × List Lexeme)
  | [] => some (s, [])
  | c :: cs =>
    (s.step c).bind fun now => (now.1.run cs).map fun later => (later.1, now.2 ++ later.2)

end LexState

/-- The lexemes of a text that is made of actions. -/
def lexemes? (cs : List Char) : Option (List Lexeme) :=
  match LexState.outside.run cs with
  | some (.outside, ls) => some ls
  | _ => none

/-! ## Readings -/

/-- Reading the characters leads from one state to another, and gives the lexemes. -/
def Lexes (s : LexState) (cs : List Char) (s' : LexState) (ls : List Lexeme) : Prop :=
  s.run cs = some (s', ls)

theorem Lexes.nil (s : LexState) : Lexes s [] s [] := rfl

/-- A text is read one character after the other. -/
theorem Lexes.cons {s s' s'' : LexState} {c : Char} {cs : List Char} {ls ls' : List Lexeme}
    (hstep : s.step c = some (s', ls)) (h : Lexes s' cs s'' ls') :
    Lexes s (c :: cs) s'' (ls ++ ls') := by
  unfold Lexes at h ⊢
  rw [LexState.run, hstep, Option.bind_some, h]
  rfl

/-- Two readings in a row. Induction on the characters of the first one. -/
theorem Lexes.append {s s' s'' : LexState} {cs ds : List Char} {ls ms : List Lexeme}
    (h : Lexes s cs s' ls) (h' : Lexes s' ds s'' ms) : Lexes s (cs ++ ds) s'' (ls ++ ms) := by
  induction cs generalizing s ls with
  | nil =>
    cases h
    exact h'
  | cons c cs ih =>
    unfold Lexes LexState.run at h
    -- induction on the first text: each of its characters is read as if it were alone
    obtain ⟨now, hstep, hrun⟩ := Option.bind_eq_some_iff.mp h
    obtain ⟨later, hlater, heq⟩ := Option.map_eq_some_iff.mp hrun
    cases heq
    rw [List.cons_append, List.append_assoc]
    exact Lexes.cons hstep (ih hlater)

theorem lexemes?_eq_some {cs : List Char} {ls : List Lexeme}
    (h : Lexes .outside cs .outside ls) : lexemes? cs = some ls := by
  unfold lexemes?
  rw [h]

/-! ## Literals -/

/-- A written character is read as the character, whatever it is. -/
theorem lexes_literalChar (read : List Char) (c : Char) :
    Lexes (.quoted read) (literalChar c) (.quoted (read ++ [c])) [] := by
  unfold literalChar
  split
  · next h =>
    subst h
    rfl
  · next hquote =>
    split
    · next h =>
      subst h
      rfl
    · next hbackslash =>
      split
      · next h =>
        subst h
        rfl
      · next hbreak =>
        -- a character that needs no escape stands for itself
        have hstep : (LexState.quoted read).step c = some (.quoted (read ++ [c]), []) := by
          rw [LexState.step, if_neg hquote, if_neg hbackslash, if_neg hbreak]
        exact Lexes.cons hstep (Lexes.nil _)

/-- What is spelled in a literal is read as it was before. -/
theorem lexes_literalChars (read cs : List Char) :
    Lexes (.quoted read) (cs.flatMap literalChar) (.quoted (read ++ cs)) [] := by
  induction cs generalizing read with
  | nil =>
    rw [List.append_nil]
    exact Lexes.nil _
  | cons c cs ih =>
    have h := (lexes_literalChar read c).append (ih (read ++ [c]))
    rw [List.append_assoc] at h
    exact h

theorem toList_literal (s : String) :
    (literal s).toList = '"' :: (s.toList.flatMap literalChar ++ ['"']) := by
  unfold literal
  simp only [String.toList_append, String.toList_ofList]
  rfl

/-- A literal is read as the string that it was written for. -/
theorem lexes_literal (s : String) :
    Lexes .inside (literal s).toList .operandEnd [.text s] := by
  have hchars := lexes_literalChars [] s.toList
  rw [List.nil_append] at hchars
  -- all quotes of the string are escaped, so the next bare one ends the literal
  have hend : Lexes (.quoted s.toList) ['"'] .operandEnd [.text s] := by
    have hstep : (LexState.quoted s.toList).step '"'
        = some (.operandEnd, [.text (String.ofList s.toList)]) := rfl
    rw [String.ofList_toList] at hstep
    exact Lexes.cons hstep (Lexes.nil _)
  have hbegin : LexState.inside.step '"' = some (.quoted [], []) := rfl
  rw [toList_literal]
  exact Lexes.cons hbegin (hchars.append hend)

/-! ## Actions -/

/-- An action is read as its inside between two delimiters, with or without the trim marker. -/
theorem lexes_action {opening text : String} {ls : List Lexeme}
    (hopening : opening = openBraces ∨ opening = trimBraces)
    (h : Lexes .inside (text.toList ++ [' ']) .inside ls) :
    Lexes .outside (action opening text).toList .outside (.opening :: (ls ++ [.closing])) := by
  have hopen : Lexes .outside (opening.toList ++ [' ']) .inside [.opening] := by
    rcases hopening with rfl | rfl
    · rfl
    · rfl
  have hclose : Lexes .inside ['}', '}'] .outside [.closing] := rfl
  -- the blanks belong to the delimiter in front and to the inside
  have htext : (action opening text).toList
      = (opening.toList ++ [' ']) ++ ((text.toList ++ [' ']) ++ ['}', '}']) := by
    unfold action
    simp only [String.toList_append, List.append_assoc]
    rfl
  rw [htext]
  exact hopen.append (h.append hclose)

end TemplateCoverage.Template
