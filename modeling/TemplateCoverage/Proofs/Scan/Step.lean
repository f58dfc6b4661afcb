import TemplateCoverage.Scan.File
import Mathlib.Data.List.Forall2

/-!
# What one token does to a scan

The machine of `Scan/Nesting.lean` reads one token after the other. This module says once what each
kind of token does, so that nobody else opens `Nesting.step`:

* **`Token.role`**: the five things that a token can be to a scan.
* **`step_evaluated`, `step_opener`, `step_define`, `step_next`, `step_finish`**: the state after a
  token and what was found, one equation for each kind.
* **`run_append`**: reading two streams one after the other is reading them in a row.
* **`arms_run_closedBy`**: over a whole stream, the arms are those of the tokens that yield one, in
  order, and each shows the place, the keyword and the trim marker of its token.
* **`notesOf_scan`**: every note names the file that is scanned.
-/

namespace TemplateCoverage

/-- Whether a token closes an arm that a scan records: `else`, `else if` or `end`, outside of strings
that will be evaluated. -/
def Token.yields (t : Token) : Bool :=
  t.kind.closesArm && !t.inString

/-- What a token is to a scan. -/
inductive Token.Role (t : Token) : Prop where
  | evaluated (ht : t.inString = true)
  | opener (ht : t.inString = false) (word : Opener) (hkind : t.kind = .opener word)
  | define (ht : t.inString = false) (name : String) (hkind : t.kind = .define name)
  /-- `else` and `else if` do the same. -/
  | next (ht : t.inString = false) (hkind : t.kind = .elseArm ∨ t.kind = .elseIfArm)
  | finish (ht : t.inString = false) (hkind : t.kind = .endBlock)

/-- Every token has exactly one role, so a proof about a step has a case for each of them. -/
theorem Token.role (t : Token) : t.Role := by
  cases ht : t.inString with
  | true => exact .evaluated ht
  | false =>
    cases hkind : t.kind with
    | opener word => exact .opener ht word hkind
    | define name => exact .define ht name hkind
    | elseArm => exact .next ht (.inl hkind)
    | elseIfArm => exact .next ht (.inr hkind)
    | endBlock => exact .finish ht hkind

/-- The `else` of a block closes an arm. -/
theorem Token.yields_of_else {t : Token} (ht : t.inString = false)
    (hkind : t.kind = .elseArm ∨ t.kind = .elseIfArm) : t.yields = true := by
  rcases hkind with hkind | hkind
  · simp [yields, TokenKind.closesArm, ht, hkind]
  · simp [yields, TokenKind.closesArm, ht, hkind]

/-- So does an `end`, whatever it ends. -/
theorem Token.yields_of_end {t : Token} (ht : t.inString = false) (hkind : t.kind = .endBlock) :
    t.yields = true := by
  simp [yields, TokenKind.closesArm, ht, hkind]

/-- The arm shows the place, the keyword and the trim marker of the token. -/
structure Arm.ClosedBy (a : Arm) (t : Token) : Prop where
  trigger : a.trigger = t.kind.trigger
  tokenLine : a.tokenLine = t.line
  column : a.column = t.column
  trimLeft : a.trimLeft = t.trimLeft

namespace Finding

@[simp] theorem arms_nil : arms [] = [] := rfl

@[simp] theorem notes_nil : notes [] = [] := rfl

@[simp] theorem arms_append (a b : List Finding) : arms (a ++ b) = arms a ++ arms b :=
  List.filterMap_append

@[simp] theorem notes_append (a b : List Finding) : notes (a ++ b) = notes a ++ notes b :=
  List.filterMap_append

@[simp] theorem arms_cons_arm (a : Arm) (rest : List Finding) :
    arms (.arm a :: rest) = a :: arms rest := rfl

@[simp] theorem arms_cons_note (n : Note) (rest : List Finding) :
    arms (.note n :: rest) = arms rest := rfl

@[simp] theorem notes_cons_arm (a : Arm) (rest : List Finding) :
    notes (.arm a :: rest) = notes rest := rfl

@[simp] theorem notes_cons_note (n : Note) (rest : List Finding) :
    notes (.note n :: rest) = n :: notes rest := rfl

end Finding

namespace Nesting

/-! ## The equations of a step -/

/-- The note of a closing token that finds neither a block nor a body. -/
def strayNotes (file : String) (s : Nesting) (t : Token) : List Finding :=
  if s.isStray then [.note ⟨file, t.line, .strayClose⟩] else []

/-- The state after an arm: the frame is gone, and the place of the arm on its line is counted. -/
def closed (s : Nesting) (t : Token) : Nesting :=
  { (s.close t.line).2 with countedLine := t.line, counted := s.nextOccurrence t.line }

/-- What closing an arm comes to: its notes, then the arm. -/
theorem closeArm_eq (file : String) (s : Nesting) (t : Token) :
    s.closeArm file t = ((s.close t.line).1, s.closed t,
      s.strayNotes file t ++ [.arm (s.armOf t (s.close t.line).1)]) := rfl

/-- A token in the string that is evaluated is noted and does nothing else. -/
theorem step_evaluated {file : String} {s : Nesting} {t : Token} (ht : t.inString = true) :
    s.step file t = (s, [.note ⟨file, t.line, .tokenInString⟩]) := by
  unfold step
  rw [if_pos ht]

/-- A block opens on the line of its token, which is also the line of its decision. -/
theorem step_opener {file : String} {s : Nesting} {t : Token} {word : Opener}
    (ht : t.inString = false) (hk : t.kind = .opener word) :
    s.step file t = ({ s with frames := ⟨t.line, t.line⟩ :: s.frames }, []) := by
  unfold step
  rw [if_neg (by simp [ht]), hk]

/-- A named body replaces the one that is open, which is noted. -/
theorem step_define {file : String} {s : Nesting} {t : Token} {name : String}
    (ht : t.inString = false) (hk : t.kind = .define name) :
    s.step file t = ({ s with define := some ⟨name, t.line, s.frames.length⟩ },
      (s.define.map fun d =>
        Finding.note ⟨file, t.line, .replacedDefine name d.name d.line⟩).toList) := by
  unfold step
  rw [if_neg (by simp [ht]), hk]
  cases s.define <;> rfl

/-- `else` and `else if` close an arm and leave the frame of the next one. -/
theorem step_next {file : String} {s : Nesting} {t : Token} (ht : t.inString = false)
    (hk : t.kind = .elseArm ∨ t.kind = .elseIfArm) :
    s.step file t =
      ({ s.closed t with
          frames := ⟨t.line, (s.close t.line).1.decisionLine⟩ :: (s.closed t).frames },
        s.strayNotes file t ++ [.arm (s.armOf t (s.close t.line).1)]) := by
  unfold step
  rw [if_neg (by simp [ht])]
  rcases hk with hk | hk
  · rw [hk, closeArm_eq]
  · rw [hk, closeArm_eq]

/-- `end` closes an arm, and the open body if it found no block of it. -/
theorem step_finish {file : String} {s : Nesting} {t : Token} (ht : t.inString = false)
    (hk : t.kind = .endBlock) :
    s.step file t =
      (if s.define.any fun d => s.frames.length ≤ d.depth then { s.closed t with define := none }
        else s.closed t,
        s.strayNotes file t ++ [.arm (s.armOf t (s.close t.line).1)]) := by
  unfold step
  rw [if_neg (by simp [ht]), hk, closeArm_eq]

/-! ## Runs -/

@[simp] theorem run_nil (file : String) (s : Nesting) : s.run file [] = (s, []) := rfl

/-- A run is a step and a run from where the step has led. -/
theorem run_cons (file : String) (s : Nesting) (t : Token) (ts : List Token) :
    s.run file (t :: ts) =
      (((s.step file t).1.run file ts).1,
        (s.step file t).2 ++ ((s.step file t).1.run file ts).2) := rfl

/-- Two streams in a row. -/
theorem run_append (file : String) (s : Nesting) (ts us : List Token) :
    s.run file (ts ++ us) =
      (((s.run file ts).1.run file us).1,
        (s.run file ts).2 ++ ((s.run file ts).1.run file us).2) := by
  induction ts generalizing s with
  | nil => simp
  | cons t ts ih =>
    -- the findings of the first token stand in front of both
    rw [List.cons_append, run_cons, ih, run_cons]
    simp only [List.append_assoc]

/-! ## The arms of a run -/

/-- Notes are no arms. -/
theorem arms_strayNotes (file : String) (s : Nesting) (t : Token) :
    Finding.arms (s.strayNotes file t) = [] := by
  unfold strayNotes
  split <;> rfl

/-- One token yields at most one arm, and its place is that of the token. -/
theorem arms_step (file : String) (s : Nesting) (t : Token) :
    Finding.arms (s.step file t).2 =
      if t.yields then [s.armOf t (s.close t.line).1] else [] := by
  cases t.role with
  | evaluated ht =>
    rw [step_evaluated ht]
    simp [Token.yields, ht]
  | opener ht word hkind =>
    rw [step_opener ht hkind]
    simp [Token.yields, TokenKind.closesArm, hkind]
  | define ht name hkind =>
    -- the note of a replaced body is no arm
    rw [step_define ht hkind]
    cases s.define <;> simp [Token.yields, TokenKind.closesArm, hkind]
  | next ht hkind =>
    rw [step_next ht hkind]
    simp [Token.yields_of_else ht hkind, arms_strayNotes]
  | finish ht hkind =>
    rw [step_finish ht hkind]
    simp [Token.yields_of_end ht hkind, arms_strayNotes]

/-- The arms of a run begin with that of its first token, if the token yields one. -/
theorem arms_run_cons (file : String) (s : Nesting) (t : Token) (ts : List Token) :
    Finding.arms (s.run file (t :: ts)).2 =
      (if t.yields then [s.armOf t (s.close t.line).1] else [])
        ++ Finding.arms ((s.step file t).1.run file ts).2 := by
  rw [run_cons, Finding.arms_append, arms_step]

/-- An arm of a run is the one that the first token closes, or an arm of the rest. -/
theorem mem_arms_run_cons {file : String} {s : Nesting} {t : Token} {ts : List Token} {a : Arm} :
    a ∈ Finding.arms (s.run file (t :: ts)).2
      ↔ t.yields = true ∧ a = s.armOf t (s.close t.line).1
        ∨ a ∈ Finding.arms ((s.step file t).1.run file ts).2 := by
  rw [arms_run_cons, List.mem_append]
  split <;> simp [*]

theorem closedBy_armOf (s : Nesting) (t : Token) (frame : Frame) : (s.armOf t frame).ClosedBy t :=
  ⟨rfl, rfl, rfl, rfl⟩

/-- The arms of a run are those of the tokens that yield one, in order. Induction on the stream. -/
theorem arms_run_closedBy (file : String) (s : Nesting) (ts : List Token) :
    List.Forall₂ Arm.ClosedBy (Finding.arms (s.run file ts).2) (ts.filter Token.yields) := by
  induction ts generalizing s with
  | nil => exact .nil
  | cons t ts ih =>
    rw [arms_run_cons]
    cases hy : t.yields with
    | true =>
      rw [if_pos rfl, List.filter_cons_of_pos hy]
      exact .cons (s.closedBy_armOf t _) (ih _)
    | false =>
      rw [if_neg (by simp), List.filter_cons_of_neg (by simp [hy])]
      exact ih _

/-- What is still open at the end of a file makes notes and no arms. -/
theorem arms_unclosed (file : String) (s : Nesting) : Finding.arms (s.unclosed file) = [] := by
  unfold unclosed
  rw [Finding.arms_append]
  -- one note for each frame, whatever the frames are
  have hframes : Finding.arms (s.frames.reverse.map fun f =>
      Finding.note ⟨file, f.line, .openBlock⟩) = [] := by
    induction s.frames.reverse with
    | nil => rfl
    | cons f fs ih => simpa using ih
  rw [hframes]
  cases s.define <;> rfl

end Nesting

/-- The arms of a scan are those of its run. -/
theorem arms_scanTokens (file : String) (tokens : List Token) :
    Finding.arms (scanTokens file tokens) = Finding.arms (Nesting.run file {} tokens).2 := by
  unfold scanTokens
  simp [Nesting.arms_unclosed]

/-- The arms of a scan are those of the tokens that yield one, in order. -/
theorem arms_scanTokens_closedBy (file : String) (tokens : List Token) :
    List.Forall₂ Arm.ClosedBy (Finding.arms (scanTokens file tokens))
      (tokens.filter Token.yields) := by
  rw [arms_scanTokens]
  exact Nesting.arms_run_closedBy file {} tokens

/-! ## Notes -/

/-- All notes are about the given file. -/
def NotesOf (file : String) (findings : List Finding) : Prop :=
  ∀ n ∈ Finding.notes findings, n.file = file

theorem NotesOf.append {file : String} {a b : List Finding} (ha : NotesOf file a)
    (hb : NotesOf file b) : NotesOf file (a ++ b) := by
  intro n hn
  rw [Finding.notes_append] at hn
  rcases List.mem_append.mp hn with hn | hn
  · exact ha n hn
  · exact hb n hn

namespace Nesting

theorem notesOf_strayNotes (file : String) (s : Nesting) (t : Token) :
    NotesOf file (s.strayNotes file t) := by
  unfold strayNotes
  split
  · simp [NotesOf]
  · simp [NotesOf]

/-- All that a step notes is about the file of the scan and one of the lines of its token. -/
theorem notesOf_step (file : String) (s : Nesting) (t : Token) :
    NotesOf file (s.step file t).2 := by
  have harm : ∀ a : Arm, NotesOf file [.arm a] := fun a n hn => nomatch hn
  -- only the tokens that close arms come with notes of their own besides the arm
  cases t.role with
  | evaluated ht =>
    rw [step_evaluated ht]
    simp [NotesOf]
  | opener ht word hkind =>
    rw [step_opener ht hkind]
    simp [NotesOf]
  | define ht name hkind =>
    rw [step_define ht hkind]
    cases s.define <;> simp [NotesOf]
  | next ht hkind =>
    rw [step_next ht hkind]
    exact (s.notesOf_strayNotes file t).append (harm _)
  | finish ht hkind =>
    rw [step_finish ht hkind]
    exact (s.notesOf_strayNotes file t).append (harm _)

/-- So it is with all notes of a run. -/
theorem notesOf_run (file : String) (s : Nesting) (ts : List Token) :
    NotesOf file (s.run file ts).2 := by
  induction ts generalizing s with
  | nil => simp [NotesOf]
  | cons t ts ih =>
    rw [run_cons]
    exact (s.notesOf_step file t).append (ih _)

theorem notesOf_unclosed (file : String) (s : Nesting) : NotesOf file (s.unclosed file) := by
  unfold unclosed
  refine NotesOf.append ?_ ?_
  · induction s.frames.reverse with
    | nil => simp [NotesOf]
    | cons f fs ih => simpa [NotesOf] using ih
  · cases s.define <;> simp [NotesOf]

end Nesting

/-- The notes of a scan are about the file that is scanned. -/
theorem notesOf_scan (evaluators : List String) (file source : String) :
    NotesOf file (scan evaluators file source) :=
  (Nesting.notesOf_run file {} _).append (Nesting.notesOf_unclosed file _)

end TemplateCoverage
