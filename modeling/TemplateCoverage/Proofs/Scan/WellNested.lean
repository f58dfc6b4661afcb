import TemplateCoverage.Proofs.Scan.Step

/-!
# Well-nested streams of tokens

A grammar of control tokens beside the machine that scans them. The grammar knows what each closing
token closes, because it follows the constructs and not the tokens; the machine only keeps a stack
and the body it is in. The main statement, `scanTokens_of_wellNested`, says that the machine
recovers the grammar: on a well-nested stream the scan finds exactly the arms that the grammar names,
in order, and nothing else but the tokens in strings.

## The architecture

* **`Closing`**: what the grammar says of a closing token, and the arm that this makes (`Closing.arm`).
* **`WellNested`**: the grammar, with the closings of a derivation. A derivation stands at a
  `Level`: between constructs, or inside a construct whose current arm began at a given line.
* **`Nesting.Shows`**: from a state, a stream shows given closings and ends with given frames and a
  given body. It composes (`Shows.append`), so a derivation is followed piece by piece.
* **`shows_of_wellNested`**: the induction over the derivation. Its invariant is `Nesting.InScope`:
  the open body is the one of the grammar, and the blocks below its floor stay out of reach.
-/

namespace TemplateCoverage

/-! ## The grammar -/

/-- What a closing token closes. -/
structure Closing where
  token : Token
  /-- The line of the token that opened the arm. -/
  start : Nat
  /-- The line of the opener of the construct to which the arm belongs. -/
  decision : Nat
  /-- The name of the body that the arm stands in, if it stands in one. -/
  scope : Option String
  deriving DecidableEq, Repr

/-- The arm that a closing token closes, at a given place among the arms of its line. An arm that
began on an earlier line ends on the line before the token. -/
def Closing.arm (c : Closing) (occurrence : Nat) : Arm :=
  { trigger := c.token.kind.trigger
    define := c.scope
    tokenLine := c.token.line
    column := c.token.column
    occurrence
    startLine := c.start
    endLine := if c.token.line > c.start then c.token.line - 1 else c.token.line
    decisionLine := c.decision
    trimLeft := c.token.trimLeft }

/-- Where in the grammar a stream stands. -/
inductive Level where
  /-- Between constructs: the stream is a sequence of them. -/
  | body
  /-- In a construct that was opened at the line `decision`, in an arm that began at the line
  `start`: the stream ends with the `end` of the construct. -/
  | arm (start decision : Nat)

/-- `WellNested deep level scope tokens closings`: the tokens are well nested at the level, in the
named body `scope` if there is one, and their closing tokens close what `closings` says. Named bodies
may stand anywhere, but inside one another only if `deep` holds. Tokens in strings may stand
anywhere, whatever they are. -/
inductive WellNested (deep : Prop) : Level → Option String → List Token → List Closing → Prop where
  | empty {scope : Option String} : WellNested deep .body scope [] []
  | evaluated {scope : Option String} {t : Token} {ts : List Token} {cs : List Closing}
      (ht : t.inString = true)
      (rest : WellNested deep .body scope ts cs) :
      WellNested deep .body scope (t :: ts) cs
  /-- `if`, `with` or `range`, up to its `end`, and what follows it. -/
  | block {scope : Option String} {t : Token} {word : Opener} {ts us : List Token}
      {cs ds : List Closing}
      (ht : t.inString = false) (hkind : t.kind = .opener word)
      (arms : WellNested deep (.arm t.line t.line) scope ts cs)
      (rest : WellNested deep .body scope us ds) :
      WellNested deep .body scope (t :: ts ++ us) (cs ++ ds)
  /-- `define` or `block` with a name, its body, its `end`, and what follows it. -/
  | define {scope : Option String} {t e : Token} {name : String} {ts us : List Token}
      {cs ds : List Closing}
      (hplace : scope = none ∨ deep)
      (ht : t.inString = false) (hkind : t.kind = .define name)
      (body : WellNested deep .body (some name) ts cs)
      (he : e.inString = false) (hend : e.kind = .endBlock)
      (rest : WellNested deep .body scope us ds) :
      WellNested deep .body scope (t :: ts ++ e :: us) (cs ++ ⟨e, t.line, t.line, some name⟩ :: ds)
  /-- The last arm of a construct, and its `end`. -/
  | finish {scope : Option String} {start decision : Nat} {e : Token} {ts : List Token}
      {cs : List Closing}
      (body : WellNested deep .body scope ts cs)
      (he : e.inString = false) (hend : e.kind = .endBlock) :
      WellNested deep (.arm start decision) scope (ts ++ [e]) (cs ++ [⟨e, start, decision, scope⟩])
  /-- An arm of a construct, the `else` or `else if` after it, and the further arms. -/
  | next {scope : Option String} {start decision : Nat} {e : Token} {ts us : List Token}
      {cs ds : List Closing}
      (body : WellNested deep .body scope ts cs)
      (he : e.inString = false) (helse : e.kind = .elseArm ∨ e.kind = .elseIfArm)
      (rest : WellNested deep (.arm e.line decision) scope us ds) :
      WellNested deep (.arm start decision) scope (ts ++ e :: us)
        (cs ++ ⟨e, start, decision, scope⟩ :: ds)

/-- The notes of the tokens in strings. -/
def evaluatedNotes (file : String) (tokens : List Token) : List Note :=
  (tokens.filter (·.inString)).map fun t => ⟨file, t.line, .tokenInString⟩

theorem evaluatedNotes_append (file : String) (ts us : List Token) :
    evaluatedNotes file (ts ++ us) = evaluatedNotes file ts ++ evaluatedNotes file us := by
  unfold evaluatedNotes
  rw [List.filter_append, List.map_append]

/-- A token outside of strings makes no note of its own. -/
theorem evaluatedNotes_singleton {file : String} {t : Token} (ht : t.inString = false) :
    evaluatedNotes file [t] = [] := by
  unfold evaluatedNotes
  rw [List.filter_cons_of_neg (by simp [ht])]
  rfl

/-- The closings of a derivation are those of the tokens that yield an arm, in order. Induction on
the derivation. -/
theorem WellNested.map_token {deep : Prop} {level : Level} {scope : Option String}
    {tokens : List Token} {closings : List Closing}
    (h : WellNested deep level scope tokens closings) :
    closings.map (·.token) = tokens.filter Token.yields := by
  induction h with
  | empty => rfl
  | @evaluated _ t _ _ ht _ ih =>
    rw [List.filter_cons_of_neg (by simp [Token.yields, ht]), ih]
  | @block _ t _ _ _ _ _ _ hkind _ _ iharms ihrest =>
    have hy : t.yields = false := by simp [Token.yields, TokenKind.closesArm, hkind]
    rw [List.cons_append, List.filter_cons_of_neg (by simp [hy]), List.filter_append,
      List.map_append, iharms, ihrest]
  | @define _ t e _ _ _ _ _ _ _ hkind _ he hend _ ihbody ihrest =>
    -- the name yields no arm, but its `end` does
    have ht : t.yields = false := by simp [Token.yields, TokenKind.closesArm, hkind]
    have hy : e.yields = true := Token.yields_of_end he hend
    rw [List.cons_append, List.filter_cons_of_neg (by simp [ht]), List.filter_append,
      List.filter_cons_of_pos hy, List.map_append, List.map_cons, ihbody, ihrest]
  | @finish _ _ _ e _ _ _ he hend ih =>
    have hy : e.yields = true := Token.yields_of_end he hend
    rw [List.filter_append, List.filter_cons_of_pos hy, List.map_append, ih]
    rfl
  | @next _ _ _ e _ _ _ _ _ he helse _ ihbody ihrest =>
    have hy : e.yields = true := Token.yields_of_else he helse
    rw [List.filter_append, List.filter_cons_of_pos hy, List.map_append, List.map_cons, ihbody,
      ihrest]

/-! ## What a stream shows -/

namespace Nesting

/-- The arms are those that the closings describe, one for one. -/
def Describe (closings : List Closing) (arms : List Arm) : Prop :=
  List.Forall₂ (fun c a => a = Closing.arm c a.occurrence) closings arms

/-- From the state `s` the tokens show the closings and no irregularity, and they leave the frames
and the open body behind. -/
structure Shows (file : String) (s : Nesting) (tokens : List Token) (closings : List Closing)
    (frames : List Frame) (define : Option OpenDefine) : Prop where
  frames : (s.run file tokens).1.frames = frames
  define : (s.run file tokens).1.define = define
  arms : Describe closings (Finding.arms (s.run file tokens).2)
  notes : Finding.notes (s.run file tokens).2 = evaluatedNotes file tokens

/-- No token shows nothing. -/
theorem Shows.nil (file : String) (s : Nesting) : Shows file s [] [] s.frames s.define :=
  ⟨rfl, rfl, .nil, rfl⟩

/-- Two streams in a row show the closings of both. The second one is known from every state that
agrees with the first one's last state on what is open, since no equation of a step looks at the
count of arms but to number them. -/
theorem Shows.append {file : String} {s : Nesting} {ts us : List Token} {cs ds : List Closing}
    {frames frames' : List Frame} {define define' : Option OpenDefine}
    (hts : Shows file s ts cs frames define)
    (hus : ∀ s' : Nesting, s'.frames = frames → s'.define = define →
      Shows file s' us ds frames' define') :
    Shows file s (ts ++ us) (cs ++ ds) frames' define' := by
  -- the second stream is read from the state that the first one leaves behind
  have hrest := hus (s.run file ts).1 hts.frames hts.define
  refine ⟨?_, ?_, ?_, ?_⟩
  · rw [run_append]
    exact hrest.frames
  · rw [run_append]
    exact hrest.define
  · rw [run_append, Finding.arms_append]
    exact List.rel_append hts.arms hrest.arms
  · rw [run_append, Finding.notes_append, evaluatedNotes_append, hts.notes, hrest.notes]

/-- What a single token shows can be read off its step. -/
theorem Shows.singleton (file : String) (s : Nesting) (t : Token) (cs : List Closing)
    (harms : Describe cs (Finding.arms (s.step file t).2))
    (hnotes : Finding.notes (s.step file t).2 = evaluatedNotes file [t]) :
    Shows file s [t] cs (s.step file t).1.frames (s.step file t).1.define := by
  refine ⟨rfl, rfl, ?_, ?_⟩
  · rw [run_cons, run_nil, List.append_nil]
    exact harms
  · rw [run_cons, run_nil, List.append_nil]
    exact hnotes

/-- A token in a string is noted and changes nothing. -/
theorem shows_evaluated (file : String) (s : Nesting) {t : Token} (ht : t.inString = true) :
    Shows file s [t] [] s.frames s.define := by
  have h := Shows.singleton file s t []
  rw [step_evaluated ht] at h
  refine h .nil ?_
  unfold evaluatedNotes
  rw [List.filter_cons_of_pos ht]
  rfl

/-- An opener pushes a frame of its own line. -/
theorem shows_opener (file : String) (s : Nesting) {t : Token} {word : Opener}
    (ht : t.inString = false) (hkind : t.kind = .opener word) :
    Shows file s [t] [] (⟨t.line, t.line⟩ :: s.frames) s.define := by
  have h := Shows.singleton file s t []
  rw [step_opener ht hkind] at h
  exact h .nil (evaluatedNotes_singleton ht).symm

/-- Outside of named bodies, a name opens one whose floor is the number of open blocks. -/
theorem shows_define (file : String) (s : Nesting) {t : Token} {name : String}
    (ht : t.inString = false) (hkind : t.kind = .define name) (hs : s.define = none) :
    Shows file s [t] [] s.frames (some ⟨name, t.line, s.frames.length⟩) := by
  have h := Shows.singleton file s t []
  rw [step_define ht hkind, hs] at h
  exact h .nil (evaluatedNotes_singleton ht).symm

/-! ## What a closing token closes -/

/-- The open body is the one of the grammar, and `outer`, the frames that stay open, reach up to its
floor. -/
structure InScope (define : Option OpenDefine) (scope : Option String) (outer : List Frame) :
    Prop where
  name : define.map (·.name) = scope
  floor : ∀ d ∈ define, d.depth ≤ outer.length

/-- One more open frame is above the floor as well. -/
theorem InScope.cons {define : Option OpenDefine} {scope : Option String} {outer : List Frame}
    (h : InScope define scope outer) (frame : Frame) : InScope define scope (frame :: outer) :=
  ⟨h.name, fun d hd => Nat.le_succ_of_le (h.floor d hd)⟩

/-- No frame of an arm that is open is below the floor. -/
theorem floor_le {s : Nesting} {scope : Option String} {outer : List Frame}
    (h : InScope s.define scope outer) : s.floor ≤ outer.length := by
  unfold floor
  cases hd : s.define with
  | none => exact Nat.zero_le _
  | some d => exact h.floor d hd

/-- Above the floor, the innermost frame is the one that is closed. -/
theorem close_above {s : Nesting} {frame : Frame} {outer : List Frame}
    (hframes : s.frames = frame :: outer) (hfloor : s.floor ≤ outer.length) (line : Nat) :
    s.close line = (frame, { s with frames := outer }) := by
  -- there is a frame above the floor, so it is the one that is closed
  have hlt : s.floor < s.frames.length := by
    rw [hframes, List.length_cons]
    omega
  unfold close
  split
  · next f fs hs =>
    rw [hframes] at hs
    cases hs
    rw [if_pos hlt]
  · next hs =>
    rw [hframes] at hs
    cases hs

/-- At the floor, the line of the open body stands in for a frame. -/
theorem close_at_floor {s : Nesting} {d : OpenDefine} (hd : s.define = some d)
    (hdepth : d.depth = s.frames.length) (line : Nat) :
    s.close line = (⟨d.line, d.line⟩, s) := by
  have hfloor : ¬ s.floor < s.frames.length := by
    unfold floor
    rw [hd]
    simp [hdepth]
  have hstand : close.standIn s line = ⟨d.line, d.line⟩ := by
    unfold close.standIn
    rw [hd]
  unfold close
  split
  · rw [if_neg hfloor, hstand]
  · rw [hstand]

/-- A token that closes an open arm is not astray. -/
theorem strayNotes_of_frame {file : String} {s : Nesting} {frame : Frame} {outer : List Frame}
    (hframes : s.frames = frame :: outer) (t : Token) : s.strayNotes file t = [] := by
  unfold strayNotes isStray
  rw [hframes]
  rfl

/-- Nor is one that leaves a body. -/
theorem strayNotes_of_define {file : String} {s : Nesting} {d : OpenDefine}
    (hd : s.define = some d) (t : Token) : s.strayNotes file t = [] := by
  unfold strayNotes isStray
  rw [hd]
  simp

/-- The arm of a frame in the scope of the grammar is the one that the grammar describes. -/
theorem describe_armOf {s : Nesting} {t : Token} {scope : Option String} {start decision : Nat}
    (hscope : s.define.map (·.name) = scope) :
    Describe [⟨t, start, decision, scope⟩] [s.armOf t ⟨start, decision⟩] := by
  refine .cons ?_ .nil
  subst hscope
  rfl

/-- The `end` of a construct closes its last arm and leaves the outer frames and the body. -/
theorem shows_finish (file : String) {s : Nesting} {e : Token} {scope : Option String}
    {start decision : Nat} {outer : List Frame}
    (he : e.inString = false) (hend : e.kind = .endBlock)
    (hframes : s.frames = ⟨start, decision⟩ :: outer) (hin : InScope s.define scope outer) :
    Shows file s [e] [⟨e, start, decision, scope⟩] outer s.define := by
  have hclose := close_above hframes (floor_le hin) e.line
  -- an open body was opened no deeper than `outer`, so this `end` is not its own
  have hkeeps : (s.define.any fun d => s.frames.length ≤ d.depth) = false := by
    cases hd : s.define with
    | none => rfl
    | some d =>
      have hdepth := hin.floor d hd
      simp only [Option.any_some, hframes, List.length_cons, decide_eq_false_iff_not]
      omega
  have h := Shows.singleton file s e [⟨e, start, decision, scope⟩]
  rw [step_finish he hend, hkeeps, strayNotes_of_frame hframes, hclose, List.nil_append] at h
  unfold closed at h
  rw [hclose] at h
  exact h (describe_armOf hin.name) (evaluatedNotes_singleton he).symm

/-- `else` and `else if` close an arm and open the next one of the same decision. -/
theorem shows_next (file : String) {s : Nesting} {e : Token} {scope : Option String}
    {start decision : Nat} {outer : List Frame}
    (he : e.inString = false) (helse : e.kind = .elseArm ∨ e.kind = .elseIfArm)
    (hframes : s.frames = ⟨start, decision⟩ :: outer) (hin : InScope s.define scope outer) :
    Shows file s [e] [⟨e, start, decision, scope⟩] (⟨e.line, decision⟩ :: outer) s.define := by
  have hclose := close_above hframes (floor_le hin) e.line
  have h := Shows.singleton file s e [⟨e, start, decision, scope⟩]
  rw [step_next he helse, strayNotes_of_frame hframes, hclose, List.nil_append] at h
  unfold closed at h
  rw [hclose] at h
  exact h (describe_armOf hin.name) (evaluatedNotes_singleton he).symm

/-- The `end` of a named body closes an arm that began with the body, and the body. -/
theorem shows_terminator (file : String) {s : Nesting} {e : Token} {d : OpenDefine}
    (he : e.inString = false) (hend : e.kind = .endBlock)
    (hd : s.define = some d) (hdepth : d.depth = s.frames.length) :
    Shows file s [e] [⟨e, d.line, d.line, some d.name⟩] s.frames none := by
  have hclose := close_at_floor hd hdepth e.line
  -- no block of the body is open any more, so this `end` is that of the body
  have hcloses : (s.define.any fun d => s.frames.length ≤ d.depth) = true := by
    rw [hd]
    simp [hdepth]
  have h := Shows.singleton file s e [⟨e, d.line, d.line, some d.name⟩]
  rw [step_finish he hend, hcloses, strayNotes_of_define hd, hclose, List.nil_append] at h
  unfold closed at h
  rw [hclose] at h
  refine h (describe_armOf ?_) (evaluatedNotes_singleton he).symm
  rw [hd]
  rfl

/-! ## Derivations -/

end Nesting

/-- The frames at the beginning of a stream that leaves `outer` behind. -/
def Level.entry : Level → List Frame → List Frame
  | .body, outer => outer
  | .arm start decision, outer => ⟨start, decision⟩ :: outer

namespace Nesting

/-- **The machine follows the grammar.** Induction on the derivation, for every state that is in the
scope of the grammar: each piece of the stream gives back the frames and the body with which the
next piece begins. -/
theorem shows_of_wellNested (file : String) {level : Level} {scope : Option String}
    {tokens : List Token} {closings : List Closing}
    (h : WellNested False level scope tokens closings) :
    ∀ (s : Nesting) (outer : List Frame) (define : Option OpenDefine),
      s.frames = level.entry outer → s.define = define → InScope define scope outer →
      Shows file s tokens closings outer define := by
  induction h with
  | empty =>
    intro s outer define hframes hdefine _
    have hframes : s.frames = outer := hframes
    rw [← hframes, ← hdefine]
    exact Shows.nil file s
  | evaluated ht _ ih =>
    intro s outer define hframes hdefine hin
    have hfirst := shows_evaluated file s ht
    exact hfirst.append fun s' hf hd => ih s' outer define (hf.trans hframes) (hd.trans hdefine) hin
  | block ht hkind _ _ iharms ihrest =>
    intro s outer define hframes hdefine hin
    have hfirst := shows_opener file s ht hkind
    refine hfirst.append fun s₁ hf₁ hd₁ => ?_
    -- the arms start with the frame of the opener, and end without it
    rw [hframes] at hf₁
    have harms := iharms s₁ outer define hf₁ (hd₁.trans hdefine) hin
    exact harms.append fun s₂ hf₂ hd₂ => ihrest s₂ outer define hf₂ hd₂ hin
  | @define scope t e name _ _ _ _ hplace ht hkind _ he hend _ ihbody ihrest =>
    intro s outer define hframes hdefine hin
    -- no other body is open, so none is replaced
    have hscope : scope = none := hplace.resolve_right id
    have hnone : define = none := Option.map_eq_none_iff.mp (hin.name.trans hscope)
    have hfirst := shows_define file s ht hkind (hdefine.trans hnone)
    refine hfirst.append fun s₁ hf₁ hd₁ => ?_
    -- the floor of the body is the number of the frames around it, and they are there again at its end
    have hlen : s.frames.length = outer.length := congrArg List.length hframes
    have hbody := ihbody s₁ outer _ (hf₁.trans hframes) hd₁
      ⟨rfl, fun d hd => by cases hd; exact Nat.le_of_eq hlen⟩
    refine hbody.append fun s₂ hf₂ hd₂ => ?_
    have hend := shows_terminator file he hend hd₂ (hlen.trans (by rw [hf₂]))
    refine hend.append fun s₃ hf₃ hd₃ => ?_
    exact ihrest s₃ outer define (hf₃.trans hf₂) (hd₃.trans hnone.symm) hin
  | finish _ he hend ih =>
    intro s outer define hframes hdefine hin
    -- inside of the arm one more frame is open
    have hbody := ih s _ define hframes hdefine (hin.cons _)
    refine hbody.append fun s₁ hf₁ hd₁ => ?_
    have hlast := shows_finish file he hend hf₁ (by rw [hd₁]; exact hin)
    rwa [hd₁] at hlast
  | next _ he helse _ ihbody ihrest =>
    intro s outer define hframes hdefine hin
    have hbody := ihbody s _ define hframes hdefine (hin.cons _)
    refine hbody.append fun s₁ hf₁ hd₁ => ?_
    -- the frame of the next arm keeps the line of the decision
    have harm := shows_next file he helse hf₁ (by rw [hd₁]; exact hin)
    exact harm.append fun s₂ hf₂ hd₂ => ihrest s₂ outer define hf₂ (hd₂.trans hd₁) hin

end Nesting

end TemplateCoverage
