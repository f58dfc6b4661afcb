import TemplateCoverage.Proofs.Scan.Scope

/-!
# Balanced streams

A scan tolerates closing tokens without a block and blocks without an `end`, and notes both. Where no
named body is open, a closing token takes a block if there is one, and nothing else becomes of a block.
So the notes make up for the difference between openers and `end`s.

* **`Guarded`**: with so many blocks open before, each closing token of a stream has one to close.
* **`demand`**: the least number of blocks with which this is so (`demand_le_iff`).
* **`openArms`**: the tokens that begin an arm which nothing closes.
* **`lines_step`, `strays_step`**: what one token makes of the open blocks.
* **`count_run`, `strays_run`, `lines_run`**: what a run makes of them. The machine runs out of blocks
  exactly if they are fewer than the demand, and it is left with what the demand leaves of them, and with
  the arms that nothing closes.
* **`scan_balance`**: so the notes of a scan report imbalance and nothing else.
-/

namespace TemplateCoverage

namespace Token

/-- Whether the token opens a block, outside of strings. -/
def startsBlock (t : Token) : Bool :=
  !t.inString && t.kind.opens

/-- Whether the token ends a block, outside of strings. -/
def endsBlock (t : Token) : Bool :=
  !t.inString && t.kind = .endBlock

/-- Whether an arm begins behind the token, the first one of a block or another one. -/
def startsArm (t : Token) : Bool :=
  !t.inString && (t.kind.opens || t.kind = .elseArm || t.kind = .elseIfArm)

/-- A token begins an arm where it opens a block or closes an arm without an end of the block. -/
theorem startsArm_add_endsBlock (t : Token) :
    t.startsArm.toNat + t.endsBlock.toNat = t.startsBlock.toNat + t.yields.toNat := by
  unfold startsArm endsBlock startsBlock yields
  cases t.inString with
  | true => simp
  | false => cases t.kind <;> rfl

/-- An `end` closes an arm. -/
theorem endsBlock_le_yields (t : Token) : t.endsBlock.toNat ≤ t.yields.toNat := by
  unfold endsBlock yields
  cases t.inString with
  | true => simp
  | false => cases t.kind <;> simp [TokenKind.closesArm]

end Token

/-- The number of blocks that are opened. -/
def openings (ts : List Token) : Nat :=
  ts.countP Token.startsBlock

/-- The number of blocks that are ended. -/
def endings (ts : List Token) : Nat :=
  ts.countP Token.endsBlock

/-- With `n` blocks open before the stream, each `else`, `else if` and `end` stands where a block is
open. -/
def Guarded (n : Nat) (ts : List Token) : Prop :=
  ∀ front t back, ts = front ++ t :: back → t.yields = true → endings front < n + openings front

/-- Every closing token stands where a block is open, and no block is open at the end. -/
structure Balanced (ts : List Token) : Prop where
  guarded : Guarded 0 ts
  total : openings ts = endings ts

/-- The number of blocks that have to be open before the stream. -/
def demand : List Token → Nat
  | [] => 0
  | t :: ts => max t.yields.toNat (demand ts + t.endsBlock.toNat - t.startsBlock.toNat)

/-! ## The demand of a stream -/

/-- A count is that of the rest, and one more if the first item is counted. -/
theorem countP_cons_toNat {α : Type} (p : α → Bool) (a : α) (l : List α) :
    (a :: l).countP p = l.countP p + (p a).toNat := by
  rw [List.countP_cons]
  cases p a <;> rfl

theorem openings_cons (t : Token) (ts : List Token) :
    openings (t :: ts) = openings ts + t.startsBlock.toNat :=
  countP_cons_toNat ..

theorem endings_cons (t : Token) (ts : List Token) :
    endings (t :: ts) = endings ts + t.endsBlock.toNat :=
  countP_cons_toNat ..

/-- The first token stands where the blocks before the stream are open, and the others where it has added
or taken its own. -/
theorem guarded_cons {n : Nat} {t : Token} {ts : List Token} :
    Guarded n (t :: ts) ↔ t.yields.toNat ≤ n
      ∧ Guarded (n + t.startsBlock.toNat - t.endsBlock.toNat) ts := by
  have hends := t.endsBlock_le_yields
  constructor
  · -- the first token, and then any later one with the first among those before it
    intro h
    have hfirst : t.yields.toNat ≤ n := by
      cases hy : t.yields with
      | true => exact h [] t ts rfl hy
      | false => exact Nat.zero_le n
    refine ⟨hfirst, fun front u back hts hu => ?_⟩
    have hlater := h (t :: front) u back (by rw [hts, List.cons_append]) hu
    rw [openings_cons, endings_cons] at hlater
    omega
  · rintro ⟨hfirst, hlater⟩ front u back hts hu
    cases front with
    | nil =>
      obtain ⟨rfl, -⟩ := List.cons.inj hts
      rw [hu] at hfirst
      exact hfirst
    | cons v front =>
      rw [List.cons_append] at hts
      obtain ⟨rfl, hback⟩ := List.cons.inj hts
      have hrest := hlater front u back hback hu
      -- the count in front of a later token includes the first one
      rw [openings_cons, endings_cons]
      omega

/-- A stream is guarded by as many blocks as it demands, and by no fewer. Induction on the stream, for
every number of blocks. -/
theorem demand_le_iff {n : Nat} {ts : List Token} : demand ts ≤ n ↔ Guarded n ts := by
  induction ts generalizing n with
  | nil =>
    refine ⟨fun _ front t back h => ?_, fun _ => Nat.zero_le n⟩
    exact absurd h.symm (List.append_ne_nil_of_right_ne_nil _ (List.cons_ne_nil _ _))
  | cons t ts ih =>
    have hends := t.endsBlock_le_yields
    rw [guarded_cons, ← ih, demand, Nat.max_le]
    exact and_congr_right fun hfirst => by omega

instance (n : Nat) (ts : List Token) : Decidable (Guarded n ts) :=
  decidable_of_iff _ demand_le_iff

instance (ts : List Token) : Decidable (Balanced ts) :=
  decidable_of_iff (Guarded 0 ts ∧ openings ts = endings ts)
    ⟨fun h => ⟨h.1, h.2⟩, fun h => ⟨h.1, h.2⟩⟩

/-- The tokens that begin an arm which nothing closes: the closing tokens behind them have blocks of
their own. -/
def openArms : List Token → List Token
  | [] => []
  | t :: ts => if t.startsArm ∧ Guarded 0 ts then t :: openArms ts else openArms ts

/-! ## Blocks of a run -/

/-- What is noted of a closing token without a block. -/
def strayMessage : String :=
  "closing token without an open block"

/-- What is noted of a block without an end. -/
def openMessage : String :=
  "block opened here is never closed"

namespace Finding

/-- The notes with a given message. -/
def withMessage (message : String) (findings : List Finding) : List Note :=
  (notes findings).filter (·.message = message)

/-- Notes with one message are those of both parts. -/
theorem withMessage_append (message : String) (a b : List Finding) :
    withMessage message (a ++ b) = withMessage message a ++ withMessage message b := by
  unfold withMessage
  rw [notes_append, List.filter_append]

end Finding

namespace Nesting

variable {s : Nesting}

/-- Without a body, a closing token takes the innermost block. -/
theorem frames_closed_of_none (hs : s.define = none) (t : Token) :
    (s.closed t).frames = s.frames.tail := by
  have hfloor : s.floor = 0 := by
    unfold floor
    rw [hs]
  unfold closed close
  cases hframes : s.frames with
  | nil => exact hframes
  | cons frame outer => simp [hfloor]

/-- What a token makes of the open blocks: it takes one if it closes an arm, and leaves its own if
another arm begins there. -/
theorem lines_step (file : String) (hs : s.define = none) {t : Token} (ht : ¬t.OpensBody) :
    (s.step file t).1.frames.map (·.line)
      = (if t.startsArm then [t.line] else []) ++ (s.frames.map (·.line)).drop t.yields.toNat := by
  have htail := frames_closed_of_none hs t
  cases t.role with
  | evaluated hin =>
    rw [step_evaluated hin]
    simp [Token.startsArm, Token.yields, hin]
  | opener hin word hkind =>
    rw [step_opener hin hkind]
    simp [Token.startsArm, Token.yields, TokenKind.opens, TokenKind.closesArm, hin, hkind]
  | define hin name hkind => exact absurd ⟨hin, name, hkind⟩ ht
  | next hin hkind =>
    -- an `else` does both
    have hstarts : t.startsArm = true := by
      rcases hkind with hkind | hkind <;> simp [Token.startsArm, hin, hkind]
    rw [step_next hin hkind, hstarts, Token.yields_of_else hin hkind]
    simp [htail, List.map_tail]
  | finish hin hkind =>
    have hstarts : t.startsArm = false := by
      simp [Token.startsArm, TokenKind.opens, hin, hkind]
    -- no body is open that the `end` could leave
    rw [step_finish hin hkind, hstarts, Token.yields_of_end hin hkind]
    simp [hs, htail, List.map_tail]

/-- What a token notes: it is stray if it closes an arm where no block is open. -/
theorem withMessage_step (file : String) (hs : s.define = none) {t : Token} (ht : ¬t.OpensBody) :
    Finding.withMessage strayMessage (s.step file t).2
        = (if t.yields && s.frames.isEmpty then [⟨file, t.line, .strayClose⟩] else [])
      ∧ Finding.withMessage openMessage (s.step file t).2 = [] := by
  -- outside of bodies a token is astray exactly if no frame is open
  have hstray : s.strayNotes file t
      = if s.frames.isEmpty then [.note ⟨file, t.line, .strayClose⟩] else [] := by
    unfold strayNotes isStray
    simp [hs]
  have hclosing : ∀ a : Arm, t.yields = true →
      Finding.withMessage strayMessage (s.strayNotes file t ++ [.arm a])
          = (if t.yields && s.frames.isEmpty then [⟨file, t.line, .strayClose⟩] else [])
        ∧ Finding.withMessage openMessage (s.strayNotes file t ++ [.arm a]) = [] := by
    intro a hy
    rw [hstray, hy, Bool.true_and]
    split
    · exact ⟨rfl, rfl⟩
    · exact ⟨rfl, rfl⟩
  cases t.role with
  | evaluated hin =>
    have hy : t.yields = false := by simp [Token.yields, hin]
    rw [step_evaluated hin, hy]
    exact ⟨rfl, rfl⟩
  | opener hin word hkind =>
    have hy : t.yields = false := by simp [Token.yields, TokenKind.closesArm, hkind]
    rw [step_opener hin hkind, hy]
    exact ⟨rfl, rfl⟩
  | define hin name hkind => exact absurd ⟨hin, name, hkind⟩ ht
  | next hin hkind =>
    rw [step_next hin hkind]
    exact hclosing _ (Token.yields_of_else hin hkind)
  | finish hin hkind =>
    rw [step_finish hin hkind]
    exact hclosing _ (Token.yields_of_end hin hkind)

/-- The notes of stray tokens in a run. -/
def strays (file : String) (s : Nesting) (ts : List Token) : List Note :=
  Finding.withMessage strayMessage (s.run file ts).2

theorem length_step (file : String) (hs : s.define = none) {t : Token} (ht : ¬t.OpensBody) :
    (s.step file t).1.frames.length
      = t.startsArm.toNat + (s.frames.length - t.yields.toNat) := by
  have hlines := congrArg List.length (lines_step file hs ht)
  rw [List.length_map, List.length_append, List.length_drop, List.length_map] at hlines
  rw [hlines]
  cases t.startsArm <;> rfl

/-- Stray tokens are counted one by one. -/
theorem length_strays_cons (file : String) (hs : s.define = none) {t : Token} (ht : ¬t.OpensBody)
    (ts : List Token) :
    (s.strays file (t :: ts)).length
      = (t.yields && s.frames.isEmpty).toNat + ((s.step file t).1.strays file ts).length := by
  unfold strays
  rw [run_cons, Finding.withMessage_append, (withMessage_step file hs ht).1, List.length_append]
  cases t.yields && s.frames.isEmpty <;> rfl

/-- What is open behind a stream is open behind its first token and the others. -/
theorem fst_run_cons (file : String) (s : Nesting) (t : Token) (ts : List Token) :
    (s.run file (t :: ts)).1 = ((s.step file t).1.run file ts).1 :=
  rfl

/-- The blocks before a run, its openers and its stray tokens are as many as the `end`s and the blocks
behind it. Induction on the stream, for all blocks before it. -/
theorem count_run (file : String) (hs : s.define = none) {ts : List Token} (hfree : BodyFree ts) :
    s.frames.length + openings ts + (s.strays file ts).length
      = (s.run file ts).1.frames.length + endings ts := by
  induction ts generalizing s with
  | nil => rfl
  | cons t ts ih =>
    obtain ⟨ht, hfree⟩ := bodyFree_cons.mp hfree
    have hrest := ih (define_step_of_none file ht hs) hfree
    have hlength := length_step file hs ht
    have harm := t.startsArm_add_endsBlock
    rw [openings_cons, endings_cons, length_strays_cons file hs ht, fst_run_cons]
    -- a closing token takes a block or is stray
    have hstray : (t.yields && s.frames.isEmpty).toNat + s.frames.length
        = t.yields.toNat + (s.frames.length - t.yields.toNat) := by
      cases t.yields <;> cases s.frames <;> simp [Nat.add_comm]
    omega

/-- No token of a run is stray exactly if the blocks before the run guard it. -/
theorem strays_run (file : String) (hs : s.define = none) {ts : List Token} (hfree : BodyFree ts) :
    s.strays file ts = [] ↔ Guarded s.frames.length ts := by
  rw [← List.length_eq_zero_iff]
  induction ts generalizing s with
  | nil => exact ⟨fun _ => demand_le_iff.mp (Nat.zero_le _), fun _ => rfl⟩
  | cons t ts ih =>
    obtain ⟨ht, hfree⟩ := bodyFree_cons.mp hfree
    have hrest := ih (define_step_of_none file ht hs) hfree
    have harm := t.startsArm_add_endsBlock
    have hends := t.endsBlock_le_yields
    rw [length_strays_cons file hs ht, Nat.add_eq_zero_iff, hrest, length_step file hs ht, guarded_cons]
    have hstray : (t.yields && s.frames.isEmpty).toNat = 0 ↔ t.yields.toNat ≤ s.frames.length := by
      cases t.yields <;> cases s.frames <;> simp
    rw [hstray]
    refine and_congr_right fun hfirst => ?_
    -- induction on the tokens, with the number of open frames as the bound: an `else` closes an arm and starts
    -- one, so it counts for neither side here
    have hblocks : t.startsArm.toNat + (s.frames.length - t.yields.toNat)
        = s.frames.length + t.startsBlock.toNat - t.endsBlock.toNat := by
      omega
    rw [hblocks]

/-- A run is left with the arms that nothing closes, and with the blocks before it that are not demanded.
Induction on the stream: what the later tokens demand, they take from behind its first one. -/
theorem lines_run (file : String) (hs : s.define = none) {ts : List Token} (hfree : BodyFree ts) :
    (s.run file ts).1.frames.map (·.line)
      = ((openArms ts).map (·.line)).reverse ++ (s.frames.map (·.line)).drop (demand ts) := by
  induction ts generalizing s with
  | nil => rfl
  | cons t ts ih =>
    obtain ⟨ht, hfree⟩ := bodyFree_cons.mp hfree
    have harm := t.startsArm_add_endsBlock
    have hends := t.endsBlock_le_yields
    rw [fst_run_cons, ih (define_step_of_none file ht hs) hfree, lines_step file hs ht, openArms, demand]
    cases hstarts : t.startsArm with
    | false =>
      -- what the others demand is taken behind the block that the token takes
      rw [hstarts, Bool.toNat_false] at harm
      have hdemand : max t.yields.toNat (demand ts + t.endsBlock.toNat - t.startsBlock.toNat)
          = t.yields.toNat + demand ts := by
        omega
      rw [hdemand]
      simp
    | true =>
      rw [hstarts, Bool.toNat_true] at harm
      by_cases hguarded : Guarded 0 ts
      · -- the arm stays open
        have hnone : demand ts = 0 := Nat.le_zero.mp (demand_le_iff.mpr hguarded)
        have hdemand : max t.yields.toNat (demand ts + t.endsBlock.toNat - t.startsBlock.toNat)
            = t.yields.toNat := by
          omega
        rw [hdemand]
        simp [hguarded, hnone]
      · -- the arm is the first of what the others demand
        have hsome : demand ts ≠ 0 := fun h => hguarded (demand_le_iff.mp (Nat.le_zero.mpr h))
        obtain ⟨d, hd⟩ := Nat.exists_eq_succ_of_ne_zero hsome
        have hdemand : max t.yields.toNat (demand ts + t.endsBlock.toNat - t.startsBlock.toNat)
            = t.yields.toNat + d := by
          omega
        rw [hdemand]
        simp [hguarded, hd]

/-- A block without an end is not noted before the end of the file. -/
theorem withMessage_open_run (file : String) (hs : s.define = none) {ts : List Token}
    (hfree : BodyFree ts) : Finding.withMessage openMessage (s.run file ts).2 = [] := by
  induction ts generalizing s with
  | nil => rfl
  | cons t ts ih =>
    obtain ⟨ht, hfree⟩ := bodyFree_cons.mp hfree
    rw [run_cons, Finding.withMessage_append, (withMessage_step file hs ht).2,
      ih (define_step_of_none file ht hs) hfree, List.append_nil]

/-- Without a body, the end of a file has a note for each open block. -/
theorem withMessage_unclosed (file : String) (hs : s.define = none) :
    Finding.withMessage strayMessage (s.unclosed file) = []
      ∧ Finding.withMessage openMessage (s.unclosed file)
        = s.frames.reverse.map fun f => ⟨file, f.line, .openBlock⟩ := by
  unfold unclosed
  rw [hs]
  dsimp only [Option.map_none, Option.toList_none]
  rw [List.append_nil]
  induction s.frames.reverse with
  | nil => exact ⟨rfl, rfl⟩
  | cons f fs ih => exact ⟨ih.1, congrArg (Note.mk file f.line .openBlock :: ·) ih.2⟩

/-- Without bodies, the stray tokens of a text are those of its run. -/
theorem withMessage_stray_scanTokens (file : String) {ts : List Token} (hfree : BodyFree ts) :
    Finding.withMessage strayMessage (scanTokens file ts) = strays file {} ts := by
  have hlast : (run file {} ts).1.define = none := define_run_of_none file hfree rfl
  unfold scanTokens
  dsimp only
  rw [Finding.withMessage_append, (withMessage_unclosed file hlast).1, List.append_nil]
  rfl

/-- Without bodies, the blocks of a text that are never closed are those that its run leaves, from the
outermost one on. -/
theorem withMessage_open_scanTokens (file : String) {ts : List Token} (hfree : BodyFree ts) :
    Finding.withMessage openMessage (scanTokens file ts)
      = (run file {} ts).1.frames.reverse.map fun f => ⟨file, f.line, .openBlock⟩ := by
  have hlast : (run file {} ts).1.define = none := define_run_of_none file hfree rfl
  unfold scanTokens
  dsimp only
  rw [Finding.withMessage_append, withMessage_open_run file rfl hfree, List.nil_append,
    (withMessage_unclosed file hlast).2]

end Nesting

/-- **Notes report imbalance and nothing else.** In a text without named bodies, the openers and the
stray closing tokens are as many as the `end`s and the blocks that are never closed. Neither is noted
exactly if the text is balanced. The blocks that are never closed are the open frames of the scan, from
the outermost one on, and these are the arms that nothing closes. -/
theorem scan_balance (evaluators : List String) (file source : String)
    (hfree : BodyFree (tokensOf evaluators source.toList)) :
    let tokens := tokensOf evaluators source.toList
    let findings := scan evaluators file source
    let stray := Finding.withMessage "closing token without an open block" findings
    let unclosed := Finding.withMessage "block opened here is never closed" findings
    openings tokens + stray.length = endings tokens + unclosed.length
      ∧ (stray = [] ∧ unclosed = [] ↔ Balanced tokens)
      ∧ unclosed = (Nesting.run file {} tokens).1.frames.reverse.map
        (fun f => ⟨file, f.line, .openBlock⟩)
      ∧ unclosed = (openArms tokens).map (fun t => ⟨file, t.line, .openBlock⟩) := by
  intro tokens findings stray unclosed
  have hstart : Nesting.define {} = none := rfl
  have hstray : stray = Nesting.strays file {} tokens :=
    Nesting.withMessage_stray_scanTokens file hfree
  have hunclosed : unclosed = (Nesting.run file {} tokens).1.frames.reverse.map
      fun f => ⟨file, f.line, .openBlock⟩ :=
    Nesting.withMessage_open_scanTokens file hfree
  -- the equation of a run, which begins with no open frame
  have hcount : 0 + openings tokens + (Nesting.strays file {} tokens).length
      = (Nesting.run file {} tokens).1.frames.length + endings tokens :=
    Nesting.count_run file hstart hfree
  have hlength : unclosed.length = (Nesting.run file {} tokens).1.frames.length := by
    rw [hunclosed, List.length_map, List.length_reverse]
  have htotal : openings tokens + stray.length = endings tokens + unclosed.length := by
    rw [hstray, hlength]
    omega
  refine ⟨htotal, ?_, hunclosed, ?_⟩
  · -- the equation gives each of the two lists from the other, if no closing token comes too early
    have hguarded : stray = [] ↔ Guarded 0 tokens := by
      rw [hstray]
      exact Nesting.strays_run file hstart hfree
    constructor
    · rintro ⟨hnone, hclosed⟩
      rw [hnone, hclosed] at htotal
      exact ⟨hguarded.mp hnone, htotal⟩
    · rintro ⟨hguard, hequal⟩
      have hnone := hguarded.mpr hguard
      rw [hnone, hequal, List.length_nil] at htotal
      exact ⟨hnone, List.length_eq_zero_iff.mp (Nat.add_left_cancel htotal).symm⟩
  · -- the frames are those of the arms that are open, innermost first
    have hlines : (Nesting.run file {} tokens).1.frames.map (·.line)
        = ((openArms tokens).map (·.line)).reverse ++ [].drop (demand tokens) :=
      Nesting.lines_run file hstart hfree
    rw [List.drop_nil, List.append_nil] at hlines
    have hreverse : (Nesting.run file {} tokens).1.frames.reverse.map (·.line)
        = (openArms tokens).map (·.line) := by
      rw [List.map_reverse, hlines, List.reverse_reverse]
    have hnotes := congrArg (List.map fun n => Note.mk file n .openBlock) hreverse
    rw [List.map_map, List.map_map] at hnotes
    exact hunclosed.trans hnotes

/-- A text with an `else` that no block belongs to, a `with` without an end, and an `end` in a string. -/
def unbalancedSource : String :=
  "\x7b\x7b else \x7d\x7d\n\x7b\x7b if .a \x7d\x7d\n\x7b\x7b end \x7d\x7d\n"
    ++ "\x7b\x7b with .b \x7d\x7d\x7b\x7b tpl \"\x7b\x7b end \x7d\x7d\" . \x7d\x7d\n"

/-- The `else` is noted and leaves an open block, like the `with`. The `end` in the string ends neither. -/
theorem scan_balance_unbalancedSource :
    let tokens := tokensOf ["tpl"] unbalancedSource.toList
    let findings := scan ["tpl"] "templates/cm.yaml" unbalancedSource
    BodyFree tokens
      ∧ ¬Balanced tokens
      ∧ openings tokens + 1 = endings tokens + 2
      ∧ Finding.withMessage "closing token without an open block" findings
        = [⟨"templates/cm.yaml", 1, .strayClose⟩]
      ∧ Finding.withMessage "block opened here is never closed" findings
        = [⟨"templates/cm.yaml", 1, .openBlock⟩, ⟨"templates/cm.yaml", 4, .openBlock⟩] := by
  intro tokens findings
  -- one closing token too many on the first line, and two blocks that are never closed
  have hfree : BodyFree tokens := by decide
  obtain ⟨hcount, hbalanced, -, hopen⟩ := scan_balance ["tpl"] "templates/cm.yaml" unbalancedSource hfree
  have hstray : Finding.withMessage "closing token without an open block" findings
      = [⟨"templates/cm.yaml", 1, .strayClose⟩] := by
    decide
  have harms : (openArms tokens).map (·.line) = [1, 4] := by decide
  have hunclosed : Finding.withMessage "block opened here is never closed" findings
      = [⟨"templates/cm.yaml", 1, .openBlock⟩, ⟨"templates/cm.yaml", 4, .openBlock⟩] := by
    have hnotes := congrArg (List.map fun n => Note.mk "templates/cm.yaml" n .openBlock) harms
    rw [List.map_map] at hnotes
    exact hopen.trans hnotes
  refine ⟨hfree, fun h => ?_, ?_, hstray, hunclosed⟩
  · have hnone := (hbalanced.mpr h).1
    rw [hstray] at hnone
    cases hnone
  · rw [hstray, hunclosed] at hcount
    exact hcount

end TemplateCoverage
